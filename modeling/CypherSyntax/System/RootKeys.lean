import CypherSyntax.System.Nonces

/-!
# Root keys

Which sessions of a run hold one root key. No party has to be honest: a root key is derived from
the transcript, and the transcript has the ephemeral key that each side has drawn.

Results:
* `Origin.inj`: a root key determines the offer, the response's keys and the supplemental secret.
* `rootKeys_paired`: two sessions with one root key mirror each other, and no third one has it.
-/

namespace CypherSyntax

open Python Json

section RootKeys

variable [Interpreter] [Crypto]

/-! ## Transcripts -/

/-- Whether the holder of a session made the offer. -/
def Handle.offered : Handle → Bool
  | .initiator _ => true
  | .responder _ => false

namespace System

/-- The transcripts that the records of a state have hashed. -/
def transcripts (s : System) : List Bytes :=
  s.initiators.filterMap (fun a => a.completion.map fun c =>
      c.response.transcript a.handshake.offer) ++
    s.responders.map fun r => r.produced.response.transcript r.produced.offer

variable {s : Frame System Call}

/-! ## Where a session comes from -/

/-- What the root key of a session was derived from. -/
structure Origin (s : Frame System Call) (session : SessionState) (offer : HandshakeOffer)
    (response : HandshakeResponse) (supplementalSecret : Bytes) : Prop where
  transcript : response.transcript offer ∈ s.self.transcripts
  root : ∃ shared, shared.length = 32 ∧
    session.rootKey = rootOf offer response shared supplementalSecret ∧
    .derived (rootInput offer response shared supplementalSecret) ∈ s.log

theorem origin_initiator (hinv : Invariant s) {i : Nat} {session : SessionState}
    (h : s.self.session? (.initiator i) = some session) : ∃ (a : InitiatorRecord) (c : Completion),
      s.self.initiators[i]? = some a ∧ a.completion = some c ∧ c.session = session ∧
      a.Completed c s.log ∧
      Origin s session a.handshake.offer c.response a.handshake.supplementalSecret := by
  obtain ⟨a, ha, hmap⟩ := Option.bind_eq_some_iff.mp h
  obtain ⟨c, hc, rfl⟩ := Option.map_eq_some_iff.mp hmap
  have hcompleted := (hinv.initiators i a ha).completed c hc
  refine ⟨a, c, ha, hc, rfl, hcompleted, List.mem_append_left _ ?_, hcompleted.root⟩
  exact List.mem_filterMap.mpr ⟨a, List.mem_of_getElem? ha, by rw [hc]; rfl⟩

theorem origin_responder (hinv : Invariant s) {j : Nat} {session : SessionState}
    (h : s.self.session? (.responder j) = some session) : ∃ r : ResponderRecord,
      s.self.responders[j]? = some r ∧ r.Established session s.log ∧
      Origin s session r.produced.offer r.produced.response r.supplementalSecret := by
  obtain ⟨r, hr, hsession⟩ := Option.bind_eq_some_iff.mp h
  have hgood := hinv.responders j r hr
  rcases hgood.state with ⟨-, hnone⟩ | ⟨-, current, hcurrent, hestablished⟩
  · rw [hsession] at hnone
    cases hnone
  obtain rfl := Option.some.inj (hsession.symm.trans hcurrent)
  obtain ⟨shared, hlen, hroot, hderived⟩ := hgood.root
  refine ⟨r, hr, hestablished, List.mem_append_right _ ?_, shared, hlen, ?_, hderived⟩
  · exact List.mem_map.mpr ⟨r, List.mem_of_getElem? hr, rfl⟩
  · exact Option.some.inj (hestablished.rootKey.symm.trans hroot)

/-- **A root key determines what it was derived from.** -/
theorem Origin.inj (hfree : HkdfCollisionFree s.log)
    (hhash : HashCollisionFree s.self.transcripts) {session session' : SessionState}
    {offer offer' : HandshakeOffer} {response response' : HandshakeResponse}
    {supplemental supplemental' : Bytes} (h : Origin s session offer response supplemental)
    (h' : Origin s session' offer' response' supplemental')
    (hkey : session.rootKey = session'.rootKey) :
    offer = offer' ∧
      response.responderEphemeralPublicKey = response'.responderEphemeralPublicKey ∧
      response.responderSigningPublicKey = response'.responderSigningPublicKey ∧
      supplemental = supplemental' := by
  obtain ⟨shared, hlen, hroot, hderived⟩ := h.root
  obtain ⟨shared', hlen', hroot', hderived'⟩ := h'.root
  obtain ⟨-, hsupplemental, hhashes⟩ := sessionRoot_inj hfree hderived hderived'
    (hlen.trans hlen'.symm) (hroot.symm.trans (hkey.trans hroot'))
  have htranscript := hhash _ h.transcript _ h'.transcript hhashes
  obtain ⟨hoffer, hephemeral, hsigning⟩ := transcriptOf_inj response.ephemeral_small
    response'.ephemeral_small response.signing_small response'.signing_small htranscript
  exact ⟨hoffer, hephemeral, hsigning, hsupplemental⟩

/-! ## Sessions with one root key -/

variable (hinv : Invariant s) (hfree : HkdfCollisionFree s.log) (hfresh : FreshKeys s.log)
  (hhash : HashCollisionFree s.self.transcripts)

include hinv hfree hhash

/-- An initiator and a responder with one root key have sessions with one another. -/
theorem rootKey_mirrors {i j : Nat} {session session' : SessionState}
    (h : s.self.session? (.initiator i) = some session)
    (h' : s.self.session? (.responder j) = some session')
    (hkey : session.rootKey = session'.rootKey) : session.Mirrors session' := by
  obtain ⟨a, c, -, -, rfl, hcompleted, horigin⟩ := origin_initiator hinv h
  obtain ⟨r, hr, hestablished, horigin'⟩ := origin_responder hinv h'
  obtain ⟨hoffer, hephemeral, -⟩ := horigin.inj hfree hhash horigin' hkey
  obtain ⟨suite, hsuite, hcontinues⟩ := hcompleted.session
  have hvalue : suite.value = r.produced.suite.value := by
    rw [← hsuite, ← (hinv.responders j r hr).suite, ← hoffer]
    exact congrArg OfferFields.suite hcompleted.fields
  obtain rfl := AeadSuite.value_inj hvalue
  rw [hkey] at hcontinues
  exact hcontinues.mirrors hestablished.session
    (ResponderHandshake.session_mirrors hoffer.symm hephemeral.symm _)

include hfresh

/-- No two initiators have one root key. -/
theorem rootKey_initiator {i j : Nat} {session session' : SessionState}
    (h : s.self.session? (.initiator i) = some session)
    (h' : s.self.session? (.initiator j) = some session')
    (hkey : session.rootKey = session'.rootKey) : i = j := by
  obtain ⟨a, _, ha, -, -, -, horigin⟩ := origin_initiator hinv h
  obtain ⟨b, _, hb, -, -, -, horigin'⟩ := origin_initiator hinv h'
  obtain ⟨hoffer, -⟩ := horigin.inj hfree hhash horigin' hkey
  exact initiator_unique hinv hfresh ha hb
    (congrArg (fun offer => offer.initiatorEphemeralPublicKey) hoffer)

/-- No two responders have one root key. -/
theorem rootKey_responder {i j : Nat} {session session' : SessionState}
    (h : s.self.session? (.responder i) = some session)
    (h' : s.self.session? (.responder j) = some session')
    (hkey : session.rootKey = session'.rootKey) : i = j := by
  obtain ⟨r, hr, -, horigin⟩ := origin_responder hinv h
  obtain ⟨r', hr', -, horigin'⟩ := origin_responder hinv h'
  obtain ⟨-, hephemeral, -⟩ := horigin.inj hfree hhash horigin' hkey
  exact responder_unique hinv hfresh hr hr' hephemeral

/-- Sessions with one root key are the same, or those of the two ends of a handshake. -/
theorem rootKey_cases {handle handle' : Handle} {session session' : SessionState}
    (h : s.self.session? handle = some session) (h' : s.self.session? handle' = some session')
    (hkey : session.rootKey = session'.rootKey) :
    handle = handle' ∨ handle.offered ≠ handle'.offered ∧ session.Mirrors session' := by
  cases handle with
  | initiator i =>
    cases handle' with
    | initiator j =>
      exact Or.inl (congrArg _ (rootKey_initiator hinv hfree hfresh hhash h h' hkey))
    | responder j =>
      exact Or.inr ⟨Bool.noConfusion, rootKey_mirrors hinv hfree hhash h h' hkey⟩
  | responder i =>
    cases handle' with
    | initiator j =>
      exact Or.inr ⟨Bool.false_ne_true, (rootKey_mirrors hinv hfree hhash h' h hkey.symm).symm⟩
    | responder j =>
      exact Or.inl (congrArg _ (rootKey_responder hinv hfree hfresh hhash h h' hkey))

omit hinv hfree hfresh hhash in
/-- **Two sessions with one root key are the two ends of one handshake, and no third session has
it.** -/
theorem rootKeys_paired (es : List Event) (hfree : HkdfCollisionFree (reached es).log)
    (hfresh : FreshKeys (reached es).log)
    (hhash : HashCollisionFree (reached es).self.transcripts) {handle handle' : Handle}
    {session session' : SessionState} (h : (reached es).self.session? handle = some session)
    (h' : (reached es).self.session? handle' = some session')
    (hkey : session.rootKey = session'.rootKey) (hne : handle ≠ handle') :
    handle.offered ≠ handle'.offered ∧ session.Mirrors session' ∧ ∀ other current,
      (reached es).self.session? other = some current → current.rootKey = session.rootKey →
        other = handle ∨ other = handle' := by
  have hinv := invariant_reached es
  obtain ⟨hroles, hmirrors⟩ := (rootKey_cases hinv hfree hfresh hhash h h' hkey).resolve_left hne
  refine ⟨hroles, hmirrors, fun other current hother hcurrent => ?_⟩
  rcases rootKey_cases hinv hfree hfresh hhash hother h hcurrent with heq | ⟨hrole, -⟩
  · exact Or.inl heq
  rcases rootKey_cases hinv hfree hfresh hhash hother h' (hcurrent.trans hkey) with heq | ⟨hrole', -⟩
  · exact Or.inr heq
  -- there are two roles only
  have hsame := (Bool.eq_not.mpr hrole).symm.trans (Bool.eq_not.mpr hrole')
  exact absurd (Bool.not_inj hsame) hroles

end System

end RootKeys

/-! ## A run -/

section Samples

open CypherSyntax.System
open scoped Samples

/-- Alice and Bob complete their handshake. -/
def paired : List Event := [offering, responding, completing, accepting]

theorem run_paired : (fun s : Frame System Call => HkdfCollisionFree s.log ∧ FreshKeys s.log ∧
    HashCollisionFree s.self.transcripts ∧
    (s.self.session? (.initiator 0)).isSome = true ∧
    (s.self.session? (.responder 0)).map SessionState.rootKey =
      (s.self.session? (.initiator 0)).map SessionState.rootKey) (reached paired) := by
  decide +kernel

theorem rootKeys_paired_sample : ∃ session session',
    (reached paired).self.session? (.initiator 0) = some session ∧
    (reached paired).self.session? (.responder 0) = some session' ∧ session.Mirrors session' := by
  have hrun := run_paired
  generalize paired = es at hrun ⊢
  obtain ⟨hfree, hfresh, hhash, hsome, hkeys⟩ := hrun
  obtain ⟨session, hsession⟩ := Option.isSome_iff_exists.mp hsome
  rw [hsession, Option.map_some] at hkeys
  obtain ⟨session', hsession', hkey⟩ := Option.map_eq_some_iff.mp hkeys
  obtain ⟨-, hmirrors, -⟩ := rootKeys_paired es hfree hfresh hhash hsession hsession' hkey.symm
    (by simp)
  exact ⟨session, session', hsession, hsession', hmirrors⟩

end Samples

end CypherSyntax
