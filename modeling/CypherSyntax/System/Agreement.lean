import CypherSyntax.Instances
import CypherSyntax.System.Invariant

/-!
# Agreement

What a completed handshake says about the other side, when the trust anchor belongs to a party
whose signatures nobody forges.

Results:
* `responder_agreement`: the session of a responder is matched by a session of the initiator, which
  no other session of a responder matches.
* `initiator_agreement`: the session of an initiator is matched by exactly one earlier response,
  which no other session of an initiator matches, and which alone accepts the confirmation.
-/

namespace CypherSyntax

open Python Json

section Agreement

variable [Interpreter] [Crypto]

/-! ## Matching records -/

/-- The sessions of the records agree on everything. -/
def InitiatorRecord.Matches (a : InitiatorRecord) (r : ResponderRecord) : Prop :=
  ∃ c session, a.completion = some c ∧ r.session = some session ∧ c.session.Mirrors session ∧
    a.handshake.offer.suite = session.suite.value ∧
    a.handshake.supplementalSecret = r.supplementalSecret

/-- The response was made for the offer, and is the one that was accepted. -/
structure ResponderRecord.Serves (r : ResponderRecord) (a : InitiatorRecord) (c : Completion) :
    Prop where
  identity : r.localIdentity.ed25519PublicBytes = a.handshake.remoteSigningPublicKey
  name : r.localIdentity.name = a.handshake.offer.responder
  anchor : r.produced.remoteSigningPublicKey = a.handshake.localIdentity.ed25519PublicBytes
  offer : r.produced.offer = a.handshake.offer
  ephemeral : r.produced.response.responderEphemeralPublicKey =
    c.response.responderEphemeralPublicKey
  signing : r.produced.response.responderSigningPublicKey = c.response.responderSigningPublicKey
  confirmation : r.produced.response.responderKeyConfirmation = c.response.responderKeyConfirmation
  rootKey : r.produced.rootKey = some c.session.rootKey
  suite : r.produced.suite = c.session.suite
  supplementalSecret : r.supplementalSecret = a.handshake.supplementalSecret

/-! ## Fresh keys -/

omit [Interpreter] [Crypto] in
/-- An element of a list without repetitions has one index. -/
theorem index_unique {α β : Type} {f : α → β} {l : List α} (hnodup : (l.map f).Nodup) {i j : Nat}
    {a b : α} (ha : l[i]? = some a) (hb : l[j]? = some b) (h : f a = f b) : i = j := by
  obtain ⟨hi, -⟩ := List.getElem?_eq_some_iff.mp ha
  have hlen : i < (l.map f).length := by rw [List.length_map]; exact hi
  refine (List.getElem?_inj hlen hnodup).mp ?_
  rw [List.getElem?_map, List.getElem?_map, ha, hb, Option.map_some, Option.map_some, h]

namespace System

variable {s : Frame System Call}

theorem ephemeralKeys_nodup (hinv : Invariant s) (hfresh : FreshKeys s.log) :
    s.self.ephemeralKeys.Nodup :=
  List.nodup_iff_count_le_one.mpr fun k =>
    (hinv.keys k).trans (List.nodup_iff_count_le_one.mp hfresh k)

theorem initiator_unique (hinv : Invariant s) (hfresh : FreshKeys s.log) {i j : Nat}
    {a b : InitiatorRecord} (ha : s.self.initiators[i]? = some a)
    (hb : s.self.initiators[j]? = some b)
    (h : a.handshake.offer.initiatorEphemeralPublicKey =
      b.handshake.offer.initiatorEphemeralPublicKey) : i = j :=
  index_unique (List.nodup_append.mp (ephemeralKeys_nodup hinv hfresh)).1 ha hb h

theorem responder_unique (hinv : Invariant s) (hfresh : FreshKeys s.log) {i j : Nat}
    {a b : ResponderRecord} (ha : s.self.responders[i]? = some a)
    (hb : s.self.responders[j]? = some b)
    (h : a.produced.response.responderEphemeralPublicKey =
      b.produced.response.responderEphemeralPublicKey) : i = j :=
  index_unique (List.nodup_append.mp (ephemeralKeys_nodup hinv hfresh)).2.1 ha hb h

/-! ## What the keys determine -/

/-- Key confirmations are equal for one root key only. -/
theorem keyConfirmation_inj {log : List Call} (hfree : HmacCollisionFree log) {role : String}
    {offer offer' : HandshakeOffer} {response response' : HandshakeResponse} {key key' : Bytes}
    (h : confirmationCall role offer response key ∈ log)
    (h' : confirmationCall role offer' response' key' ∈ log)
    (heq : keyConfirmation role offer response key = keyConfirmation role offer' response' key') :
    key = key' :=
  (hfree _ _ _ _ h h' heq).1

/-- Equal root keys have equal supplemental secrets. -/
theorem supplemental_eq (hfree : HkdfCollisionFree s.log) {a : InitiatorRecord} {c : Completion}
    {r : ResponderRecord} (hc : a.Completed c s.log) (hr : r.Good s.log)
    (hkey : r.produced.rootKey = some c.session.rootKey) :
    r.supplementalSecret = a.handshake.supplementalSecret := by
  obtain ⟨shared, hlen, hroot, hderived⟩ := hc.root
  obtain ⟨shared', hlen', hroot', hderived'⟩ := hr.root
  have heq := Option.some.inj (hroot'.symm.trans (hkey.trans (congrArg some hroot)))
  exact (sessionRoot_inj hfree hderived' hderived (hlen'.trans hlen.symm) heq).2.1

theorem keyConfirmation_small (role : String) (offer : HandshakeOffer)
    (response : HandshakeResponse) (rootKey : Bytes) :
    Small (keyConfirmation role offer response rootKey) :=
  small_of_length (keyConfirmation_length role offer response rootKey) (by decide)

/-! ## The other side of a session -/

/-- **A confirmation that verified was made by the initiator of the offer.** -/
theorem matched (hinv : Invariant s) (hhmac : HmacCollisionFree s.log)
    (hhkdf : HkdfCollisionFree s.log) {j : Nat} {r : ResponderRecord} {session : SessionState}
    (hr : s.self.responders[j]? = some r) (hsession : r.session = some session)
    (hunforged : Unforged r.produced.remoteSigningPublicKey s.log) :
    ∃ (i : Nat) (a : InitiatorRecord), s.self.initiators[i]? = some a ∧
      a.handshake.localIdentity.ed25519PublicBytes = r.produced.remoteSigningPublicKey ∧
      a.Matches r := by
  have hgood := hinv.responders j r hr
  rcases hgood.state with ⟨-, hnone⟩ | ⟨-, session', hsession', hestablished⟩
  · rw [hsession] at hnone
    cases hnone
  obtain rfl := Option.some.inj (hsession.symm.trans hsession')
  obtain ⟨signature, hverified⟩ := hestablished.verified
  cases hinv.signed _ _ (hunforged _ _ hverified) with
  | offer _ _ hdata => exact absurd hdata.symm (offerPayload_ne_confirmation _ _ _ _)
  | response _ _ hdata => exact absurd hdata.symm (responsePayload_ne_confirmation _ _ _ _ _)
  | @confirmation i a c ha hc hkey hdata =>
    have hcompleted := (hinv.initiators i a ha).completed c hc
    obtain ⟨htranscript, -, hproof⟩ := confirmationPayload_inj
      (r.produced.response.transcript_short _) (c.response.transcript_short _)
      r.produced.response.confirmation_small.short c.response.confirmation_small.short
      (keyConfirmation_small _ _ _ _).short (keyConfirmation_small _ _ _ _).short hdata
    obtain ⟨hoffer, hephemeral, -⟩ := transcriptOf_inj r.produced.response.ephemeral_small
      c.response.ephemeral_small r.produced.response.signing_small c.response.signing_small
      htranscript
    have hroot := keyConfirmation_inj hhmac hestablished.initiatorCall hcompleted.initiatorCall
      hproof
    obtain ⟨suite, hsuite, hcontinues⟩ := hcompleted.session
    have hcontinues' := hestablished.session
    have hvalue : suite.value = r.produced.suite.value := by
      rw [← hsuite, ← hgood.suite, hoffer]
      exact congrArg OfferFields.suite hcompleted.fields
    have hsupplemental := supplemental_eq hhkdf hcompleted hgood
      (hestablished.rootKey.trans (congrArg some hroot))
    refine ⟨i, a, ha, hkey, c, session, hc, hsession, ?_, ?_, hsupplemental.symm⟩
    · obtain rfl := AeadSuite.value_inj hvalue
      rw [← hroot] at hcontinues
      exact hcontinues.mirrors hcontinues' (ResponderHandshake.session_mirrors hoffer hephemeral _)
    · rw [hcontinues'.suite, ← hoffer]
      exact hgood.suite

/-- **A response that verified was made by the responder for this offer.** -/
theorem served (hinv : Invariant s) (hhmac : HmacCollisionFree s.log)
    (hhkdf : HkdfCollisionFree s.log) {i : Nat} {a : InitiatorRecord} {c : Completion}
    (ha : s.self.initiators[i]? = some a) (hc : a.completion = some c)
    (hunforged : Unforged a.handshake.remoteSigningPublicKey s.log) :
    ∃ (j : Nat) (r : ResponderRecord), s.self.responders[j]? = some r ∧ r.Serves a c := by
  have hgood := hinv.initiators i a ha
  have hcompleted := hgood.completed c hc
  cases hinv.signed _ _ (hunforged _ _ hcompleted.verified) with
  | offer _ _ hdata => exact absurd hdata.symm (offerPayload_ne_response _ _ _)
  | confirmation _ _ _ hdata => exact absurd hdata (responsePayload_ne_confirmation _ _ _ _ _)
  | @response j r hr hkey hdata =>
    have hproduced := hinv.responders j r hr
    obtain ⟨htranscript, hproof⟩ := responsePayload_inj (c.response.transcript_short _)
      (r.produced.response.transcript_short _) c.response.confirmation_small.short
      r.produced.response.confirmation_small.short hdata
    obtain ⟨hoffer, hephemeral, hsigning⟩ := transcriptOf_inj c.response.ephemeral_small
      r.produced.response.ephemeral_small c.response.signing_small
      r.produced.response.signing_small htranscript
    obtain ⟨shared, -, hroot, -⟩ := hproduced.root
    obtain ⟨hproof', hcall⟩ := hproduced.confirmation _ hroot
    have hkeys := keyConfirmation_inj hhmac hcompleted.responderCall hcall
      (hcompleted.responderConfirmation.symm.trans (hproof.trans hproof'))
    have hrootKey := hroot.trans (congrArg some hkeys.symm)
    obtain ⟨suite, hsuite, hcontinues⟩ := hcompleted.session
    refine ⟨j, r, hr, hkey, ?_, ?_, hoffer.symm, hephemeral.symm, hsigning.symm, hproof.symm,
      hrootKey, ?_, supplemental_eq hhkdf hcompleted hproduced hrootKey⟩
    · rw [hproduced.name, hoffer]
    · rw [← hproduced.anchor, ← hoffer]
      exact hgood.signing
    · rw [hcontinues.suite]
      refine AeadSuite.value_inj ?_
      rw [← hproduced.suite, ← hoffer]
      exact (congrArg OfferFields.suite hcompleted.fields).symm.trans hsuite

/-- The ephemeral key of a session is that of the response. -/
theorem localEphemeral_eq {log : List Call} {r : ResponderRecord} (hgood : r.Good log)
    {session : SessionState} (hsession : r.session = some session) :
    session.localEphemeralPublicBytes = r.produced.response.responderEphemeralPublicKey := by
  rcases hgood.state with ⟨-, hnone⟩ | ⟨-, current, hcurrent, hestablished⟩
  · rw [hsession] at hnone
    cases hnone
  · obtain rfl := Option.some.inj (hsession.symm.trans hcurrent)
    obtain ⟨_, _, heq⟩ := hestablished.session
    rw [heq]
    rfl

/-- No two sessions of responders match one session of an initiator. -/
theorem matches_unique (hinv : Invariant s) (hfresh : FreshKeys s.log) {j j' : Nat}
    {a : InitiatorRecord} {r r' : ResponderRecord} (hr : s.self.responders[j]? = some r)
    (hr' : s.self.responders[j']? = some r') (h : a.Matches r) (h' : a.Matches r') : j = j' := by
  obtain ⟨c, session, hc, hsession, hmirrors, -⟩ := h
  obtain ⟨c', session', hc', hsession', hmirrors', -⟩ := h'
  obtain rfl := Option.some.inj (hc.symm.trans hc')
  refine responder_unique hinv hfresh hr hr' ?_
  rw [← localEphemeral_eq (hinv.responders j r hr) hsession,
    ← localEphemeral_eq (hinv.responders j' r' hr') hsession']
  exact hmirrors.remoteEphemeral.symm.trans hmirrors'.remoteEphemeral

/-! ## The confirmation -/

/-- A confirmation is accepted by the pending handshake that it was made for. -/
theorem accepts_confirmation (hverify : ∀ key data,
      Crypto.verify (Crypto.signingPublic key) (Crypto.sign key data) data = true)
    {log : List Call} {a : InitiatorRecord} {c : Completion} {r : ResponderRecord}
    (hcompleted : a.Completed c log) (hr : r.Good log) (hserves : r.Serves a c) :
    r.produced.Accepts c.session.rootKey c.confirmation := by
  have htranscript : r.produced.response.transcript r.produced.offer =
      c.response.transcript a.handshake.offer := by
    unfold HandshakeResponse.transcript
    rw [hserves.offer, hserves.ephemeral, hserves.signing]
  have hhash : keyConfirmation "initiator" r.produced.offer r.produced.response
      c.session.rootKey = keyConfirmation "initiator" a.handshake.offer c.response
      c.session.rootKey := by
    unfold keyConfirmation transcriptHash
    rw [htranscript]
  have hfields : c.response.toOfferFields = r.produced.response.toOfferFields :=
    hcompleted.fields.trans ((congrArg _ hserves.offer.symm).trans hr.fields.symm)
  rw [hcompleted.confirmation]
  refine ⟨HandshakeConfirmation.validateForResponse_ok.mpr ?_, hr.fields, ?_, hhash.symm⟩
  · have hfield := fun {α : Type} (f : OfferFields → α) => congrArg f hfields
    exact ⟨hfield OfferFields.version, hfield OfferFields.suite, hfield OfferFields.initiator,
      hfield OfferFields.responder, hfield OfferFields.initiatorEphemeralPublicKey,
      hserves.ephemeral.symm⟩
  · rw [hserves.anchor, htranscript, hserves.confirmation]
    exact hverify _ _

/-- **Only the handshake that it was made for accepts a confirmation.** -/
theorem confirmation_accepted_iff (hverify : ∀ key data,
      Crypto.verify (Crypto.signingPublic key) (Crypto.sign key data) data = true)
    (hinv : Invariant s) (hfresh : FreshKeys s.log) {i j j' : Nat} {a : InitiatorRecord}
    {c : Completion} {r r' : ResponderRecord} (ha : s.self.initiators[i]? = some a)
    (hc : a.completion = some c) (hr : s.self.responders[j]? = some r) (hserves : r.Serves a c)
    (hr' : s.self.responders[j']? = some r') (log : List Call) :
    (∃ session u, (ResponderHandshake.complete c.confirmation).run ⟨r'.handshake, log⟩ =
      (.ok session, u)) ↔ j' = j ∧ r'.handshake.completed = false := by
  have hcompleted := (hinv.initiators i a ha).completed c hc
  have hruns := ResponderHandshake.complete_runs c.confirmation ⟨r'.handshake, log⟩
  have hproduced : r'.handshake.response = r'.produced.response := by
    rcases (hinv.responders j' r' hr').state with ⟨h, -⟩ | ⟨h, -⟩ <;> rw [h]
  constructor
  · rintro ⟨session, u, hrun⟩
    obtain ⟨rootKey, hkey, haccepts, -, -⟩ := hruns.of_ok hrun
    have hephemeral := (HandshakeConfirmation.validateForResponse_ok.mp haccepts.fields).2.2.2.2.2
    rw [hcompleted.confirmation] at hephemeral
    refine ⟨responder_unique hinv hfresh hr' hr ?_, ?_⟩
    · rw [← hproduced, hserves.ephemeral]
      exact hephemeral.symm
    · unfold ResponderHandshake.completed
      rw [hkey]
      rfl
  · rintro ⟨rfl, hpending⟩
    obtain rfl := Option.some.inj (hr.symm.trans hr')
    have hgood := hinv.responders j' r hr
    rcases hgood.state with ⟨hstate, -⟩ | ⟨hdone, -⟩
    · have haccepts := accepts_confirmation hverify hcompleted hgood hserves
      rcases hrun : (ResponderHandshake.complete c.confirmation).run ⟨r.handshake, log⟩ with
        ⟨exc | session, u⟩
      · obtain ⟨-, -, hreject⟩ := hruns.of_error hrun
        rw [hstate] at hreject
        exact absurd haccepts (hreject _ hserves.rootKey)
      · exact ⟨session, u, rfl⟩
    · rw [hdone] at hpending
      cases hpending

/-! ## Agreement -/

/-- **The session of a responder is matched.** -/
theorem responder_agreement (es : List Event) {j : Nat} {confirmation : HandshakeConfirmation}
    {session : SessionState} {t : Frame System Call}
    (hstep : step (reached es) (.completeResponder j confirmation) =
      (.ok (.accepted session), t))
    {r : ResponderRecord} (hr : t.self.responders[j]? = some r)
    (hunforged : Unforged r.handshake.remoteSigningPublicKey t.log)
    (hhkdf : HkdfCollisionFree t.log) (hhmac : HmacCollisionFree t.log)
    (hfresh : FreshKeys t.log) :
    r.session = some session ∧ ∃ (i : Nat) (a : InitiatorRecord),
      (reached es).self.initiators[i]? = some a ∧
      a.handshake.localIdentity.ed25519PublicBytes = r.handshake.remoteSigningPublicKey ∧
      a.Matches r ∧
      ∀ (j' : Nat) (r' : ResponderRecord), t.self.responders[j']? = some r' → a.Matches r' →
        j' = j := by
  have hdoes := step_does (reached es) (.completeResponder j confirmation)
  rw [hstep] at hdoes
  have hinv := hdoes.invariant (invariant_reached es)
  cases hdoes with
  | rejected habsent => cases habsent _ rfl
  | @accepted _ old _ rootKey hold hkey haccepts =>
    obtain ⟨hj, -⟩ := List.getElem?_eq_some_iff.mp hold
    obtain rfl := Option.some.inj ((List.getElem?_set_self hj).symm.trans hr)
    have hproduced : old.produced.remoteSigningPublicKey = old.handshake.remoteSigningPublicKey := by
      rcases ((invariant_reached es).responders j old hold).state with ⟨h, -⟩ | ⟨h, -⟩ <;> rw [h]
    obtain ⟨i, a, ha, hanchor, hmatches⟩ := matched hinv hhmac hhkdf hr rfl
      (hproduced.symm ▸ hunforged)
    refine ⟨rfl, i, a, ha, hanchor.trans hproduced, hmatches, fun j' r' hr' hmatches' => ?_⟩
    exact matches_unique hinv hfresh hr' hr hmatches' hmatches

/-- **The session of an initiator is matched.** -/
theorem initiator_agreement (es : List Event) {i : Nat} {response : HandshakeResponse}
    {confirmation : HandshakeConfirmation} {session : SessionState} {t : Frame System Call}
    (hstep : step (reached es) (.completeInitiator i response) =
      (.ok (.completed confirmation session), t))
    {a : InitiatorRecord} (ha : t.self.initiators[i]? = some a)
    (hunforged : Unforged a.handshake.remoteSigningPublicKey t.log)
    (hhkdf : HkdfCollisionFree t.log) (hhmac : HmacCollisionFree t.log)
    (hfresh : FreshKeys t.log)
    (hverify : ∀ key data,
      Crypto.verify (Crypto.signingPublic key) (Crypto.sign key data) data = true) :
    a.completion = some ⟨response, confirmation, session⟩ ∧
    ∃ (j : Nat) (r : ResponderRecord), (reached es).self.responders[j]? = some r ∧
      r.Serves a ⟨response, confirmation, session⟩ ∧
      (∀ (j' : Nat) (r' : ResponderRecord), t.self.responders[j']? = some r' →
        r'.produced.response.responderEphemeralPublicKey = response.responderEphemeralPublicKey →
        j' = j) ∧
      (∀ (i' : Nat) (a' : InitiatorRecord) (c' : Completion),
        t.self.initiators[i']? = some a' → a'.completion = some c' → r.Serves a' c' → i' = i) ∧
      ∀ (j' : Nat) (r' : ResponderRecord), t.self.responders[j']? = some r' →
        ((∃ accepted u, (ResponderHandshake.complete confirmation).run ⟨r'.handshake, t.log⟩ =
          (.ok accepted, u)) ↔ j' = j ∧ r'.handshake.completed = false) := by
  have hdoes := step_does (reached es) (.completeInitiator i response)
  rw [hstep] at hdoes
  have hinv := hdoes.invariant (invariant_reached es)
  cases hdoes with
  | rejected habsent => cases habsent _ rfl
  | @completed _ old _ _ _ _ _ c hold _ _ _ _ hc =>
    obtain ⟨hi, -⟩ := List.getElem?_eq_some_iff.mp hold
    obtain rfl := Option.some.inj ((List.getElem?_set_self hi).symm.trans ha)
    subst hc
    obtain ⟨j, r, hr, hserves⟩ := served hinv hhmac hhkdf ha rfl hunforged
    refine ⟨rfl, j, r, hr, hserves, fun j' r' hr' hephemeral => ?_, fun i' a' c' ha' hc' h => ?_,
      fun j' r' hr' => confirmation_accepted_iff hverify hinv hfresh ha rfl hr hserves hr' _⟩
    · exact responder_unique hinv hfresh hr' hr (hephemeral.trans hserves.ephemeral.symm)
    · exact initiator_unique hinv hfresh ha' ha (congrArg
        (fun offer => offer.initiatorEphemeralPublicKey) (h.offer.symm.trans hserves.offer))

end System

end Agreement

/-! ## A run -/

section Samples

open CypherSyntax.System
open scoped Samples

def keyOf (b : UInt8) : FixedBytes 32 := ⟨List.replicate 32 b, List.length_replicate⟩

theorem valid_alice : validateIdentityName (.str (lit "alice")) = .ok (lit "alice") := by
  decide +kernel

theorem valid_bob : validateIdentityName (.str (lit "bob")) = .ok (lit "bob") := by
  decide +kernel

def alice : Identity := ⟨lit "alice", keyOf 1, keyOf 2, (validateIdentityName_ok.mp valid_alice).2⟩

def bob : Identity := ⟨lit "bob", keyOf 3, keyOf 4, (validateIdentityName_ok.mp valid_bob).2⟩

/-- The offer that a call has made. -/
def offered? : Except PyError Answer → Option HandshakeOffer
  | .ok (.offered pending) => some pending.offer
  | _ => none

def responded? : Except PyError Answer → Option HandshakeResponse
  | .ok (.responded response _) => some response
  | _ => none

def completed? : Except PyError Answer → Option (HandshakeConfirmation × SessionState)
  | .ok (.completed confirmation session) => some (confirmation, session)
  | _ => none

def accepted? : Except PyError Answer → Option SessionState
  | .ok (.accepted session) => some session
  | _ => none

def offering : Event :=
  .initiator alice (lit "bob") bob.ed25519PublicBytes .aesGcmSiv [7] (keyOf 5)

def sampleOffer : HandshakeOffer := (offered? (step start offering).1).get (by decide +kernel)

def responding : Event := .responder bob alice.ed25519PublicBytes sampleOffer [7] (keyOf 6)

def sampleResponse : HandshakeResponse :=
  (responded? (step (reached [offering]) responding).1).get (by decide +kernel)

def completing : Event := .completeInitiator 0 sampleResponse

def sampleConfirmation : HandshakeConfirmation :=
  ((completed? (step (reached [offering, responding]) completing).1).get (by decide +kernel)).1

def accepting : Event := .completeResponder 0 sampleConfirmation

theorem completed?_eq {outcome : Except PyError Answer × Frame System Call}
    (h : (completed? outcome.1).isSome = true) :
    ∃ confirmation session, outcome = (.ok (.completed confirmation session), outcome.2) := by
  obtain ⟨result, t⟩ := outcome
  unfold completed? at h
  split at h
  · rename_i hresult
    exact ⟨_, _, congrArg (·, t) hresult⟩
  · cases h

theorem accepted?_eq {outcome : Except PyError Answer × Frame System Call}
    (h : (accepted? outcome.1).isSome = true) :
    ∃ session, outcome = (.ok (.accepted session), outcome.2) := by
  obtain ⟨result, t⟩ := outcome
  unfold accepted? at h
  split at h
  · rename_i hresult
    exact ⟨_, congrArg (·, t) hresult⟩
  · cases h

/-- Bob's session is matched by Alice's. -/
theorem responder_agreement_sample : ∃ (session : SessionState) (t : Frame System Call)
    (r : ResponderRecord) (i : Nat) (a : InitiatorRecord),
    step (reached [offering, responding, completing]) accepting = (.ok (.accepted session), t) ∧
    t.self.responders[0]? = some r ∧ r.session = some session ∧
    (reached [offering, responding, completing]).self.initiators[i]? = some a ∧
    a.Matches r := by
  have hrun : (fun outcome : Except PyError Answer × Frame System Call =>
      (accepted? outcome.1).isSome = true ∧
      outcome.2.self.responders[0]?.map (fun r => r.handshake.remoteSigningPublicKey) =
        some alice.ed25519PublicBytes ∧
      Unforged alice.ed25519PublicBytes outcome.2.log ∧ HkdfCollisionFree outcome.2.log ∧
      HmacCollisionFree outcome.2.log ∧ FreshKeys outcome.2.log)
      (step (reached [offering, responding, completing]) accepting) := by
    decide +kernel
  obtain ⟨haccepted, hanchor, hunforged, hhkdf, hhmac, hfresh⟩ := hrun
  obtain ⟨session, hstep⟩ := accepted?_eq haccepted
  obtain ⟨r, hr, hkey⟩ := Option.map_eq_some_iff.mp hanchor
  obtain ⟨hrecorded, i, a, ha, -, hmatches, -⟩ := responder_agreement
    [offering, responding, completing] hstep hr (hkey ▸ hunforged) hhkdf hhmac hfresh
  exact ⟨session, _, r, i, a, hstep, hr, hrecorded, ha, hmatches⟩

/-- Alice's session is matched by Bob's response. -/
theorem initiator_agreement_sample : ∃ (confirmation : HandshakeConfirmation)
    (session : SessionState) (t : Frame System Call) (a : InitiatorRecord) (j : Nat)
    (r : ResponderRecord),
    step (reached [offering, responding]) completing =
      (.ok (.completed confirmation session), t) ∧
    t.self.initiators[0]? = some a ∧
    (reached [offering, responding]).self.responders[j]? = some r ∧
    r.Serves a ⟨sampleResponse, confirmation, session⟩ := by
  have hrun : (fun outcome : Except PyError Answer × Frame System Call =>
      (completed? outcome.1).isSome = true ∧
      outcome.2.self.initiators[0]?.map (fun a => a.handshake.remoteSigningPublicKey) =
        some bob.ed25519PublicBytes ∧
      Unforged bob.ed25519PublicBytes outcome.2.log ∧ HkdfCollisionFree outcome.2.log ∧
      HmacCollisionFree outcome.2.log ∧ FreshKeys outcome.2.log)
      (step (reached [offering, responding]) completing) := by
    decide +kernel
  obtain ⟨hcompleted, hanchor, hunforged, hhkdf, hhmac, hfresh⟩ := hrun
  obtain ⟨confirmation, session, hstep⟩ := completed?_eq hcompleted
  obtain ⟨a, ha, hkey⟩ := Option.map_eq_some_iff.mp hanchor
  obtain ⟨-, j, r, hr, hserves, -⟩ := initiator_agreement [offering, responding] hstep ha
    (hkey ▸ hunforged) hhkdf hhmac hfresh (fun _ _ => beq_self_eq_true _)
  exact ⟨confirmation, session, _, a, j, r, hstep, ha, hr, hserves⟩

end Samples

end CypherSyntax
