import CypherSyntax.Session.Honest
import CypherSyntax.System.Agreement

/-!
# Nonces

Which keys and nonces `SessionState.encrypt` (session.py) has called the AEAD with, over a run of
the whole library: any number of handshakes, of completions and of calls on every session, in any
order and with any messages from outside.

The counter moves only after the AEAD has returned, so a call that raised is the one that could be
repeated: the next plaintext gets the same key and nonce. `noReuse_reached` says that no other call
is, and assumes nothing of the AEAD. `nonces_reached` assumes that the AEAD seals every plaintext
that `encrypt` takes, and then no call is. Both assume that HKDF is free of collisions on the inputs
of the run and that the ephemeral keys that were generated are distinct.

Results:
* `sealing_reached`: every call of the AEAD belongs to a session and a sequence below its counter.
* `noReuse_reached`: no call has had the key and nonce of an earlier call that sealed.
* `nonces_reached`: no two calls have had the same key and nonce.
-/

namespace CypherSyntax

open Python Json

/-! ## Calls that seal -/

/-- The calls of `encrypt` of an AEAD, oldest first. -/
def encryptions (log : List Call) : List AeadCall :=
  log.filterMap fun
    | .encrypted call => some call
    | _ => none

theorem encryptions_append (log calls : List Call) :
    encryptions (log ++ calls) = encryptions log ++ encryptions calls :=
  List.filterMap_append

/-- A later call may have the key and nonce of an earlier one only if the earlier one raised, and
then it authenticates the same data. -/
def NoReuse (earlier later : AeadCall) : Prop :=
  (earlier.key, earlier.nonce) = (later.key, later.nonce) →
    earlier.result = none ∧ earlier.aead = later.aead ∧
      earlier.associatedData = later.associatedData

section Runs

variable [Interpreter] [Crypto]

namespace System

variable {s t : Frame System Call} {e : Event} {result : Except PyError Answer}

/-- The call of a session for a sequence that its counter has passed, or has not if it raised. -/
structure Seals (s : Frame System Call) (handle : Handle) (n : Int) (call : AeadCall) : Prop where
  session : ∃ session, s.self.session? handle = some session ∧ session.sendDirection.Short ∧
    call.aead = session.suite.buildAead ∧
    (call.key, call.nonce) = messageKey session.sendDirection n.toNat ∧
    (session.sendMetadata n).associatedData = .ok call.associatedData ∧
    (∀ c ∈ messageCalls session.sendDirection n.toNat, c ∈ s.log) ∧
    (n < session.sendSequence ∨ n = session.sendSequence ∧ call.result = none)
  bounds : 0 ≤ n ∧ n ≤ maxMessageSequence
  size : call.data.length ≤ maxPlaintextBytes
  result : call.result = (Crypto.encrypt call.aead call.key call.nonce call.data
    call.associatedData).toOption

/-! ## Sessions over time -/

theorem session?_setSession {s : System} {handle other : Handle} {old session : SessionState}
    (hold : s.session? handle = some old) :
    (s.setSession handle session).session? other =
      if handle = other then some session else s.session? other := by
  cases handle with
  | initiator i =>
    cases other with
    | initiator j =>
      simp only [setSession, session?, List.getElem?_modify, Handle.initiator.injEq]
      by_cases hij : i = j
      · subst hij
        obtain ⟨a, ha, hmap⟩ := Option.bind_eq_some_iff.mp hold
        obtain ⟨c, hc, rfl⟩ := Option.map_eq_some_iff.mp hmap
        rw [if_pos rfl, ha]
        simp [hc]
      · rw [if_neg hij]
        simp [hij]
    | responder j => rfl
  | responder i =>
    cases other with
    | initiator j => rfl
    | responder j =>
      simp only [setSession, session?, List.getElem?_modify, Handle.responder.injEq]
      by_cases hij : i = j
      · subst hij
        obtain ⟨r, hr, hc⟩ := Option.bind_eq_some_iff.mp hold
        rw [if_pos rfl, hr]
        simp [hc]
      · rw [if_neg hij]
        simp [hij]

/-- A session goes on, and its counter never goes back. -/
theorem Does.session (h : Does s e result t) (hinv : Invariant s) {handle : Handle}
    {old : SessionState} (hold : s.self.session? handle = some old) :
    ∃ session, t.self.session? handle = some session ∧ old.Continues session ∧
      old.sendSequence ≤ session.sendSequence := by
  have hset : ∀ {other : Handle} {current next : SessionState},
      s.self.session? other = some current → current.Continues next →
      current.sendSequence ≤ next.sendSequence →
      ∃ session, (s.self.setSession other next).session? handle = some session ∧
        old.Continues session ∧ old.sendSequence ≤ session.sendSequence := by
    intro other current next hcurrent hcontinues hle
    rw [session?_setSession hcurrent]
    by_cases hother : other = handle
    · subst hother
      obtain rfl := Option.some.inj (hold.symm.trans hcurrent)
      exact ⟨next, if_pos rfl, hcontinues, hle⟩
    · exact ⟨old, (if_neg hother).trans hold, .refl _, le_refl _⟩
  cases h with
  | rejected _ hself _ => exact ⟨old, hself ▸ hold, .refl _, le_refl _⟩
  | offered =>
    refine ⟨old, ?_, .refl _, le_refl _⟩
    cases handle with
    | initiator i =>
      obtain ⟨a, ha, -⟩ := Option.bind_eq_some_iff.mp hold
      obtain ⟨hi, -⟩ := List.getElem?_eq_some_iff.mp ha
      exact (congrArg (Option.bind · _) (List.getElem?_append_left hi)).trans hold
    | responder j => exact hold
  | responded =>
    refine ⟨old, ?_, .refl _, le_refl _⟩
    cases handle with
    | initiator i => exact hold
    | responder j =>
      obtain ⟨r, hr, -⟩ := Option.bind_eq_some_iff.mp hold
      obtain ⟨hj, -⟩ := List.getElem?_eq_some_iff.mp hr
      exact (congrArg (Option.bind · _) (List.getElem?_append_left hj)).trans hold
  | @completed i a _ _ _ _ _ _ ha hkey =>
    refine ⟨old, ?_, .refl _, le_refl _⟩
    cases handle with
    | initiator j =>
      by_cases hij : i = j
      · subst hij
        -- the record has not completed, so it has no session yet
        obtain ⟨b, hb, hmap⟩ := Option.bind_eq_some_iff.mp hold
        obtain rfl := Option.some.inj (ha.symm.trans hb)
        obtain ⟨c, hc, -⟩ := Option.map_eq_some_iff.mp hmap
        rcases (hinv.initiators i a ha).pending with hnone | hnone
        · rw [hkey] at hnone
          cases hnone
        · rw [hc] at hnone
          cases hnone
      · exact (congrArg (Option.bind · _) (List.getElem?_set_ne hij)).trans hold
    | responder j => exact hold
  | @accepted i r _ _ hr hkey =>
    refine ⟨old, ?_, .refl _, le_refl _⟩
    cases handle with
    | initiator j => exact hold
    | responder j =>
      by_cases hij : i = j
      · subst hij
        obtain ⟨b, hb, hsession⟩ := Option.bind_eq_some_iff.mp hold
        obtain rfl := Option.some.inj (hr.symm.trans hb)
        rcases (hinv.responders i r hr).state with ⟨-, hnone⟩ | ⟨hdone, -⟩
        · rw [hsession] at hnone
          cases hnone
        · rw [hdone] at hkey
          cases hkey
      · exact (congrArg (Option.bind · _) (List.getElem?_set_ne hij)).trans hold
  | sent hsession => exact hset hsession (.advance _) (by show _ ≤ _ + 1; omega)
  | unsealed => exact ⟨old, hold, .refl _, le_refl _⟩
  | opened hsession => exact hset hsession (.accept _ _) (le_refl _)

/-! ## Every call belongs to a session -/

theorem Seals.mono {handle : Handle} {n : Int} {call : AeadCall} (h : Seals s handle n call)
    (hdoes : Does s e result t) (hinv : Invariant s) : Seals t handle n call := by
  obtain ⟨⟨old, hold, hshort, haead, hkey, hdata, hcalls, hbelow⟩, hbounds, hsize, hresult⟩ := h
  obtain ⟨session, hsession, hcontinues, hle⟩ := hdoes.session hinv hold
  refine ⟨⟨session, hsession, ?_⟩, hbounds, hsize, hresult⟩
  rw [hcontinues.sendDirection, hcontinues.suite, hcontinues.sendMetadata]
  refine ⟨hshort, haead, hkey, hdata, fun c hc => hdoes.log_mem c (hcalls c hc), ?_⟩
  rcases hbelow with hlt | ⟨rfl, hnone⟩
  · exact Or.inl (by omega)
  · by_cases hlt : old.sendSequence < session.sendSequence
    · exact Or.inl hlt
    · exact Or.inr ⟨by omega, hnone⟩

/-- The new call of a step, if it makes one. -/
theorem Does.encryptions (h : Does s e result t) :
    CypherSyntax.encryptions t.log = CypherSyntax.encryptions s.log ∨
    ∃ handle session plaintext call, s.self.session? handle = some session ∧
      session.Sends plaintext call ∧
      CypherSyntax.encryptions t.log = CypherSyntax.encryptions s.log ++ [call] ∧
      (∀ c ∈ messageCalls session.sendDirection session.sendSequence.toNat, c ∈ t.log) ∧
      Seals t handle session.sendSequence call := by
  have hquiet : ∀ calls, CypherSyntax.encryptions calls = [] →
      CypherSyntax.encryptions (s.log ++ calls) = CypherSyntax.encryptions s.log :=
    fun calls hnone => by rw [encryptions_append, hnone, List.append_nil]
  have hsend : ∀ (session : SessionState) (call : AeadCall),
      CypherSyntax.encryptions (s.log ++ session.sendCalls call) =
        CypherSyntax.encryptions s.log ++ [call] ∧
      ∀ c ∈ messageCalls session.sendDirection session.sendSequence.toNat,
        c ∈ s.log ++ session.sendCalls call := by
    intro session call
    refine ⟨?_, fun c hc => List.mem_append_right _ (List.mem_append_left _ hc)⟩
    rw [encryptions_append]
    rfl
  cases h with
  | rejected _ _ hlog =>
    obtain ⟨calls, hcalls, hidle⟩ := hlog
    refine Or.inl (hcalls ▸ hquiet calls ?_)
    refine List.filterMap_eq_nil_iff.mpr fun c hc => ?_
    rcases hidle c hc with hsilent | ⟨_, rfl⟩
    · cases c with
      | encrypted => cases hsilent
      | _ => rfl
    · rfl
  | offered => exact Or.inl (hquiet _ rfl)
  | responded => exact Or.inl (hquiet _ rfl)
  | completed => exact Or.inl (hquiet _ rfl)
  | accepted => exact Or.inl (hquiet _ rfl)
  | @sent handle session plaintext _ ciphertext call hsession hsends hresult =>
    obtain ⟨hlog, hcalls⟩ := hsend session call
    refine Or.inr ⟨handle, session, plaintext, call, hsession, hsends, hlog, hcalls,
      ⟨⟨session.advance, ?_, hsends.short, hsends.aead, hsends.key, hsends.associatedData, hcalls,
        Or.inl (by show _ < _ + 1; omega)⟩, hsends.sequence, hsends.data ▸ hsends.size,
        hsends.result⟩⟩
    rw [session?_setSession hsession, if_pos rfl]
  | @unsealed handle session plaintext call _ hsession hsends hnone =>
    obtain ⟨hlog, hcalls⟩ := hsend session call
    exact Or.inr ⟨handle, session, plaintext, call, hsession, hsends, hlog, hcalls,
      ⟨⟨session, hsession, hsends.short, hsends.aead, hsends.key, hsends.associatedData, hcalls,
        Or.inr ⟨rfl, hnone⟩⟩, hsends.sequence, hsends.data ▸ hsends.size, hsends.result⟩⟩
  | opened => exact Or.inl (hquiet _ rfl)

/-- Every call of the AEAD belongs to a session. -/
def Sealing (s : Frame System Call) : Prop :=
  ∀ call ∈ CypherSyntax.encryptions s.log, ∃ handle n, Seals s handle n call

theorem Does.sealing (h : Does s e result t) (hinv : Invariant s) (hs : Sealing s) :
    Sealing t := by
  intro call hcall
  have hold : call ∈ CypherSyntax.encryptions s.log → ∃ handle n, Seals t handle n call := by
    intro hmem
    obtain ⟨handle, n, hseals⟩ := hs call hmem
    exact ⟨handle, n, hseals.mono h hinv⟩
  rcases h.encryptions with heq | ⟨handle, session, _, new, -, -, heq, -, hseals⟩
  · exact hold (heq ▸ hcall)
  · rw [heq, List.mem_append, List.mem_singleton] at hcall
    rcases hcall with hmem | rfl
    · exact hold hmem
    · exact ⟨handle, _, hseals⟩

theorem sealing_reached (es : List Event) : Sealing (reached es) := by
  have hstart : Invariant start ∧ Sealing start := ⟨invariant_start, fun _ h => by cases h⟩
  have hstep : ∀ s e, Invariant s ∧ Sealing s → Invariant (step s e).2 ∧ Sealing (step s e).2 :=
    fun s e ⟨hinv, hs⟩ => ⟨(step_does s e).invariant hinv, (step_does s e).sealing hinv hs⟩
  exact (Machine.run_invariant hstep hstart es).2

/-! ## No reuse -/

/-- An ephemeral key belongs to one session. -/
theorem handle_unique (hinv : Invariant s) (hfresh : FreshKeys s.log) {handle handle' : Handle}
    {session session' : SessionState} (h : s.self.session? handle = some session)
    (h' : s.self.session? handle' = some session')
    (hkey : session.localEphemeralPublicBytes = session'.localEphemeralPublicBytes) :
    handle = handle' := by
  have hinitiator : ∀ {i : Nat} {current : SessionState},
      s.self.session? (.initiator i) = some current →
      ∃ a : InitiatorRecord, s.self.initiators[i]? = some a ∧
        current.localEphemeralPublicBytes = a.handshake.offer.initiatorEphemeralPublicKey := by
    intro i current hcurrent
    obtain ⟨a, ha, hmap⟩ := Option.bind_eq_some_iff.mp hcurrent
    obtain ⟨c, hc, rfl⟩ := Option.map_eq_some_iff.mp hmap
    obtain ⟨_, -, _, _, heq⟩ := ((hinv.initiators i a ha).completed c hc).session
    exact ⟨a, ha, by rw [heq]; rfl⟩
  have hresponder : ∀ {j : Nat} {current : SessionState},
      s.self.session? (.responder j) = some current →
      ∃ r : ResponderRecord, s.self.responders[j]? = some r ∧
        current.localEphemeralPublicBytes = r.produced.response.responderEphemeralPublicKey := by
    intro j current hcurrent
    obtain ⟨r, hr, hsession⟩ := Option.bind_eq_some_iff.mp hcurrent
    exact ⟨r, hr, localEphemeral_eq (hinv.responders j r hr) hsession⟩
  have hdisjoint : ∀ {i j : Nat} {a : InitiatorRecord} {r : ResponderRecord},
      s.self.initiators[i]? = some a → s.self.responders[j]? = some r →
      a.handshake.offer.initiatorEphemeralPublicKey ≠
        r.produced.response.responderEphemeralPublicKey := by
    intro i j a r ha hr
    exact (List.nodup_append.mp (ephemeralKeys_nodup hinv hfresh)).2.2 _
      (List.mem_map.mpr ⟨a, List.mem_of_getElem? ha, rfl⟩) _
      (List.mem_map.mpr ⟨r, List.mem_of_getElem? hr, rfl⟩)
  cases handle with
  | initiator i =>
    obtain ⟨a, ha, hlocal⟩ := hinitiator h
    cases handle' with
    | initiator j =>
      obtain ⟨b, hb, hlocal'⟩ := hinitiator h'
      rw [initiator_unique hinv hfresh ha hb (hlocal.symm.trans (hkey.trans hlocal'))]
    | responder j =>
      obtain ⟨r, hr, hlocal'⟩ := hresponder h'
      exact absurd (hlocal.symm.trans (hkey.trans hlocal')) (hdisjoint ha hr)
  | responder i =>
    obtain ⟨r, hr, hlocal⟩ := hresponder h
    cases handle' with
    | initiator j =>
      obtain ⟨a, ha, hlocal'⟩ := hinitiator h'
      exact absurd (hlocal.symm.trans (hkey.trans hlocal')).symm (hdisjoint ha hr)
    | responder j =>
      obtain ⟨b, hb, hlocal'⟩ := hresponder h'
      rw [responder_unique hinv hfresh hr hb (hlocal.symm.trans (hkey.trans hlocal'))]

/-- A session's next call repeats an earlier one only if that one raised. -/
theorem Seals.noReuse {log : List Call} (hinv : Invariant s) (hfresh : FreshKeys s.log)
    (hfree : HkdfCollisionFree log) (hlog : ∀ c ∈ s.log, c ∈ log) {handle handle' : Handle}
    {n : Int} {session : SessionState} {plaintext : Bytes} {call new : AeadCall}
    (h : Seals s handle n call) (hsession : s.self.session? handle' = some session)
    (hsends : session.Sends plaintext new)
    (hcalls : ∀ c ∈ messageCalls session.sendDirection session.sendSequence.toNat, c ∈ log) :
    NoReuse call new := by
  intro hsame
  obtain ⟨⟨old, hold, hshort, haead, hkey, hdata, hcalls', hbelow⟩, ⟨hlo, hhi⟩, -⟩ := h
  obtain ⟨hlo', hhi'⟩ := hsends.sequence
  unfold maxMessageSequence at hhi hhi'
  obtain ⟨hdirection, hsequence⟩ := messageKey_inj hfree hshort hsends.short
    (show n.toNat < 2 ^ 64 by omega) (show session.sendSequence.toNat < 2 ^ 64 by omega)
    (fun c hc => hlog c (hcalls' c hc)) hcalls (hkey.symm.trans (hsame.trans hsends.key))
  obtain rfl := handle_unique hinv hfresh hold hsession (congrArg Direction.sender hdirection)
  obtain rfl := Option.some.inj (hold.symm.trans hsession)
  obtain rfl : n = old.sendSequence := by omega
  rcases hbelow with hlt | ⟨-, hnone⟩
  · omega
  · exact ⟨hnone, haead.trans hsends.aead.symm,
      Except.ok.inj (hdata.symm.trans hsends.associatedData)⟩

theorem Does.log_append (h : Does s e result t) : ∃ calls, t.log = s.log ++ calls := by
  cases h with
  | rejected _ _ hlog =>
    obtain ⟨calls, hcalls, -⟩ := hlog
    exact ⟨calls, hcalls⟩
  | _ => exact ⟨_, rfl⟩

/-- No key and nonce is reused after a call that sealed. -/
theorem noReuse_reached (es : List Event) (hfree : HkdfCollisionFree (reached es).log)
    (hfresh : FreshKeys (reached es).log) :
    (CypherSyntax.encryptions (reached es).log).Pairwise NoReuse := by
  induction es using List.reverseRecOn with
  | nil => exact List.Pairwise.nil
  | append_singleton es e ih =>
    have hreached : reached (es ++ [e]) = (step (reached es) e).2 := Machine.run_concat _ _ _
    rw [hreached] at hfree hfresh ⊢
    have hdoes := step_does (reached es) e
    obtain ⟨calls, hcalls⟩ := hdoes.log_append
    have hfresh' : FreshKeys (reached es).log := by
      unfold FreshKeys at hfresh
      rw [hcalls, generatedKeys_append] at hfresh
      exact (List.nodup_append.mp hfresh).1
    have hfree' : HkdfCollisionFree (reached es).log := fun i j hi hj =>
      hfree i j (hdoes.log_mem _ hi) (hdoes.log_mem _ hj)
    have ih := ih hfree' hfresh'
    rcases hdoes.encryptions with heq | ⟨handle, session, _, new, hsession, hsends, heq, hnew, -⟩
    · rw [heq]
      exact ih
    rw [heq, List.pairwise_append]
    refine ⟨ih, List.pairwise_singleton _ _, fun call hcall later hlater => ?_⟩
    obtain rfl := List.mem_singleton.mp hlater
    obtain ⟨handle', n, hseals⟩ := sealing_reached es call hcall
    exact hseals.noReuse (invariant_reached es) hfresh' hfree hdoes.log_mem hsession hsends hnew

/-- An AEAD that seals every message does not raise. -/
theorem Seals.sealed (hseals : SealsMessages) {handle : Handle} {n : Int} {call : AeadCall}
    (h : Seals s handle n call) : call.result ≠ none := by
  obtain ⟨⟨session, -, -, -, hkey, -⟩, -, hsize, hresult⟩ := h
  obtain ⟨hkeyLength, hnonceLength⟩ := messageKey_length session.sendDirection n.toNat
  rw [← hkey] at hkeyLength hnonceLength
  obtain ⟨ciphertext, hciphertext⟩ :=
    hseals call.aead _ _ call.data call.associatedData hkeyLength hnonceLength hsize
  rw [hresult, hciphertext]
  exact Option.some_ne_none _

/-- **No two calls of the AEAD have had the same key and nonce.** -/
theorem nonces_reached (hseals : SealsMessages) (es : List Event)
    (hfree : HkdfCollisionFree (reached es).log) (hfresh : FreshKeys (reached es).log) :
    (CypherSyntax.encryptions (reached es).log).Pairwise fun earlier later =>
      (earlier.key, earlier.nonce) ≠ (later.key, later.nonce) := by
  refine (noReuse_reached es hfree hfresh).imp_of_mem fun {earlier _} hmem _ hnoReuse hsame => ?_
  obtain ⟨handle, n, hearlier⟩ := sealing_reached es earlier hmem
  exact hearlier.sealed hseals (hnoReuse hsame).1

end System

end Runs

/-! ## A run with an empty plaintext -/

section Samples

open CypherSyntax.System
open scoped Samples

/-- A handshake, completed once more by Alice, in which she sends an empty plaintext and another
one after a call that raises, and Bob sends his own. -/
def sending : List Event :=
  [offering, responding, completing, completing, accepting, .encrypt (.initiator 0) (.bytes []),
    .encrypt (.initiator 0) (.str []), .encrypt (.initiator 0) (.bytes [1]),
    .encrypt (.responder 0) (.bytes [2])]

theorem collisionFree_sending : HkdfCollisionFree (reached sending).log ∧
    FreshKeys (reached sending).log := by
  decide +kernel

theorem encryptions_sending : (encryptions (reached sending).log).length = 3 := by
  decide +kernel

/-- The three calls of the AEAD differ in key or nonce. -/
theorem nonces_reached_sending : (encryptions (reached sending).log).length = 3 ∧
    (encryptions (reached sending).log).Pairwise fun earlier later =>
      (earlier.key, earlier.nonce) ≠ (later.key, later.nonce) :=
  ⟨encryptions_sending, nonces_reached (fun _ _ _ _ _ _ _ _ => ⟨_, sealed_ok.mpr rfl⟩) sending
    collisionFree_sending.1 collisionFree_sending.2⟩

end Samples

end CypherSyntax
