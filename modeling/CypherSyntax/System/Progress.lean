import CypherSyntax.Session.Honest
import CypherSyntax.System.Agreement

/-!
# Progress

Nothing that happens to a state keeps two honest parties from completing a handshake. An offer, a
response and a confirmation may arrive at any time; each is accepted as long as the handshake that
it is for is pending.

Results:
* `prepared_reached`: pending handshakes have the private keys of their messages.
* `offer_answered`, `response_completes`, `confirmation_completes`: each message is accepted.
* `handshake_unblocked`: the three of them, with any events in between.
-/

namespace CypherSyntax

open Python Json

section Progress

variable [Interpreter] [Crypto]

/-! ## Records over a run -/

theorem InitiatorRecord.Evolves.trans {a b c : InitiatorRecord} (h : a.Evolves b)
    (h' : b.Evolves c) : a.Evolves c := by
  refine ⟨h'.localIdentity.trans h.localIdentity, h'.anchor.trans h.anchor, h'.offer.trans h.offer,
    h'.supplementalSecret.trans h.supplementalSecret, fun completion hcompletion => ?_⟩
  obtain ⟨session, hsession, hcontinues⟩ := h.completion _ hcompletion
  obtain ⟨session', hsession', hcontinues'⟩ := h'.completion _ hsession
  exact ⟨session', hsession', hcontinues.trans hcontinues'⟩

theorem ResponderRecord.Evolves.trans {a b c : ResponderRecord} (h : a.Evolves b)
    (h' : b.Evolves c) : a.Evolves c := by
  refine ⟨h'.localIdentity.trans h.localIdentity, h'.supplementalSecret.trans h.supplementalSecret,
    h'.produced.trans h.produced, fun old hold => ?_⟩
  obtain ⟨session, hsession, hcontinues⟩ := h.session _ hold
  obtain ⟨session', hsession', hcontinues'⟩ := h'.session _ hsession
  exact ⟨session', hsession', hcontinues.trans hcontinues'⟩

namespace System

theorem reached_concat (es : List Event) (e : Event) :
    reached (es ++ [e]) = (step (reached es) e).2 :=
  Machine.run_concat _ _ _

theorem initiator_later {es es' : List Event} (h : es <+: es') {i : Nat} {a : InitiatorRecord}
    (ha : (reached es).self.initiators[i]? = some a) :
    ∃ b, (reached es').self.initiators[i]? = some b ∧ a.Evolves b := by
  obtain ⟨later, rfl⟩ := h
  induction later using List.reverseRecOn with
  | nil =>
    rw [List.append_nil]
    exact ⟨a, ha, .refl a⟩
  | append_singleton later e ih =>
    obtain ⟨b, hb, hevolves⟩ := ih
    rw [← List.append_assoc, reached_concat]
    obtain ⟨c, hc, hevolves'⟩ := (step_does _ e).initiator hb
      ((invariant_reached _).initiators i b hb)
    exact ⟨c, hc, hevolves.trans hevolves'⟩

theorem responder_later {es es' : List Event} (h : es <+: es') {j : Nat} {r : ResponderRecord}
    (hr : (reached es).self.responders[j]? = some r) :
    ∃ b, (reached es').self.responders[j]? = some b ∧ r.Evolves b := by
  obtain ⟨later, rfl⟩ := h
  induction later using List.reverseRecOn with
  | nil =>
    rw [List.append_nil]
    exact ⟨r, hr, .refl r⟩
  | append_singleton later e ih =>
    obtain ⟨b, hb, hevolves⟩ := ih
    rw [← List.append_assoc, reached_concat]
    obtain ⟨c, hc, hevolves'⟩ := (step_does _ e).responder hb
      ((invariant_reached _).responders j b hb)
    exact ⟨c, hc, hevolves.trans hevolves'⟩

end System

/-! ## Keys of pending handshakes -/

/-- The offer is the identity's own, and a pending handshake has its private key. -/
def InitiatorRecord.Prepared (a : InitiatorRecord) : Prop :=
  ∃ key fields, a.handshake.offer = SessionFactory.offerOf a.handshake.localIdentity fields ∧
    fields.initiatorEphemeralPublicKey = Crypto.exchangePublic key ∧
    (a.handshake.ephemeralPrivateKey = some key ∨ a.handshake.ephemeralPrivateKey = none)

/-- The response is the identity's own, for the secret that it has computed. -/
def ResponderRecord.Prepared (r : ResponderRecord) : Prop :=
  ∃ key shared, Crypto.exchange key r.produced.offer.initiatorEphemeralPublicKey = .ok shared ∧
    SessionFactory.Responds r.localIdentity r.produced.offer key
      (rootOf r.produced.offer r.produced.response shared r.supplementalSecret)
      r.produced.response ∧
    r.produced.rootKey =
      some (rootOf r.produced.offer r.produced.response shared r.supplementalSecret)

namespace System

structure Prepared (s : System) : Prop where
  initiators : ∀ (i : Nat) (a : InitiatorRecord), s.initiators[i]? = some a → a.Prepared
  responders : ∀ (j : Nat) (r : ResponderRecord), s.responders[j]? = some r → r.Prepared

namespace Does

variable {s t : Frame System Call} {e : Event} {result : Except PyError Answer}

theorem initiators_prepared (h : Does s e result t)
    (hs : ∀ (i : Nat) (a : InitiatorRecord), s.self.initiators[i]? = some a → a.Prepared) :
    ∀ (i : Nat) (a : InitiatorRecord), t.self.initiators[i]? = some a → a.Prepared := by
  intro i b hb
  cases h with
  | rejected _ hself _ => exact hs i b (hself ▸ hb)
  | @offered _ _ _ _ _ localEphemeral fields _ hoffers hpending =>
    rcases Machine.getElem?_concat.mp hb with hb | ⟨-, rfl⟩
    · exact hs i b hb
    subst hpending
    exact ⟨localEphemeral, fields, rfl, hoffers.ephemeral, Or.inl rfl⟩
  | responded => exact hs i b hb
  | completed ha =>
    rcases getElem?_set_cases hb with hb | ⟨rfl, rfl⟩
    · exact hs i b hb
    obtain ⟨key, fields, hoffer, hephemeral, -⟩ := hs _ _ ha
    exact ⟨key, fields, hoffer, hephemeral, Or.inr rfl⟩
  | accepted => exact hs i b hb
  | sent hsession =>
    rcases initiators_setSession hsession hb with hb | ⟨a, _, ha, -, -, -, rfl⟩
    · exact hs i b hb
    · exact (hs i a ha : a.Prepared)
  | unsealed => exact hs i b hb
  | opened hsession =>
    rcases initiators_setSession hsession hb with hb | ⟨a, _, ha, -, -, -, rfl⟩
    · exact hs i b hb
    · exact (hs i a ha : a.Prepared)

theorem responders_prepared (h : Does s e result t)
    (hs : ∀ (j : Nat) (r : ResponderRecord), s.self.responders[j]? = some r → r.Prepared) :
    ∀ (j : Nat) (r : ResponderRecord), t.self.responders[j]? = some r → r.Prepared := by
  intro j b hb
  cases h with
  | rejected _ hself _ => exact hs j b (hself ▸ hb)
  | offered => exact hs j b hb
  | @responded _ _ _ _ localEphemeral shared _ _ _ haccepts _ hresponds hpending =>
    rcases Machine.getElem?_concat.mp hb with hb | ⟨-, rfl⟩
    · exact hs j b hb
    subst hpending
    exact ⟨localEphemeral, shared, haccepts.exchange, hresponds, rfl⟩
  | completed => exact hs j b hb
  | @accepted _ r _ _ hr =>
    rcases getElem?_set_cases hb with hb | ⟨rfl, rfl⟩
    · exact hs j b hb
    · exact (hs _ r hr : r.Prepared)
  | sent hsession =>
    rcases responders_setSession hsession hb with hb | ⟨r, hr, -, -, rfl⟩
    · exact hs j b hb
    · exact (hs j r hr : r.Prepared)
  | unsealed => exact hs j b hb
  | opened hsession =>
    rcases responders_setSession hsession hb with hb | ⟨r, hr, -, -, rfl⟩
    · exact hs j b hb
    · exact (hs j r hr : r.Prepared)

end Does

/-- **Pending handshakes have the private keys of their messages.** -/
theorem prepared_reached (es : List Event) : Prepared (reached es).self := by
  have hstart : Prepared start.self :=
    ⟨fun i a h => (List.not_mem_nil (List.mem_of_getElem? h)).elim,
      fun j r h => (List.not_mem_nil (List.mem_of_getElem? h)).elim⟩
  have hstep : ∀ s e, Prepared s.self → Prepared (step s e).2.self := fun s e hs =>
    ⟨(step_does s e).initiators_prepared hs.initiators,
      (step_does s e).responders_prepared hs.responders⟩
  exact Machine.run_invariant hstep hstart es

/-! ## Messages are accepted -/

/-- Whether the handshake is pending. -/
def waits (s : System) : Handle → Bool
  | .initiator i => s.initiators[i]?.all fun a => !a.handshake.completed
  | .responder j => s.responders[j]?.all fun r => !r.handshake.completed

/-- The call of the responder that the offer of a record is for. -/
def answering (a : InitiatorRecord) (responder : Identity) (localEphemeral : Crypto.ExchangeKey) :
    Event :=
  .responder responder a.handshake.localIdentity.ed25519PublicBytes a.handshake.offer
    a.handshake.supplementalSecret localEphemeral

variable {s : Frame System Call}

/-- **An offer is answered.** -/
theorem offer_answered (hverify : Verifies) (hagree : Agrees) (hinv : Invariant s)
    (hprepared : Prepared s.self) {i : Nat} {a : InitiatorRecord}
    (ha : s.self.initiators[i]? = some a) {responder : Identity}
    (hname : responder.name = a.handshake.offer.responder) {key : Crypto.ExchangeKey}
    (hkey : Crypto.exchangePublic key ≠ a.handshake.offer.initiatorEphemeralPublicKey) :
    ∃ response served, (step s (answering a responder key)).1 = .ok (.responded response served) ∧
      ∃ r, (step s (answering a responder key)).2.self.responders[s.self.responders.length]? =
          some r ∧ r.localIdentity = responder ∧
        r.supplementalSecret = a.handshake.supplementalSecret ∧
        r.produced.offer = a.handshake.offer ∧ r.produced.response = response := by
  obtain ⟨drawn, fields, hoffer, hephemeral, -⟩ := hprepared.initiators i a ha
  obtain ⟨shared, -, hshared⟩ := hagree drawn key
  have haccepts : SessionFactory.Accepts responder a.handshake.localIdentity.ed25519PublicBytes
      a.handshake.offer key shared := by
    refine ⟨hname, (hinv.initiators i a ha).signing, ?_, ?_, hkey⟩
    · rw [hoffer]
      exact hverify _ _
    · rw [hoffer]
      exact (congrArg (Crypto.exchange key) hephemeral).trans hshared
  obtain ⟨⟨response, served⟩, t, hrun, _, suite, _, -, -, -, hresult, rfl⟩ :=
    (SessionFactory.responder_runs responder a.handshake.localIdentity.ed25519PublicBytes
      a.handshake.offer a.handshake.supplementalSecret key s).returns fun _ _ h =>
        h.2.2 _ haccepts
  obtain ⟨rfl, hserved⟩ := Prod.mk.inj hresult
  have hstep : step s (answering a responder key) = _ := Method.run_bind_ok hrun
  refine ⟨response, served, by rw [hstep]; rfl, ⟨responder, a.handshake.supplementalSecret, served,
    served, none⟩, ?_, rfl, rfl, by rw [hserved], by rw [hserved]⟩
  rw [hstep]
  exact List.getElem?_concat_length

/-- **A response is accepted** by the handshake whose offer it answers. -/
theorem response_completes (hverify : Verifies) (hagree : Agrees) (hprepared : Prepared s.self)
    {i : Nat} {a : InitiatorRecord} {r : ResponderRecord} (ha : s.self.initiators[i]? = some a)
    (hr : r.Prepared) (hpending : a.handshake.completed = false)
    (hoffer : r.produced.offer = a.handshake.offer)
    (hanchor : a.handshake.remoteSigningPublicKey = r.localIdentity.ed25519PublicBytes)
    (hsecret : r.supplementalSecret = a.handshake.supplementalSecret) :
    ∃ suite rootKey, r.produced.rootKey = some rootKey ∧
      r.produced.response.suite = suite.value ∧
      (step s (.completeInitiator i r.produced.response)).1 = .ok (.completed
        (a.handshake.confirmation r.produced.response rootKey)
        (a.handshake.session r.produced.response suite rootKey)) := by
  obtain ⟨drawn, fields, hown, hephemeral, hdrawn⟩ := hprepared.initiators i a ha
  obtain ⟨key, shared, hexchange, hresponds, hroot⟩ := hr
  have hkey : a.handshake.ephemeralPrivateKey = some drawn := by
    refine hdrawn.resolve_right fun hnone => ?_
    unfold InitiatorHandshake.completed at hpending
    rw [hnone] at hpending
    cases hpending
  obtain ⟨shared', hshared, hshared'⟩ := hagree drawn key
  rw [hoffer, hown] at hexchange
  obtain rfl := Except.ok.inj
    (hexchange.symm.trans ((congrArg (Crypto.exchange key) hephemeral).trans hshared'))
  rw [hoffer, hsecret] at hresponds hroot
  have haccepts := InitiatorHandshake.accepts_honest hverify hanchor hshared hresponds
  obtain ⟨result, t, hrun, _, shared', suite, hkey', haccepts', hsuite, rfl, -⟩ :=
    (InitiatorHandshake.complete_runs r.produced.response ⟨a.handshake, s.log⟩).returns
      fun _ _ h => h.2.2 _ _ hkey haccepts
  obtain rfl := Option.some.inj (hkey.symm.trans hkey')
  obtain rfl := Except.ok.inj (haccepts.exchange.symm.trans haccepts'.exchange)
  refine ⟨suite, _, hroot, hsuite, ?_⟩
  simp only [step, perform, Method.zoomOption, InitiatorRecord.complete, Method.run_bind,
    Method.run_self, ha, Method.run_zoom, hrun, Method.run_update, Method.run_pure]
  rfl

/-- **A confirmation is accepted** by the handshake that it confirms. -/
theorem confirmation_completes (hverify : Verifies) (hinv : Invariant s) {j : Nat}
    {r : ResponderRecord} {pending : InitiatorHandshake} {rootKey : Bytes}
    (hr : s.self.responders[j]? = some r) (hpending : r.handshake.completed = false)
    (hoffer : r.produced.offer = pending.offer)
    (hanchor : r.produced.remoteSigningPublicKey = pending.localIdentity.ed25519PublicBytes)
    (hroot : r.produced.rootKey = some rootKey) :
    (step s (.completeResponder j (pending.confirmation r.produced.response rootKey))).1 =
      .ok (.accepted (r.produced.session rootKey)) := by
  have hgood := hinv.responders j r hr
  have hproduced : r.handshake = r.produced := by
    rcases hgood.state with ⟨h, -⟩ | ⟨hdone, -⟩
    · exact h
    · rw [hdone] at hpending
      cases hpending
  have haccepts : r.produced.Accepts rootKey (pending.confirmation r.produced.response rootKey) :=
    ResponderHandshake.accepts_honest hverify hoffer hanchor hgood.fields
  obtain ⟨session, t, hrun, rootKey', hroot', -, rfl, -⟩ :=
    (ResponderHandshake.complete_runs (pending.confirmation r.produced.response rootKey)
      ⟨r.produced, s.log⟩).returns fun _ _ h => h.2.2 _ hroot haccepts
  obtain rfl := Option.some.inj (hroot.symm.trans hroot')
  simp only [step, perform, Method.zoomOption, ResponderRecord.complete, Method.run_bind,
    Method.run_self, hr, hproduced, Method.run_zoom, hrun, Method.run_update, Method.run_pure]

/-- **Whatever happens in between, two parties complete their handshake**, once each message
arrives while the handshake that it is for is pending. -/
theorem handshake_unblocked (hverify : Verifies) (hagree : Agrees) (es : List Event) {i : Nat}
    {a : InitiatorRecord} (ha : (reached es).self.initiators[i]? = some a) {responder : Identity}
    (hname : responder.name = a.handshake.offer.responder)
    (hanchor : a.handshake.remoteSigningPublicKey = responder.ed25519PublicBytes)
    {key : Crypto.ExchangeKey}
    (hkey : Crypto.exchangePublic key ≠ a.handshake.offer.initiatorEphemeralPublicKey) :
    ∃ response served,
      (step (reached es) (answering a responder key)).1 = .ok (.responded response served) ∧
      ∀ es₁, es ++ [answering a responder key] <+: es₁ →
        (reached es₁).self.waits (.initiator i) = true → ∃ confirmation session,
          (step (reached es₁) (.completeInitiator i response)).1 =
            .ok (.completed confirmation session) ∧
          ∀ es₂, es₁ ++ [.completeInitiator i response] <+: es₂ →
            (reached es₂).self.waits (.responder (reached es).self.responders.length) = true →
            ∃ session', (step (reached es₂) (.completeResponder
                (reached es).self.responders.length confirmation)).1 = .ok (.accepted session') ∧
              session.Mirrors session' := by
  obtain ⟨response, served, hanswered, r, hr, rfl, hsecret, hoffer, rfl⟩ :=
    offer_answered hverify hagree (invariant_reached es) (prepared_reached es) ha hname hkey
  rw [← reached_concat] at hr
  refine ⟨_, served, hanswered, fun es₁ hlater hwaits => ?_⟩
  obtain ⟨b, hb, hevolves⟩ := initiator_later ((List.prefix_append _ _).trans hlater) ha
  obtain ⟨r₁, hr₁, hevolves₁⟩ := responder_later hlater hr
  have hpending : b.handshake.completed = false := by
    simpa only [waits, hb, Option.all_some, Bool.not_eq_true'] using hwaits
  have hoffer₁ : r₁.produced.offer = b.handshake.offer := by
    rw [hevolves₁.produced, hoffer, hevolves.offer]
  obtain ⟨suite, rootKey, hroot, hsuite, hcompleted⟩ := response_completes hverify hagree
    (prepared_reached es₁) hb ((prepared_reached es₁).responders _ r₁ hr₁) hpending hoffer₁
    (by rw [hevolves.anchor, hanchor, hevolves₁.localIdentity])
    (by rw [hevolves₁.supplementalSecret, hsecret, hevolves.supplementalSecret])
  rw [hevolves₁.produced] at hroot hsuite hcompleted hoffer₁
  refine ⟨_, _, hcompleted, fun es₂ hlater' hwaits' => ?_⟩
  obtain ⟨r₂, hr₂, hevolves₂⟩ :=
    responder_later (hlater.trans ((List.prefix_append _ _).trans hlater')) hr
  have hpending' : r₂.handshake.completed = false := by
    simpa only [waits, hr₂, Option.all_some, Bool.not_eq_true'] using hwaits'
  have hproduced := hevolves₂.produced
  have hgood := (invariant_reached es₂).responders _ r₂ hr₂
  have hanchor₂ : r₂.produced.remoteSigningPublicKey =
      b.handshake.localIdentity.ed25519PublicBytes := by
    rw [← hgood.anchor, hproduced, hoffer₁]
    exact ((invariant_reached es₁).initiators i b hb).signing
  have hdone := confirmation_completes hverify (invariant_reached es₂) hr₂ hpending'
    (hproduced ▸ hoffer₁) hanchor₂ (hproduced ▸ hroot)
  have hvalue := hgood.suite
  rw [← hgood.fields, hproduced, hsuite] at hvalue
  obtain rfl := AeadSuite.value_inj hvalue
  rw [hproduced] at hdone
  exact ⟨_, hdone, ResponderHandshake.session_mirrors hoffer₁ rfl rootKey⟩

end System

end Progress

/-! ## A run -/

section Samples

open CypherSyntax.System
open scoped Samples

theorem verifies_digests : Verifies := fun _ _ => beq_self_eq_true _

theorem agrees_digests : Agrees := fun a b =>
  ⟨_, if_pos b.property, (agree_comm b.property a.property).trans (if_pos b.property)⟩

/-- Alice's handshake, as her offer leaves it. -/
def offeredRecord : InitiatorRecord :=
  ((reached [offering]).self.initiators[0]?).get (by decide +kernel)

def sampleAnswer : HandshakeResponse :=
  (responded? (step (reached [offering]) (answering offeredRecord bob (keyOf 6))).1).get
    (by decide +kernel)

/-- Bob answers, and before the response arrives Alice has made an offer to someone else. -/
def interrupted : List Event :=
  [offering, answering offeredRecord bob (keyOf 6),
    .initiator alice (lit "carol") alice.ed25519PublicBytes .aesGcmSiv [] (keyOf 9)]

theorem handshake_unblocked_interrupted : ∃ confirmation session session',
    (step (reached interrupted) (.completeInitiator 0 sampleAnswer)).1 =
      .ok (.completed confirmation session) ∧
    (step (reached (interrupted ++ [.completeInitiator 0 sampleAnswer]))
      (.completeResponder 0 confirmation)).1 = .ok (.accepted session') ∧
    session.Mirrors session' := by
  have hrecord : (reached [offering]).self.initiators[0]? = some offeredRecord :=
    (Option.some_get _).symm
  obtain ⟨response, served, hanswered, hcompletes⟩ := handshake_unblocked verifies_digests
    agrees_digests [offering] hrecord (show bob.name = _ by decide +kernel)
    (by decide +kernel) (show Crypto.exchangePublic (keyOf 6) ≠ _ by decide +kernel)
  obtain rfl : sampleAnswer = response := by
    refine Option.get_of_eq_some _ ?_
    rw [hanswered]
    rfl
  obtain ⟨confirmation, session, hcompleted, haccepts⟩ :=
    hcompletes interrupted ⟨_, rfl⟩ (by decide +kernel)
  obtain ⟨session', haccepted, hmirrors⟩ := haccepts _ (List.prefix_refl _) (by decide +kernel)
  exact ⟨confirmation, session, session', hcompleted, haccepted, hmirrors⟩

end Samples

end CypherSyntax
