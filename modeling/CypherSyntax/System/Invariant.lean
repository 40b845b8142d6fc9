import CypherSyntax.System

/-!
# What every run keeps

`Invariant` collects what holds of the records of a run and of its calls: what completed handshakes
have checked and derived, which record each signature was made for, and that the keys of the
records are among the generated ones.

Results:
* `invariant_reached`: the invariant holds after any events.
* `Does.initiator`, `Does.responder`: records keep what they have recorded.
-/

namespace CypherSyntax

open Python Json

variable [Interpreter] [Crypto]

/-! ## Records -/

/-- What holds of a completed handshake of an initiator. -/
structure InitiatorRecord.Completed (a : InitiatorRecord) (c : Completion) (log : List Call) :
    Prop where
  fields : c.response.toOfferFields = a.handshake.offer.toOfferFields
  anchor : c.response.responderSigningPublicKey = a.handshake.remoteSigningPublicKey
  root : ∃ shared, shared.length = 32 ∧
    c.session.rootKey = rootOf a.handshake.offer c.response shared
      a.handshake.supplementalSecret ∧
    .derived (rootInput a.handshake.offer c.response shared a.handshake.supplementalSecret) ∈ log
  responderConfirmation : c.response.responderKeyConfirmation =
    keyConfirmation "responder" a.handshake.offer c.response c.session.rootKey
  confirmation : c.confirmation = a.handshake.confirmation c.response c.session.rootKey
  session : ∃ suite, c.response.suite = suite.value ∧
    (a.handshake.session c.response suite c.session.rootKey).Continues c.session
  verified : .verified a.handshake.remoteSigningPublicKey c.response.signature
    (responsePayload (c.response.transcript a.handshake.offer)
      c.response.responderKeyConfirmation) ∈ log
  responderCall : confirmationCall "responder" a.handshake.offer c.response c.session.rootKey ∈ log
  initiatorCall : confirmationCall "initiator" a.handshake.offer c.response c.session.rootKey ∈ log

structure InitiatorRecord.Good (a : InitiatorRecord) (log : List Call) : Prop where
  signing : a.handshake.offer.initiatorSigningPublicKey =
    a.handshake.localIdentity.ed25519PublicBytes
  pending : a.handshake.ephemeralPrivateKey = none ∨ a.completion = none
  completed : ∀ c, a.completion = some c → a.Completed c log

/-- What holds of an established session of a responder. -/
structure ResponderRecord.Established (r : ResponderRecord) (current : SessionState)
    (log : List Call) : Prop where
  rootKey : r.produced.rootKey = some current.rootKey
  session : (r.produced.session current.rootKey).Continues current
  verified : ∃ signature, .verified r.produced.remoteSigningPublicKey signature
    (confirmationPayload (r.produced.response.transcript r.produced.offer)
      r.produced.response.responderKeyConfirmation
      (keyConfirmation "initiator" r.produced.offer r.produced.response current.rootKey)) ∈ log
  initiatorCall :
    confirmationCall "initiator" r.produced.offer r.produced.response current.rootKey ∈ log

structure ResponderRecord.Good (r : ResponderRecord) (log : List Call) : Prop where
  name : r.localIdentity.name = r.produced.offer.responder
  anchor : r.produced.offer.initiatorSigningPublicKey = r.produced.remoteSigningPublicKey
  suite : r.produced.offer.suite = r.produced.suite.value
  fields : r.produced.response.toOfferFields = r.produced.offer.toOfferFields
  signing : r.produced.response.responderSigningPublicKey = r.localIdentity.ed25519PublicBytes
  root : ∃ shared, shared.length = 32 ∧
    r.produced.rootKey =
      some (rootOf r.produced.offer r.produced.response shared r.supplementalSecret) ∧
    .derived (rootInput r.produced.offer r.produced.response shared r.supplementalSecret) ∈ log
  confirmation : ∀ rootKey, r.produced.rootKey = some rootKey →
    r.produced.response.responderKeyConfirmation =
      keyConfirmation "responder" r.produced.offer r.produced.response rootKey ∧
    confirmationCall "responder" r.produced.offer r.produced.response rootKey ∈ log
  state : r.handshake = r.produced ∧ r.session = none ∨
    r.handshake = { r.produced with rootKey := none } ∧
      ∃ session, r.session = some session ∧ r.Established session log

section Mono

variable {log log' : List Call} (hlog : ∀ c ∈ log, c ∈ log')

include hlog

theorem InitiatorRecord.Good.mono {a : InitiatorRecord} (h : a.Good log) : a.Good log' where
  signing := h.signing
  pending := h.pending
  completed c hc := by
    have hcompleted := h.completed c hc
    obtain ⟨shared, hlen, hroot, hderived⟩ := hcompleted.root
    exact { hcompleted with
      root := ⟨shared, hlen, hroot, hlog _ hderived⟩
      verified := hlog _ hcompleted.verified
      responderCall := hlog _ hcompleted.responderCall
      initiatorCall := hlog _ hcompleted.initiatorCall }

theorem ResponderRecord.Good.mono {r : ResponderRecord} (h : r.Good log) : r.Good log' := by
  obtain ⟨shared, hlen, hroot, hderived⟩ := h.root
  refine { h with
    root := ⟨shared, hlen, hroot, hlog _ hderived⟩
    confirmation := fun rootKey hkey => (h.confirmation rootKey hkey).imp_right (hlog _)
    state := h.state.imp_right fun ⟨hdone, session, hsession, hestablished⟩ => ?_ }
  obtain ⟨signature, hverified⟩ := hestablished.verified
  exact ⟨hdone, session, hsession, { hestablished with
    verified := ⟨signature, hlog _ hverified⟩
    initiatorCall := hlog _ hestablished.initiatorCall }⟩

end Mono

/-- A session that goes on leaves its record good. -/
theorem InitiatorRecord.Good.continues {a : InitiatorRecord} {log : List Call} (h : a.Good log)
    {c : Completion} (hc : a.completion = some c) {session : SessionState}
    (hcontinues : c.session.Continues session) :
    ({ a with completion := some { c with session := session } } : InitiatorRecord).Good log := by
  obtain ⟨hfields, hanchor, hroot, hresponder, hconfirmation, ⟨suite, hsuite, hsession⟩, hverified,
    hcall, hcall'⟩ := h.completed c hc
  refine ⟨h.signing, h.pending.imp_right fun hnone => ?_, fun d hd => ?_⟩
  · rw [hc] at hnone
    cases hnone
  · obtain rfl := Option.some.inj hd
    rw [← hcontinues.rootKey] at hroot hresponder hconfirmation hsession hcall hcall'
    exact ⟨hfields, hanchor, hroot, hresponder, hconfirmation,
      ⟨suite, hsuite, hsession.trans hcontinues⟩, hverified, hcall, hcall'⟩

theorem ResponderRecord.Good.continues {r : ResponderRecord} {log : List Call} (h : r.Good log)
    {old session : SessionState} (hold : r.session = some old)
    (hcontinues : old.Continues session) :
    ({ r with session := some session } : ResponderRecord).Good log := by
  refine { h with state := Or.inr ?_ }
  rcases h.state with ⟨-, hnone⟩ | ⟨hdone, old', hold', hestablished⟩
  · rw [hold] at hnone
    cases hnone
  · obtain rfl := Option.some.inj (hold.symm.trans hold')
    obtain ⟨hroot, hsession, hverified, hcall⟩ := hestablished
    rw [← hcontinues.rootKey] at hroot hsession hverified hcall
    exact ⟨hdone, session, rfl, ⟨hroot, hsession.trans hcontinues, hverified, hcall⟩⟩

/-! ## Lookups -/

namespace System

variable {s : System}

theorem initiators_setSession {handle : Handle} {old session : SessionState}
    (hold : s.session? handle = some old) {i : Nat} {b : InitiatorRecord}
    (h : (s.setSession handle session).initiators[i]? = some b) :
    s.initiators[i]? = some b ∨ ∃ a c, s.initiators[i]? = some a ∧ handle = .initiator i ∧
      a.completion = some c ∧ c.session = old ∧
      b = { a with completion := some { c with session := session } } := by
  cases handle with
  | initiator j =>
    simp only [setSession, List.getElem?_modify, Option.map_eq_map, Option.map_eq_some_iff] at h
    obtain ⟨a, ha, hb⟩ := h
    by_cases hij : j = i
    · subst hij
      simp only [session?, ha, Option.bind_some, Option.map_eq_some_iff] at hold
      obtain ⟨c, hc, hcold⟩ := hold
      refine Or.inr ⟨a, c, ha, rfl, hc, hcold, ?_⟩
      rw [if_pos rfl, hc] at hb
      exact hb.symm
    · rw [if_neg hij] at hb
      exact Or.inl (hb ▸ ha)
  | responder j => exact Or.inl h

theorem responders_setSession {handle : Handle} {old session : SessionState}
    (hold : s.session? handle = some old) {j : Nat} {b : ResponderRecord}
    (h : (s.setSession handle session).responders[j]? = some b) :
    s.responders[j]? = some b ∨ ∃ r, s.responders[j]? = some r ∧ handle = .responder j ∧
      r.session = some old ∧ b = { r with session := some session } := by
  cases handle with
  | initiator i => exact Or.inl h
  | responder i =>
    simp only [setSession, List.getElem?_modify, Option.map_eq_map, Option.map_eq_some_iff] at h
    obtain ⟨r, hr, hb⟩ := h
    by_cases hij : i = j
    · subst hij
      simp only [session?, hr, Option.bind_some] at hold
      refine Or.inr ⟨r, hr, rfl, hold, ?_⟩
      rw [if_pos rfl, hold] at hb
      exact hb.symm
    · rw [if_neg hij] at hb
      exact Or.inl (hb ▸ hr)

end System

/-! ## What a step keeps -/

namespace System.Does

variable {s t : Frame System Call} {e : Event} {result : Except PyError Answer}

theorem log_mem (h : Does s e result t) : ∀ c ∈ s.log, c ∈ t.log := by
  intro c hc
  cases h with
  | rejected _ _ hlog => exact hlog.mem hc
  | _ => exact List.mem_append_left _ hc

theorem initiators_good (h : Does s e result t)
    (hgood : ∀ (i : Nat) (a : InitiatorRecord), s.self.initiators[i]? = some a → a.Good s.log) :
    ∀ (i : Nat) (a : InitiatorRecord), t.self.initiators[i]? = some a → a.Good t.log := by
  intro i b hb
  have hmono := fun i a ha => (hgood i a ha).mono h.log_mem
  cases h with
  | rejected _ hself _ =>
    rw [hself] at hb
    exact hmono i b hb
  | offered hoffers hpending =>
    rcases Machine.getElem?_concat.mp hb with hb | ⟨-, rfl⟩
    · exact hmono i b hb
    · subst hpending
      exact ⟨hoffers.signing, Or.inr rfl, fun _ hc => by cases hc⟩
  | responded => exact hmono i b hb
  | @completed _ a response _ shared _ _ c ha hkey haccepts hsuite hroot hc =>
    rcases getElem?_set_cases hb with hb | ⟨rfl, rfl⟩
    · exact hmono i b hb
    subst hc hroot
    refine ⟨(hmono _ _ ha).signing, Or.inl rfl, fun c hc => ?_⟩
    obtain rfl := Option.some.inj hc
    have hmem : ∀ c ∈ a.handshake.completeCalls response shared,
        c ∈ s.log ++ a.handshake.completeCalls response shared :=
      fun c hc => List.mem_append_right _ hc
    simp only [InitiatorHandshake.completeCalls, List.forall_mem_cons] at hmem
    obtain ⟨hverified, hderived, hresponder, hinitiator, -⟩ := hmem
    exact ⟨haccepts.fields, haccepts.anchor, ⟨shared, Crypto.exchange_length _ _ _ haccepts.exchange,
      rfl, hderived⟩, haccepts.confirmation, rfl, ⟨_, hsuite, .refl _⟩, hverified, hresponder,
      hinitiator⟩
  | accepted => exact hmono i b hb
  | sent hsession =>
    rcases initiators_setSession hsession hb with hb | ⟨a, c, ha, -, hc, rfl, rfl⟩
    · exact hmono i b hb
    · exact (hmono i a ha).continues hc (.advance _)
  | unsealed => exact hmono i b hb
  | opened hsession =>
    rcases initiators_setSession hsession hb with hb | ⟨a, c, ha, -, hc, rfl, rfl⟩
    · exact hmono i b hb
    · exact (hmono i a ha).continues hc (.accept _ _)

theorem responders_good (h : Does s e result t)
    (hgood : ∀ (j : Nat) (r : ResponderRecord), s.self.responders[j]? = some r → r.Good s.log) :
    ∀ (j : Nat) (r : ResponderRecord), t.self.responders[j]? = some r → r.Good t.log := by
  intro j b hb
  have hmono := fun j r hr => (hgood j r hr).mono h.log_mem
  cases h with
  | rejected _ hself _ =>
    rw [hself] at hb
    exact hmono j b hb
  | offered => exact hmono j b hb
  | @responded localIdentity _ offer supplemental localEphemeral shared _ response _ haccepts hsuite
      hresponds hpending =>
    rcases Machine.getElem?_concat.mp hb with hb | ⟨-, rfl⟩
    · exact hmono j b hb
    subst hpending
    have hmem : ∀ c ∈ SessionFactory.responderCalls localIdentity offer localEphemeral response
        shared supplemental, c ∈ s.log ++ SessionFactory.responderCalls localIdentity offer
          localEphemeral response shared supplemental :=
      fun c hc => List.mem_append_right _ hc
    simp only [SessionFactory.responderCalls, List.forall_mem_cons] at hmem
    obtain ⟨-, -, hderived, hresponder, -⟩ := hmem
    refine ⟨haccepts.name, haccepts.anchor, hsuite, hresponds.fields, hresponds.signing,
      ⟨shared, Crypto.exchange_length _ _ _ haccepts.exchange, rfl, hderived⟩,
      fun rootKey hkey => ?_, Or.inl ⟨rfl, rfl⟩⟩
    obtain rfl := Option.some.inj hkey
    exact ⟨hresponds.confirmation, hresponder⟩
  | completed => exact hmono j b hb
  | @accepted _ r confirmation rootKey hr hkey haccepts =>
    rcases getElem?_set_cases hb with hb | ⟨rfl, rfl⟩
    · exact hmono j b hb
    have hr := hmono _ _ hr
    -- a handshake that still has its root key is as it was produced
    rcases hr.state with ⟨hproduced, -⟩ | ⟨hdone, -⟩
    swap
    · rw [hdone] at hkey
      cases hkey
    rw [hproduced] at hkey haccepts hr ⊢
    have hmem : ∀ c ∈ r.produced.completeCalls rootKey confirmation,
        c ∈ s.log ++ r.produced.completeCalls rootKey confirmation :=
      fun c hc => List.mem_append_right _ hc
    simp only [ResponderHandshake.completeCalls, List.forall_mem_cons] at hmem
    obtain ⟨hverified, hinitiator, -⟩ := hmem
    refine { hr with state := Or.inr ⟨rfl, _, rfl, ⟨hkey, .refl _,
      ⟨confirmation.signature, ?_⟩, hinitiator⟩⟩ }
    show Call.verified _ _ (confirmationPayload _ _
      (keyConfirmation "initiator" r.produced.offer r.produced.response rootKey)) ∈ _
    rw [← haccepts.confirmation]
    exact hverified
  | sent hsession =>
    rcases responders_setSession hsession hb with hb | ⟨r, hr, -, hold, rfl⟩
    · exact hmono j b hb
    · exact (hmono j r hr).continues hold (.advance _)
  | unsealed => exact hmono j b hb
  | opened hsession =>
    rcases responders_setSession hsession hb with hb | ⟨r, hr, -, hold, rfl⟩
    · exact hmono j b hb
    · exact (hmono j r hr).continues hold (.accept _ _)

end System.Does

/-! ## Records over time -/

/-- What a record of an initiator keeps. -/
structure InitiatorRecord.Evolves (a b : InitiatorRecord) : Prop where
  localIdentity : b.handshake.localIdentity = a.handshake.localIdentity
  anchor : b.handshake.remoteSigningPublicKey = a.handshake.remoteSigningPublicKey
  offer : b.handshake.offer = a.handshake.offer
  supplementalSecret : b.handshake.supplementalSecret = a.handshake.supplementalSecret
  completion : ∀ c, a.completion = some c → ∃ session,
    b.completion = some { c with session := session } ∧ c.session.Continues session

/-- What a record of a responder keeps. -/
structure ResponderRecord.Evolves (a b : ResponderRecord) : Prop where
  localIdentity : b.localIdentity = a.localIdentity
  supplementalSecret : b.supplementalSecret = a.supplementalSecret
  produced : b.produced = a.produced
  session : ∀ old, a.session = some old → ∃ session, b.session = some session ∧
    old.Continues session

theorem InitiatorRecord.Evolves.refl (a : InitiatorRecord) : a.Evolves a :=
  ⟨rfl, rfl, rfl, rfl, fun c hc => ⟨c.session, hc, .refl _⟩⟩

theorem ResponderRecord.Evolves.refl (r : ResponderRecord) : r.Evolves r :=
  ⟨rfl, rfl, rfl, fun old hold => ⟨old, hold, .refl _⟩⟩

namespace System

theorem initiator_setSession {s : System} {handle : Handle} {old session : SessionState}
    (hold : s.session? handle = some old) (hcontinues : old.Continues session) {i : Nat}
    {a : InitiatorRecord} (ha : s.initiators[i]? = some a) :
    ∃ b, (s.setSession handle session).initiators[i]? = some b ∧ a.Evolves b := by
  cases handle with
  | initiator j =>
    simp only [setSession, List.getElem?_modify, ha, Option.map_eq_map, Option.map_some]
    by_cases hij : j = i
    · subst hij
      simp only [session?, ha, Option.bind_some, Option.map_eq_some_iff] at hold
      obtain ⟨c, hc, rfl⟩ := hold
      rw [if_pos rfl]
      refine ⟨_, rfl, rfl, rfl, rfl, rfl, fun d hd => ⟨session, by rw [hd]; rfl, ?_⟩⟩
      obtain rfl := Option.some.inj (hc.symm.trans hd)
      exact hcontinues
    · rw [if_neg hij]
      exact ⟨a, rfl, .refl a⟩
  | responder j => exact ⟨a, ha, .refl a⟩

theorem responder_setSession {s : System} {handle : Handle} {old session : SessionState}
    (hold : s.session? handle = some old) (hcontinues : old.Continues session) {j : Nat}
    {r : ResponderRecord} (hr : s.responders[j]? = some r) :
    ∃ b, (s.setSession handle session).responders[j]? = some b ∧ r.Evolves b := by
  cases handle with
  | initiator i => exact ⟨r, hr, .refl r⟩
  | responder i =>
    simp only [setSession, List.getElem?_modify, hr, Option.map_eq_map, Option.map_some]
    by_cases hij : i = j
    · subst hij
      simp only [session?, hr, Option.bind_some] at hold
      rw [if_pos rfl]
      refine ⟨_, rfl, rfl, rfl, rfl, fun d hd => ⟨session, by rw [hd]; rfl, ?_⟩⟩
      obtain rfl := Option.some.inj (hold.symm.trans hd)
      exact hcontinues
    · rw [if_neg hij]
      exact ⟨r, rfl, .refl r⟩

/-- The ephemeral public keys of the records. -/
def ephemeralKeys (s : System) : List Bytes :=
  s.initiators.map (·.handshake.offer.initiatorEphemeralPublicKey) ++
    s.responders.map (·.produced.response.responderEphemeralPublicKey)

/-- The record that a signature was made for. -/
inductive Signed (s : System) (publicKey data : Bytes) : Prop where
  | offer {i : Nat} {a : InitiatorRecord} : s.initiators[i]? = some a →
    a.handshake.localIdentity.ed25519PublicBytes = publicKey →
    data = offerPayload a.handshake.offer.toOfferFields → Signed s publicKey data
  | response {j : Nat} {r : ResponderRecord} : s.responders[j]? = some r →
    r.localIdentity.ed25519PublicBytes = publicKey →
    data = responsePayload (r.produced.response.transcript r.produced.offer)
      r.produced.response.responderKeyConfirmation → Signed s publicKey data
  | confirmation {i : Nat} {a : InitiatorRecord} {c : Completion} : s.initiators[i]? = some a →
    a.completion = some c → a.handshake.localIdentity.ed25519PublicBytes = publicKey →
    data = a.handshake.payload c.response c.session.rootKey → Signed s publicKey data

namespace Does

variable {s t : Frame System Call} {e : Event} {result : Except PyError Answer}

/-- A record of an initiator keeps what it has recorded. -/
theorem initiator (h : Does s e result t) {i : Nat} {a : InitiatorRecord}
    (ha : s.self.initiators[i]? = some a) (hgood : a.Good s.log) :
    ∃ b, t.self.initiators[i]? = some b ∧ a.Evolves b := by
  cases h with
  | rejected _ hself _ => exact ⟨a, hself ▸ ha, .refl a⟩
  | offered =>
    obtain ⟨hi, -⟩ := List.getElem?_eq_some_iff.mp ha
    exact ⟨a, (List.getElem?_append_left hi).trans ha, .refl a⟩
  | responded => exact ⟨a, ha, .refl a⟩
  | @completed j b _ _ _ _ _ _ hb hkey =>
    by_cases hij : j = i
    · subst hij
      obtain rfl := Option.some.inj (ha.symm.trans hb)
      obtain ⟨hi, -⟩ := List.getElem?_eq_some_iff.mp ha
      -- its private key is still there, so it had not completed
      have hnone : a.completion = none := hgood.pending.resolve_left (by rw [hkey]; simp)
      refine ⟨_, List.getElem?_set_self hi, rfl, rfl, rfl, rfl, fun c hc => ?_⟩
      rw [hnone] at hc
      cases hc
    · exact ⟨a, (List.getElem?_set_ne hij).trans ha, .refl a⟩
  | accepted => exact ⟨a, ha, .refl a⟩
  | sent hsession => exact initiator_setSession hsession (.advance _) ha
  | unsealed => exact ⟨a, ha, .refl a⟩
  | opened hsession => exact initiator_setSession hsession (.accept _ _) ha

/-- A record of a responder keeps what it has recorded. -/
theorem responder (h : Does s e result t) {j : Nat} {r : ResponderRecord}
    (hr : s.self.responders[j]? = some r) (hgood : r.Good s.log) :
    ∃ b, t.self.responders[j]? = some b ∧ r.Evolves b := by
  cases h with
  | rejected _ hself _ => exact ⟨r, hself ▸ hr, .refl r⟩
  | offered => exact ⟨r, hr, .refl r⟩
  | responded =>
    obtain ⟨hj, -⟩ := List.getElem?_eq_some_iff.mp hr
    exact ⟨r, (List.getElem?_append_left hj).trans hr, .refl r⟩
  | completed => exact ⟨r, hr, .refl r⟩
  | @accepted i b _ _ hb hkey =>
    by_cases hij : i = j
    · subst hij
      obtain rfl := Option.some.inj (hr.symm.trans hb)
      obtain ⟨hj, -⟩ := List.getElem?_eq_some_iff.mp hr
      refine ⟨_, List.getElem?_set_self hj, rfl, rfl, rfl, fun old hold => ?_⟩
      rcases hgood.state with ⟨-, hnone⟩ | ⟨hdone, -⟩
      · rw [hold] at hnone
        cases hnone
      · rw [hdone] at hkey
        cases hkey
    · exact ⟨r, (List.getElem?_set_ne hij).trans hr, .refl r⟩
  | sent hsession => exact responder_setSession hsession (.advance _) hr
  | unsealed => exact ⟨r, hr, .refl r⟩
  | opened hsession => exact responder_setSession hsession (.accept _ _) hr

/-- A signature keeps its record. -/
theorem signed_mono (h : Does s e result t)
    (hi : ∀ (i : Nat) (a : InitiatorRecord), s.self.initiators[i]? = some a → a.Good s.log)
    (hr : ∀ (j : Nat) (r : ResponderRecord), s.self.responders[j]? = some r → r.Good s.log)
    {publicKey data : Bytes} (hsigned : s.self.Signed publicKey data) :
    t.self.Signed publicKey data := by
  cases hsigned with
  | offer ha hkey hdata =>
    obtain ⟨b, hb, hevolves⟩ := h.initiator ha (hi _ _ ha)
    exact .offer hb (hevolves.localIdentity ▸ hkey) (hevolves.offer ▸ hdata)
  | response hr' hkey hdata =>
    obtain ⟨b, hb, hevolves⟩ := h.responder hr' (hr _ _ hr')
    exact .response hb (hevolves.localIdentity ▸ hkey) (hevolves.produced ▸ hdata)
  | confirmation ha hc hkey hdata =>
    obtain ⟨b, hb, hevolves⟩ := h.initiator ha (hi _ _ ha)
    obtain ⟨session, hsession, hcontinues⟩ := hevolves.completion _ hc
    refine .confirmation hb hsession (hevolves.localIdentity ▸ hkey) ?_
    rw [hdata]
    unfold InitiatorHandshake.payload
    rw [hevolves.offer, hcontinues.rootKey]

/-- Whatever is signed is signed for a record. -/
theorem signed (h : Does s e result t)
    (hi : ∀ (i : Nat) (a : InitiatorRecord), s.self.initiators[i]? = some a → a.Good s.log)
    (hr : ∀ (j : Nat) (r : ResponderRecord), s.self.responders[j]? = some r → r.Good s.log)
    (hs : ∀ publicKey data, .signed publicKey data ∈ s.log → s.self.Signed publicKey data)
    {publicKey data : Bytes} (hmem : .signed publicKey data ∈ t.log) :
    t.self.Signed publicKey data := by
  have hold : .signed publicKey data ∈ s.log → t.self.Signed publicKey data :=
    fun hmem => h.signed_mono hi hr (hs _ _ hmem)
  cases h with
  | rejected _ _ hlog =>
    rcases hlog.cases hmem with hmem | hquiet | ⟨_, heq⟩
    · exact hold hmem
    · cases hquiet
    · cases heq
  | @offered localIdentity _ _ _ _ _ fields _ _ hpending =>
    rcases List.mem_append.mp hmem with hmem | hmem
    · exact hold hmem
    simp only [List.mem_cons, List.not_mem_nil, or_false, reduceCtorEq, false_or,
      Call.signed.injEq] at hmem
    obtain ⟨rfl, rfl⟩ := hmem
    subst hpending
    exact .offer (List.getElem?_concat_length) rfl rfl
  | responded _ _ _ hpending =>
    rcases List.mem_append.mp hmem with hmem | hmem
    · exact hold hmem
    simp only [SessionFactory.responderCalls, confirmationCall, List.mem_cons, List.not_mem_nil,
      or_false, reduceCtorEq, false_or, Call.signed.injEq] at hmem
    obtain ⟨rfl, rfl⟩ := hmem
    subst hpending
    exact .response (List.getElem?_concat_length) rfl rfl
  | completed ha _ _ _ hroot hc =>
    rcases List.mem_append.mp hmem with hmem | hmem
    · exact hold hmem
    simp only [InitiatorHandshake.completeCalls, confirmationCall, List.mem_cons,
      List.not_mem_nil, or_false, reduceCtorEq, false_or, Call.signed.injEq] at hmem
    obtain ⟨rfl, rfl⟩ := hmem
    subst hc hroot
    obtain ⟨hi, -⟩ := List.getElem?_eq_some_iff.mp ha
    exact .confirmation (List.getElem?_set_self hi) rfl rfl rfl
  | accepted =>
    refine hold ((List.mem_append.mp hmem).resolve_right fun h => ?_)
    simp [ResponderHandshake.completeCalls, confirmationCall] at h
  | sent =>
    refine hold ((List.mem_append.mp hmem).resolve_right fun h => ?_)
    simp [SessionState.sendCalls, messageCalls] at h
  | unsealed =>
    refine hold ((List.mem_append.mp hmem).resolve_right fun h => ?_)
    simp [SessionState.sendCalls, messageCalls] at h
  | opened =>
    refine hold ((List.mem_append.mp hmem).resolve_right fun h => ?_)
    simp [SessionState.receiveCalls, messageCalls] at h

/-- Records that are only changed keep their keys. -/
theorem ephemeralKeys_eq (h : Does s e result t)
    (hi : ∀ (i : Nat) (a : InitiatorRecord), s.self.initiators[i]? = some a → a.Good s.log)
    (hr : ∀ (j : Nat) (r : ResponderRecord), s.self.responders[j]? = some r → r.Good s.log)
    (hinitiators : t.self.initiators.length = s.self.initiators.length)
    (hresponders : t.self.responders.length = s.self.responders.length) :
    t.self.ephemeralKeys = s.self.ephemeralKeys := by
  unfold ephemeralKeys
  congr 1
  · refine map_eq_of_getElem? hinitiators fun i a ha => ?_
    obtain ⟨b, hb, hevolves⟩ := h.initiator ha (hi i a ha)
    exact ⟨b, hb, by rw [hevolves.offer]⟩
  · refine map_eq_of_getElem? hresponders fun j r hj => ?_
    obtain ⟨b, hb, hevolves⟩ := h.responder hj (hr j r hj)
    exact ⟨b, hb, by rw [hevolves.produced]⟩

/-- The keys of the records are generated keys, with multiplicities. -/
theorem keys (h : Does s e result t)
    (hi : ∀ (i : Nat) (a : InitiatorRecord), s.self.initiators[i]? = some a → a.Good s.log)
    (hr : ∀ (j : Nat) (r : ResponderRecord), s.self.responders[j]? = some r → r.Good s.log)
    (hk : ∀ k, s.self.ephemeralKeys.count k ≤ (generatedKeys s.log).count k) (k : Bytes) :
    t.self.ephemeralKeys.count k ≤ (generatedKeys t.log).count k := by
  have hgrow : ∀ calls, (generatedKeys s.log).count k ≤ (generatedKeys (s.log ++ calls)).count k :=
    fun calls => by
      rw [generatedKeys_append, List.count_append]
      exact Nat.le_add_right _ _
  have hlength : ∀ (handle : Handle) (session : SessionState),
      (s.self.setSession handle session).initiators.length = s.self.initiators.length ∧
      (s.self.setSession handle session).responders.length = s.self.responders.length := by
    intro handle session
    cases handle <;> simp [setSession]
  have hsame := h.ephemeralKeys_eq hi hr
  cases h with
  | rejected _ hself hlog =>
    obtain ⟨calls, hcalls, -⟩ := hlog
    rw [hself, hcalls]
    exact (hk k).trans (hgrow calls)
  | @offered localIdentity _ _ _ _ localEphemeral fields _ hoffers hpending =>
    subst hpending
    have hk := hk k
    have hnew : generatedKeys [.generated (Crypto.exchangePublic localEphemeral),
        .signed localIdentity.ed25519PublicBytes (offerPayload fields)] =
        [fields.initiatorEphemeralPublicKey] :=
      congrArg (fun key => [key]) hoffers.ephemeral.symm
    simp only [ephemeralKeys, generatedKeys_append, hnew, SessionFactory.offerOf, List.map_append,
      List.map_cons, List.map_nil, List.count_append] at hk ⊢
    omega
  | @responded localIdentity _ offer supplemental localEphemeral shared _ response _ _ _ hresponds
      hpending =>
    subst hpending
    have hk := hk k
    have hnew : generatedKeys (SessionFactory.responderCalls localIdentity offer localEphemeral
        response shared supplemental) = [response.responderEphemeralPublicKey] :=
      congrArg (fun key => [key]) hresponds.ephemeral.symm
    simp only [ephemeralKeys, generatedKeys_append, hnew, List.map_append, List.map_cons,
      List.map_nil, List.count_append] at hk ⊢
    omega
  | completed =>
    rw [hsame List.length_set rfl]
    exact (hk k).trans (hgrow _)
  | accepted =>
    rw [hsame rfl List.length_set]
    exact (hk k).trans (hgrow _)
  | sent =>
    rw [hsame (hlength _ _).1 (hlength _ _).2]
    exact (hk k).trans (hgrow _)
  | unsealed => exact (hk k).trans (hgrow _)
  | opened =>
    rw [hsame (hlength _ _).1 (hlength _ _).2]
    exact (hk k).trans (hgrow _)

end Does

/-! ## The invariant -/

/-- What holds of every state of a run. -/
structure Invariant (s : Frame System Call) : Prop where
  initiators : ∀ (i : Nat) (a : InitiatorRecord), s.self.initiators[i]? = some a → a.Good s.log
  responders : ∀ (j : Nat) (r : ResponderRecord), s.self.responders[j]? = some r → r.Good s.log
  signed : ∀ publicKey data, .signed publicKey data ∈ s.log → s.self.Signed publicKey data
  keys : ∀ k, s.self.ephemeralKeys.count k ≤ (generatedKeys s.log).count k

theorem invariant_start : Invariant start where
  initiators _ _ h := by cases h
  responders _ _ h := by cases h
  signed _ _ h := by cases h
  keys _ := Nat.zero_le _

theorem Does.invariant {s t : Frame System Call} {e : Event} {result : Except PyError Answer}
    (h : Does s e result t) (hinv : Invariant s) : Invariant t where
  initiators := h.initiators_good hinv.initiators
  responders := h.responders_good hinv.responders
  signed _ _ := h.signed hinv.initiators hinv.responders hinv.signed
  keys := h.keys hinv.initiators hinv.responders hinv.keys

/-- **The invariant holds after any events.** -/
theorem invariant_reached (es : List Event) : Invariant (reached es) :=
  Machine.run_invariant (fun s e hinv => (step_does s e).invariant hinv) invariant_start es

end System

end CypherSyntax
