import CypherSyntax.Instances
import CypherSyntax.Machine
import CypherSyntax.Replay
import CypherSyntax.Session.Handshake

/-!
# The channel

The two sessions of a completed handshake (`SessionState`, session.py), used by their holders in any
order and fed any byte strings: what the other end has sent, delayed, repeated, reordered or
reflected, and what nobody has sent. Each end keeps what `encrypt` has returned and what `decrypt`
has opened.

The premises are on the calls that a run has made: the AEAD opens only what was sealed under the
same key, nonce and data (`Authentic`), and HKDF is free of collisions. Neither is needed for what
one end does by itself.

Results:
* `paired_of_handshake`: the sessions that a handshake ends in are paired.
* `Channel.invariant_reached`: every packet that was sent or opened belongs to a call of the AEAD.
* `Channel.reached_authentic`: what one end has opened is what the other has sent, each packet at
  most once.
-/

namespace CypherSyntax

open Python Json

/-! ## Ends -/

/-- A plaintext and its packet. -/
structure Delivery where
  plaintext : Value
  packet : Value

structure Endpoint where
  session : SessionState
  sent : List Delivery
  opened : List Delivery

inductive Side where
  | left | right
  deriving DecidableEq

def Side.other : Side → Side
  | .left => .right
  | .right => .left

@[simp] theorem Side.other_other (side : Side) : side.other.other = side := by
  cases side <;> rfl

theorem Side.other_ne (side : Side) : side.other ≠ side := by
  cases side <;> decide

abbrev Channel := Side → Endpoint

inductive Use where
  | encrypt (side : Side) (plaintext : Value)
  | decrypt (side : Side) (blob : Value)

section Uses

variable [Interpreter] [Crypto]

namespace Endpoint

def encrypt (plaintext : Value) : Method ErrorClass Endpoint Call Value := do
  let packet ← Method.zoom Endpoint.session (fun session e => { e with session := session })
    (SessionState.encrypt plaintext)
  Method.update fun e => { e with sent := e.sent ++ [⟨plaintext, .bytes packet⟩] }
  return .bytes packet

def decrypt (blob : Value) : Method ErrorClass Endpoint Call Value := do
  let plaintext ← Method.zoom Endpoint.session (fun session e => { e with session := session })
    (SessionState.decrypt blob)
  Method.update fun e => { e with opened := e.opened ++ [⟨.bytes plaintext, blob⟩] }
  return .bytes plaintext

theorem encrypt_run (plaintext : Value) (s : Frame Endpoint Call) : (encrypt plaintext).run s =
    match (SessionState.encrypt plaintext).run ⟨s.self.session, s.log⟩ with
    | (.ok packet, t) => (.ok (.bytes packet),
      ⟨⟨t.self, s.self.sent ++ [⟨plaintext, .bytes packet⟩], s.self.opened⟩, t.log⟩)
    | (.error e, t) => (.error e, ⟨{ s.self with session := t.self }, t.log⟩) := by
  unfold encrypt
  rw [Method.run_bind, Method.run_zoom]
  rcases (SessionState.encrypt plaintext).run ⟨s.self.session, s.log⟩ with ⟨e | packet, t⟩ <;> rfl

theorem decrypt_run (blob : Value) (s : Frame Endpoint Call) : (decrypt blob).run s =
    match (SessionState.decrypt blob).run ⟨s.self.session, s.log⟩ with
    | (.ok plaintext, t) => (.ok (.bytes plaintext),
      ⟨⟨t.self, s.self.sent, s.self.opened ++ [⟨.bytes plaintext, blob⟩]⟩, t.log⟩)
    | (.error e, t) => (.error e, ⟨{ s.self with session := t.self }, t.log⟩) := by
  unfold decrypt
  rw [Method.run_bind, Method.run_zoom]
  rcases (SessionState.decrypt blob).run ⟨s.self.session, s.log⟩ with ⟨e | plaintext, t⟩ <;> rfl

end Endpoint

namespace Channel

def start (sessions : Side → SessionState) : Frame Channel Call :=
  ⟨fun side => ⟨sessions side, [], []⟩, []⟩

def perform : Use → Method ErrorClass Channel Call Value
  | .encrypt side plaintext =>
    Method.zoom (· side) (fun e c => Function.update c side e) (Endpoint.encrypt plaintext)
  | .decrypt side blob =>
    Method.zoom (· side) (fun e c => Function.update c side e) (Endpoint.decrypt blob)

def step (s : Frame Channel Call) (use : Use) : Except PyError Value × Frame Channel Call :=
  (perform use).run s

/-- The channel after a list of uses. -/
def reached (sessions : Side → SessionState) (uses : List Use) : Frame Channel Call :=
  (Machine.run step (start sessions) uses).2

end Channel

end Uses

/-! ## Pairs of sessions -/

/-- The sessions that a handshake ends in. -/
structure Paired (sessions : Side → SessionState) : Prop where
  mirrors : ∀ side, (sessions side).Mirrors (sessions side.other)
  distinct : ∀ side, (sessions side).localEphemeralPublicBytes ≠
    (sessions side).remoteEphemeralPublicBytes
  sendSequence : ∀ side, (sessions side).sendSequence = 0
  replayWindow : ∀ side, (sessions side).replayWindow = ReplayWindow.default

theorem Paired.mirrors_other {sessions : Side → SessionState} (h : Paired sessions) (side : Side) :
    (sessions side.other).Mirrors (sessions side) := (h.mirrors side).symm

/-- The ends send in different directions. -/
theorem Paired.side_unique {sessions : Side → SessionState} (h : Paired sessions)
    {side side' : Side} (hdirection : (sessions side).sendDirection =
      (sessions side').sendDirection) : side = side' := by
  by_contra hne
  obtain rfl : side' = side.other := by
    cases side <;> cases side' <;> first | rfl | exact absurd rfl hne
  exact h.distinct side ((congrArg Direction.sender hdirection).trans
    (h.mirrors_other side).localEphemeral)

/-- **A handshake that both sides complete with the same messages ends in paired sessions.** -/
theorem paired_of_handshake [Interpreter] [Crypto] {initiator : InitiatorHandshake}
    {responder : ResponderHandshake} (hoffer : responder.offer = initiator.offer)
    (hfields : responder.response.toOfferFields = responder.offer.toOfferFields)
    (rootKey : Bytes) : Paired fun
      | .left => initiator.session responder.response responder.suite rootKey
      | .right => responder.session rootKey := by
  have hmirrors := ResponderHandshake.session_mirrors hoffer rfl rootKey
  have hdistinct : responder.response.responderEphemeralPublicKey ≠
      responder.offer.initiatorEphemeralPublicKey := by
    have h := responder.response.ephemeral_distinct
    rw [hfields] at h
    exact h
  refine ⟨?_, ?_, ?_, ?_⟩ <;> rintro (_ | _)
  · exact hmirrors
  · exact hmirrors.symm
  · intro h
    rw [hoffer] at hdistinct
    exact hdistinct h.symm
  · exact hdistinct
  · rfl
  · rfl
  · rfl
  · rfl

/-! ## Lists -/

theorem filterMap_of_forall₂ {α : Type} {l l' : List α} {ns : List Nat}
    (h : List.Forall₂ (fun n a => l'[n]? = some a) ns l) : ns.filterMap (l'[·]?) = l := by
  induction h with
  | nil => rfl
  | cons hget _ ih => rw [List.filterMap_cons_some hget, ih]

theorem exists_of_forall₂ {α β : Type} {R : α → β → Prop} {l : List α} {l' : List β}
    (h : List.Forall₂ R l l') {a : α} (ha : a ∈ l) : ∃ b, b ∈ l' ∧ R a b := by
  induction h with
  | nil => cases ha
  | cons hab _ ih =>
    rcases List.mem_cons.mp ha with rfl | ha
    · exact ⟨_, List.mem_cons_self, hab⟩
    · obtain ⟨b, hb, hR⟩ := ih ha
      exact ⟨b, List.mem_cons_of_mem _ hb, hR⟩

/-- Elements at different indices of a list are among its elements, with their multiplicities. -/
theorem subperm_of_indices {α : Type} {l l' : List α} (ns : List Nat)
    (h : List.Forall₂ (fun n a => l'[n]? = some a) ns l) (hnodup : ns.Nodup) : l.Subperm l' := by
  have hrange : List.Forall₂ (fun n a => l'[n]? = some a) (List.range l'.length) l' :=
    List.forall₂_iff_get.mpr ⟨List.length_range, fun i _ hi => by simp⟩
  have hsubset : ns ⊆ List.range l'.length := by
    intro n hn
    obtain ⟨a, -, hget⟩ := exists_of_forall₂ h hn
    exact List.mem_range.mpr (List.getElem?_eq_some_iff.mp hget).1
  obtain ⟨ns', hperm, hsub⟩ := List.subperm_of_subset hnodup hsubset
  have hl := hperm.filterMap (l'[·]?)
  have hl' := hsub.filterMap (l'[·]?)
  rw [filterMap_of_forall₂ h] at hl
  rw [filterMap_of_forall₂ hrange] at hl'
  exact ⟨_, hl, hl'⟩

/-! ## Calls of the AEAD -/

section Calls

variable [Interpreter] [Crypto]

/-- A call of the AEAD for the message that a session sends with a sequence. -/
structure MessageCall (session : SessionState) (n : Int) (call : AeadCall) (log : List Call) :
    Prop where
  bounds : 0 ≤ n ∧ n ≤ maxMessageSequence
  short : session.sendDirection.Short
  aead : call.aead = session.suite.buildAead
  key : (call.key, call.nonce) = messageKey session.sendDirection n.toNat
  associatedData : (session.sendMetadata n).associatedData = .ok call.associatedData
  derived : ∀ c ∈ messageCalls session.sendDirection n.toNat, c ∈ log

namespace MessageCall

variable {a b session : SessionState} {m n : Int} {call call' : AeadCall} {log log' : List Call}

theorem mono (h : MessageCall session n call log) (hlog : ∀ c ∈ log, c ∈ log') :
    MessageCall session n call log' :=
  ⟨h.bounds, h.short, h.aead, h.key, h.associatedData, fun c hc => hlog c (h.derived c hc)⟩

theorem continues (hab : a.Continues b) (h : MessageCall b n call log) :
    MessageCall a n call log := by
  obtain ⟨hbounds, hshort, haead, hkey, hdata, hderived⟩ := h
  rw [hab.sendDirection] at hshort hkey hderived
  rw [hab.suite] at haead
  rw [hab.sendMetadata] at hdata
  exact ⟨hbounds, hshort, haead, hkey, hdata, hderived⟩

/-- Without collisions, calls with one key and nonce are for one direction and sequence. -/
theorem unique (hfree : HkdfCollisionFree log) (h : MessageCall a m call log)
    (h' : MessageCall b n call' log)
    (hkey : (call.key, call.nonce) = (call'.key, call'.nonce)) :
    a.sendDirection = b.sendDirection ∧ m = n := by
  obtain ⟨hlo, hhi⟩ := h.bounds
  obtain ⟨hlo', hhi'⟩ := h'.bounds
  unfold maxMessageSequence at hhi hhi'
  obtain ⟨hdirection, hsequence⟩ := messageKey_inj hfree h.short h'.short
    (show m.toNat < 2 ^ 64 by omega) (show n.toNat < 2 ^ 64 by omega) h.derived h'.derived
    (h.key.symm.trans (hkey.trans h'.key))
  exact ⟨hdirection, by omega⟩

end MessageCall

/-- The call of a sender. -/
theorem SessionState.Sends.messageCall {session : SessionState} {plaintext : Bytes}
    {call : AeadCall} (h : session.Sends plaintext call) (log : List Call) :
    MessageCall session session.sendSequence call (log ++ session.sendCalls call) :=
  ⟨h.sequence, h.short, h.aead, h.key, h.associatedData, fun _ hc =>
    List.mem_append_right _ (List.mem_append_left _ hc)⟩

/-- The call of a receiver is for the message of the session it mirrors. -/
theorem SessionState.Opens.messageCall {session peer : SessionState} {blob : Value} {n : Int}
    {call : AeadCall} (h : session.Opens blob n call) (hmirrors : peer.Mirrors session)
    (log : List Call) : MessageCall peer n call (log ++ session.receiveCalls n call) := by
  have hbounds := (ReplayWindow.checkUnlocked_ok.mp h.fresh).2
  refine ⟨⟨hbounds.1, hbounds.2.1⟩, ?_, ?_, ?_, ?_, fun c hc => ?_⟩
  · rw [hmirrors.direction]
    exact h.short
  · rw [hmirrors.suite]
    exact h.aead
  · rw [hmirrors.direction]
    exact h.key
  · rw [hmirrors.metadata]
    exact h.associatedData
  · rw [hmirrors.direction] at hc
    exact List.mem_append_right _ (List.mem_append_left _ hc)

/-- What a session has sealed, the session that mirrors it opens. -/
theorem MessageCall.opens (hopen : OpensSealed) {session peer : SessionState} {n : Int}
    {call : AeadCall} {log : List Call} (h : MessageCall session n call log)
    (hmirrors : session.Mirrors peer) {ciphertext : Bytes}
    (hseal : Crypto.encrypt call.aead call.key call.nonce call.data call.associatedData =
      .ok ciphertext) {blob : Value}
    (hpacket : MessageEnvelope.fromBytes blob = .ok ((session.sendMetadata n).envelope ciphertext))
    (hfresh : peer.replayWindow.checkUnlocked (.int n) = .ok n) :
    ∃ opening : AeadCall, peer.Opens blob n opening ∧ opening.result = some call.data := by
  refine ⟨{ call with data := ciphertext, result := some call.data }, ⟨?_, hfresh, ?_, ?_, ?_, ?_,
    ?_⟩, rfl⟩
  · rw [← hmirrors.metadata]
    exact hpacket
  · rw [← hmirrors.direction]
    exact h.short
  · rw [← hmirrors.suite]
    exact h.aead
  · rw [← hmirrors.direction]
    exact h.key
  · rw [← hmirrors.metadata]
    exact h.associatedData
  · exact (toOption_eq_some.mpr (hopen _ _ _ _ _ _ hseal)).symm

end Calls

/-! ## One use -/

namespace Channel

variable [Interpreter] [Crypto]

/-- What a use of the channel does. -/
inductive Does (s : Frame Channel Call) : Use → Except PyError Value → Frame Channel Call → Prop
  | rejected {use e t} (hself : t.self = s.self) (hlog : Extends Call.Silent s.log t.log) :
      Does s use (.error e) t
  | sent {side plaintext call ciphertext packet}
      (hsends : (s.self side).session.Sends plaintext call)
      (hresult : call.result = some ciphertext)
      (hpacket : (((s.self side).session.sendMetadata
        (s.self side).session.sendSequence).envelope ciphertext).toBytes = .ok packet) :
      Does s (.encrypt side (.bytes plaintext)) (.ok (.bytes packet))
        ⟨Function.update s.self side ⟨(s.self side).session.advance,
          (s.self side).sent ++ [⟨.bytes plaintext, .bytes packet⟩], (s.self side).opened⟩,
          s.log ++ (s.self side).session.sendCalls call⟩
  | unsealed {side plaintext call e}
      (hsends : (s.self side).session.Sends plaintext call) (hresult : call.result = none) :
      Does s (.encrypt side (.bytes plaintext)) (.error e)
        ⟨s.self, s.log ++ (s.self side).session.sendCalls call⟩
  | opened {side blob n call plaintext} (hopens : (s.self side).session.Opens blob n call)
      (hresult : call.result = some plaintext) :
      Does s (.decrypt side blob) (.ok (.bytes plaintext))
        ⟨Function.update s.self side ⟨(s.self side).session.accept n, (s.self side).sent,
          (s.self side).opened ++ [⟨.bytes plaintext, blob⟩]⟩,
          s.log ++ (s.self side).session.receiveCalls n call⟩

theorem step_does (s : Frame Channel Call) (use : Use) :
    Does s use (step s use).1 (step s use).2 := by
  have hsame : ∀ side, Function.update s.self side
      ⟨(s.self side).session, (s.self side).sent, (s.self side).opened⟩ = s.self :=
    fun side => Function.update_eq_self side s.self
  unfold step perform
  cases use with
  | encrypt side plaintext =>
    have hruns := SessionState.encrypt_runs plaintext ⟨(s.self side).session, s.log⟩
    simp only [Method.run_zoom, Endpoint.encrypt_run]
    rcases hrun : (SessionState.encrypt plaintext).run ⟨(s.self side).session, s.log⟩ with
      ⟨e | packet, t⟩
    · obtain ⟨hself, hlog⟩ := hruns.of_error hrun
      simp only [hself, hsame]
      rcases hlog with hlog | ⟨data, call, rfl, hsends, hnone, hlog⟩
      · exact .rejected rfl hlog
      · rw [hlog]
        exact .unsealed hsends hnone
    · obtain ⟨data, call, ciphertext, rfl, hsends, hresult, hpacket, rfl⟩ := hruns.of_ok hrun
      exact .sent hsends hresult hpacket
  | decrypt side blob =>
    have hruns := SessionState.decrypt_runs blob ⟨(s.self side).session, s.log⟩
    simp only [Method.run_zoom, Endpoint.decrypt_run]
    rcases hrun : (SessionState.decrypt blob).run ⟨(s.self side).session, s.log⟩ with
      ⟨e | plaintext, t⟩
    · obtain ⟨hself, hlog⟩ := hruns.of_error hrun
      simp only [hself, hsame]
      exact .rejected rfl hlog
    · obtain ⟨n, call, hopens, hresult, rfl⟩ := hruns.of_ok hrun
      exact .opened hopens hresult

/-! ## The invariant -/

/-- How a packet came to be sent. -/
structure SentAs (session : SessionState) (n : Int) (log : List Call) (d : Delivery)
    (call : AeadCall) : Prop where
  logged : .encrypted call ∈ log
  message : MessageCall session n call log
  plaintext : d.plaintext = .bytes call.data
  packet : ∃ ciphertext packet, call.result = some ciphertext ∧
    Crypto.encrypt call.aead call.key call.nonce call.data call.associatedData = .ok ciphertext ∧
    ((session.sendMetadata n).envelope ciphertext).toBytes = .ok packet ∧ d.packet = .bytes packet

/-- How a packet from a session was opened. -/
structure OpenedAs (session : SessionState) (log : List Call) (n : Int) (d : Delivery) : Prop where
  call : ∃ call plaintext, .decrypted call ∈ log ∧ call.result = some plaintext ∧
    MessageCall session n call log ∧ d.plaintext = .bytes plaintext ∧
    MessageEnvelope.fromBytes d.packet = .ok ((session.sendMetadata n).envelope call.data)

theorem SentAs.mono {session : SessionState} {n : Int} {log log' : List Call} {d : Delivery}
    {call : AeadCall} (h : SentAs session n log d call) (hlog : ∀ c ∈ log, c ∈ log') :
    SentAs session n log' d call :=
  ⟨hlog _ h.logged, h.message.mono hlog, h.plaintext, h.packet⟩

theorem OpenedAs.mono {session : SessionState} {n : Int} {log log' : List Call} {d : Delivery}
    (h : OpenedAs session log n d) (hlog : ∀ c ∈ log, c ∈ log') : OpenedAs session log' n d := by
  obtain ⟨call, plaintext, hlogged, hresult, hmessage, hplaintext, hpacket⟩ := h
  exact ⟨call, plaintext, hlog _ hlogged, hresult, hmessage.mono hlog, hplaintext, hpacket⟩

/-- What holds of the channel at any time. -/
structure Invariant (sessions : Side → SessionState) (s : Frame Channel Call) : Prop where
  continues : ∀ side, (sessions side).Continues (s.self side).session
  count : ∀ side, (s.self side).session.sendSequence = (s.self side).sent.length
  sent : ∀ side (n : Nat) d, (s.self side).sent[n]? = some d →
    ∃ call, SentAs (sessions side) n s.log d call
  sealed : ∀ call ciphertext, .encrypted call ∈ s.log → call.result = some ciphertext →
    ∃ side, ∃ (n : Nat) (d : Delivery), (s.self side).sent[n]? = some d ∧
      SentAs (sessions side) n s.log d call
  opened : ∀ side, ∃ ns : List Int, ns.Nodup ∧
    List.Forall₂ (OpenedAs (sessions side.other) s.log) ns (s.self side).opened ∧
    Refines (s.self side).session.replayWindow ns.toFinset

variable {sessions : Side → SessionState} {s t : Frame Channel Call} {use : Use}
  {result : Except PyError Value}

theorem invariant_start (hpaired : Paired sessions) : Invariant sessions (start sessions) where
  continues side := .refl _
  count side := hpaired.sendSequence side
  sent _ _ _ h := by cases h
  sealed _ _ h := by cases h
  opened side := by
    refine ⟨[], List.nodup_nil, .nil, ?_⟩
    rw [show (start sessions).self side = ⟨sessions side, [], []⟩ from rfl, hpaired.replayWindow]
    exact Refines.ofSize _ _

theorem Does.log_mem (h : Does s use result t) : ∀ c ∈ s.log, c ∈ t.log := by
  intro c hc
  cases h with
  | rejected _ hlog => exact hlog.mem hc
  | _ => exact List.mem_append_left _ hc

/-- What was sent stays sent. -/
theorem Does.sent_mono (h : Does s use result t) {side : Side} {n : Nat} {d : Delivery}
    (hd : (s.self side).sent[n]? = some d) : (t.self side).sent[n]? = some d := by
  cases h with
  | rejected hself _ => exact hself ▸ hd
  | unsealed => exact hd
  | @sent side' =>
    by_cases hside : side = side'
    · subst hside
      simp only [Function.update_self]
      exact Machine.getElem?_concat.mpr (Or.inl hd)
    · simp only [Function.update_of_ne hside]
      exact hd
  | @opened side' =>
    by_cases hside : side = side'
    · subst hside
      simp only [Function.update_self]
      exact hd
    · simp only [Function.update_of_ne hside]
      exact hd

/-- Calls that leave the ends as they are and seal nothing. -/
theorem Invariant.extend (h : Invariant sessions s) (calls : List Call)
    (hcalls : ∀ call ciphertext, .encrypted call ∈ calls → call.result ≠ some ciphertext) :
    Invariant sessions ⟨s.self, s.log ++ calls⟩ where
  continues := h.continues
  count := h.count
  sent side n d hd := by
    obtain ⟨call, hcall⟩ := h.sent side n d hd
    exact ⟨call, hcall.mono fun _ => List.mem_append_left _⟩
  sealed call ciphertext hcall hresult := by
    rcases List.mem_append.mp hcall with hcall | hcall
    · obtain ⟨side, n, d, hd, hsent⟩ := h.sealed call ciphertext hcall hresult
      exact ⟨side, n, d, hd, hsent.mono fun _ => List.mem_append_left _⟩
    · exact absurd hresult (hcalls call ciphertext hcall)
  opened side := by
    obtain ⟨ns, hnodup, hopened, hrefines⟩ := h.opened side
    exact ⟨ns, hnodup, hopened.imp fun _ _ h => h.mono fun _ => List.mem_append_left _, hrefines⟩

omit [Interpreter] in
theorem sendCalls_encrypted {session : SessionState} {call call' : AeadCall}
    (h : .encrypted call' ∈ session.sendCalls call) : call' = call := by
  rcases List.mem_append.mp h with h | h
  · cases SessionState.messageCalls_silent _ h
  · exact Call.encrypted.inj (List.mem_singleton.mp h)

/-- One use keeps the invariant. -/
theorem Does.invariant (hpaired : Paired sessions) (h : Does s use result t)
    (hinv : Invariant sessions s) : Invariant sessions t := by
  have hmem := h.log_mem
  have hsame := fun side n d => @Does.sent_mono _ _ s t use result h side n d
  cases h with
  | rejected hself hlog =>
    obtain ⟨self, log⟩ := t
    obtain rfl : self = s.self := hself
    obtain ⟨calls, rfl, hsilent⟩ := hlog
    exact hinv.extend _ fun call _ hcall => by cases hsilent _ hcall
  | unsealed hsends hresult =>
    refine hinv.extend _ fun call ciphertext hcall h => ?_
    rw [sendCalls_encrypted hcall, hresult] at h
    cases h
  | @sent side plaintext call ciphertext packet hsends hresult hpacket =>
    have hcontinues := hinv.continues side
    have hnew : SentAs (sessions side) (s.self side).session.sendSequence
        (s.log ++ (s.self side).session.sendCalls call) ⟨.bytes plaintext, .bytes packet⟩ call := by
      refine ⟨List.mem_append_right _ (List.mem_append_right _ (List.mem_singleton.mpr rfl)),
        (hsends.messageCall s.log).continues hcontinues, congrArg Value.bytes hsends.data.symm,
        ciphertext, packet, hresult, toOption_eq_some.mp (hsends.result.symm.trans hresult), ?_,
        rfl⟩
      rw [← hcontinues.sendMetadata]
      exact hpacket
    have hcount := hinv.count side
    refine ⟨?_, ?_, ?_, fun call' ciphertext' hcall hresult' => ?_, ?_⟩
    · exact (Function.forall_update_iff s.self fun side e =>
        (sessions side).Continues e.session).mpr
          ⟨hcontinues.trans (.advance _), fun side' _ => hinv.continues side'⟩
    · refine (Function.forall_update_iff s.self fun _ e =>
        e.session.sendSequence = (e.sent.length : Int)).mpr ⟨?_, fun side' _ => hinv.count side'⟩
      simp only [SessionState.advance, List.length_append, List.length_singleton]
      omega
    · refine (Function.forall_update_iff s.self fun side e => ∀ (n : Nat) (d : Delivery),
        e.sent[n]? = some d → ∃ call, SentAs (sessions side) n _ d call).mpr
          ⟨fun n d hd => ?_, fun side' _ n d hd => ?_⟩
      · rcases Machine.getElem?_concat.mp hd with hd | ⟨rfl, rfl⟩
        · obtain ⟨call', hcall'⟩ := hinv.sent side n d hd
          exact ⟨call', hcall'.mono hmem⟩
        · exact ⟨call, hcount ▸ hnew⟩
      · obtain ⟨call', hcall'⟩ := hinv.sent side' n d hd
        exact ⟨call', hcall'.mono hmem⟩
    · rcases List.mem_append.mp hcall with hcall | hcall
      · obtain ⟨side', n, d, hd, hsent⟩ := hinv.sealed call' ciphertext' hcall hresult'
        exact ⟨side', n, d, hsame side' n d hd, hsent.mono hmem⟩
      · obtain rfl := sendCalls_encrypted hcall
        refine ⟨side, (s.self side).sent.length, _, ?_, hcount ▸ hnew⟩
        simp only [Function.update_self]
        exact Machine.getElem?_concat.mpr (Or.inr ⟨rfl, rfl⟩)
    · refine (Function.forall_update_iff s.self fun side e => ∃ ns : List Int, ns.Nodup ∧
        List.Forall₂ (OpenedAs (sessions side.other) _) ns e.opened ∧
        Refines e.session.replayWindow ns.toFinset).mpr ⟨?_, fun side' _ => ?_⟩
      · obtain ⟨ns, hnodup, hopened, hrefines⟩ := hinv.opened side
        exact ⟨ns, hnodup, hopened.imp fun _ _ h => h.mono hmem, hrefines⟩
      · obtain ⟨ns, hnodup, hopened, hrefines⟩ := hinv.opened side'
        exact ⟨ns, hnodup, hopened.imp fun _ _ h => h.mono hmem, hrefines⟩
  | @opened side blob n call plaintext hopens hresult =>
    have hextend := hinv.extend ((s.self side).session.receiveCalls n call)
      fun call' _ hcall => by
        cases SessionState.receiveCalls_silent (s.self side).session n call _ hcall
    have hmirrors : (sessions side.other).Mirrors (s.self side).session :=
      SessionState.Continues.mirrors (.refl _) (hinv.continues side)
        (hpaired.mirrors_other side)
    have hnew : OpenedAs (sessions side.other)
        (s.log ++ (s.self side).session.receiveCalls n call) n ⟨.bytes plaintext, blob⟩ := by
      refine ⟨call, plaintext, List.mem_append_right _ (List.mem_append_right _
        (List.mem_singleton.mpr rfl)), hresult, hopens.messageCall hmirrors s.log, rfl, ?_⟩
      rw [hmirrors.metadata]
      exact hopens.packet
    refine ⟨?_, ?_, ?_, fun call' ciphertext' hcall hresult' => ?_, ?_⟩
    · exact (Function.forall_update_iff s.self fun side e =>
        (sessions side).Continues e.session).mpr
          ⟨(hinv.continues side).trans (.accept _ _), fun side' _ => hinv.continues side'⟩
    · exact (Function.forall_update_iff s.self fun _ e =>
        e.session.sendSequence = (e.sent.length : Int)).mpr
          ⟨hinv.count side, fun side' _ => hinv.count side'⟩
    · exact (Function.forall_update_iff s.self fun side e => ∀ (n : Nat) (d : Delivery),
        e.sent[n]? = some d → ∃ call, SentAs (sessions side) n _ d call).mpr
          ⟨hextend.sent side, fun side' _ => hextend.sent side'⟩
    · obtain ⟨side', n', d, hd, hsent⟩ := hextend.sealed call' ciphertext' hcall hresult'
      exact ⟨side', n', d, hsame side' n' d hd, hsent⟩
    · refine (Function.forall_update_iff s.self fun side e => ∃ ns : List Int, ns.Nodup ∧
        List.Forall₂ (OpenedAs (sessions side.other) _) ns e.opened ∧
        Refines e.session.replayWindow ns.toFinset).mpr
          ⟨?_, fun side' _ => hextend.opened side'⟩
      obtain ⟨ns, hnodup, hopened, hrefines⟩ := hextend.opened side
      have hfresh : n ∉ ns := by
        have hcheck := (hrefines.check (.int n) n).mp hopens.fresh
        exact fun hn => (accepts_eq_some.mp hcheck).2.2.2.1 (List.mem_toFinset.mpr hn)
      refine ⟨ns ++ [n], ?_, List.rel_append hopened (.cons hnew .nil), ?_⟩
      · exact List.nodup_append.mpr ⟨hnodup, List.nodup_singleton n, fun m hm k hk =>
          fun h => hfresh (List.mem_singleton.mp hk ▸ h ▸ hm)⟩
      · have hset : (ns ++ [n]).toFinset = insert n ns.toFinset := by
          ext m
          simp
        rw [hset]
        exact hrefines.record n

theorem invariant_reached (hpaired : Paired sessions) (uses : List Use) :
    Invariant sessions (reached sessions uses) :=
  Machine.run_invariant (fun s use hinv => (step_does s use).invariant hpaired hinv)
    (invariant_start hpaired) uses

/-! ## Authenticity -/

/-- **A packet that was opened is the one that was sent with its sequence.** -/
theorem OpenedAs.sent (hpaired : Paired sessions) (hinv : Invariant sessions s)
    (hauthentic : Authentic s.log) (hfree : HkdfCollisionFree s.log) {side : Side} {n : Int}
    {d : Delivery} (h : OpenedAs (sessions side) s.log n d) :
    0 ≤ n ∧ (s.self side).sent[n.toNat]? = some d := by
  obtain ⟨call, plaintext, hlogged, hresult, hmessage, hplaintext, hpacket⟩ := h
  obtain ⟨side', m, d', hd', hsent⟩ :=
    hinv.sealed _ _ (hauthentic call plaintext hlogged hresult) rfl
  obtain ⟨hdirection, rfl⟩ := hsent.message.unique hfree hmessage rfl
  obtain rfl := hpaired.side_unique hdirection
  obtain ⟨ciphertext, packet, hciphertext, -, hbytes, hpacket'⟩ := hsent.packet
  obtain rfl := Option.some.inj hciphertext
  -- the packet that was parsed is the one that was written
  obtain ⟨_, _, bytes, hblob, -, hbytes'⟩ := toBytes_fromBytes hpacket
  obtain rfl := Except.ok.inj (hbytes.symm.trans hbytes')
  have heq : d' = d := by
    obtain ⟨plaintext', packet'⟩ := d'
    obtain ⟨plaintext'', packet''⟩ := d
    exact congrArg₂ Delivery.mk (hsent.plaintext.trans hplaintext.symm) (hpacket'.trans hblob.symm)
  refine ⟨Int.natCast_nonneg m, ?_⟩
  rw [Int.toNat_natCast, ← heq]
  exact hd'

/-- **What one end has opened, the other has sent**: each delivery that `decrypt` returned is a
packet that `encrypt` of the other end returned, with its plaintext, and no packet that was sent once
was opened twice. -/
theorem reached_authentic {sessions : Side → SessionState} (hpaired : Paired sessions)
    (uses : List Use) (hauthentic : Authentic (reached sessions uses).log)
    (hfree : HkdfCollisionFree (reached sessions uses).log) (side : Side) :
    ((reached sessions uses).self side).opened.Subperm
      ((reached sessions uses).self side.other).sent := by
  have hinv := invariant_reached hpaired uses
  obtain ⟨ns, hnodup, hopened, -⟩ := hinv.opened side
  have hsent := hopened.imp fun n d h => h.sent hpaired hinv hauthentic hfree
  refine subperm_of_indices (ns.map Int.toNat) ?_ ?_
  · exact List.forall₂_map_left_iff.mpr (hsent.imp fun _ _ h => h.2)
  · refine hnodup.map_on fun m hm n hn heq => ?_
    obtain ⟨_, -, hm, -⟩ := exists_of_forall₂ hsent hm
    obtain ⟨_, -, hn, -⟩ := exists_of_forall₂ hsent hn
    omega

end Channel

/-! ## A replay and a reflection -/

section Samples

open scoped Samples

def aliceSession : SessionState :=
  .new (lit "alice") (lit "bob") .aesGcmSiv (List.replicate 32 7) (List.replicate 32 1)
    (List.replicate 32 2)

def bobSession : SessionState :=
  .new (lit "bob") (lit "alice") .aesGcmSiv (List.replicate 32 7) (List.replicate 32 2)
    (List.replicate 32 1)

/-- Alice on the left, Bob on the right. -/
def sampleSessions : Side → SessionState
  | .left => aliceSession
  | .right => bobSession

theorem paired_sampleSessions : Paired sampleSessions := by
  refine ⟨?_, ?_, ?_, ?_⟩ <;> rintro (_ | _)
  · exact ⟨rfl, rfl, rfl, rfl, rfl, rfl⟩
  · exact ⟨rfl, rfl, rfl, rfl, rfl, rfl⟩
  · decide
  · decide
  · rfl
  · rfl
  · rfl
  · rfl

/-- Alice sends two packets. -/
def twoSent : List Use := [.encrypt .left (.bytes [1]), .encrypt .left (.bytes [2])]

/-- The packet of a sequence. -/
def packetOf (n : Nat) : Value :=
  ((((Channel.reached sampleSessions twoSent).self .left).sent[n]?).map Delivery.packet).getD .none

/-- Bob gets the second packet, twice, and Alice gets it back. -/
def replaying : List Use :=
  twoSent ++ [.decrypt .right (packetOf 1), .decrypt .right (packetOf 1),
    .decrypt .left (packetOf 1)]

theorem reached_authentic_replaying :
    ((Channel.reached sampleSessions replaying).self .right).opened.length = 1 ∧
    ((Channel.reached sampleSessions replaying).self .right).opened.Subperm
      ((Channel.reached sampleSessions replaying).self .left).sent := by
  have hrun : (fun s : Frame Channel Call => (s.self .right).opened.length = 1 ∧ Authentic s.log ∧
      HkdfCollisionFree s.log) (Channel.reached sampleSessions replaying) := by
    decide +kernel
  obtain ⟨hlength, hauthentic, hfree⟩ := hrun
  have hsubperm := Channel.reached_authentic paired_sampleSessions replaying hauthentic hfree .right
  rw [show Side.right.other = .left from rfl] at hsubperm
  exact ⟨hlength, hsubperm⟩

end Samples

end CypherSyntax
