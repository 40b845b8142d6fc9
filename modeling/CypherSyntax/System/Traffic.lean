import CypherSyntax.Channel.Delivery
import CypherSyntax.System.Nonces
import CypherSyntax.Wire.AssociatedData

/-!
# Traffic

What the sessions of a run send and open (`SessionState` of session.py, in the system of
`System.lean`). A session knows its peer by nothing but the root key and the names and ephemeral
keys of the handshake; that a packet it opens comes from that peer is a fact about the run.

The premise on the AEAD is `AuthenticUnder`: what it opens under the keys of a session's incoming
direction was sealed in the same run. So the peer is one whose calls are in the run. A session with
a party outside of it opens what nobody in the run has sealed, and nothing is said of it.

Results:
* `Does.traffic`: every sealed packet belongs to a session and its place in what the session sent.
* `traffic_authentic`: what a session has opened was sent by the one session that mirrors it.
* `traffic_delivers`: what that session has sent is opened, whatever happened before.
-/

namespace CypherSyntax

open Python Json

/-! ## The other end -/

namespace SessionState

/-- What the peer of a session looks like to it. -/
def flip (self : SessionState) : SessionState :=
  { self with
    localName := self.remoteName
    remoteName := self.localName
    localEphemeralPublicBytes := self.remoteEphemeralPublicBytes
    remoteEphemeralPublicBytes := self.localEphemeralPublicBytes }

theorem flip_mirrors (self : SessionState) : self.flip.Mirrors self :=
  ⟨rfl, rfl, rfl, rfl, rfl, rfl⟩

namespace Continues

variable {a b : SessionState}

theorem symm (h : a.Continues b) : b.Continues a := by
  obtain ⟨_, _, rfl⟩ := h
  exact ⟨a.sendSequence, a.replayWindow, rfl⟩

theorem flip (h : a.Continues b) : a.flip.Continues b.flip := by
  obtain ⟨n, w, rfl⟩ := h
  exact ⟨n, w, rfl⟩

end Continues

end SessionState

section Traffic

variable [Interpreter] [Crypto]

namespace Channel

variable {a b : SessionState} {n : Int} {log : List Call} {d : Delivery} {call : AeadCall}

theorem SentAs.continues (hab : a.Continues b) (h : SentAs b n log d call) :
    SentAs a n log d call := by
  obtain ⟨ciphertext, packet, hresult, hseal, hbytes, hpacket⟩ := h.packet
  refine ⟨h.logged, h.message.continues hab, h.plaintext, ciphertext, packet, hresult, hseal, ?_,
    hpacket⟩
  rw [← hab.sendMetadata]
  exact hbytes

theorem OpenedAs.continues (hab : a.Continues b) (h : OpenedAs b log n d) :
    OpenedAs a log n d := by
  obtain ⟨call, plaintext, hlogged, hresult, hmessage, hplaintext, hpacket⟩ := h
  refine ⟨call, plaintext, hlogged, hresult, hmessage.continues hab, hplaintext, ?_⟩
  rw [← hab.sendMetadata]
  exact hpacket

end Channel

/-! ## What the sessions of a run do -/

namespace System

/-- The packet that a call of `encrypt` of a session has returned. -/
def sent? (handle : Handle) : Event × Except PyError Answer → Option Delivery
  | (.encrypt other plaintext, .ok (.packet blob)) =>
    if other = handle then some ⟨plaintext, .bytes blob⟩ else none
  | _ => none

/-- The packet that a call of `decrypt` of a session has opened. -/
def opened? (handle : Handle) : Event × Except PyError Answer → Option Delivery
  | (.decrypt other blob, .ok (.plaintext data)) =>
    if other = handle then some ⟨.bytes data, blob⟩ else none
  | _ => none

/-- What the session has sent in the run, oldest first. -/
def sentBy (es : List Event) (handle : Handle) : List Delivery :=
  (Machine.trace step start es).filterMap (sent? handle)

/-- What the session has opened in the run, oldest first. -/
def openedBy (es : List Event) (handle : Handle) : List Delivery :=
  (Machine.trace step start es).filterMap (opened? handle)

/-- How what was sent and opened shows in the state. -/
structure Traffic (sent opened : Handle → List Delivery) (s : Frame System Call) : Prop where
  idle : ∀ handle, s.self.session? handle = none → sent handle = [] ∧ opened handle = []
  count : ∀ handle session, s.self.session? handle = some session →
    session.sendSequence = (sent handle).length
  sentAs : ∀ handle session, s.self.session? handle = some session → ∀ (n : Nat) d,
    (sent handle)[n]? = some d → ∃ call, Channel.SentAs session n s.log d call
  sealedAs : ∀ call ciphertext, .encrypted call ∈ s.log → call.result = some ciphertext →
    ∃ handle session, s.self.session? handle = some session ∧ ∃ (n : Nat) (d : Delivery),
      (sent handle)[n]? = some d ∧ Channel.SentAs session n s.log d call
  openedAs : ∀ handle session, s.self.session? handle = some session → ∃ ns : List Int, ns.Nodup ∧
    List.Forall₂ (Channel.OpenedAs session.flip s.log) ns (opened handle) ∧
    Refines session.replayWindow ns.toFinset

variable {s t : Frame System Call} {sent opened : Handle → List Delivery}

theorem traffic_start : Traffic (fun _ => []) (fun _ => []) start where
  idle _ _ := ⟨rfl, rfl⟩
  count handle _ h := by cases handle <;> cases h
  sentAs handle _ h := by cases handle <;> cases h
  sealedAs _ _ h := by cases h
  openedAs handle _ h := by cases handle <;> cases h

/-- Events that leave the sessions as they are and seal nothing. -/
theorem Traffic.extend (h : Traffic sent opened s) {self : System} {calls : List Call}
    (hself : ∀ handle, self.session? handle = s.self.session? handle)
    (hcalls : ∀ call ciphertext, .encrypted call ∈ calls → call.result ≠ some ciphertext) :
    Traffic sent opened ⟨self, s.log ++ calls⟩ where
  idle handle hnone := h.idle handle ((hself handle).symm.trans hnone)
  count handle session hsession := h.count handle session ((hself handle).symm.trans hsession)
  sentAs handle session hsession n d hd := by
    obtain ⟨call, hcall⟩ := h.sentAs handle session ((hself handle).symm.trans hsession) n d hd
    exact ⟨call, hcall.mono fun _ => List.mem_append_left _⟩
  sealedAs call ciphertext hcall hresult := by
    rcases List.mem_append.mp hcall with hcall | hcall
    · obtain ⟨handle, session, hsession, n, d, hd, hsent⟩ := h.sealedAs call ciphertext hcall hresult
      exact ⟨handle, session, (hself handle).trans hsession, n, d, hd,
        hsent.mono fun _ => List.mem_append_left _⟩
    · exact absurd hresult (hcalls call ciphertext hcall)
  openedAs handle session hsession := by
    obtain ⟨ns, hnodup, hopened, hrefines⟩ :=
      h.openedAs handle session ((hself handle).symm.trans hsession)
    exact ⟨ns, hnodup, hopened.imp fun _ _ h => h.mono fun _ => List.mem_append_left _, hrefines⟩

/-- A handshake ends in a new session. -/
theorem Traffic.establish (h : Traffic sent opened s) {self : System} {new : Handle}
    {session : SessionState} (hnone : s.self.session? new = none)
    (hself : ∀ handle, self.session? handle =
      if new = handle then some session else s.self.session? handle)
    (hsequence : session.sendSequence = 0) (hwindow : session.replayWindow = ReplayWindow.default) :
    Traffic sent opened ⟨self, s.log⟩ := by
  obtain ⟨hsent, hopened⟩ := h.idle new hnone
  have hcases : ∀ {handle : Handle} {current : SessionState},
      self.session? handle = some current →
      new = handle ∧ session = current ∨ s.self.session? handle = some current := by
    intro handle current hcurrent
    rw [hself] at hcurrent
    by_cases hnew : new = handle
    · rw [if_pos hnew] at hcurrent
      exact Or.inl ⟨hnew, Option.some.inj hcurrent⟩
    · rw [if_neg hnew] at hcurrent
      exact Or.inr hcurrent
  refine ⟨fun handle hidle => h.idle handle ?_, fun handle current hcurrent => ?_,
    fun handle current hcurrent n d hd => ?_, fun call ciphertext hcall hresult => ?_,
    fun handle current hcurrent => ?_⟩
  · by_cases hnew : new = handle
    · exact hnew ▸ hnone
    · exact (if_neg hnew).symm.trans ((hself handle).symm.trans hidle)
  · rcases hcases hcurrent with ⟨rfl, rfl⟩ | hcurrent
    · rw [hsequence, hsent]
      rfl
    · exact h.count handle current hcurrent
  · rcases hcases hcurrent with ⟨rfl, rfl⟩ | hcurrent
    · rw [hsent] at hd
      cases hd
    · exact h.sentAs handle current hcurrent n d hd
  · obtain ⟨handle, current, hcurrent, n, d, hd, hsentAs⟩ := h.sealedAs call ciphertext hcall hresult
    refine ⟨handle, current, ?_, n, d, hd, hsentAs⟩
    rw [hself, if_neg fun hnew => ?_]
    · exact hcurrent
    · rw [← hnew, hnone] at hcurrent
      cases hcurrent
  · rcases hcases hcurrent with ⟨rfl, rfl⟩ | hcurrent
    · refine ⟨[], List.nodup_nil, ?_, ?_⟩
      · rw [hopened]
        exact .nil
      · rw [hwindow]
        exact Refines.ofSize _ _
    · exact h.openedAs handle current hcurrent

/-- What a session does to what it has sent and opened. -/
theorem session?_cases {self : System} {handle other : Handle} {old session current : SessionState}
    (hold : self.session? handle = some old)
    (h : (self.setSession handle session).session? other = some current) :
    handle = other ∧ session = current ∨ handle ≠ other ∧ self.session? other = some current := by
  rw [session?_setSession hold] at h
  by_cases hother : handle = other
  · rw [if_pos hother] at h
    exact Or.inl ⟨hother, Option.some.inj h⟩
  · rw [if_neg hother] at h
    exact Or.inr ⟨hother, h⟩

/-- Nothing changes for a handle without a session. -/
theorem session?_setSession_none {self : System} {handle other : Handle}
    {old session : SessionState} (hold : self.session? handle = some old)
    (h : (self.setSession handle session).session? other = none) :
    handle ≠ other ∧ self.session? other = none := by
  rw [session?_setSession hold] at h
  by_cases hother : handle = other
  · rw [if_pos hother] at h
    cases h
  · rw [if_neg hother] at h
    exact ⟨hother, h⟩

/-- A session sends one more packet. -/
theorem Traffic.send (h : Traffic sent opened s) {handle : Handle} {session : SessionState}
    {plaintext ciphertext packet : Bytes} {call : AeadCall}
    (hsession : s.self.session? handle = some session) (hsends : session.Sends plaintext call)
    (hresult : call.result = some ciphertext)
    (hpacket : ((session.sendMetadata session.sendSequence).envelope ciphertext).toBytes =
      .ok packet) :
    Traffic (Function.update sent handle (sent handle ++ [⟨.bytes plaintext, .bytes packet⟩]))
      opened ⟨s.self.setSession handle session.advance, s.log ++ session.sendCalls call⟩ := by
  have hcount := h.count handle session hsession
  have hmem : ∀ c ∈ s.log, c ∈ s.log ++ session.sendCalls call :=
    fun _ => List.mem_append_left _
  have hnew : Channel.SentAs session session.sendSequence (s.log ++ session.sendCalls call)
      ⟨.bytes plaintext, .bytes packet⟩ call :=
    ⟨List.mem_append_right _ (List.mem_append_right _ (List.mem_singleton.mpr rfl)),
      hsends.messageCall s.log, congrArg Value.bytes hsends.data.symm, ciphertext, packet, hresult,
      toOption_eq_some.mp (hsends.result.symm.trans hresult), hpacket, rfl⟩
  have hback : session.advance.Continues session := (SessionState.Continues.advance session).symm
  refine ⟨fun other hnone => ?_, fun other current hcurrent => ?_,
    fun other current hcurrent n d hd => ?_, fun call' ciphertext' hcall hresult' => ?_,
    fun other current hcurrent => ?_⟩
  · obtain ⟨hother, hnone⟩ := session?_setSession_none hsession hnone
    rw [Function.update_of_ne hother.symm]
    exact h.idle other hnone
  · rcases session?_cases hsession hcurrent with ⟨rfl, rfl⟩ | ⟨hother, hcurrent⟩
    · rw [Function.update_self, List.length_append, List.length_singleton]
      show session.sendSequence + 1 = _
      omega
    · rw [Function.update_of_ne hother.symm]
      exact h.count other current hcurrent
  · rcases session?_cases hsession hcurrent with ⟨rfl, rfl⟩ | ⟨hother, hcurrent⟩
    · rw [Function.update_self] at hd
      rcases Machine.getElem?_concat.mp hd with hd | ⟨rfl, rfl⟩
      · obtain ⟨call', hcall'⟩ := h.sentAs handle session hsession n d hd
        exact ⟨call', (hcall'.mono hmem).continues hback⟩
      · exact ⟨call, (hcount ▸ hnew).continues hback⟩
    · rw [Function.update_of_ne hother.symm] at hd
      obtain ⟨call', hcall'⟩ := h.sentAs other current hcurrent n d hd
      exact ⟨call', hcall'.mono hmem⟩
  · rcases List.mem_append.mp hcall with hcall | hcall
    · obtain ⟨other, current, hcurrent, n, d, hd, hsentAs⟩ :=
        h.sealedAs call' ciphertext' hcall hresult'
      by_cases hother : handle = other
      · subst hother
        obtain rfl := Option.some.inj (hsession.symm.trans hcurrent)
        refine ⟨handle, session.advance, ?_, n, d, ?_, (hsentAs.mono hmem).continues hback⟩
        · rw [session?_setSession hsession, if_pos rfl]
        · rw [Function.update_self]
          exact Machine.getElem?_concat.mpr (Or.inl hd)
      · refine ⟨other, current, ?_, n, d, ?_, hsentAs.mono hmem⟩
        · rw [session?_setSession hsession, if_neg hother]
          exact hcurrent
        · rw [Function.update_of_ne (Ne.symm hother)]
          exact hd
    · obtain rfl := Channel.sendCalls_encrypted hcall
      refine ⟨handle, session.advance, ?_, (sent handle).length,
        ⟨.bytes plaintext, .bytes packet⟩, ?_, (hcount ▸ hnew).continues hback⟩
      · rw [session?_setSession hsession, if_pos rfl]
      · rw [Function.update_self]
        exact Machine.getElem?_concat.mpr (Or.inr ⟨rfl, rfl⟩)
  · rcases session?_cases hsession hcurrent with ⟨rfl, rfl⟩ | ⟨-, hcurrent⟩
    · obtain ⟨ns, hnodup, hopened, hrefines⟩ := h.openedAs handle session hsession
      exact ⟨ns, hnodup, hopened.imp fun _ _ h => (h.mono hmem).continues hback.flip, hrefines⟩
    · obtain ⟨ns, hnodup, hopened, hrefines⟩ := h.openedAs other current hcurrent
      exact ⟨ns, hnodup, hopened.imp fun _ _ h => h.mono hmem, hrefines⟩

/-- A session opens a packet. -/
theorem Traffic.receive (h : Traffic sent opened s) {handle : Handle} {session : SessionState}
    {blob : Value} {n : Int} {call : AeadCall} {plaintext : Bytes}
    (hsession : s.self.session? handle = some session) (hopens : session.Opens blob n call)
    (hresult : call.result = some plaintext) :
    Traffic sent (Function.update opened handle (opened handle ++ [⟨.bytes plaintext, blob⟩]))
      ⟨s.self.setSession handle (session.accept n), s.log ++ session.receiveCalls n call⟩ := by
  have hmem : ∀ c ∈ s.log, c ∈ s.log ++ session.receiveCalls n call :=
    fun _ => List.mem_append_left _
  have hback : (session.accept n).Continues session :=
    (SessionState.Continues.accept session n).symm
  refine ⟨fun other hnone => ?_, fun other current hcurrent => ?_,
    fun other current hcurrent m d hd => ?_, fun call' ciphertext' hcall hresult' => ?_,
    fun other current hcurrent => ?_⟩
  · obtain ⟨hother, hnone⟩ := session?_setSession_none hsession hnone
    rw [Function.update_of_ne hother.symm]
    exact h.idle other hnone
  · rcases session?_cases hsession hcurrent with ⟨rfl, rfl⟩ | ⟨-, hcurrent⟩
    · exact h.count handle session hsession
    · exact h.count other current hcurrent
  · rcases session?_cases hsession hcurrent with ⟨rfl, rfl⟩ | ⟨-, hcurrent⟩
    · obtain ⟨call', hcall'⟩ := h.sentAs handle session hsession m d hd
      exact ⟨call', (hcall'.mono hmem).continues hback⟩
    · obtain ⟨call', hcall'⟩ := h.sentAs other current hcurrent m d hd
      exact ⟨call', hcall'.mono hmem⟩
  · rcases List.mem_append.mp hcall with hcall | hcall
    · obtain ⟨other, current, hcurrent, m, d, hd, hsentAs⟩ :=
        h.sealedAs call' ciphertext' hcall hresult'
      by_cases hother : handle = other
      · subst hother
        obtain rfl := Option.some.inj (hsession.symm.trans hcurrent)
        refine ⟨handle, session.accept n, ?_, m, d, hd, (hsentAs.mono hmem).continues hback⟩
        rw [session?_setSession hsession, if_pos rfl]
      · refine ⟨other, current, ?_, m, d, hd, hsentAs.mono hmem⟩
        rw [session?_setSession hsession, if_neg hother]
        exact hcurrent
    · cases SessionState.receiveCalls_silent session n call _ hcall
  · rcases session?_cases hsession hcurrent with ⟨rfl, rfl⟩ | ⟨hother, hcurrent⟩
    · obtain ⟨ns, hnodup, hopened, hrefines⟩ := h.openedAs handle session hsession
      have hnew : Channel.OpenedAs session.flip (s.log ++ session.receiveCalls n call) n
          ⟨.bytes plaintext, blob⟩ :=
        ⟨call, plaintext, List.mem_append_right _ (List.mem_append_right _
          (List.mem_singleton.mpr rfl)), hresult, hopens.messageCall session.flip_mirrors s.log,
          rfl, hopens.packet⟩
      have hfresh : n ∉ ns := by
        have hcheck := (hrefines.check (.int n) n).mp hopens.fresh
        exact fun hn => (accepts_eq_some.mp hcheck).2.2.2.1 (List.mem_toFinset.mpr hn)
      have hset : (ns ++ [n]).toFinset = insert n ns.toFinset := by
        ext m
        simp
      rw [Function.update_self]
      refine ⟨ns ++ [n], List.concat_eq_append ▸ hnodup.concat hfresh, List.rel_append
        (hopened.imp fun _ _ h => (h.mono hmem).continues hback.flip)
        (.cons (hnew.continues hback.flip) .nil), ?_⟩
      rw [hset]
      exact hrefines.record n
    · obtain ⟨ns, hnodup, hopened, hrefines⟩ := h.openedAs other current hcurrent
      rw [Function.update_of_ne hother.symm]
      exact ⟨ns, hnodup, hopened.imp fun _ _ h => h.mono hmem, hrefines⟩

/-! ## One event -/

omit [Interpreter] [Crypto] in
theorem append_toList_ite {handle : Handle} {d : Delivery} {sent : Handle → List Delivery} :
    (fun other => sent other ++ (if handle = other then some d else none).toList) =
      Function.update sent handle (sent handle ++ [d]) := by
  funext other
  by_cases hother : handle = other
  · subst hother
    rw [if_pos rfl, Function.update_self]
    rfl
  · rw [if_neg hother, Function.update_of_ne (Ne.symm hother)]
    exact List.append_nil _

/-- A call that returns no bytes neither sends nor opens. -/
theorem quiet_of_absent {e : Event} {result : Except PyError Answer}
    (h : ∀ answer, result = .ok answer → answer = .absent) (handle : Handle) :
    sent? handle (e, result) = none ∧ opened? handle (e, result) = none := by
  cases result with
  | error exc => exact ⟨by cases e <;> rfl, by cases e <;> rfl⟩
  | ok answer =>
    obtain rfl := h answer rfl
    exact ⟨by cases e <;> rfl, by cases e <;> rfl⟩

/-- A new handshake has no session. -/
theorem session?_append_initiator {self : System} {a : InitiatorRecord} (ha : a.completion = none)
    (handle : Handle) :
    System.session? { self with initiators := self.initiators ++ [a] } handle =
      self.session? handle := by
  cases handle with
  | initiator i =>
    rcases lt_trichotomy i self.initiators.length with hi | rfl | hi
    · simp only [session?, List.getElem?_append_left hi]
    · simp [session?, ha]
    · simp only [session?]
      rw [List.getElem?_eq_none (by simp; omega), List.getElem?_eq_none hi.le]
  | responder j => rfl

theorem session?_append_responder {self : System} {r : ResponderRecord} (hr : r.session = none)
    (handle : Handle) :
    System.session? { self with responders := self.responders ++ [r] } handle =
      self.session? handle := by
  cases handle with
  | initiator i => rfl
  | responder j =>
    rcases lt_trichotomy j self.responders.length with hj | rfl | hj
    · simp only [session?, List.getElem?_append_left hj]
    · simp [session?, hr]
    · simp only [session?]
      rw [List.getElem?_eq_none (by simp; omega), List.getElem?_eq_none hj.le]

theorem session?_setInitiator {self : System} {i : Nat} {old record : InitiatorRecord}
    {c : Completion} (hold : self.initiators[i]? = some old) (hc : record.completion = some c)
    (handle : Handle) : (self.setInitiator i record).session? handle =
      if .initiator i = handle then some c.session else self.session? handle := by
  obtain ⟨hi, -⟩ := List.getElem?_eq_some_iff.mp hold
  cases handle with
  | initiator j =>
    by_cases hij : i = j
    · subst hij
      rw [if_pos rfl, session?, setInitiator, List.getElem?_set_self hi]
      simp [hc]
    · rw [if_neg fun h => hij (Handle.initiator.inj h), session?, setInitiator,
        List.getElem?_set_ne hij]
      rfl
  | responder j => rfl

theorem session?_setResponder {self : System} {j : Nat} {old record : ResponderRecord}
    {session : SessionState} (hold : self.responders[j]? = some old)
    (hsession : record.session = some session) (handle : Handle) :
    (self.setResponder j record).session? handle =
      if .responder j = handle then some session else self.session? handle := by
  obtain ⟨hj, -⟩ := List.getElem?_eq_some_iff.mp hold
  cases handle with
  | initiator i => rfl
  | responder i =>
    by_cases hij : j = i
    · subst hij
      rw [if_pos rfl, session?, setResponder, List.getElem?_set_self hj]
      exact hsession
    · rw [if_neg fun h => hij (Handle.responder.inj h), session?, setResponder,
        List.getElem?_set_ne hij]
      rfl

/-- **What an event does to the traffic.** -/
theorem Does.traffic {e : Event} {result : Except PyError Answer} (h : Does s e result t)
    (hinv : Invariant s) (ht : Traffic sent opened s) :
    Traffic (fun handle => sent handle ++ (sent? handle (e, result)).toList)
      (fun handle => opened handle ++ (opened? handle (e, result)).toList) t := by
  have hquiet : (∀ handle, sent? handle (e, result) = none ∧ opened? handle (e, result) = none) →
      Traffic sent opened t → Traffic (fun handle => sent handle ++
        (sent? handle (e, result)).toList) (fun handle => opened handle ++
        (opened? handle (e, result)).toList) t := by
    intro hnone ht
    simp only [fun handle => (hnone handle).1, fun handle => (hnone handle).2, Option.toList_none,
      List.append_nil]
    exact ht
  cases h with
  | rejected habsent hself hlog =>
    refine hquiet (quiet_of_absent habsent) ?_
    obtain ⟨self, log⟩ := t
    obtain rfl : self = s.self := hself
    obtain ⟨calls, rfl, hidle⟩ := hlog
    refine ht.extend (fun _ => rfl) fun call _ hcall => ?_
    rcases hidle _ hcall with hsilent | ⟨_, h⟩
    · cases hsilent
    · cases h
  | offered =>
    refine hquiet (fun _ => ⟨rfl, rfl⟩) (ht.extend (fun handle => ?_) fun call _ hcall => ?_)
    · exact session?_append_initiator rfl handle
    · simp at hcall
  | responded =>
    refine hquiet (fun _ => ⟨rfl, rfl⟩) (ht.extend (fun handle => ?_) fun call _ hcall => ?_)
    · exact session?_append_responder rfl handle
    · simp [SessionFactory.responderCalls, confirmationCall] at hcall
  | @completed i record response _ shared _ _ c hrecord hkey _ _ _ hc =>
    subst hc
    refine hquiet (fun _ => ⟨rfl, rfl⟩) ?_
    have hpending : record.completion = none := by
      refine (hinv.initiators i record hrecord).pending.resolve_left fun h => ?_
      rw [hkey] at h
      cases h
    have hnone : s.self.session? (.initiator i) = none := by simp [session?, hrecord, hpending]
    have hcalls : Traffic sent opened
        ⟨s.self, s.log ++ record.handshake.completeCalls response shared⟩ :=
      ht.extend (fun _ => rfl) fun call _ hcall => by
        simp [InitiatorHandshake.completeCalls, confirmationCall] at hcall
    exact hcalls.establish hnone (session?_setInitiator hrecord rfl) rfl rfl
  | @accepted j record confirmation rootKey hrecord hkey =>
    refine hquiet (fun _ => ⟨rfl, rfl⟩) ?_
    have hpending : record.session = none := by
      rcases (hinv.responders j record hrecord).state with ⟨-, hnone⟩ | ⟨hdone, -⟩
      · exact hnone
      · rw [hdone] at hkey
        cases hkey
    have hnone : s.self.session? (.responder j) = none := by simp [session?, hrecord, hpending]
    have hcalls : Traffic sent opened
        ⟨s.self, s.log ++ record.handshake.completeCalls rootKey confirmation⟩ :=
      ht.extend (fun _ => rfl) fun call _ hcall => by
        simp [ResponderHandshake.completeCalls, confirmationCall] at hcall
    exact hcalls.establish hnone (session?_setResponder hrecord rfl) rfl rfl
  | sent hsession hsends hresult hpacket =>
    have h := ht.send hsession hsends hresult hpacket
    rw [← append_toList_ite] at h
    have hopened := funext fun handle => (List.append_nil (opened handle)).symm
    rw [hopened] at h
    exact h
  | unsealed hsession hsends hnone =>
    refine hquiet (fun _ => ⟨rfl, rfl⟩) (ht.extend (fun _ => rfl) fun call _ hcall h => ?_)
    obtain rfl := Channel.sendCalls_encrypted hcall
    rw [hnone] at h
    cases h
  | opened hsession hopens hresult =>
    have h := ht.receive hsession hopens hresult
    rw [← append_toList_ite] at h
    have hsent := funext fun handle => (List.append_nil (sent handle)).symm
    rw [hsent] at h
    exact h

theorem traffic_reached (es : List Event) : Traffic (sentBy es) (openedBy es) (reached es) := by
  induction es using List.reverseRecOn with
  | nil => exact traffic_start
  | append_singleton es e ih =>
    have h := (step_does (reached es) e).traffic (invariant_reached es) ih
    have htrace : Machine.trace step start (es ++ [e]) = Machine.trace step start es ++
        [(e, (step (reached es) e).1)] := Machine.trace_concat _ _ _
    have hsent : sentBy (es ++ [e]) = fun handle => sentBy es handle ++
        (sent? handle (e, (step (reached es) e).1)).toList := by
      funext handle
      rw [sentBy, htrace, List.filterMap_append]
      cases hlast : sent? handle (e, (step (reached es) e).1) <;> simp [hlast, sentBy]
    have hopened : openedBy (es ++ [e]) = fun handle => openedBy es handle ++
        (opened? handle (e, (step (reached es) e).1)).toList := by
      funext handle
      rw [openedBy, htrace, List.filterMap_append]
      cases hlast : opened? handle (e, (step (reached es) e).1) <;> simp [hlast, openedBy]
    rw [hsent, hopened, show reached (es ++ [e]) = (step (reached es) e).2 from
      Machine.run_concat _ _ _]
    exact h

/-! ## Authenticity -/

/-- The AEAD opened under the message keys of a direction only what it had sealed. -/
def AuthenticUnder (direction : Direction) (log : List Call) : Prop :=
  ∀ (call : AeadCall) (plaintext : Bytes) (n : Nat), .decrypted call ∈ log →
    call.result = some plaintext → (call.key, call.nonce) = messageKey direction n →
    .encrypted { call with data := plaintext, result := some call.data } ∈ log

omit [Crypto] in
/-- What is written has valid metadata. -/
theorem valid_of_toBytes {m : Metadata} {ciphertext data : Bytes}
    (h : (m.envelope ciphertext).toBytes = .ok data) : m.Valid := by
  obtain ⟨⟨l, c⟩, hvalid, -⟩ := bind_eq_ok.mp h
  obtain ⟨heq, hl, -⟩ := validateComplete_ok.mp hvalid
  obtain rfl := SessionState.eq_of_envelope (m := m) (c := []) (d := []) heq
  exact hl

omit [Crypto] in
/-- Sessions that send one message mirror one another. -/
theorem mirrors_of_message {other session : SessionState} {n : Int} {data : Bytes}
    (hdirection : other.sendDirection = session.receiveDirection)
    (hother : (other.sendMetadata n).Valid) (hsession : (session.receiveMetadata n).Valid)
    (hdata : (other.sendMetadata n).associatedData = .ok data)
    (hdata' : (session.receiveMetadata n).associatedData = .ok data) : other.Mirrors session := by
  have hmetadata := hother.associatedData_inj hsession hdata hdata'
  obtain ⟨hroot, -, hlocal, hremote⟩ := Direction.mk.inj hdirection
  obtain ⟨-, hsuite, hsender, hrecipient, -⟩ := Metadata.mk.inj hmetadata
  exact ⟨hroot, AeadSuite.value_inj hsuite, hsender, hrecipient, hlocal, hremote⟩

/-- **A packet that was opened was sent by a session that mirrors the one that opened it.** -/
theorem Traffic.sender (h : Traffic sent opened s) (hfree : HkdfCollisionFree s.log)
    {session : SessionState} (hauthentic : AuthenticUnder session.receiveDirection s.log) {n : Int}
    {d : Delivery} (hopened : Channel.OpenedAs session.flip s.log n d) :
    ∃ peer other, s.self.session? peer = some other ∧ other.Mirrors session ∧ 0 ≤ n ∧
      (sent peer)[n.toNat]? = some d := by
  obtain ⟨call, plaintext, hlogged, hresult, hmessage, hplaintext, hpacket⟩ := hopened
  obtain ⟨peer, other, hother, m, d', hd', hsent⟩ :=
    h.sealedAs _ _ (hauthentic call plaintext _ hlogged hresult hmessage.key) rfl
  obtain ⟨hdirection, rfl⟩ := hsent.message.unique hfree hmessage rfl
  obtain ⟨ciphertext, packet, hciphertext, -, hbytes, hpacket'⟩ := hsent.packet
  obtain rfl := Option.some.inj hciphertext
  obtain ⟨_, _, bytes, hblob, -, hbytes'⟩ := toBytes_fromBytes hpacket
  have hmirrors : other.Mirrors session := mirrors_of_message hdirection (valid_of_toBytes hbytes)
    (valid_of_toBytes hbytes') hsent.message.associatedData hmessage.associatedData
  -- the packet that was parsed is the one that was written
  have hsame : packet = bytes := by
    rw [hmirrors.metadata] at hbytes
    exact Except.ok.inj (hbytes.symm.trans hbytes')
  have heq : d' = d := by
    obtain ⟨plaintext', packet'⟩ := d'
    obtain ⟨plaintext'', packet''⟩ := d
    exact congrArg₂ Delivery.mk (hsent.plaintext.trans hplaintext.symm)
      (hpacket'.trans ((congrArg Value.bytes hsame).trans hblob.symm))
  refine ⟨peer, other, hother, hmirrors, Int.natCast_nonneg m, ?_⟩
  rw [Int.toNat_natCast, ← heq]
  exact hd'

omit [Interpreter] [Crypto] in
/-- Packets with different sequences are different sendings. -/
theorem subperm_of_sequences {ns : List Int} {l l' : List Delivery} (hnodup : ns.Nodup)
    (h : List.Forall₂ (fun n d => 0 ≤ n ∧ l'[n.toNat]? = some d) ns l) : l.Subperm l' := by
  refine subperm_of_indices (ns.map Int.toNat) ?_ ?_
  · exact List.forall₂_map_left_iff.mpr (h.imp fun _ _ h => h.2)
  · refine hnodup.map_on fun m hm n hn heq => ?_
    obtain ⟨_, -, hm, -⟩ := exists_of_forall₂ h hm
    obtain ⟨_, -, hn, -⟩ := exists_of_forall₂ h hn
    omega

/-- The ends of a session have different ephemeral keys. -/
theorem ephemeral_ne (hinv : Invariant s) {handle : Handle} {session : SessionState}
    (h : s.self.session? handle = some session) :
    session.localEphemeralPublicBytes ≠ session.remoteEphemeralPublicBytes := by
  cases handle with
  | initiator i =>
    obtain ⟨a, ha, hmap⟩ := Option.bind_eq_some_iff.mp h
    obtain ⟨c, hc, rfl⟩ := Option.map_eq_some_iff.mp hmap
    have hcompleted := (hinv.initiators i a ha).completed c hc
    obtain ⟨_, -, _, _, heq⟩ := hcompleted.session
    have hdistinct := c.response.ephemeral_distinct
    rw [hcompleted.fields] at hdistinct
    rw [heq]
    exact hdistinct.symm
  | responder j =>
    obtain ⟨r, hr, hsession⟩ := Option.bind_eq_some_iff.mp h
    have hgood := hinv.responders j r hr
    have hdistinct := r.produced.response.ephemeral_distinct
    rw [hgood.fields] at hdistinct
    rcases hgood.state with ⟨-, hnone⟩ | ⟨-, current, hcurrent, hestablished⟩
    · rw [hsession] at hnone
      cases hnone
    · obtain rfl := Option.some.inj (hsession.symm.trans hcurrent)
      obtain ⟨_, _, heq⟩ := hestablished.session
      rw [heq]
      exact hdistinct

/-- **What a session has opened was sent by one other session**, each packet at most once, and no
third session has opened any of it. -/
theorem traffic_authentic (es : List Event) (hfree : HkdfCollisionFree (reached es).log)
    (hfresh : FreshKeys (reached es).log) {handle : Handle} {session : SessionState}
    (hsession : (reached es).self.session? handle = some session)
    (hauthentic : AuthenticUnder session.receiveDirection (reached es).log) :
    openedBy es handle = [] ∨ ∃ peer other, peer ≠ handle ∧
      (reached es).self.session? peer = some other ∧ other.Mirrors session ∧
      (openedBy es handle).Subperm (sentBy es peer) ∧
      ∀ handle' session', (reached es).self.session? handle' = some session' →
        other.Mirrors session' → handle' = handle := by
  have hinv := invariant_reached es
  have htraffic := traffic_reached es
  obtain ⟨ns, hnodup, hopened, -⟩ := htraffic.openedAs handle session hsession
  have hsender := hopened.imp fun n d h => htraffic.sender hfree hauthentic h
  generalize openedBy es handle = packets at hsender ⊢
  cases hsender with
  | nil => exact Or.inl rfl
  | @cons _ d ns ds hfirst hrest =>
    obtain ⟨peer, other, hother, hmirrors, hpos, hget⟩ := hfirst
    have hindices := List.Forall₂.cons (R := fun (n : Int) d => 0 ≤ n ∧
      (sentBy es peer)[n.toNat]? = some d) ⟨hpos, hget⟩ (hrest.imp fun n d h => by
        obtain ⟨peer', other', hother', hmirrors', hpos', hget'⟩ := h
        obtain rfl := handle_unique hinv hfresh hother' hother
          (hmirrors'.localEphemeral.trans hmirrors.localEphemeral.symm)
        exact ⟨hpos', hget'⟩)
    refine Or.inr ⟨peer, other, ?_, hother, hmirrors, subperm_of_sequences hnodup hindices, ?_⟩
    · rintro rfl
      obtain rfl := Option.some.inj (hother.symm.trans hsession)
      exact ephemeral_ne hinv hother hmirrors.localEphemeral
    · intro handle' session' hsession' hmirrors'
      exact handle_unique hinv hfresh hsession' hsession
        (hmirrors'.remoteEphemeral.symm.trans hmirrors.remoteEphemeral)

/-! ## Delivery -/

/-- What was not opened has a sequence that was not accepted. -/
theorem Traffic.sequence_fresh (h : Traffic sent opened s) (hinv : Invariant s)
    (hfree : HkdfCollisionFree s.log) (hfresh : FreshKeys s.log) {handle peer : Handle}
    {session other : SessionState} (hother : s.self.session? peer = some other)
    (hmirrors : other.Mirrors session)
    (hauthentic : AuthenticUnder session.receiveDirection s.log) {ns : List Int}
    (hopened : List.Forall₂ (Channel.OpenedAs session.flip s.log) ns (opened handle)) {n : Nat}
    {d : Delivery} (hd : (sent peer)[n]? = some d) (hnew : d ∉ opened handle) : (n : Int) ∉ ns := by
  intro hn
  obtain ⟨d', hd', hopenedAs⟩ := exists_of_forall₂ hopened hn
  obtain ⟨peer', other', hother', hmirrors', -, hget⟩ := h.sender hfree hauthentic hopenedAs
  obtain rfl := handle_unique hinv hfresh hother' hother
    (hmirrors'.localEphemeral.trans hmirrors.localEphemeral.symm)
  rw [Int.toNat_natCast, hd] at hget
  exact hnew (Option.some.inj hget ▸ hd')

/-- **A packet is opened, whatever happened before**, unless it was opened already or has left the
window. -/
theorem traffic_delivers (hopen : OpensSealed) (es : List Event)
    (hfree : HkdfCollisionFree (reached es).log) (hfresh : FreshKeys (reached es).log)
    {handle peer : Handle} {session other : SessionState}
    (hsession : (reached es).self.session? handle = some session)
    (hother : (reached es).self.session? peer = some other) (hmirrors : other.Mirrors session)
    (hauthentic : AuthenticUnder session.receiveDirection (reached es).log) {n : Nat}
    {d : Delivery} (hd : (sentBy es peer)[n]? = some d) (hnew : d ∉ openedBy es handle)
    (hwindow : session.replayWindow.highestSeen - session.replayWindow.windowSize < n) :
    ∃ data, d.plaintext = .bytes data ∧
      (step (reached es) (.decrypt handle d.packet)).1 = .ok (.plaintext data) := by
  have htraffic := traffic_reached es
  obtain ⟨ns, -, hopened, hrefines⟩ := htraffic.openedAs handle session hsession
  obtain ⟨call, hsent⟩ := htraffic.sentAs peer other hother n d hd
  have hunseen := htraffic.sequence_fresh (invariant_reached es) hfree hfresh hother hmirrors
    hauthentic hopened hd hnew
  obtain ⟨opening, hopens, hresult⟩ := hsent.opens hopen hmirrors hrefines
    (fun h => hunseen (List.mem_toFinset.mp h)) hwindow
  have hrun := SessionState.decrypt_returns (s := ⟨session, (reached es).log⟩) hopens hresult
  refine ⟨call.data, hsent.plaintext, ?_⟩
  simp only [step, perform, Method.zoomOption, Method.run_bind, Method.run_self, hsession,
    Method.run_zoom, hrun, Method.run_pure]

omit [Interpreter] in
theorem AuthenticUnder.of_authentic {log : List Call} (h : Authentic log) (direction : Direction) :
    AuthenticUnder direction log := fun call plaintext _ hmem hresult _ =>
  h call plaintext hmem hresult

end System

end Traffic

/-! ## A run -/

section Samples

open CypherSyntax.System
open scoped Samples

/-- Alice and Bob complete their handshake, and Alice sends two packets. -/
def twoPackets : List Event :=
  [offering, responding, completing, accepting, .encrypt (.initiator 0) (.bytes [1]),
    .encrypt (.initiator 0) (.bytes [2])]

def secondPacket : Value :=
  (((sentBy twoPackets (.initiator 0))[1]?).map Delivery.packet).getD .none

/-- Bob gets the second packet, twice, and Alice gets it back. -/
def reflecting : List Event :=
  twoPackets ++ [.decrypt (.responder 0) secondPacket, .decrypt (.responder 0) secondPacket,
    .decrypt (.initiator 0) secondPacket]

instance (a b : SessionState) : Decidable (a.Mirrors b) :=
  decidable_of_iff (a.rootKey = b.rootKey ∧ a.suite = b.suite ∧ a.localName = b.remoteName ∧
      a.remoteName = b.localName ∧ a.localEphemeralPublicBytes = b.remoteEphemeralPublicBytes ∧
      a.remoteEphemeralPublicBytes = b.localEphemeralPublicBytes)
    ⟨fun ⟨hr, hs, hl, hn, he, hp⟩ => ⟨hr, hs, hl, hn, he, hp⟩,
      fun ⟨hr, hs, hl, hn, he, hp⟩ => ⟨hr, hs, hl, hn, he, hp⟩⟩

/-- Bob's session is mirrored by Alice's, and its window has not left the first packet. -/
def waiting (s : System) : Bool :=
  (s.session? (.responder 0)).any fun session => (s.session? (.initiator 0)).any fun other =>
    decide (other.Mirrors session ∧
      session.replayWindow.highestSeen - session.replayWindow.windowSize < 0)

theorem run_reflecting : (fun r : List (Except PyError Answer) × Frame System Call =>
    HkdfCollisionFree r.2.log ∧ FreshKeys r.2.log ∧ Authentic r.2.log ∧
    waiting r.2.self = true ∧
    ((reflecting.zip r.1).filterMap (sent? (.initiator 0))).map Delivery.sequence = [0, 1] ∧
    ((reflecting.zip r.1).filterMap (opened? (.responder 0))).map Delivery.sequence = [1])
    (Machine.run step start reflecting) := by
  decide +kernel

/-- Bob has opened one packet, which the session that mirrors his has sent. -/
theorem traffic_authentic_reflecting : (openedBy reflecting (.responder 0)).length = 1 ∧
    ∃ peer session other, (reached reflecting).self.session? (.responder 0) = some session ∧
      (reached reflecting).self.session? peer = some other ∧ other.Mirrors session ∧
      (openedBy reflecting (.responder 0)).Subperm (sentBy reflecting peer) := by
  have hrun := run_reflecting
  generalize reflecting = es at hrun ⊢
  obtain ⟨hfree, hfresh, hauthentic, hwaiting, -, hsequences⟩ := hrun
  have hlength : (openedBy es (.responder 0)).length = 1 := by
    have h := congrArg List.length hsequences
    rwa [List.length_map] at h
  obtain ⟨session, hsession, -⟩ := (Option.any_eq_true _ _).mp hwaiting
  refine ⟨hlength, ?_⟩
  rcases traffic_authentic es hfree hfresh hsession (.of_authentic hauthentic _) with
    hnil | ⟨peer, other, -, hother, hmirrors, hsubperm, -⟩
  · rw [hnil] at hlength
    cases hlength
  · exact ⟨peer, session, other, hsession, hother, hmirrors, hsubperm⟩

/-- After that, Bob still opens the first packet. -/
theorem traffic_delivers_reflecting : ∃ d data, (sentBy reflecting (.initiator 0))[0]? = some d ∧
    d.plaintext = .bytes data ∧
    (step (reached reflecting) (.decrypt (.responder 0) d.packet)).1 = .ok (.plaintext data) := by
  have hrun := run_reflecting
  generalize reflecting = es at hrun ⊢
  obtain ⟨hfree, hfresh, hauthentic, hwaiting, hsent, hsequences⟩ := hrun
  obtain ⟨session, hsession, h⟩ := (Option.any_eq_true _ _).mp hwaiting
  obtain ⟨other, hother, h⟩ := (Option.any_eq_true _ _).mp h
  obtain ⟨hmirrors, hwindow⟩ := of_decide_eq_true h
  have hfirst := congrArg (·[0]?) hsent
  simp only [List.getElem?_map] at hfirst
  obtain ⟨d, hd, hsequence⟩ := Option.map_eq_some_iff.mp hfirst
  have hnew : d ∉ openedBy es (.responder 0) := by
    intro hmem
    have h : d.sequence ∈ [1] := hsequences ▸ List.mem_map_of_mem hmem
    rw [hsequence] at h
    cases List.mem_singleton.mp h
  obtain ⟨data, hdata, hstep⟩ := traffic_delivers (fun _ _ _ _ _ _ h => opened_sealed h) es
    hfree hfresh hsession hother hmirrors (.of_authentic hauthentic _) hd hnew hwindow
  exact ⟨d, data, hd, hdata, hstep⟩

end Samples

end CypherSyntax
