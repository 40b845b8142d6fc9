import CypherSyntax.Session.Concurrent
import CypherSyntax.System.Nonces
import CypherSyntax.System.Rejected

/-!
# Sessions on their own

The handshakes and the sessions of a run share nothing but what each caller passes on, and a
handshake that has completed never gives another session (`complete`, session.py). So what holds of
one session on its own holds of each session of the system, whatever is called on the others and on
its own handshake in between.

Results:
* `step_other`: a call leaves the objects that it is not made on as they are.
* `step_ended`: a session is changed by its own `encrypt` and `decrypt` only.
* `sessions_alone`: the calls on one session return what they return on a session of its own.
-/

namespace Python.Method

variable {κ σ ρ τ α : Type}

theorem zoomOption_run {get : σ → Option ρ} {set : ρ → σ → σ} {absent : α} {m : Method κ ρ τ α}
    {s : Frame σ τ} {component : ρ} (h : get s.self = some component) :
    (zoomOption get set absent m).run s = ((m.run ⟨component, s.log⟩).1,
      ⟨set (m.run ⟨component, s.log⟩).2.self s.self, (m.run ⟨component, s.log⟩).2.log⟩) := by
  unfold zoomOption
  rw [run_bind_ok (run_self s), h]
  rfl

end Python.Method

namespace CypherSyntax

open Python Json

section Runs

variable [Interpreter] [Crypto]

/-- The object that a call is made on. -/
def Event.subject : Event → Option Handle
  | .initiator .. | .responder .. => none
  | .completeInitiator index _ => some (.initiator index)
  | .completeResponder index _ => some (.responder index)
  | .encrypt handle _ | .decrypt handle _ => some handle

namespace System

/-! ## Objects -/

/-- A handshake, and what it has ended in. -/
def object? (s : System) : Handle → Option (InitiatorRecord ⊕ ResponderRecord)
  | .initiator index => s.initiators[index]?.map Sum.inl
  | .responder index => s.responders[index]?.map Sum.inr

def sessionOf : InitiatorRecord ⊕ ResponderRecord → Option SessionState
  | .inl r => r.completion.map Completion.session
  | .inr r => r.session

def withSession (session : SessionState) :
    InitiatorRecord ⊕ ResponderRecord → InitiatorRecord ⊕ ResponderRecord
  | .inl r => .inl { r with completion := r.completion.map fun c => { c with session := session } }
  | .inr r => .inr { r with session := r.session.map fun _ => session }

theorem session?_eq (s : System) (handle : Handle) :
    s.session? handle = (s.object? handle).bind sessionOf := by
  cases handle with
  | initiator i =>
    simp only [session?, object?]
    cases s.initiators[i]? <;> rfl
  | responder j =>
    simp only [session?, object?]
    cases s.responders[j]? <;> rfl

section Objects

variable {s : System} {handle other : Handle}

theorem object?_setInitiator (i : Nat) (record : InitiatorRecord) :
    (s.setInitiator i record).object? (.initiator i) =
      (s.object? (.initiator i)).map fun _ => .inl record := by
  simp only [setInitiator, object?, List.getElem?_set_self']
  cases s.initiators[i]? <;> rfl

theorem object?_setInitiator_ne {i : Nat} {record : InitiatorRecord}
    (h : Handle.initiator i ≠ other) :
    (s.setInitiator i record).object? other = s.object? other := by
  cases other with
  | initiator j =>
    have hne : i ≠ j := fun hij => h (congrArg _ hij)
    simp only [setInitiator, object?, List.getElem?_set_ne hne]
  | responder j => rfl

theorem object?_setResponder (j : Nat) (record : ResponderRecord) :
    (s.setResponder j record).object? (.responder j) =
      (s.object? (.responder j)).map fun _ => .inr record := by
  simp only [setResponder, object?, List.getElem?_set_self']
  cases s.responders[j]? <;> rfl

theorem object?_setResponder_ne {j : Nat} {record : ResponderRecord}
    (h : Handle.responder j ≠ other) :
    (s.setResponder j record).object? other = s.object? other := by
  cases other with
  | initiator i => rfl
  | responder i =>
    have hne : j ≠ i := fun hij => h (congrArg _ hij)
    simp only [setResponder, object?, List.getElem?_set_ne hne]

theorem object?_setSession (session : SessionState) :
    (s.setSession handle session).object? handle =
      (s.object? handle).map (withSession session) := by
  cases handle with
  | initiator i =>
    simp only [setSession, object?, List.getElem?_modify_eq]
    cases s.initiators[i]? <;> rfl
  | responder j =>
    simp only [setSession, object?, List.getElem?_modify_eq]
    cases s.responders[j]? <;> rfl

theorem object?_setSession_ne {session : SessionState} (h : handle ≠ other) :
    (s.setSession handle session).object? other = s.object? other := by
  cases handle with
  | initiator i =>
    cases other with
    | initiator j =>
      have hne : i ≠ j := fun hij => h (congrArg _ hij)
      simp only [setSession, object?, List.getElem?_modify_ne _ _ hne]
    | responder j => rfl
  | responder i =>
    cases other with
    | initiator j => rfl
    | responder j =>
      have hne : i ≠ j := fun hij => h (congrArg _ hij)
      simp only [setSession, object?, List.getElem?_modify_ne _ _ hne]

end Objects

/-! ## One call -/

/-- An object stays, and a call that is not made on it leaves it as it is. -/
theorem Does.object {s t : Frame System Call} {e : Event} {result : Except PyError Answer}
    (h : Does s e result t) {handle : Handle} (hexists : (s.self.object? handle).isSome = true) :
    (t.self.object? handle).isSome = true ∧
      (e.subject ≠ some handle → t.self.object? handle = s.self.object? handle) := by
  have hsession : ∀ {other : Handle} (session : SessionState),
      ((s.self.setSession other session).object? handle).isSome = true ∧
        (some other ≠ some handle →
          (s.self.setSession other session).object? handle = s.self.object? handle) := by
    intro other session
    refine ⟨?_, fun hne => object?_setSession_ne fun heq => hne (congrArg some heq)⟩
    by_cases hother : other = handle
    · subst hother
      rw [object?_setSession, Option.isSome_map]
      exact hexists
    · rw [object?_setSession_ne hother]
      exact hexists
  have hinitiator : ∀ (i : Nat) (record : InitiatorRecord),
      ((s.self.setInitiator i record).object? handle).isSome = true ∧
        (some (.initiator i) ≠ some handle →
          (s.self.setInitiator i record).object? handle = s.self.object? handle) := by
    intro i record
    refine ⟨?_, fun hne => object?_setInitiator_ne fun heq => hne (congrArg some heq)⟩
    by_cases hother : .initiator i = handle
    · subst hother
      rw [object?_setInitiator, Option.isSome_map]
      exact hexists
    · rw [object?_setInitiator_ne hother]
      exact hexists
  have hresponder : ∀ (j : Nat) (record : ResponderRecord),
      ((s.self.setResponder j record).object? handle).isSome = true ∧
        (some (.responder j) ≠ some handle →
          (s.self.setResponder j record).object? handle = s.self.object? handle) := by
    intro j record
    refine ⟨?_, fun hne => object?_setResponder_ne fun heq => hne (congrArg some heq)⟩
    by_cases hother : .responder j = handle
    · subst hother
      rw [object?_setResponder, Option.isSome_map]
      exact hexists
    · rw [object?_setResponder_ne hother]
      exact hexists
  cases h with
  | rejected _ hself _ =>
    rw [hself]
    exact ⟨hexists, fun _ => rfl⟩
  | offered =>
    suffices hsame : System.object? { s.self with initiators := s.self.initiators ++ [_] } handle =
        s.self.object? handle from ⟨(congrArg Option.isSome hsame).trans hexists, fun _ => hsame⟩
    cases handle with
    | initiator i =>
      obtain ⟨hi, -⟩ := List.getElem?_eq_some_iff.mp
        (Option.some_get ((Option.isSome_map ..).symm.trans hexists)).symm
      simp only [object?, List.getElem?_append_left hi]
    | responder j => rfl
  | responded =>
    suffices hsame : System.object? { s.self with responders := s.self.responders ++ [_] } handle =
        s.self.object? handle from ⟨(congrArg Option.isSome hsame).trans hexists, fun _ => hsame⟩
    cases handle with
    | initiator i => rfl
    | responder j =>
      obtain ⟨hj, -⟩ := List.getElem?_eq_some_iff.mp
        (Option.some_get ((Option.isSome_map ..).symm.trans hexists)).symm
      simp only [object?, List.getElem?_append_left hj]
  | completed => exact hinitiator _ _
  | accepted => exact hresponder _ _
  | sent => exact hsession _
  | unsealed => exact ⟨hexists, fun _ => rfl⟩
  | opened => exact hsession _

/-- **A call leaves the objects that it is not made on as they are.** -/
theorem step_other {s : Frame System Call} {e : Event} {handle : Handle}
    (hother : e.subject ≠ some handle) (hexists : (s.self.object? handle).isSome = true) :
    (step s e).2.self.object? handle = s.self.object? handle :=
  ((step_does s e).object hexists).2 hother

/-! ## Sessions -/

/-- The calls on a session. -/
def callOn (handle : Handle) : Event → Option SessionCall
  | .encrypt other plaintext => if other = handle then some (.encrypt plaintext) else none
  | .decrypt other blob => if other = handle then some (.decrypt blob) else none
  | _ => none

end System

namespace SessionCall

def event (handle : Handle) : SessionCall → Event
  | .encrypt plaintext => .encrypt handle plaintext
  | .decrypt blob => .decrypt handle blob

def answer : SessionCall → Bytes → Answer
  | .encrypt _ => .packet
  | .decrypt _ => .plaintext

/-- The call on a session of its own. -/
def serveAlone (session : SessionState) (call : SessionCall) :
    Except PyError Answer × SessionState :=
  ((call.serve session).1.map call.answer, (call.serve session).2)

end SessionCall

namespace System

theorem callOn_eq_some {handle : Handle} {e : Event} {call : SessionCall}
    (h : callOn handle e = some call) : e = call.event handle := by
  cases e with
  | encrypt other plaintext | decrypt other blob =>
    by_cases hother : other = handle
    · subst hother
      simp only [callOn, if_true, Option.some.injEq] at h
      subst h
      rfl
    · simp [callOn, hother] at h
  | _ => cases h

/-- A call on a session of the system does what it does on a session of its own. -/
theorem step_session {s : Frame System Call} {handle : Handle} {session : SessionState}
    (hsession : s.self.session? handle = some session) (call : SessionCall) :
    (step s (call.event handle)).1 = (call.serveAlone session).1 ∧
      (step s (call.event handle)).2.self.session? handle = some (call.serveAlone session).2 := by
  have hperform : perform (call.event handle) = Method.zoomOption (·.session? handle)
      (fun session s => s.setSession handle session) .absent (do
        let data ← call.method
        return call.answer data) := by
    cases call <;> rfl
  have hlog : call.method.IgnoresLog := by
    cases call with
    | encrypt plaintext => exact SessionState.encrypt_ignoresLog plaintext
    | decrypt blob => exact SessionState.decrypt_ignoresLog blob
  unfold step SessionCall.serveAlone SessionCall.serve
  rw [hperform, Method.zoomOption_run hsession, Method.run_bind]
  obtain ⟨hout, hself⟩ := hlog session s.log []
  rcases hrun : call.method.run ⟨session, s.log⟩ with ⟨r, t⟩
  rw [hrun] at hout hself
  rw [← hout, ← hself]
  cases r with
  | error e => exact ⟨rfl, (session?_setSession hsession).trans (if_pos rfl)⟩
  | ok data => exact ⟨rfl, (session?_setSession hsession).trans (if_pos rfl)⟩

/-- A call that is not made on a session leaves it as it is: its handshake has completed. -/
theorem step_ended {s : Frame System Call} (hinv : Invariant s) {handle : Handle}
    {session : SessionState} (hsession : s.self.session? handle = some session) {e : Event}
    (hcall : callOn handle e = none) : (step s e).2.self.session? handle = some session := by
  have hobject := hsession
  rw [session?_eq] at hobject
  by_cases hown : e.subject = some handle
  swap
  · have hexists : (s.self.object? handle).isSome = true := by
      obtain ⟨object, hobject, -⟩ := Option.bind_eq_some_iff.mp hobject
      rw [hobject]
      rfl
    rw [session?_eq, step_other hown hexists, ← session?_eq]
    exact hsession
  have hdoes := step_does s e
  generalize step s e = done at hdoes ⊢
  obtain ⟨result, t⟩ := done
  cases hdoes with
  | rejected _ hself _ =>
    show t.self.session? handle = some session
    rw [hself]
    exact hsession
  | offered | responded => cases hown
  | @completed i a _ _ _ _ _ _ ha hkey =>
    obtain rfl := Option.some.inj hown
    obtain ⟨b, hb, hmap⟩ := Option.bind_eq_some_iff.mp hsession
    obtain rfl := Option.some.inj (ha.symm.trans hb)
    obtain ⟨c, hc, -⟩ := Option.map_eq_some_iff.mp hmap
    rcases (hinv.initiators i a ha).pending with hnone | hnone
    · cases hkey.symm.trans hnone
    · cases hc.symm.trans hnone
  | @accepted j r _ _ hr hkey =>
    obtain rfl := Option.some.inj hown
    obtain ⟨b, hb, hended⟩ := Option.bind_eq_some_iff.mp hsession
    obtain rfl := Option.some.inj (hr.symm.trans hb)
    rcases (hinv.responders j r hr).state with ⟨-, hnone⟩ | ⟨hdone, -⟩
    · cases hended.symm.trans hnone
    · rw [hdone] at hkey
      cases hkey
  | sent | unsealed | opened =>
    obtain rfl := Option.some.inj hown
    simp [callOn] at hcall

/-- **Sessions are alone**: whatever else goes on in the system, the calls on a session return what
they return on a session of its own, and leave it as they leave that. -/
theorem sessions_alone {before : List Event} {handle : Handle} {session : SessionState}
    (hsession : (reached before).self.session? handle = some session) (es : List Event) :
    Machine.project (callOn handle) id (Machine.trace step (reached before) es) =
        (Machine.run SessionCall.serveAlone session (es.filterMap (callOn handle))).1 ∧
      (reached (before ++ es)).self.session? handle =
        some (Machine.run SessionCall.serveAlone session (es.filterMap (callOn handle))).2 := by
  have hkeep : ∀ (s : Frame System Call) (session : SessionState) (e : Event),
      callOn handle e = none → (Invariant s ∧ s.self.session? handle = some session) →
        Invariant (step s e).2 ∧ (step s e).2.self.session? handle = some session :=
    fun s _ e he ⟨hinv, hsession⟩ =>
      ⟨(step_does s e).invariant hinv, step_ended hinv hsession he⟩
  have hstep : ∀ (s : Frame System Call) (session : SessionState) (e : Event)
      (call : SessionCall), callOn handle e = some call →
      (Invariant s ∧ s.self.session? handle = some session) →
        id (step s e).1 = (SessionCall.serveAlone session call).1 ∧
          Invariant (step s e).2 ∧ (step s e).2.self.session? handle =
            some (SessionCall.serveAlone session call).2 := by
    rintro s session e call he ⟨hinv, hsession⟩
    obtain rfl := callOn_eq_some he
    obtain ⟨hout, hnext⟩ := step_session hsession call
    exact ⟨hout, (step_does s _).invariant hinv, hnext⟩
  obtain ⟨houts, -, hend⟩ :=
    Machine.run_project hkeep hstep ⟨invariant_reached before, hsession⟩ es
  refine ⟨houts, ?_⟩
  unfold reached at hend ⊢
  rw [Machine.run_append]
  exact hend

end System

end Runs

/-! ## Calls between other calls -/

section Samples

open CypherSyntax.System
open scoped Samples

/-- Alice and Bob use their sessions in turns. -/
def turns : List Event :=
  [.encrypt (.initiator 0) (.bytes [1]), accepting, .encrypt (.responder 0) (.bytes [2]),
    .encrypt (.initiator 0) (.bytes [3])]

theorem run_prepared :
    ((reached [offering, responding, completing]).self.session? (.initiator 0)).isSome = true := by
  decide +kernel

theorem sessions_alone_turns : ∃ session,
    (reached [offering, responding, completing]).self.session? (.initiator 0) = some session ∧
    (reached ([offering, responding, completing] ++ turns)).self.session? (.initiator 0) =
      some (Machine.run SessionCall.serveAlone session
        [.encrypt (.bytes [1]), .encrypt (.bytes [3])]).2 := by
  have hrun := run_prepared
  have hon : turns.filterMap (callOn (.initiator 0)) =
      [.encrypt (.bytes [1]), .encrypt (.bytes [3])] := rfl
  rw [← hon]
  generalize [offering, responding, completing] = es at hrun ⊢
  obtain ⟨session, hsession⟩ := Option.isSome_iff_exists.mp hrun
  exact ⟨session, hsession, (sessions_alone hsession turns).2⟩

end Samples

end CypherSyntax
