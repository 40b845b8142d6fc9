import CypherSyntax.System.Product
import CypherSyntax.System.RootKeys

/-!
# Threads that share a system

`encrypt` and `decrypt` of any sessions of a system, called by any threads. Each session has its own
locks, and the code under them is that of `Session.Concurrent`. A schedule of all calls does what
some run of the system does, so what holds of every run holds of threads.

Results:
* `system_serial`: whatever their schedule, the calls do what they do one after another in a run of
  the system.
-/

namespace CypherSyntax

open Python Json Threads

section Concurrent

variable [Interpreter] [Crypto]

namespace System

/-- A call on one of the sessions. -/
structure ThreadCall where
  handle : Handle
  call : SessionCall

namespace ThreadCall

def event (thread : ThreadCall) : Event := thread.call.event thread.handle

/-- The lock that the call takes: one of its session. -/
def lock (thread : ThreadCall) : Handle × SessionLock := (thread.handle, thread.call.lock)

end ThreadCall

/-- What a lock of a session protects. -/
abbrev LockCell (k : Handle × SessionLock) : Type := k.2.Cell

variable {ι : Type} (sessions : Handle → SessionState) (calls : ι → ThreadCall)

/-- The calls as code under the locks of their sessions. -/
def threadTasks (i : ι) : Task (LockCell (calls i).lock) (Except PyError Bytes) :=
  (calls i).call.task (sessions (calls i).handle)

/-- What the locks protect when the threads start. -/
def threadCells (k : Handle × SessionLock) : LockCell k := (sessions k.1).cells k.2

/-- A session with what its locks protect. -/
def sessionWith (cells : ∀ k, LockCell k) (handle : Handle) : SessionState :=
  (sessions handle).withCells fun l => cells (handle, l)

/-- The sessions of the calls are those of the system. -/
def SessionsOf (cells : ∀ k, LockCell k) (s : Frame System Call) : Prop :=
  ∀ i, s.self.session? (calls i).handle = some (sessionWith sessions cells (calls i).handle)

/-- A call leaves the sessions that it is not made on as they are. -/
theorem session?_other {s : Frame System Call} {handle other : Handle} {session : SessionState}
    (hsession : s.self.session? other = some session) (hne : handle ≠ other) (call : SessionCall) :
    (step s (call.event handle)).2.self.session? other = some session := by
  have hobject := hsession
  rw [session?_eq] at hobject
  obtain ⟨object, hobject, -⟩ := Option.bind_eq_some_iff.mp hobject
  have hother : (call.event handle).subject ≠ some other := by
    intro h
    refine hne (Option.some.inj (Eq.trans ?_ h))
    cases call <;> rfl
  rw [session?_eq, step_other hother (by rw [hobject]; rfl), ← session?_eq]
  exact hsession

omit [Interpreter] [Crypto] in
/-- What a lock of another session protects is not seen. -/
theorem sessionWith_other {cells : ∀ k, LockCell k} {k : Handle × SessionLock} (cell : LockCell k)
    {handle : Handle} (hne : k.1 ≠ handle) :
    sessionWith sessions (Function.update cells k cell) handle =
      sessionWith sessions cells handle := by
  unfold sessionWith
  congr 1
  funext l
  exact Function.update_of_ne (fun h => hne (congrArg Prod.fst h).symm) _ _

omit [Interpreter] [Crypto] in
theorem sessionWith_self {cells : ∀ k, LockCell k} (handle : Handle) (l : SessionLock)
    (cell : l.Cell) :
    sessionWith sessions (Function.update cells (handle, l) cell) handle =
      (sessions handle).withCells (Function.update (fun l => cells (handle, l)) l cell) := by
  unfold sessionWith
  congr 1
  funext l'
  by_cases h : l' = l
  · subst h
    have hcell : Function.update (fun l => cells (handle, l)) l' cell l' = cell :=
      Function.update_self l' cell _
    exact (Function.update_self (handle, l') cell cells).trans hcell.symm
  · rw [Function.update_of_ne h]
    have hne : (handle, l') ≠ (handle, l) := fun heq => h (congrArg Prod.snd heq)
    exact Function.update_of_ne hne _ _

/-- **A call under its lock is a call of the system.** -/
theorem perform_steps {cells : ∀ k, LockCell k} {s : Frame System Call}
    (h : SessionsOf sessions calls cells s) (i : ι) :
    (Threads.perform (threadTasks sessions calls) cells i).1.map (calls i).call.answer =
        (step s (calls i).event).1 ∧
      SessionsOf sessions calls (Threads.perform (threadTasks sessions calls) cells i).2
        (step s (calls i).event).2 := by
  obtain ⟨hout, hself⟩ := step_session (h i) (calls i).call
  obtain ⟨hresult, hcells⟩ := SessionCall.task_run (sessions (calls i).handle)
    (fun l => cells ((calls i).handle, l)) (calls i).call
  refine ⟨?_, fun j => ?_⟩
  · rw [ThreadCall.event, hout]
    exact congrArg (Except.map (calls i).call.answer) hresult
  · by_cases hhandle : (calls i).handle = (calls j).handle
    · rw [← hhandle, ThreadCall.event, hself]
      refine congrArg some ?_
      rw [SessionCall.serveAlone, sessionWith, ← hcells]
      exact (sessionWith_self sessions _ _ _).symm
    · rw [ThreadCall.event, session?_other (h j) hhandle]
      refine congrArg some ?_
      exact (sessionWith_other sessions _ hhandle).symm

variable [DecidableEq ι]

/-- The calls and what the locks protect after the steps of a schedule. -/
abbrev scheduledCalls (schedule : List ι) :
    Config LockCell (fun i => (calls i).lock) (Except PyError Bytes) :=
  (Threads.start (threadTasks sessions calls) (threadCells sessions)).run schedule

/-- What the calls have done since the events is what a run of the system does. -/
structure SystemLinearizes (es : List Event)
    (c : Config LockCell (fun i => (calls i).lock) (Except PyError Bytes)) : Prop where
  once : c.order.Nodup
  results : ∀ i result, c.status i = .finished result → (i, result.map (calls i).call.answer) ∈
    c.order.zip (Machine.run step (reached es) (c.order.map fun i => (calls i).event)).1
  sessions : (∀ k, c.holder k = none) → ∀ i,
    (reached (es ++ c.order.map fun i => (calls i).event)).self.session? (calls i).handle =
      some (sessionWith sessions c.cells (calls i).handle)
  /-- A call that has finished comes before every call that starts later. -/
  real_time : ∀ later, c.order <+: (c.run later).order
  ends : ∀ i, ∃ later result, (c.run later).status i = .finished result

/-- **Threads that share a system**: whatever their schedule, the calls return what they return one
after another in a run of the system, in the order in which they took their locks, and leave the
sessions as that run leaves them. -/
theorem system_serial {es : List Event} (hsessions : ∀ i,
    (reached es).self.session? (calls i).handle = some (sessions (calls i).handle))
    (schedule : List ι) :
    SystemLinearizes sessions calls es (scheduledCalls sessions calls schedule) := by
  have hserial : Serial (threadTasks sessions calls) (threadCells sessions)
      (scheduledCalls sessions calls schedule) := serial_run _ _ schedule
  have hstart : SessionsOf sessions calls (threadCells sessions) (reached es) := hsessions
  generalize scheduledCalls sessions calls schedule = c at hserial ⊢
  have hstep : ∀ cells s i, SessionsOf sessions calls cells s →
      (Threads.perform (threadTasks sessions calls) cells i).1.map (calls i).call.answer =
          (step s (calls i).event).1 ∧
        SessionsOf sessions calls (Threads.perform (threadTasks sessions calls) cells i).2
          (step s (calls i).event).2 := fun _ _ i h => perform_steps sessions calls h i
  obtain ⟨houtcomes, hafter⟩ := Machine.trace_simulation
    (g := fun i result => Except.map (calls i).call.answer result) hstep hstart c.order
  have hinputs : Machine.run step (reached es) (c.order.map fun i => (calls i).event) =
      Machine.run (fun s i => step s (calls i).event) (reached es) c.order :=
    Machine.run_inputs _ _ _
  refine ⟨hserial.nodup, fun i result h => ?_, fun hfree i => ?_, c.order_run,
    Config.exists_finished hserial⟩
  · rw [hinputs]
    show (i, result.map (calls i).call.answer) ∈ Machine.trace _ (reached es) c.order
    rw [← houtcomes]
    exact List.mem_map_of_mem (hserial.finished i result h)
  · have hend : (reached (es ++ c.order.map fun i => (calls i).event)) =
        (Machine.run (fun s i => step s (calls i).event) (reached es) c.order).2 := by
      rw [← hinputs]
      unfold reached
      rw [Machine.run_append]
    rw [hend, hafter i]
    refine congrArg some ?_
    unfold sessionWith
    congr 1
    funext l
    exact (hserial.free _ (hfree _)).symm

end System

end Concurrent

/-! ## Two threads -/

section Samples

open CypherSyntax.System
open scoped Samples

/-- Alice and Bob send a packet each. -/
def bothSend : Bool → ThreadCall
  | false => ⟨.initiator 0, .encrypt (.bytes [1])⟩
  | true => ⟨.responder 0, .encrypt (.bytes [2])⟩

def sessionsOf (alices bobs : SessionState) : Handle → SessionState
  | .initiator _ => alices
  | .responder _ => bobs

theorem run_established : ((reached paired).self.session? (.initiator 0)).isSome = true ∧
    ((reached paired).self.session? (.responder 0)).isSome = true := by
  decide +kernel

theorem system_serial_paired : ∃ sessions,
    (∀ i, (reached paired).self.session? (bothSend i).handle =
      some (sessions (bothSend i).handle)) ∧
    SystemLinearizes sessions bothSend paired
      (scheduledCalls sessions bothSend [false, true, false, true]) := by
  have hrun := run_established
  generalize paired = es at hrun ⊢
  obtain ⟨alices, halices⟩ := Option.isSome_iff_exists.mp hrun.1
  obtain ⟨bobs, hbobs⟩ := Option.isSome_iff_exists.mp hrun.2
  have hsessions : ∀ i, (reached es).self.session? (bothSend i).handle =
      some (sessionsOf alices bobs (bothSend i).handle) := by
    intro i
    cases i with
    | false => exact halices
    | true => exact hbobs
  exact ⟨_, hsessions, system_serial _ bothSend hsessions [false, true, false, true]⟩

end Samples

end CypherSyntax
