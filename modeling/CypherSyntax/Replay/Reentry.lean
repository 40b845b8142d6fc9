import CypherSyntax.Replay

/-!
# Re-entrant operations

The lock of a replay window is re-entrant, so the operation of `authenticate_and_record` may call
the window again. A `Program` is any code that does: it calls the window, with operations that are
programs themselves, and goes on as the outcomes tell it.

Each acceptance is logged: `observe` or `authenticate_and_record` has returned for that sequence.

Results:
* `Program.nodup_iff_guarded`: each sequence is accepted at most once if and only if no operation
  that returns has had its own sequence accepted meanwhile.
* `reentrant_twice`: an operation that observes its own sequence has it accepted twice.
-/

namespace CypherSyntax

open Python

/-! ## Programs -/

/-- Code that calls a replay window. -/
inductive Program (α : Type) where
  | done (result : Except PyError α)
  | observe (sequence : Value) (rest : Except PyError Unit → Program α)
  | authenticateAndRecord (sequence : Value) (operation : Program α)
      (rest : Except PyError α → Program α)

namespace Program

variable {α β : Type}

/-- Logs the sequence of a call that has returned. -/
def accepting (sequence : Value) (call : Method ErrorClass ReplayWindow Int β) :
    Method ErrorClass ReplayWindow Int β := do
  let result ← call
  match sequence with
  | .int number => Method.record number
  | _ => pure ()
  return result

def method : Program α → Method ErrorClass ReplayWindow Int α
  | .done result => result
  | .observe sequence rest => do
    let outcome ← (accepting sequence (ReplayWindow.observe sequence)).attempt
    (rest outcome).method
  | .authenticateAndRecord sequence operation rest => do
    let outcome ← (accepting sequence
      (ReplayWindow.authenticateAndRecord sequence operation.method)).attempt
    (rest outcome).method

/-- What one call of the window does: its outcome, and the window and the log after it. -/
def observed (sequence : Value) (s : Frame ReplayWindow Int) :
    Except PyError Unit × Frame ReplayWindow Int :=
  (accepting sequence (ReplayWindow.observe sequence)).run s

def authenticated (sequence : Value) (operation : Program α) (s : Frame ReplayWindow Int) :
    Except PyError α × Frame ReplayWindow Int :=
  (accepting sequence (ReplayWindow.authenticateAndRecord sequence operation.method)).run s

/-- No operation that returns has had its own sequence accepted while it ran. -/
def Guarded : Program α → Frame ReplayWindow Int → Prop
  | .done _, _ => True
  | .observe sequence rest, s => (rest (observed sequence s).1).Guarded (observed sequence s).2
  | .authenticateAndRecord sequence operation rest, s =>
    (∀ number, s.self.checkUnlocked sequence = .ok number → operation.Guarded s ∧
      ∀ result t calls, operation.method.run s = (.ok result, t) → t.log = s.log ++ calls →
        number ∉ calls) ∧
    (rest (authenticated sequence operation s).1).Guarded (authenticated sequence operation s).2

/-! ## What a program does -/

theorem run_observe (sequence : Value) (rest : Except PyError Unit → Program α)
    (s : Frame ReplayWindow Int) : (observe sequence rest).method.run s =
      (rest (observed sequence s).1).method.run (observed sequence s).2 := rfl

theorem run_authenticate (sequence : Value) (operation : Program α)
    (rest : Except PyError α → Program α) (s : Frame ReplayWindow Int) :
    (authenticateAndRecord sequence operation rest).method.run s =
      (rest (authenticated sequence operation s).1).method.run
        (authenticated sequence operation s).2 := rfl

theorem observed_eq (sequence : Value) (s : Frame ReplayWindow Int) : observed sequence s =
    match s.self.checkUnlocked sequence with
    | .ok n => (.ok (), ⟨s.self.recordUnlocked n, s.log ++ [n]⟩)
    | .error e => (.error e, s) := by
  unfold observed accepting
  rw [Method.run_bind, ReplayWindow.observe_run]
  cases hcheck : s.self.checkUnlocked sequence with
  | error e => rfl
  | ok n =>
    obtain ⟨rfl, -⟩ := ReplayWindow.checkUnlocked_ok.mp hcheck
    rfl

theorem authenticated_eq (sequence : Value) (operation : Program α) (s : Frame ReplayWindow Int) :
    authenticated sequence operation s =
    match s.self.checkUnlocked sequence with
    | .ok n => match operation.method.run s with
      | (.ok a, t) => (.ok a, ⟨t.self.recordUnlocked n, t.log ++ [n]⟩)
      | (.error e, t) => (.error e, t)
    | .error e => (.error e, s) := by
  unfold authenticated accepting
  rw [Method.run_bind, ReplayWindow.authenticateAndRecord_run]
  cases hcheck : s.self.checkUnlocked sequence with
  | error e => rfl
  | ok n =>
    obtain ⟨rfl, -⟩ := ReplayWindow.checkUnlocked_ok.mp hcheck
    rcases operation.method.run s with ⟨e | a, t⟩
    · rfl
    · rfl

/-- What has been accepted stays accepted. -/
theorem log_append (program : Program α) (s : Frame ReplayWindow Int) :
    ∃ calls, (program.method.run s).2.log = s.log ++ calls := by
  induction program generalizing s with
  | done result => exact ⟨[], (List.append_nil _).symm⟩
  | observe sequence rest ih =>
    rw [run_observe]
    obtain ⟨calls, hcalls⟩ := ih (observed sequence s).1 (observed sequence s).2
    rw [hcalls, observed_eq]
    cases s.self.checkUnlocked sequence with
    | error e => exact ⟨calls, rfl⟩
    | ok n => exact ⟨n :: calls, List.append_assoc _ _ _⟩
  | authenticateAndRecord sequence operation rest ihop ih =>
    rw [run_authenticate]
    obtain ⟨calls, hcalls⟩ :=
      ih (authenticated sequence operation s).1 (authenticated sequence operation s).2
    obtain ⟨calls', hcalls'⟩ := ihop s
    rw [hcalls, authenticated_eq]
    cases s.self.checkUnlocked sequence with
    | error e => exact ⟨calls, rfl⟩
    | ok n =>
      rcases hrun : operation.method.run s with ⟨e | a, t⟩
      · rw [hrun] at hcalls'
        simp only at hcalls'
        exact ⟨calls' ++ calls, by simp only [hcalls', List.append_assoc]⟩
      · rw [hrun] at hcalls'
        simp only at hcalls'
        exact ⟨calls' ++ [n] ++ calls, by simp only [hcalls', List.append_assoc]⟩

/-! ## Accepting once -/

/-- The window holds what has been accepted, once or more often. -/
def Holds (s : Frame ReplayWindow Int) : Prop := Refines s.self s.log.toFinset

theorem Holds.accept {s : Frame ReplayWindow Int} (h : Holds s) (n : Int) :
    Holds ⟨s.self.recordUnlocked n, s.log ++ [n]⟩ := by
  have hset : (s.log ++ [n]).toFinset = insert n s.log.toFinset := by
    ext m
    simp
  unfold Holds
  rw [hset]
  exact h.record n

theorem Holds.fresh {s : Frame ReplayWindow Int} (h : Holds s) {sequence : Value} {n : Int}
    (hcheck : s.self.checkUnlocked sequence = .ok n) : n ∉ s.log := fun hn =>
  (accepts_eq_some.mp ((h.check sequence n).mp hcheck)).2.2.2.1 (List.mem_toFinset.mpr hn)

theorem Holds.observed {s : Frame ReplayWindow Int} (h : Holds s) (sequence : Value) :
    Holds (observed sequence s).2 := by
  rw [observed_eq]
  cases s.self.checkUnlocked sequence with
  | error e => exact h
  | ok n => exact h.accept n

theorem Holds.authenticated {operation : Program α} {s : Frame ReplayWindow Int} (h : Holds s)
    (hop : Holds (operation.method.run s).2) (sequence : Value) :
    Holds (authenticated sequence operation s).2 := by
  rw [authenticated_eq]
  cases s.self.checkUnlocked sequence with
  | error e => exact h
  | ok n =>
    rcases hrun : operation.method.run s with ⟨e | a, t⟩
    · rw [hrun] at hop
      exact hop
    · rw [hrun] at hop
      exact hop.accept n

theorem holds_run (program : Program α) {s : Frame ReplayWindow Int} (h : Holds s) :
    Holds (program.method.run s).2 := by
  induction program generalizing s with
  | done result => exact h
  | observe sequence rest ih => exact ih _ (h.observed sequence)
  | authenticateAndRecord sequence operation rest ihop ih =>
    exact ih _ (h.authenticated (ihop h) sequence)

theorem nodup_append_singleton {l : List Int} {n : Int} :
    (l ++ [n]).Nodup ↔ l.Nodup ∧ n ∉ l := by
  rw [← List.concat_eq_append, List.nodup_concat, and_comm]

/-- A run has accepted nothing twice if its first part has not, and the rest has not. -/
theorem nodup_rest (program : Program α) {t : Frame ReplayWindow Int} {p : Prop}
    (hfirst : t.log.Nodup ↔ p)
    (hrest : t.log.Nodup → ((program.method.run t).2.log.Nodup ↔ program.Guarded t)) :
    (program.method.run t).2.log.Nodup ↔ p ∧ program.Guarded t := by
  constructor
  · intro hnodup
    obtain ⟨calls, hcalls⟩ := program.log_append t
    have ht : t.log.Nodup := (List.nodup_append.mp (hcalls ▸ hnodup)).1
    exact ⟨hfirst.mp ht, (hrest ht).mp hnodup⟩
  · rintro ⟨hp, hguarded⟩
    exact (hrest (hfirst.mpr hp)).mpr hguarded

/-- **Nothing is accepted twice if and only if the program is guarded.** -/
theorem nodup_iff_guarded (program : Program α) {s : Frame ReplayWindow Int} (h : Holds s)
    (hnodup : s.log.Nodup) : (program.method.run s).2.log.Nodup ↔ program.Guarded s := by
  induction program generalizing s with
  | done result => exact iff_of_true hnodup trivial
  | observe sequence rest ih =>
    have hnodup' : (observed sequence s).2.log.Nodup := by
      rw [observed_eq]
      cases hcheck : s.self.checkUnlocked sequence with
      | error e => exact hnodup
      | ok n => exact nodup_append_singleton.mpr ⟨hnodup, h.fresh hcheck⟩
    exact ih _ (h.observed sequence) hnodup'
  | authenticateAndRecord sequence operation rest ihop ih =>
    have hop := ihop h hnodup
    rw [run_authenticate]
    refine nodup_rest _ ?_ (ih _ (h.authenticated (operation.holds_run h) sequence))
    rw [authenticated_eq]
    cases hcheck : s.self.checkUnlocked sequence with
    | error e => exact iff_of_true hnodup fun _ h => by cases h
    | ok n =>
      obtain ⟨calls, hcalls⟩ := operation.log_append s
      rcases hrun : operation.method.run s with ⟨e | a, t⟩
      · -- an operation that raises records nothing after it
        rw [hrun] at hop
        exact hop.trans ⟨fun hguarded m hm => ⟨hguarded, fun _ _ _ h => by cases h⟩,
          fun h => (h n rfl).1⟩
      · rw [hrun] at hop hcalls
        simp only at hop hcalls ⊢
        rw [nodup_append_singleton, hop]
        constructor
        · rintro ⟨hguarded, hnew⟩ m hm
          obtain rfl := Except.ok.inj hm
          refine ⟨hguarded, fun _ t' calls' h hlog hmem => hnew ?_⟩
          obtain rfl := (Prod.mk.inj h).2
          rw [hlog]
          exact List.mem_append_right _ hmem
        · intro hall
          obtain ⟨hguarded, hnew⟩ := hall n rfl
          refine ⟨hguarded, fun hmem => ?_⟩
          rcases List.mem_append.mp (hcalls ▸ hmem) with hold | hmem
          · exact h.fresh hcheck hold
          · exact hnew a t calls rfl hcalls hmem

end Program

/-! ## From a new window -/

/-- **A window accepts each sequence at most once if and only if no operation that returns has had
its own sequence accepted while it ran**, whatever the code around it does. -/
theorem reentrant_accepts_once_iff {α : Type} {windowSize : Int} (hpos : 0 < windowSize)
    (program : Program α) :
    (program.method.run ⟨ReplayWindow.ofSize windowSize hpos, []⟩).2.log.Nodup ↔
      program.Guarded ⟨ReplayWindow.ofSize windowSize hpos, []⟩ :=
  program.nodup_iff_guarded (Refines.ofSize windowSize hpos) List.nodup_nil

/-- `window.authenticate_and_record(0, lambda: window.observe(1))` -/
def observesAnother : Program Unit :=
  .authenticateAndRecord (.int 0) (.observe (.int 1) .done) .done

/-- `window.authenticate_and_record(0, lambda: window.observe(0))` -/
def observesItself : Program Unit :=
  .authenticateAndRecord (.int 0) (.observe (.int 0) .done) .done

/-- An operation that observes another sequence is guarded. -/
theorem reentrant_accepts_once_iff_another :
    observesAnother.Guarded ⟨ReplayWindow.ofSize 4 (by decide), []⟩ :=
  (reentrant_accepts_once_iff (by decide) observesAnother).mp (by decide)

/-- **A sequence that is accepted twice**: the operation observes it, and then the call records it
without a second check. -/
theorem reentrant_twice :
    (observesItself.method.run ⟨ReplayWindow.default, []⟩).1 = .ok () ∧
      (observesItself.method.run ⟨ReplayWindow.default, []⟩).2.log = [0, 0] ∧
      ¬ (observesItself.method.run ⟨ReplayWindow.default, []⟩).2.log.Nodup :=
  ⟨by decide, by decide, by decide⟩

end CypherSyntax
