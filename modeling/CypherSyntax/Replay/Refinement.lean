import CypherSyntax.Replay

/-!
# The replay window refines its history

Calls of `observe` and `authenticate_and_record`, with operations that do not touch the window, run
on a `ReplayWindow` and on the set of all accepted sequences. The two take the same decisions
(`replayWindow_refines_history`), by a step lemma for one call and `Machine.run_simulation`.
-/

namespace CypherSyntax

open Python

variable {σ τ α : Type}

/-! ## Calls -/

/-- An operation that does not touch the object it is called under: it reads and extends the log
and returns or raises. -/
abbrev Operation (τ α : Type) := List τ → Except PyError α × List τ

def Operation.method (operation : Operation τ α) : Method ErrorClass σ τ α :=
  ⟨fun s => ((operation s.log).1, ⟨s.self, (operation s.log).2⟩)⟩

inductive WindowCall (τ α : Type) where
  | observe (sequence : Value)
  | authenticateAndRecord (sequence : Value) (operation : Operation τ α)

/-- A call, with the result of its operation. -/
def WindowCall.method : WindowCall τ α → Method ErrorClass ReplayWindow τ (Option α)
  | .observe sequence => do
    ReplayWindow.observe sequence
    return none
  | .authenticateAndRecord sequence operation => do
    return some (← ReplayWindow.authenticateAndRecord sequence operation.method)

/-- One call on the window: whether it returns, and the window after it. -/
def windowStep (s : Frame ReplayWindow τ) (call : WindowCall τ α) : Bool × Frame ReplayWindow τ :=
  match call.method.run s with
  | (.ok _, t) => (true, t)
  | (.error _, t) => (false, t)

/-- One call on the history: it accepts by its rule, if the operation returns. -/
def historyStep (windowSize : Int) (s : Frame (Finset Int) τ) :
    WindowCall τ α → Bool × Frame (Finset Int) τ
  | .observe sequence =>
    match accepts windowSize s.self sequence with
    | some n => (true, ⟨insert n s.self, s.log⟩)
    | none => (false, s)
  | .authenticateAndRecord sequence operation =>
    match accepts windowSize s.self sequence with
    | some n =>
      match operation s.log with
      | (.ok _, log) => (true, ⟨insert n s.self, log⟩)
      | (.error _, log) => (false, ⟨s.self, log⟩)
    | none => (false, s)

/-! ## One call -/

theorem windowStep_observe (s : Frame ReplayWindow τ) (sequence : Value) :
    windowStep s (.observe sequence : WindowCall τ α) =
      match s.self.checkUnlocked sequence with
      | .ok n => (true, ⟨s.self.recordUnlocked n, s.log⟩)
      | .error _ => (false, s) := by
  unfold windowStep WindowCall.method
  simp only
  rw [Method.run_bind, ReplayWindow.observe_run]
  cases s.self.checkUnlocked sequence <;> rfl

theorem windowStep_authenticate (s : Frame ReplayWindow τ) (sequence : Value)
    (operation : Operation τ α) : windowStep s (.authenticateAndRecord sequence operation) =
      match s.self.checkUnlocked sequence with
      | .ok n => match operation s.log with
        | (.ok _, log) => (true, ⟨s.self.recordUnlocked n, log⟩)
        | (.error _, log) => (false, ⟨s.self, log⟩)
      | .error _ => (false, s) := by
  unfold windowStep WindowCall.method
  simp only
  rw [Method.run_bind, ReplayWindow.authenticateAndRecord_run]
  cases s.self.checkUnlocked sequence with
  | error e => rfl
  | ok n =>
    unfold Operation.method
    simp only
    rcases operation s.log with ⟨a | e, log⟩ <;> rfl

/-- The window and the history, after the same calls. -/
structure Simulates (windowSize : Int) (s : Frame ReplayWindow τ) (h : Frame (Finset Int) τ) :
    Prop where
  windowSize : s.self.windowSize = windowSize
  refines : Refines s.self h.self
  log : s.log = h.log

theorem Simulates.record {windowSize : Int} {s : Frame ReplayWindow τ} {h : Frame (Finset Int) τ}
    (hs : Simulates windowSize s h) (n : Int) (log : List τ) :
    Simulates windowSize ⟨s.self.recordUnlocked n, log⟩ ⟨insert n h.self, log⟩ :=
  ⟨hs.windowSize, hs.refines.record n, rfl⟩

/-- One call: the same decision, and the two stay related. -/
theorem Simulates.step {windowSize : Int} (s : Frame ReplayWindow τ) (h : Frame (Finset Int) τ)
    (call : WindowCall τ α) (hs : Simulates windowSize s h) :
    (windowStep s call).1 = (historyStep windowSize h call).1 ∧
      Simulates windowSize (windowStep s call).2 (historyStep windowSize h call).2 := by
  have hcheck : ∀ sequence n, s.self.checkUnlocked sequence = .ok n ↔
      accepts windowSize h.self sequence = some n := by
    intro sequence n
    rw [hs.refines.check, hs.windowSize]
  have hnone : ∀ sequence e, s.self.checkUnlocked sequence = .error e →
      accepts windowSize h.self sequence = none := by
    intro sequence e he
    cases ha : accepts windowSize h.self sequence with
    | none => rfl
    | some n => rw [(hcheck sequence n).mpr ha] at he; cases he
  cases call with
  | observe sequence =>
    rw [windowStep_observe, historyStep]
    cases hc : s.self.checkUnlocked sequence with
    | error e =>
      rw [hnone sequence e hc]
      exact ⟨rfl, hs⟩
    | ok n =>
      rw [(hcheck sequence n).mp hc, hs.log]
      exact ⟨rfl, hs.record n _⟩
  | authenticateAndRecord sequence operation =>
    rw [windowStep_authenticate, historyStep]
    cases hc : s.self.checkUnlocked sequence with
    | error e =>
      rw [hnone sequence e hc]
      exact ⟨rfl, hs⟩
    | ok n =>
      rw [(hcheck sequence n).mp hc, hs.log]
      simp only
      rcases operation h.log with ⟨a | e, log⟩
      · exact ⟨rfl, hs.windowSize, hs.refines, rfl⟩
      · exact ⟨rfl, hs.record n log⟩

/-- A rejected call leaves the window as it was. -/
theorem windowStep_rejected (s : Frame ReplayWindow τ) (call : WindowCall τ α)
    (h : (windowStep s call).1 = false) : (windowStep s call).2.self = s.self := by
  cases call with
  | observe sequence =>
    rw [windowStep_observe] at h ⊢
    cases hc : s.self.checkUnlocked sequence with
    | error e => rfl
    | ok n => rw [hc] at h; cases h
  | authenticateAndRecord sequence operation =>
    rw [windowStep_authenticate] at h ⊢
    cases hc : s.self.checkUnlocked sequence with
    | error e => rfl
    | ok n =>
      rw [hc] at h
      simp only at h ⊢
      rcases ho : operation s.log with ⟨a | e, log⟩
      · rfl
      · rw [ho] at h
        cases h

/-! ## Runs -/

/-- **A window takes the decisions of a specification that remembers every accepted sequence**,
over any calls: it holds the largest accepted sequence and the accepted sequences above the floor,
at most `windowSize` of them, and a call that is rejected leaves it as it was. -/
theorem replayWindow_refines_history {windowSize : Int} (hpos : 0 < windowSize) (log : List τ)
    (calls : List (WindowCall τ α)) :
    ReplayWindow.new (.int windowSize) = .ok (ReplayWindow.ofSize windowSize hpos) ∧
    let window := Machine.run windowStep ⟨ReplayWindow.ofSize windowSize hpos, log⟩ calls
    let history := Machine.run (historyStep windowSize) ⟨∅, log⟩ calls
    window.1 = history.1 ∧
      window.2.self.highestSeen = top history.2.self ∧
      window.2.self.seen =
        history.2.self.filter (fun n => top history.2.self - windowSize < n) ∧
      (window.2.self.seen.card : Int) ≤ windowSize ∧
      ∀ call : WindowCall τ α, (windowStep window.2 call).1 = false →
        (windowStep window.2 call).2.self = window.2.self := by
  have hinit : Simulates windowSize ⟨ReplayWindow.ofSize windowSize hpos, log⟩ ⟨∅, log⟩ :=
    ⟨rfl, Refines.ofSize windowSize hpos, rfl⟩
  obtain ⟨hout, hend⟩ := Machine.run_simulation Simulates.step hinit calls
  have hseen := hend.refines.seen
  have hcard := hend.refines.card_le
  rw [hend.windowSize] at hseen hcard
  exact ⟨ReplayWindow.new_int hpos, hout, hend.refines.highestSeen, hseen, hcard,
    fun call => windowStep_rejected _ call⟩

/-- A window of four: 10 jumps ahead, 7 is inside, 6 is stale, 7 is a replay, and 9 is accepted
only once its operation returns. -/
theorem replayWindow_refines_history_four :
    let calls : List (WindowCall Unit Unit) :=
      [.observe (.int 10), .authenticateAndRecord (.int 7) fun log => (.ok (), log),
        .observe (.int 6), .observe (.int 7),
        .authenticateAndRecord (.int 9) fun log => (.error (envelopeError []), log),
        .authenticateAndRecord (.int 9) fun log => (.ok (), log), .observe (.bool true)]
    let window := Machine.run windowStep ⟨ReplayWindow.ofSize 4 (by decide), []⟩ calls
    window.1 = [true, true, false, false, false, true, false] ∧
      window.2.self.highestSeen = top {7, 9, 10} ∧ (window.2.self.seen.card : Int) ≤ 4 := by
  intro calls window
  have h := replayWindow_refines_history (by decide : (0 : Int) < 4) [] calls
  exact ⟨by decide, by decide, h.2.2.2.2.1⟩

end CypherSyntax
