import CypherSyntax.Machine
import CypherSyntax.Protocol
import CypherSyntax.Python.Runs
import Mathlib.Data.Finset.Fold
import Mathlib.Order.Interval.Finset.Basic
import Mathlib.Data.Int.Interval

/-!
# The replay window

`ReplayWindow` of `src/cyphersyntax/replay.py`. `authenticateAndRecord` takes its operation as a
method of the window, since the re-entrant lock lets it call the window again.

* A call holds the lock from its start to its end, so it is one step here. Calls of several threads,
  access by access, are in `Session/Concurrent.lean`, and operations that call the window in
  `Replay/Reentry.lean`.
* A sequence is any object until `validate_message_sequence` has checked it.

The specification remembers every sequence ever accepted. `accepts` is its rule, and `top` the
largest accepted sequence.

Results:
* `checkUnlocked_ok`: what the check accepts.
* `observe_run`, `authenticateAndRecord_run`: what one call does to the window.
* `Refines.check`: the window and the history accept alike.
* `Refines.record`: recording a sequence in the window and in the history keeps them related.
-/

namespace CypherSyntax

open Python

/-! ## The window -/

structure ReplayWindow where
  windowSize : Int
  /-- What `__post_init__` checks. -/
  windowSize_pos : 0 < windowSize
  highestSeen : Int
  seen : Finset Int
  deriving DecidableEq

namespace ReplayWindow

/-- A window that has seen nothing. -/
def ofSize (windowSize : Int) (h : 0 < windowSize) : ReplayWindow := ⟨windowSize, h, -1, ∅⟩

/-- `ReplayWindow(window_size=...)`. -/
def new : Value → Except PyError ReplayWindow
  | .int windowSize =>
    if h : 0 < windowSize then .ok (ofSize windowSize h)
    else .error (valueError "replay window size must be positive")
  | _ => .error (typeError "replay window size must be an integer")

/-- `ReplayWindow()`. -/
def default : ReplayWindow := ofSize 1024 (by decide)

/-- `_check_unlocked` -/
def checkUnlocked (self : ReplayWindow) (sequence : Value) : Except PyError Int := do
  let number ← validateMessageSequence sequence
  raiseIf (number ∈ self.seen)
    (replayDetectedError (lit "replayed sequence number: " ++ intText number))
  raiseIf (number ≤ self.highestSeen - self.windowSize)
    (replayDetectedError (lit "stale sequence number outside replay window: " ++ intText number))
  return number

/-- `_record_unlocked` -/
def recordUnlocked (self : ReplayWindow) (sequence : Int) : ReplayWindow :=
  let seen := insert sequence self.seen
  let highestSeen := if sequence > self.highestSeen then sequence else self.highestSeen
  let floor := highestSeen - self.windowSize
  { self with highestSeen := highestSeen, seen := seen.filter (· > floor) }

variable {τ α : Type}

def observe (sequence : Value) : Method ErrorClass ReplayWindow τ Unit := do
  let number ← (← Method.self).checkUnlocked sequence
  Method.update (·.recordUnlocked number)

def authenticateAndRecord (sequence : Value) (operation : Method ErrorClass ReplayWindow τ α) :
    Method ErrorClass ReplayWindow τ α := do
  let number ← (← Method.self).checkUnlocked sequence
  let result ← operation
  Method.update (·.recordUnlocked number)
  return result

theorem new_int {windowSize : Int} (h : 0 < windowSize) :
    new (.int windowSize) = .ok (ofSize windowSize h) := dif_pos h

/-! ## What a call does -/

theorem checkUnlocked_ok {self : ReplayWindow} {sequence : Value} {n : Int} :
    self.checkUnlocked sequence = .ok n ↔ sequence = .int n ∧ 0 ≤ n ∧ n ≤ maxMessageSequence ∧
      n ∉ self.seen ∧ self.highestSeen - self.windowSize < n := by
  simp only [checkUnlocked, bind_eq_ok, validateMessageSequence_ok, raiseIf_ok, pure_eq_ok]
  constructor
  · rintro ⟨m, ⟨rfl, hlo, hhi⟩, -, hseen, -, hfloor, rfl⟩
    exact ⟨rfl, hlo, hhi, hseen, by omega⟩
  · rintro ⟨rfl, hlo, hhi, hseen, hfloor⟩
    exact ⟨n, ⟨rfl, hlo, hhi⟩, (), hseen, (), by omega, rfl⟩

@[simp] theorem recordUnlocked_windowSize (self : ReplayWindow) (n : Int) :
    (self.recordUnlocked n).windowSize = self.windowSize := rfl

theorem recordUnlocked_highestSeen (self : ReplayWindow) (n : Int) :
    (self.recordUnlocked n).highestSeen = max n self.highestSeen := by
  show (if n > self.highestSeen then n else self.highestSeen) = _
  split
  · exact (max_eq_left (by omega)).symm
  · exact (max_eq_right (by omega)).symm

theorem recordUnlocked_seen (self : ReplayWindow) (n : Int) : (self.recordUnlocked n).seen =
    (insert n self.seen).filter (max n self.highestSeen - self.windowSize < ·) := by
  rw [← recordUnlocked_highestSeen]
  rfl

theorem observe_run (sequence : Value) (s : Frame ReplayWindow τ) :
    (observe sequence).run s = match s.self.checkUnlocked sequence with
      | .ok n => (.ok (), ⟨s.self.recordUnlocked n, s.log⟩)
      | .error e => (.error e, s) := by
  unfold observe
  rw [Method.run_bind_ok (Method.run_self s)]
  cases hc : s.self.checkUnlocked sequence with
  | ok n => rfl
  | error e => rfl

/-- The check comes first, then the operation, and only then is the sequence recorded. -/
theorem authenticateAndRecord_run (sequence : Value)
    (operation : Method ErrorClass ReplayWindow τ α) (s : Frame ReplayWindow τ) :
    (authenticateAndRecord sequence operation).run s = match s.self.checkUnlocked sequence with
      | .error e => (.error e, s)
      | .ok n => match operation.run s with
        | (.error e, t) => (.error e, t)
        | (.ok a, t) => (.ok a, ⟨t.self.recordUnlocked n, t.log⟩) := by
  unfold authenticateAndRecord
  rw [Method.run_bind_ok (Method.run_self s)]
  cases hc : s.self.checkUnlocked sequence with
  | error e => rfl
  | ok n =>
    rw [Method.run_bind_ok (Method.run_lift _ s), Method.run_bind]
    rcases operation.run s with ⟨a | e, t⟩ <;> rfl

/-- What the call does, from what its operation does after the check. -/
theorem authenticateAndRecord_runs {sequence : Value}
    {operation : Method ErrorClass ReplayWindow τ α} {s : Frame ReplayWindow τ}
    {Q : α → Frame ReplayWindow τ → Prop} {E : PyError → Frame ReplayWindow τ → Prop}
    (hreject : ∀ e, s.self.checkUnlocked sequence = .error e → E e s)
    (hcheck : ∀ n, s.self.checkUnlocked sequence = .ok n →
      Runs operation s (fun a t => Q a ⟨t.self.recordUnlocked n, t.log⟩) E) :
    Runs (authenticateAndRecord sequence operation) s Q E := by
  unfold authenticateAndRecord
  refine .bind_run (Method.run_self s) (.bind_lift (fun n hn => ?_) hreject)
  exact (hcheck n hn).bind fun a t ha => .bind_run (Method.run_update _ _) (.pure ha)

end ReplayWindow

/-! ## The history of accepted sequences -/

/-- The largest accepted sequence, -1 if there is none. -/
def top (accepted : Finset Int) : Int := accepted.fold max (-1) id

theorem top_insert (n : Int) (accepted : Finset Int) :
    top (insert n accepted) = max n (top accepted) :=
  Finset.fold_insert_idem

theorem le_top {n : Int} {accepted : Finset Int} (h : n ∈ accepted) : n ≤ top accepted :=
  (Finset.le_fold_max n).mpr (Or.inr ⟨n, h, le_refl n⟩)

/-- The rule of a specification that remembers every accepted sequence. -/
def accepts (windowSize : Int) (accepted : Finset Int) (sequence : Value) : Option Int :=
  match sequence with
  | .int n =>
    if 0 ≤ n ∧ n ≤ maxMessageSequence ∧ n ∉ accepted ∧ top accepted - windowSize < n then some n
    else none
  | _ => none

theorem accepts_eq_some {windowSize : Int} {accepted : Finset Int} {sequence : Value} {n : Int} :
    accepts windowSize accepted sequence = some n ↔ sequence = .int n ∧ 0 ≤ n ∧
      n ≤ maxMessageSequence ∧ n ∉ accepted ∧ top accepted - windowSize < n := by
  unfold accepts
  split
  · rename_i m
    constructor
    · intro h
      split at h
      · cases h
        exact ⟨rfl, ‹_›⟩
      · cases h
    · rintro ⟨h, hn⟩
      cases h
      rw [if_pos hn]
  · rename_i hne
    constructor
    · intro h
      cases h
    · rintro ⟨rfl, -⟩
      exact absurd rfl (hne n)

/-- The window holds what its history says it should. -/
structure Refines (window : ReplayWindow) (accepted : Finset Int) : Prop where
  highestSeen : window.highestSeen = top accepted
  seen : window.seen = accepted.filter (top accepted - window.windowSize < ·)

namespace Refines

variable {window : ReplayWindow} {accepted : Finset Int}

/-- The window checks as the specification accepts: a forgotten sequence is a stale one. -/
theorem check (h : Refines window accepted) (sequence : Value) (n : Int) :
    window.checkUnlocked sequence = .ok n ↔
      accepts window.windowSize accepted sequence = some n := by
  rw [ReplayWindow.checkUnlocked_ok, accepts_eq_some, h.highestSeen, h.seen, Finset.mem_filter]
  refine and_congr Iff.rfl (and_congr Iff.rfl (and_congr Iff.rfl ?_))
  constructor
  · rintro ⟨hseen, hfloor⟩
    exact ⟨fun hmem => hseen ⟨hmem, hfloor⟩, hfloor⟩
  · rintro ⟨hmem, hfloor⟩
    exact ⟨fun hseen => hmem hseen.1, hfloor⟩

theorem ofSize (windowSize : Int) (h : 0 < windowSize) :
    Refines (ReplayWindow.ofSize windowSize h) ∅ := ⟨rfl, rfl⟩

/-- Recording in the window and in the history. -/
theorem record (h : Refines window accepted) (n : Int) :
    Refines (window.recordUnlocked n) (insert n accepted) := by
  constructor
  · rw [ReplayWindow.recordUnlocked_highestSeen, h.highestSeen, top_insert]
  · rw [ReplayWindow.recordUnlocked_seen, ReplayWindow.recordUnlocked_windowSize, h.highestSeen,
      h.seen, top_insert]
    ext m
    simp only [Finset.mem_filter, Finset.mem_insert]
    constructor
    · rintro ⟨rfl | ⟨hm, -⟩, hfloor⟩
      · exact ⟨Or.inl rfl, hfloor⟩
      · exact ⟨Or.inr hm, hfloor⟩
    · rintro ⟨rfl | hm, hfloor⟩
      · exact ⟨Or.inl rfl, hfloor⟩
      · refine ⟨Or.inr ⟨hm, ?_⟩, hfloor⟩
        have := le_max_right n (top accepted)
        omega

/-- The window remembers at most `windowSize` sequences. -/
theorem card_le (h : Refines window accepted) : (window.seen.card : Int) ≤ window.windowSize := by
  have hsub : window.seen ⊆ Finset.Ioc (top accepted - window.windowSize) (top accepted) := by
    intro n hn
    rw [h.seen, Finset.mem_filter] at hn
    exact Finset.mem_Ioc.mpr ⟨hn.2, le_top hn.1⟩
  have hcard := Finset.card_le_card hsub
  rw [Int.card_Ioc] at hcard
  have hpos := window.windowSize_pos
  omega

end Refines

end CypherSyntax
