import CypherSyntax.Threads
import Mathlib.Data.List.Induction
import Mathlib.Data.List.TakeWhile

/-!
# Calls that do not lock

Calls that share a cell and take no lock. A call reads the cell, decides by what it has read, and
marks the cell as spent if it goes on; other calls may go on between the two.

Results:
* `run_attempt`: the cell and the calls after any schedule.
* `returned_iff`: a call goes on if it could alone, and no call that could had finished when it
  started.
-/

namespace Threads

/-- A cell, and what the calls that share it have left to do. -/
structure Shared (ι σ α : Type) where
  cell : σ
  code : ι → Body σ α

variable {ι σ ε α : Type}

/-! ## Code -/

/-- What is left to do after the read. -/
def settle (spent : σ) : Except ε α → Body σ (Except ε α)
  | .error e => .done (.error e)
  | .ok a => .modify (fun _ => spent) (.done (.ok a))

/-- Code that reads the cell, and spends it if it goes on. -/
def attempt (spent : σ) (decides : σ → Except ε α) : Body σ (Except ε α) :=
  .read fun s => settle spent (decides s)

theorem attempt_run (spent : σ) (decides : σ → Except ε α) (s : σ) :
    (attempt spent decides).run s = (decides s, if (decides s).isOk then spent else s) := by
  unfold attempt
  rw [Body.run_read]
  cases decides s <;> rfl

variable [DecidableEq ι]

namespace Shared

/-- One access by one call. -/
def advance (c : Shared ι σ α) (i : ι) : Shared ι σ α :=
  match c.code i with
  | .done _ => c
  | .access write next => ⟨write c.cell, Function.update c.code i (next c.cell)⟩

def run (c : Shared ι σ α) (schedule : List ι) : Shared ι σ α := schedule.foldl advance c

theorem run_concat (c : Shared ι σ α) (schedule : List ι) (i : ι) :
    c.run (schedule ++ [i]) = (c.run schedule).advance i := List.foldl_append

end Shared

/-! ## Schedules -/

/-- What comes before the first access of a call. -/
def before (schedule : List ι) (i : ι) : List ι := schedule.takeWhile (· ≠ i)

theorem before_eq_self {schedule : List ι} {i : ι} (h : i ∉ schedule) :
    before schedule i = schedule := by
  refine List.takeWhile_eq_self_iff.mpr fun j hj => ?_
  have hne : j ≠ i := fun heq => h (heq ▸ hj)
  simp [hne]

theorem before_concat_self {schedule : List ι} {i : ι} (h : i ∉ schedule) :
    before (schedule ++ [i]) i = schedule := by
  have hself : schedule.takeWhile (· ≠ i) = schedule := before_eq_self h
  unfold before
  rw [List.takeWhile_append, if_pos (by rw [hself])]
  simp

theorem before_concat_mem {schedule : List ι} {i : ι} (h : i ∈ schedule) (j : ι) :
    before (schedule ++ [j]) i = before schedule i := by
  unfold before
  rw [List.takeWhile_append, if_neg]
  intro hlength
  have hself := (List.takeWhile_prefix (fun k => decide (k ≠ i))).eq_of_length hlength
  have hall := List.takeWhile_eq_self_iff.mp hself i h
  simp at hall

theorem before_sublist (schedule : List ι) (i : ι) : (before schedule i).Sublist schedule :=
  List.takeWhile_sublist _

section Attempts

variable (spent fresh : σ) (decides : ι → σ → Except ε α)

/-- A call that could go on alone has finished. -/
def Spent (schedule : List ι) : Prop :=
  ∃ j, (decides j fresh).isOk = true ∧ 2 ≤ schedule.count j

open Classical in
/-- The cell after a schedule. -/
noncomputable def cellAfter (schedule : List ι) : σ :=
  if Spent fresh decides schedule then spent else fresh

/-- What a call reads. -/
noncomputable def seenBy (schedule : List ι) (i : ι) : σ :=
  cellAfter spent fresh decides (before schedule i)

/-- What a call has left to do after a schedule. -/
noncomputable def codeAfter (schedule : List ι) (i : ι) : Body σ (Except ε α) :=
  match schedule.count i with
  | 0 => attempt spent (decides i)
  | 1 => settle spent (decides i (seenBy spent fresh decides schedule i))
  | _ => .done (decides i (seenBy spent fresh decides schedule i))

section Code

variable {schedule : List ι} {i : ι}

theorem codeAfter_start (h : i ∉ schedule) :
    codeAfter spent fresh decides schedule i = attempt spent (decides i) := by
  unfold codeAfter
  rw [List.count_eq_zero_of_not_mem h]
  rfl

theorem codeAfter_read (h : schedule.count i = 1) :
    codeAfter spent fresh decides schedule i =
      settle spent (decides i (seenBy spent fresh decides schedule i)) := by
  unfold codeAfter
  rw [h]
  rfl

theorem codeAfter_done (h : 2 ≤ schedule.count i) :
    codeAfter spent fresh decides schedule i =
      .done (decides i (seenBy spent fresh decides schedule i)) := by
  unfold codeAfter
  obtain ⟨n, hn⟩ := Nat.exists_eq_add_of_le' h
  rw [hn]
  rfl

end Code

variable {fresh decides}

theorem Spent.mono {schedule later : List ι} (h : Spent fresh decides schedule)
    (hsub : schedule.Sublist later) : Spent fresh decides later := by
  obtain ⟨j, hj, hcount⟩ := h
  exact ⟨j, hj, le_trans hcount (hsub.count_le j)⟩

/-- A call spends the cell with its second access, if it could go on alone. -/
theorem spent_concat {schedule : List ι} {i : ι}
    (h : schedule.count i = 1 → (decides i fresh).isOk = false) :
    Spent fresh decides (schedule ++ [i]) ↔ Spent fresh decides schedule := by
  refine ⟨fun ⟨j, hj, hcount⟩ => ⟨j, hj, ?_⟩, fun h => h.mono (List.sublist_append_left _ _)⟩
  rw [List.count_append] at hcount
  by_cases hij : i = j
  · subst hij
    have hne : schedule.count i ≠ 1 := fun hone => by simp [h hone] at hj
    simp only [List.count_singleton_self] at hcount
    omega
  · simpa [List.count_singleton, hij] using hcount

theorem cellAfter_spent {schedule : List ι} (h : Spent fresh decides schedule) :
    cellAfter spent fresh decides schedule = spent := if_pos h

theorem cellAfter_fresh {schedule : List ι} (h : ¬ Spent fresh decides schedule) :
    cellAfter spent fresh decides schedule = fresh := if_neg h

theorem cellAfter_concat {schedule : List ι} {i : ι}
    (h : schedule.count i = 1 → (decides i fresh).isOk = false) :
    cellAfter spent fresh decides (schedule ++ [i]) = cellAfter spent fresh decides schedule := by
  by_cases hspent : Spent fresh decides schedule
  · rw [cellAfter_spent spent hspent, cellAfter_spent spent ((spent_concat h).mpr hspent)]
  · rw [cellAfter_fresh spent hspent,
      cellAfter_fresh spent fun hnow => hspent ((spent_concat h).mp hnow)]

/-- An access of one call leaves the others as much to do as before. -/
theorem codeAfter_other (schedule : List ι) {i j : ι} (hne : j ≠ i) :
    codeAfter spent fresh decides (schedule ++ [i]) j =
      codeAfter spent fresh decides schedule j := by
  have hcount : (schedule ++ [i]).count j = schedule.count j := by
    simp [List.count_append, hne.symm]
  by_cases hmem : j ∈ schedule
  · unfold codeAfter seenBy
    rw [hcount, before_concat_mem hmem]
  · have hmem' : j ∉ schedule ++ [i] := by simp [hmem, hne]
    rw [codeAfter_start spent fresh decides hmem, codeAfter_start spent fresh decides hmem']

/-- What a call has read stays what it has read. -/
theorem seenBy_concat {schedule : List ι} {i : ι} (h : i ∈ schedule) (j : ι) :
    seenBy spent fresh decides (schedule ++ [j]) i = seenBy spent fresh decides schedule i := by
  unfold seenBy
  rw [before_concat_mem h]

variable {spent} (hspent : ∀ i, (decides i spent).isOk = false)

include hspent in
/-- A call that goes on has read a fresh cell. -/
theorem not_spent_of_ok {schedule : List ι} {i : ι}
    (h : (decides i (cellAfter spent fresh decides schedule)).isOk = true) :
    ¬ Spent fresh decides schedule := by
  intro hbefore
  rw [cellAfter_spent spent hbefore, hspent] at h
  cases h

include hspent in
/-- One access. -/
theorem advance_attempt (schedule : List ι) (i : ι) :
    Shared.advance ⟨cellAfter spent fresh decides schedule, codeAfter spent fresh decides schedule⟩
        i = ⟨cellAfter spent fresh decides (schedule ++ [i]),
          codeAfter spent fresh decides (schedule ++ [i])⟩ := by
  -- the code of the call is all that an access of it changes, besides the cell
  have hcode {body : Body σ (Except ε α)}
      (hself : codeAfter spent fresh decides (schedule ++ [i]) i = body) :
      Function.update (codeAfter spent fresh decides schedule) i body =
        codeAfter spent fresh decides (schedule ++ [i]) := by
    funext j
    by_cases hij : j = i
    · subst hij
      rw [Function.update_self, hself]
    · rw [Function.update_of_ne hij, codeAfter_other spent schedule hij]
  have hcount : (schedule ++ [i]).count i = schedule.count i + 1 := by simp
  by_cases hmem : i ∈ schedule
  swap
  · -- the read
    have hself : codeAfter spent fresh decides (schedule ++ [i]) i =
        settle spent (decides i (cellAfter spent fresh decides schedule)) := by
      rw [codeAfter_read _ _ _ (by rw [hcount, List.count_eq_zero_of_not_mem hmem]), seenBy,
        before_concat_self hmem]
    have hread : schedule.count i = 1 → (decides i fresh).isOk = false := by
      rw [List.count_eq_zero_of_not_mem hmem]
      intro hone
      cases hone
    rw [cellAfter_concat spent hread, ← hcode hself]
    simp only [Shared.advance, codeAfter_start spent fresh decides hmem, attempt, Body.read, id]
  have hpos := List.count_pos_iff.mpr hmem
  have hself : codeAfter spent fresh decides (schedule ++ [i]) i =
      .done (decides i (seenBy spent fresh decides schedule i)) := by
    rw [codeAfter_done spent fresh decides (by omega), seenBy_concat spent hmem]
  by_cases hone : schedule.count i = 1
  swap
  · -- the call has finished
    have hold : codeAfter spent fresh decides schedule i =
        .done (decides i (seenBy spent fresh decides schedule i)) :=
      codeAfter_done spent fresh decides (by omega)
    rw [cellAfter_concat spent (fun h => absurd h hone), ← hcode hself, ← hold,
      Function.update_eq_self]
    simp only [Shared.advance, hold]
  -- the write, if the call goes on
  have hold := codeAfter_read spent fresh decides hone
  cases hdecides : decides i (seenBy spent fresh decides schedule i) with
  | error e =>
    rw [hdecides] at hself hold
    have hcell : cellAfter spent fresh decides (schedule ++ [i]) =
        cellAfter spent fresh decides schedule := by
      by_cases hbefore : Spent fresh decides (before schedule i)
      · have hnow := hbefore.mono (before_sublist schedule i)
        rw [cellAfter_spent spent hnow,
          cellAfter_spent spent (hnow.mono (List.sublist_append_left _ _))]
      · refine cellAfter_concat spent fun _ => ?_
        rw [seenBy, cellAfter_fresh spent hbefore] at hdecides
        rw [hdecides]
        rfl
    have hstays : Body.done (.error e) = codeAfter spent fresh decides schedule i := hold.symm
    rw [hcell, ← hcode hself, hstays, Function.update_eq_self]
    simp only [Shared.advance, hold, settle]
  | ok a =>
    have hbefore : ¬ Spent fresh decides (before schedule i) := by
      refine not_spent_of_ok hspent (i := i) ?_
      rw [← seenBy, hdecides]
      rfl
    rw [hdecides] at hself hold
    have hnow : Spent fresh decides (schedule ++ [i]) := by
      rw [seenBy, cellAfter_fresh spent hbefore] at hdecides
      exact ⟨i, by rw [hdecides]; rfl, by omega⟩
    rw [cellAfter_spent spent hnow, ← hcode hself]
    simp only [Shared.advance, hold, settle, Body.modify]

variable (fresh decides) in
include hspent in
/-- **What calls that do not lock do**, whatever their schedule. -/
theorem run_attempt (schedule : List ι) :
    Shared.run ⟨fresh, fun i => attempt spent (decides i)⟩ schedule =
      ⟨cellAfter spent fresh decides schedule, codeAfter spent fresh decides schedule⟩ := by
  induction schedule using List.reverseRecOn with
  | nil =>
    have hfresh : ¬ Spent fresh decides [] := by
      rintro ⟨j, -, hcount⟩
      simp at hcount
    rw [cellAfter_fresh spent hfresh]
    rfl
  | append_singleton schedule i ih =>
    rw [Shared.run_concat, ih, advance_attempt hspent]

include hspent in
/-- **Which calls go on**: those that could alone, unless one of them had finished before they
started. -/
theorem returned_iff (schedule : List ι) (i : ι) (a : α) :
    (Shared.run ⟨fresh, fun i => attempt spent (decides i)⟩ schedule).code i = .done (.ok a) ↔
      decides i fresh = .ok a ∧ 2 ≤ schedule.count i ∧
        ¬ Spent fresh decides (before schedule i) := by
  rw [run_attempt fresh decides hspent]
  show codeAfter spent fresh decides schedule i = _ ↔ _
  have hread : decides i (seenBy spent fresh decides schedule i) = .ok a ↔
      decides i fresh = .ok a ∧ ¬ Spent fresh decides (before schedule i) := by
    by_cases hbefore : Spent fresh decides (before schedule i)
    · rw [seenBy, cellAfter_spent spent hbefore]
      refine ⟨fun h => ?_, fun ⟨_, hnot⟩ => absurd hbefore hnot⟩
      have hnever := hspent i
      rw [h] at hnever
      cases hnever
    · rw [seenBy, cellAfter_fresh spent hbefore]
      exact ⟨fun h => ⟨h, hbefore⟩, And.left⟩
  unfold codeAfter
  rcases schedule.count i with _ | _ | n
  · simp [attempt, Body.read]
  · cases decides i (seenBy spent fresh decides schedule i) <;> simp [settle, Body.modify]
  · simp [hread]

end Attempts

end Threads
