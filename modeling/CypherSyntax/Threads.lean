import CypherSyntax.Machine
import Mathlib.Data.List.Nodup
import Mathlib.Logic.Function.Basic

/-!
# Calls that lock

Calls of an object by any threads. Each call does what it can without the object, takes one of the
object's locks, accesses what that lock protects, and gives the lock back when it returns or
raises. Another call may go on between any two accesses.

`advance` is one step of one call, and a schedule is the list of the calls that take the steps.
`order` lists the calls as they take their locks.

Results:
* `serial_run`: every schedule does what its calls do one after another, in their order.
* `order_run`: a call that has finished comes before every call that starts later.
* `exists_finished`: no call waits forever for a lock.
-/

namespace Threads

/-! ## Code -/

/-- Code that holds a lock, cut into its accesses of what the lock protects. -/
inductive Body (σ α : Type) where
  | done (result : α)
  /-- Reads the state, may write it, and goes on as the read tells it. -/
  | access (write : σ → σ) (next : σ → Body σ α)

namespace Body

variable {σ α : Type}

def read (next : σ → Body σ α) : Body σ α := access id next

def modify (write : σ → σ) (rest : Body σ α) : Body σ α := access write fun _ => rest

/-- What the code does when nothing comes between its accesses. -/
def run : Body σ α → σ → α × σ
  | done result, s => (result, s)
  | access write next, s => (next s).run (write s)

@[simp] theorem run_done (result : α) (s : σ) : (done result).run s = (result, s) := rfl

@[simp] theorem run_access (write : σ → σ) (next : σ → Body σ α) (s : σ) :
    (access write next).run s = (next s).run (write s) := rfl

@[simp] theorem run_read (next : σ → Body σ α) (s : σ) :
    (read next).run s = (next s).run s := rfl

@[simp] theorem run_modify (write : σ → σ) (rest : Body σ α) (s : σ) :
    (modify write rest).run s = rest.run (write s) := rfl

end Body

/-- A call, from its start. -/
inductive Task (σ α : Type) where
  /-- It ends before it takes its lock. -/
  | returns (result : α)
  | locks (body : Body σ α)

/-- What a call does when nothing comes between its accesses. -/
def Task.run {σ α : Type} : Task σ α → σ → α × σ
  | .returns result, s => (result, s)
  | .locks body, s => body.run s

/-! ## Schedules -/

/-- How far a call is. -/
inductive Status (σ α : Type) where
  | waiting (task : Task σ α)
  /-- It holds its lock, and this code is left. -/
  | inside (body : Body σ α)
  | finished (result : α)

variable {κ ι α : Type} {σ : κ → Type} {lock : ι → κ}

/-- The object, its locks, and the calls. -/
structure Config (σ : κ → Type) (lock : ι → κ) (α : Type) where
  /-- What each lock protects. -/
  cells : ∀ k, σ k
  holder : κ → Option ι
  status : ∀ i, Status (σ (lock i)) α
  /-- The calls that have taken their lock, or ended without, oldest first. -/
  order : List ι

/-- Calls that have not started. -/
def start (tasks : ∀ i, Task (σ (lock i)) α) (cells : ∀ k, σ k) : Config σ lock α :=
  ⟨cells, fun _ => none, fun i => .waiting (tasks i), []⟩

variable [DecidableEq κ] [DecidableEq ι]

namespace Config

/-- One step of one call. A call whose lock is held waits. -/
def advance (c : Config σ lock α) (i : ι) : Config σ lock α :=
  match c.status i with
  | .waiting (.returns result) =>
    { c with status := Function.update c.status i (.finished result), order := c.order ++ [i] }
  | .waiting (.locks body) =>
    match c.holder (lock i) with
    | none => { c with
        holder := Function.update c.holder (lock i) (some i)
        status := Function.update c.status i (.inside body)
        order := c.order ++ [i] }
    | some _ => c
  | .inside (.access write next) => { c with
      cells := Function.update c.cells (lock i) (write (c.cells (lock i)))
      status := Function.update c.status i (.inside (next (c.cells (lock i)))) }
  | .inside (.done result) => { c with
      holder := Function.update c.holder (lock i) none
      status := Function.update c.status i (.finished result) }
  | .finished _ => c

/-- The steps of a schedule. -/
def run (c : Config σ lock α) (schedule : List ι) : Config σ lock α := schedule.foldl advance c

theorem run_append (c : Config σ lock α) (schedule later : List ι) :
    c.run (schedule ++ later) = (c.run schedule).run later := List.foldl_append

/-- What every step keeps, a schedule keeps. -/
theorem run_invariant {I : Config σ lock α → Prop} (hstep : ∀ c i, I c → I (c.advance i))
    {c : Config σ lock α} (h : I c) (schedule : List ι) : I (c.run schedule) := by
  induction schedule generalizing c with
  | nil => exact h
  | cons i schedule ih => exact ih (hstep c i h)

end Config

/-! ## One call after another -/

/-- A call that nothing interrupts. -/
def perform (tasks : ∀ i, Task (σ (lock i)) α) (cells : ∀ k, σ k) (i : ι) : α × (∀ k, σ k) :=
  (((tasks i).run (cells (lock i))).1,
    Function.update cells (lock i) ((tasks i).run (cells (lock i))).2)

section Serial

variable (tasks : ∀ i, Task (σ (lock i)) α) (cells : ∀ k, σ k)

/-- The calls in their order, with what they return. -/
abbrev outcomes (order : List ι) : List (ι × α) := Machine.trace (perform tasks) cells order

/-- The object after the calls. -/
abbrev after (order : List ι) : ∀ k, σ k := (Machine.run (perform tasks) cells order).2

omit [DecidableEq ι] in
theorem after_concat (order : List ι) (i : ι) : after tasks cells (order ++ [i]) =
    (perform tasks (after tasks cells order) i).2 := Machine.run_concat _ _ _

omit [DecidableEq ι] in
theorem outcomes_concat (order : List ι) (i : ι) : outcomes tasks cells (order ++ [i]) =
    outcomes tasks cells order ++ [(i, (perform tasks (after tasks cells order) i).1)] :=
  Machine.trace_concat _ _ _

/-- The calls so far have done, or have yet to do, what they do one after another. -/
structure Serial (c : Config σ lock α) : Prop where
  nodup : c.order.Nodup
  waiting : ∀ i task, c.status i = .waiting task → task = tasks i ∧ i ∉ c.order
  /-- The call that holds a lock has left to do what it does in its turn. -/
  inside : ∀ i body, c.status i = .inside body → c.holder (lock i) = some i ∧
    (i, (body.run (c.cells (lock i))).1) ∈ outcomes tasks cells c.order ∧
    (body.run (c.cells (lock i))).2 = after tasks cells c.order (lock i)
  finished : ∀ i result, c.status i = .finished result →
    (i, result) ∈ outcomes tasks cells c.order
  free : ∀ k, c.holder k = none → c.cells k = after tasks cells c.order k
  held : ∀ k i, c.holder k = some i → lock i = k ∧ ∃ body, c.status i = .inside body

omit [DecidableEq ι] in
theorem serial_start : Serial tasks cells (start tasks cells) where
  nodup := List.nodup_nil
  waiting i task h := ⟨(Status.waiting.inj h).symm, List.not_mem_nil⟩
  inside i body h := by cases h
  finished i result h := by cases h
  free k _ := rfl
  held k i h := by cases h

namespace Serial

variable {tasks cells} {c : Config σ lock α} {i : ι}

omit [DecidableEq ι] in
/-- A step of one call that no other call with its lock can see. -/
theorem change {c' : Config σ lock α} (h : Serial tasks cells c)
    (halone : ∀ j ≠ i, ∀ body, c.status j = .inside body → lock j ≠ lock i)
    (hcells : ∀ k ≠ lock i, c'.cells k = c.cells k)
    (hholder : ∀ k ≠ lock i, c'.holder k = c.holder k)
    (hafter : ∀ k ≠ lock i, after tasks cells c'.order k = after tasks cells c.order k)
    (hstatus : ∀ j ≠ i, c'.status j = c.status j)
    (hnodup : c'.order.Nodup) (horder : ∀ j ≠ i, j ∈ c'.order → j ∈ c.order)
    (houtcomes : ∀ x ∈ outcomes tasks cells c.order, x ∈ outcomes tasks cells c'.order)
    (hnew : (c'.holder (lock i) = none ∧
          c'.cells (lock i) = after tasks cells c'.order (lock i) ∧
          ∃ result, c'.status i = .finished result ∧
            (i, result) ∈ outcomes tasks cells c'.order) ∨
        c'.holder (lock i) = some i ∧ ∃ body, c'.status i = .inside body ∧
          (i, (body.run (c'.cells (lock i))).1) ∈ outcomes tasks cells c'.order ∧
          (body.run (c'.cells (lock i))).2 = after tasks cells c'.order (lock i)) :
    Serial tasks cells c' := by
  refine ⟨hnodup, fun j task hj => ?_, fun j body hj => ?_, fun j result hj => ?_, fun k hk => ?_,
    fun k j hk => ?_⟩
  · by_cases hij : j = i
    · subst hij
      rcases hnew with ⟨-, -, _, hfinished, -⟩ | ⟨-, _, hinside, -⟩
      · cases hj.symm.trans hfinished
      · cases hj.symm.trans hinside
    · obtain ⟨htask, hmem⟩ := h.waiting j task ((hstatus j hij).symm.trans hj)
      exact ⟨htask, fun hj => hmem (horder j hij hj)⟩
  · by_cases hij : j = i
    · subst hij
      rcases hnew with ⟨-, -, _, hfinished, -⟩ | ⟨hholder, body', hinside, hout, hend⟩
      · cases hj.symm.trans hfinished
      · obtain rfl := Status.inside.inj (hj.symm.trans hinside)
        exact ⟨hholder, hout, hend⟩
    · have hold := (hstatus j hij).symm.trans hj
      have hlock := halone j hij body hold
      obtain ⟨hheld, hout, hend⟩ := h.inside j body hold
      rw [hcells _ hlock, hholder _ hlock, hafter _ hlock]
      exact ⟨hheld, houtcomes _ hout, hend⟩
  · by_cases hij : j = i
    · subst hij
      rcases hnew with ⟨-, -, result', hfinished, hout⟩ | ⟨-, _, hinside, -⟩
      · obtain rfl := Status.finished.inj (hj.symm.trans hfinished)
        exact hout
      · cases hj.symm.trans hinside
    · exact houtcomes _ (h.finished j result ((hstatus j hij).symm.trans hj))
  · by_cases hlock : k = lock i
    · subst hlock
      rcases hnew with ⟨-, hcell, -⟩ | ⟨hheld, -⟩
      · exact hcell
      · cases hk.symm.trans hheld
    · rw [hcells k hlock, hafter k hlock]
      exact h.free k ((hholder k hlock).symm.trans hk)
  · by_cases hlock : k = lock i
    · subst hlock
      rcases hnew with ⟨hfree, -⟩ | ⟨hheld, body, hinside, -⟩
      · cases hk.symm.trans hfree
      · obtain rfl := Option.some.inj (hheld.symm.trans hk)
        exact ⟨rfl, body, hinside⟩
    · obtain ⟨hj, body, hbody⟩ := h.held k j ((hholder k hlock).symm.trans hk)
      have hij : j ≠ i := fun hij => hlock (hij ▸ hj.symm)
      exact ⟨hj, body, (hstatus j hij).trans hbody⟩

omit [DecidableEq ι] in
/-- A call that holds its lock is the only one. -/
theorem alone (h : Serial tasks cells c) {holder : Option ι} (hholder : c.holder (lock i) = holder)
    (hi : ∀ j, holder = some j → j = i) :
    ∀ j ≠ i, ∀ body, c.status j = .inside body → lock j ≠ lock i := by
  intro j hij body hj hlock
  obtain ⟨hheld, -⟩ := h.inside j body hj
  rw [hlock, hholder] at hheld
  exact hij (hi j hheld)

omit [DecidableEq ι] in
/-- The order grows by a call that has not started. -/
theorem concat (h : Serial tasks cells c) {task : Task (σ (lock i)) α}
    (hi : c.status i = .waiting task) : (c.order ++ [i]).Nodup ∧
      ∀ j ≠ i, j ∈ c.order ++ [i] → j ∈ c.order := by
  obtain ⟨-, hnew⟩ := h.waiting i task hi
  refine ⟨List.nodup_append.mpr ⟨h.nodup, List.nodup_singleton i, fun j hj k hk => ?_⟩,
    fun j hij hj => ?_⟩
  · rintro rfl
    exact hnew (List.mem_singleton.mp hk ▸ hj)
  · exact (List.mem_append.mp hj).resolve_right fun hj => hij (List.mem_singleton.mp hj)

omit [DecidableEq ι] in
/-- A call that ends before it takes its lock. -/
theorem returns {c' : Config σ lock α} (h : Serial tasks cells c) {result : α}
    (hi : c.status i = .waiting (.returns result)) (hcells : c'.cells = c.cells)
    (hholder : c'.holder = c.holder) (hself : c'.status i = .finished result)
    (hstatus : ∀ j ≠ i, c'.status j = c.status j) (hlast : c'.order = c.order ++ [i]) :
    Serial tasks cells c' := by
  obtain ⟨htask, -⟩ := h.waiting i _ hi
  obtain ⟨hnodup, horder⟩ := h.concat hi
  rw [← hlast] at hnodup horder
  have hperform : perform tasks (after tasks cells c.order) i =
      (result, after tasks cells c.order) := by
    unfold perform
    rw [← htask]
    exact congrArg (Prod.mk result) (Function.update_eq_self _ _)
  have hafter : after tasks cells c'.order = after tasks cells c.order := by
    rw [hlast, after_concat, hperform]
  have houtcomes : outcomes tasks cells c'.order =
      outcomes tasks cells c.order ++ [(i, result)] := by
    rw [hlast, outcomes_concat, hperform]
  refine ⟨hnodup, fun j task hj => ?_, fun j body hj => ?_, fun j final hj => ?_, fun k hk => ?_,
    fun k j hk => ?_⟩
  · by_cases hij : j = i
    · subst hij
      cases hj.symm.trans hself
    · obtain ⟨htask, hmem⟩ := h.waiting j task ((hstatus j hij).symm.trans hj)
      exact ⟨htask, fun hj => hmem (horder j hij hj)⟩
  · by_cases hij : j = i
    · subst hij
      cases hj.symm.trans hself
    · obtain ⟨hheld, hout, hend⟩ := h.inside j body ((hstatus j hij).symm.trans hj)
      rw [hholder, hcells, houtcomes, hafter]
      exact ⟨hheld, List.mem_append_left _ hout, hend⟩
  · rw [houtcomes]
    by_cases hij : j = i
    · subst hij
      obtain rfl := Status.finished.inj (hj.symm.trans hself)
      exact List.mem_append_right _ (List.mem_singleton.mpr rfl)
    · exact List.mem_append_left _ (h.finished j final ((hstatus j hij).symm.trans hj))
  · rw [hcells, hafter]
    exact h.free k (hholder ▸ hk)
  · obtain ⟨hlock, body, hbody⟩ := h.held k j (hholder ▸ hk)
    have hij : j ≠ i := by
      rintro rfl
      cases hbody.symm.trans hi
    exact ⟨hlock, body, (hstatus j hij).trans hbody⟩

/-- A call takes its lock. -/
theorem take (h : Serial tasks cells c) {body : Body (σ (lock i)) α}
    (hi : c.status i = .waiting (.locks body)) (hfree : c.holder (lock i) = none) :
    Serial tasks cells { c with
      holder := Function.update c.holder (lock i) (some i)
      status := Function.update c.status i (.inside body)
      order := c.order ++ [i] } := by
  obtain ⟨htask, -⟩ := h.waiting i _ hi
  obtain ⟨hnodup, horder⟩ := h.concat hi
  have hrun : (tasks i).run (after tasks cells c.order (lock i)) = body.run (c.cells (lock i)) := by
    rw [← htask, h.free _ hfree]
    rfl
  refine h.change (i := i) (h.alone hfree fun j hj => by cases hj) (fun k _ => rfl)
    (fun k hk => Function.update_of_ne hk _ _) (fun k hk => ?_)
    (fun j hj => Function.update_of_ne hj _ _) hnodup horder (fun x hx => ?_)
    (Or.inr ⟨Function.update_self _ _ _, body, Function.update_self _ _ _, ?_, ?_⟩)
  · rw [after_concat]
    exact Function.update_of_ne hk _ _
  · rw [outcomes_concat]
    exact List.mem_append_left _ hx
  · rw [outcomes_concat, ← hrun]
    exact List.mem_append_right _ (List.mem_singleton.mpr rfl)
  · rw [after_concat, ← hrun]
    exact (Function.update_self _ _ _).symm

/-- A call accesses what its lock protects. -/
theorem access (h : Serial tasks cells c) {write : σ (lock i) → σ (lock i)}
    {next : σ (lock i) → Body (σ (lock i)) α} (hi : c.status i = .inside (.access write next)) :
    Serial tasks cells { c with
      cells := Function.update c.cells (lock i) (write (c.cells (lock i)))
      status := Function.update c.status i (.inside (next (c.cells (lock i)))) } := by
  obtain ⟨hheld, hout, hend⟩ := h.inside i _ hi
  refine h.change (i := i) (h.alone hheld fun j hj => (Option.some.inj hj).symm)
    (fun k hk => Function.update_of_ne hk _ _) (fun k _ => rfl) (fun k _ => rfl)
    (fun j hj => Function.update_of_ne hj _ _) h.nodup (fun j _ hj => hj) (fun x hx => hx)
    (Or.inr ⟨hheld, _, Function.update_self _ _ _, ?_, ?_⟩)
  · show (i, ((next _).run (Function.update _ _ _ (lock i))).1) ∈ _
    rw [Function.update_self]
    exact hout
  · show ((next _).run (Function.update _ _ _ (lock i))).2 = _
    rw [Function.update_self]
    exact hend

/-- A call gives its lock back. -/
theorem release (h : Serial tasks cells c) {result : α} (hi : c.status i = .inside (.done result)) :
    Serial tasks cells { c with
      holder := Function.update c.holder (lock i) none
      status := Function.update c.status i (.finished result) } := by
  obtain ⟨hheld, hout, hend⟩ := h.inside i _ hi
  exact h.change (i := i) (h.alone hheld fun j hj => (Option.some.inj hj).symm) (fun k _ => rfl)
    (fun k hk => Function.update_of_ne hk _ _) (fun k _ => rfl)
    (fun j hj => Function.update_of_ne hj _ _) h.nodup (fun j _ hj => hj) (fun x hx => hx)
    (Or.inl ⟨Function.update_self _ _ _, hend, result, Function.update_self _ _ _, hout⟩)

theorem advance (h : Serial tasks cells c) (i : ι) : Serial tasks cells (c.advance i) := by
  unfold Config.advance
  split
  · exact h.returns ‹_› rfl rfl (Function.update_self _ _ _)
      (fun j hj => Function.update_of_ne hj _ _) rfl
  · split
    · exact h.take ‹_› ‹_›
    · exact h
  · exact h.access ‹_›
  · exact h.release ‹_›
  · exact h

end Serial

/-- **Every schedule does what its calls do one after another**, in the order in which they took
their locks: each call that has finished returned what it returns in its turn, and what no call
holds is as the calls leave it. -/
theorem serial_run (schedule : List ι) :
    Serial tasks cells ((start tasks cells).run schedule) :=
  Config.run_invariant (fun _ i h => h.advance i) (serial_start tasks cells) schedule

end Serial

/-! ## The order -/

namespace Config

variable (c : Config σ lock α)

theorem order_advance (i : ι) : c.order <+: (c.advance i).order := by
  unfold advance
  split
  · exact List.prefix_append _ _
  · split
    · exact List.prefix_append _ _
    · exact List.prefix_refl _
  · exact List.prefix_refl _
  · exact List.prefix_refl _
  · exact List.prefix_refl _

/-- **The order only grows at its end**, so a call that has finished comes before every call that
starts later. -/
theorem order_run (schedule : List ι) : c.order <+: (c.run schedule).order :=
  run_invariant (I := fun d => c.order <+: d.order) (fun d i h => h.trans (d.order_advance i))
    (List.prefix_refl _) schedule

/-! ## Waiting -/

variable {c} {i : ι}

/-- A call that holds its lock can be brought to its end, and no other call moves. -/
theorem inside_finishes {body : Body (σ (lock i)) α} (hi : c.status i = .inside body) :
    ∃ later, (∃ result, (c.run later).status i = .finished result) ∧
      (c.run later).holder (lock i) = none ∧ ∀ j ≠ i, (c.run later).status j = c.status j := by
  induction body generalizing c with
  | done result =>
    have hstep : c.advance i = { c with
        holder := Function.update c.holder (lock i) none
        status := Function.update c.status i (.finished result) } := by
      simp only [advance, hi]
    refine ⟨[i], ⟨result, ?_⟩, ?_, fun j hj => ?_⟩
    · show (c.advance i).status i = _
      rw [hstep]
      exact Function.update_self _ _ _
    · show (c.advance i).holder (lock i) = none
      rw [hstep]
      exact Function.update_self _ _ _
    · show (c.advance i).status j = _
      rw [hstep]
      exact Function.update_of_ne hj _ _
  | access write next ih =>
    have hstep : c.advance i = { c with
        cells := Function.update c.cells (lock i) (write (c.cells (lock i)))
        status := Function.update c.status i (.inside (next (c.cells (lock i)))) } := by
      simp only [advance, hi]
    have hinside : (c.advance i).status i = .inside (next (c.cells (lock i))) := by
      rw [hstep]
      exact Function.update_self _ _ _
    obtain ⟨later, hfinished, hfree, hothers⟩ := ih _ hinside
    refine ⟨i :: later, hfinished, hfree, fun j hj => (hothers j hj).trans ?_⟩
    rw [hstep]
    exact Function.update_of_ne hj _ _

/-- A call whose lock is free can be brought to its end. -/
theorem waiting_finishes {body : Body (σ (lock i)) α} (hi : c.status i = .waiting (.locks body))
    (hfree : c.holder (lock i) = none) :
    ∃ later result, (c.run later).status i = .finished result := by
  have hinside : (c.advance i).status i = .inside body := by
    simp only [advance, hi, hfree, Function.update_self]
  obtain ⟨later, ⟨result, hfinished⟩, -⟩ := inside_finishes hinside
  exact ⟨i :: later, result, hfinished⟩

/-- **No call waits forever**: from wherever a schedule has led, every call can be brought to its
end. -/
theorem exists_finished {tasks : ∀ i, Task (σ (lock i)) α} {cells : ∀ k, σ k}
    (h : Serial tasks cells c) (i : ι) :
    ∃ later result, (c.run later).status i = .finished result := by
  rcases hi : c.status i with task | body | result
  · cases task with
    | returns result =>
      refine ⟨[i], result, ?_⟩
      show (c.advance i).status i = _
      simp only [advance, hi, Function.update_self]
    | locks body =>
      cases hholder : c.holder (lock i) with
      | none => exact waiting_finishes hi hholder
      | some j =>
        -- the holder first, and then this call
        obtain ⟨hlock, body', hj⟩ := h.held _ j hholder
        obtain ⟨later, -, hfree, hothers⟩ := inside_finishes hj
        have hij : i ≠ j := by
          rintro rfl
          cases hi.symm.trans hj
        obtain ⟨last, result, hfinished⟩ := waiting_finishes ((hothers i hij).trans hi)
          (hlock ▸ hfree)
        exact ⟨later ++ last, result, (run_append c later last).symm ▸ hfinished⟩
  · obtain ⟨later, ⟨result, hfinished⟩, -⟩ := inside_finishes hi
    exact ⟨later, result, hfinished⟩
  · exact ⟨[], result, hi⟩

end Config

end Threads
