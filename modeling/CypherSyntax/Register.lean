import Mathlib.Data.List.Induction

/-!
# Registers

A register holds one value. Calls write it and read it, each at most once, and an order of the
accesses says what it holds after any of them and what each read answers.

Results:
* `value_cases`: a register holds what it held at first, or what one of the writes wrote.
* `answers_concat`, `Answers.mono`: a read answers what was held when it was made, whatever follows.
* `Answers.last`, `last_ne_none`: which write a read answers, and when there is one.
-/

namespace Register

variable {ι κ β : Type}

/-- An access of the register, by the call that makes it. -/
inductive Access (ι κ : Type) where
  | write (i : ι) | read (j : κ)
  deriving DecidableEq

/-- What the register holds after the accesses. -/
def value (initial : β) (data : ι → β) (accesses : List (Access ι κ)) : β :=
  accesses.foldl (fun held access => match access with
    | .write i => data i
    | .read _ => held) initial

/-- A read in the order answers what the register holds there. -/
def Answers (initial : β) (data : ι → β) (accesses : List (Access ι κ)) (j : κ) (answer : β) :
    Prop :=
  ∃ before after, accesses = before ++ .read j :: after ∧ value initial data before = answer

variable {initial : β} {data : ι → β} {accesses : List (Access ι κ)} {j : κ} {answer : β}

@[simp] theorem value_write (i : ι) : value initial data (accesses ++ [.write i]) = data i := by
  unfold value
  rw [List.foldl_append]
  rfl

@[simp] theorem value_read (j : κ) : value initial data (accesses ++ [.read j]) =
    value initial data accesses := by
  unfold value
  rw [List.foldl_append]
  rfl

theorem value_append (accesses later : List (Access ι κ)) :
    value initial data (accesses ++ later) = value (value initial data accesses) data later :=
  List.foldl_append

/-- **A register holds what it held at first, or what a write wrote.** -/
theorem value_cases (accesses : List (Access ι κ)) : value initial data accesses = initial ∨
    ∃ i, .write i ∈ accesses ∧ value initial data accesses = data i := by
  induction accesses using List.reverseRecOn with
  | nil => exact Or.inl rfl
  | append_singleton accesses access ih =>
    cases access with
    | write i => exact Or.inr ⟨i, List.mem_append_right _ List.mem_cons_self, value_write i⟩
    | read j =>
      rw [value_read]
      rcases ih with hsame | ⟨i, hmem, hvalue⟩
      · exact Or.inl hsame
      · exact Or.inr ⟨i, List.mem_append_left _ hmem, hvalue⟩

theorem answers_concat (accesses : List (Access ι κ)) (j : κ) :
    Answers initial data (accesses ++ [.read j]) j (value initial data accesses) :=
  ⟨accesses, [], rfl, rfl⟩

/-- What is accessed later does not change an answer. -/
theorem Answers.mono (h : Answers initial data accesses j answer) (later : List (Access ι κ)) :
    Answers initial data (accesses ++ later) j answer := by
  obtain ⟨before, after, rfl, hvalue⟩ := h
  exact ⟨before, after ++ later, by rw [List.append_assoc, List.cons_append], hvalue⟩

/-- A read that is not among the first accesses answers what is held after them, or later. -/
theorem Answers.later {early rest : List (Access ι κ)}
    (h : Answers initial data (early ++ rest) j answer) (hj : .read j ∉ early) :
    ∃ between : List (Access ι κ),
      value (value initial data early) data between = answer := by
  obtain ⟨before, after, hsplit, hvalue⟩ := h
  rcases List.append_eq_append_iff.mp hsplit with ⟨between, rfl, -⟩ | ⟨between, hearly, hrest⟩
  · exact ⟨between, by rw [← value_append, hvalue]⟩
  · cases between with
    | nil =>
      rw [List.append_nil] at hearly
      exact ⟨[], by rw [hearly, ← hvalue]; rfl⟩
    | cons access between =>
      obtain ⟨rfl, -⟩ := List.cons.inj hrest
      rw [hearly] at hj
      exact absurd (List.mem_append_right before List.mem_cons_self) hj

/-! ## The last write -/

/-- The register holds what the last write wrote, or what it held at first. -/
theorem value_last (held : Option ι → β) (accesses : List (Access ι κ)) :
    value (held none) (fun i => held (some i)) accesses = held (value none some accesses) := by
  induction accesses using List.reverseRecOn with
  | nil => rfl
  | append_singleton accesses access ih =>
    cases access with
    | write i => rw [value_write, value_write]
    | read j => rw [value_read, value_read, ih]

theorem Answers.last {held : Option ι → β}
    (h : Answers (held none) (fun i => held (some i)) accesses j answer) :
    ∃ last, Answers none some accesses j last ∧ answer = held last := by
  obtain ⟨before, after, rfl, rfl⟩ := h
  exact ⟨_, ⟨before, after, rfl, rfl⟩, value_last held before⟩

/-- After a write there is a last one. -/
theorem last_ne_none {held : Option ι} (h : held ≠ none ∨ ∃ i, .write i ∈ accesses) :
    value held some accesses ≠ none := by
  induction accesses using List.reverseRecOn with
  | nil => exact h.resolve_right fun ⟨_, hmem⟩ => absurd hmem List.not_mem_nil
  | append_singleton accesses access ih =>
    cases access with
    | write k =>
      rw [value_write]
      exact Option.some_ne_none k
    | read j =>
      rw [value_read]
      refine ih (h.imp_right fun ⟨i, hmem⟩ => ⟨i, ?_⟩)
      rcases List.mem_append.mp hmem with hmem | hmem
      · exact hmem
      · cases List.mem_singleton.mp hmem

end Register
