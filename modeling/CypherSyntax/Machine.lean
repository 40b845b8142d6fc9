import Mathlib.Data.List.Basic
import Mathlib.Data.List.ReduceOption

/-!
# Machines

A machine answers each input with an output and a next state. `run` feeds it a list of inputs and
collects the outputs.

Results:
* `run_append`: a run is the run of a prefix and then of the rest.
* `trace_concat`: the trace of a run grows by the last input and its output.
* `run_invariant`: what every step keeps, a run keeps.
* `run_collects`: the same when the invariant is also about what the run has put out.
* `run_simulation`: two machines whose related states answer alike, and step to related states,
  give the same outputs on every input.
* `run_skip`: inputs whose steps change nothing that matters can be left out.
* `run_project`: a machine does what another one does on the inputs that concern it.
* `run_simulation_within`: the same while the machine stays within a set that it does not come back
  to.
-/

namespace Machine

variable {ι ο σ ρ : Type}

/-- The outputs of a list of inputs, and the state they lead to. -/
def run (step : σ → ι → ο × σ) : σ → List ι → List ο × σ
  | s, [] => ([], s)
  | s, i :: is =>
    let (o, s) := step s i
    let (os, s) := run step s is
    (o :: os, s)

variable {step : σ → ι → ο × σ}

@[simp] theorem run_nil (s : σ) : run step s [] = ([], s) := rfl

@[simp] theorem run_cons (s : σ) (i : ι) (is : List ι) : run step s (i :: is) =
    ((step s i).1 :: (run step (step s i).2 is).1, (run step (step s i).2 is).2) := rfl

theorem run_append (s : σ) (is js : List ι) : run step s (is ++ js) =
    ((run step s is).1 ++ (run step (run step s is).2 js).1,
      (run step (run step s is).2 js).2) := by
  induction is generalizing s with
  | nil => rfl
  | cons i is ih => rw [List.cons_append, run_cons, ih, run_cons, List.cons_append]

/-- The state after one more input. -/
theorem run_concat (s : σ) (is : List ι) (i : ι) : (run step s (is ++ [i])).2 =
    (step (run step s is).2 i).2 := by
  rw [run_append]
  rfl

/-- What a list that has grown by one has at a place. -/
theorem getElem?_concat {α : Type} {l : List α} {a b : α} {n : Nat} :
    (l ++ [a])[n]? = some b ↔ l[n]? = some b ∨ n = l.length ∧ b = a := by
  rw [List.getElem?_append]
  by_cases hn : n < l.length
  · rw [if_pos hn]
    exact ⟨Or.inl, fun h => h.resolve_right fun h => by omega⟩
  · rw [if_neg hn, List.getElem?_eq_none (by omega : l.length ≤ n)]
    simp only [List.getElem?_singleton, reduceCtorEq, false_or]
    constructor
    · intro h
      split at h
      · exact ⟨by omega, (Option.some.inj h).symm⟩
      · cases h
    · rintro ⟨rfl, rfl⟩
      rw [Nat.sub_self, if_pos rfl]

/-- The inputs with their outputs. -/
def trace (step : σ → ι → ο × σ) (s : σ) (is : List ι) : List (ι × ο) := is.zip (run step s is).1

theorem trace_concat (s : σ) (is : List ι) (i : ι) : trace step s (is ++ [i]) =
    trace step s is ++ [(i, (step (run step s is).2 i).1)] := by
  induction is generalizing s with
  | nil => rfl
  | cons j is ih => exact congrArg ((j, (step s j).1) :: ·) (ih (step s j).2)

theorem trace_fst (s : σ) (is : List ι) : (trace step s is).map Prod.fst = is := by
  induction is generalizing s with
  | nil => rfl
  | cons i is ih => exact congrArg (i :: ·) (ih (step s i).2)

/-- A machine whose outputs are mapped. -/
theorem run_map {ο' : Type} {step' : σ → ι → ο' × σ} {g : ο → ο'}
    (h : ∀ s i, step' s i = (g (step s i).1, (step s i).2)) (s : σ) (is : List ι) :
    run step' s is = ((run step s is).1.map g, (run step s is).2) := by
  induction is generalizing s with
  | nil => rfl
  | cons i is ih => rw [run_cons, h, ih, run_cons, List.map_cons]

/-- A machine whose inputs are mapped. -/
theorem run_inputs {ι' : Type} (f : ι' → ι) (s : σ) (is : List ι') :
    run step s (is.map f) = run (fun s i => step s (f i)) s is := by
  induction is generalizing s with
  | nil => rfl
  | cons i is ih => rw [List.map_cons, run_cons, ih, run_cons]

/-- What every step keeps, a run keeps. -/
theorem run_invariant {I : σ → Prop} (hstep : ∀ s i, I s → I (step s i).2) {s : σ} (h : I s)
    (is : List ι) : I (run step s is).2 := by
  induction is generalizing s with
  | nil => exact h
  | cons i is ih => exact ih (hstep s i h)

/-- A machine whose outputs are the entries of a list that an invariant is about. -/
theorem run_collects {ω : Type} {step : σ → ι → Option ω × σ} {I : σ → List ω → Prop}
    (hstep : ∀ s collected i, I s collected →
      I (step s i).2 (collected ++ (step s i).1.toList))
    {s : σ} {collected : List ω} (h : I s collected) (is : List ι) :
    I (run step s is).2 (collected ++ (run step s is).1.reduceOption) := by
  induction is generalizing s collected with
  | nil => simpa using h
  | cons i is ih =>
    have hnext := ih (hstep s collected i h)
    rw [List.append_assoc] at hnext
    rw [run_cons]
    cases hout : (step s i).1 with
    | none =>
      rw [hout] at hnext
      exact hnext
    | some o =>
      rw [hout] at hnext
      exact hnext

/-- **Machines that step alike from related states run alike.** -/
theorem run_simulation {step' : ρ → ι → ο × ρ} {R : σ → ρ → Prop}
    (hstep : ∀ s r i, R s r → (step s i).1 = (step' r i).1 ∧ R (step s i).2 (step' r i).2)
    {s : σ} {r : ρ} (h : R s r) (is : List ι) :
    (run step s is).1 = (run step' r is).1 ∧ R (run step s is).2 (run step' r is).2 := by
  induction is generalizing s r with
  | nil => exact ⟨rfl, h⟩
  | cons i is ih =>
    obtain ⟨hout, hrel⟩ := hstep s r i h
    obtain ⟨houts, hend⟩ := ih hrel
    exact ⟨by rw [run_cons, run_cons, hout, houts], hend⟩

/-- The same for outputs that are compared by a map, which may depend on the input. -/
theorem trace_simulation {ο' : Type} {g : ι → ο → ο'} {step' : ρ → ι → ο' × ρ} {R : σ → ρ → Prop}
    (hstep : ∀ s r i, R s r → g i (step s i).1 = (step' r i).1 ∧ R (step s i).2 (step' r i).2)
    {s : σ} {r : ρ} (h : R s r) (is : List ι) :
    (trace step s is).map (fun p => (p.1, g p.1 p.2)) = trace step' r is ∧
      R (run step s is).2 (run step' r is).2 := by
  induction is generalizing s r with
  | nil => exact ⟨rfl, h⟩
  | cons i is ih =>
    obtain ⟨hout, hrel⟩ := hstep s r i h
    obtain ⟨houts, hend⟩ := ih hrel
    refine ⟨?_, hend⟩
    show (i, g i (step s i).1) :: (trace step (step s i).2 is).map _ =
      (i, (step' r i).1) :: trace step' (step' r i).2 is
    rw [hout, houts]

/-- **Inputs whose steps change nothing can be left out.** States that `R` relates answer alike. -/
theorem run_skip {R : σ → σ → Prop} {counts : ο → Bool}
    (hstep : ∀ s t i, R s t → (step s i).1 = (step t i).1 ∧ R (step s i).2 (step t i).2)
    (hskip : ∀ s t i, R s t → counts (step s i).1 = false → R (step s i).2 t)
    {s t : σ} (h : R s t) (is : List ι) :
    (run step t (((trace step s is).filter fun p => counts p.2).map Prod.fst)).1 =
        (run step s is).1.filter counts ∧
      R (run step s is).2
        (run step t (((trace step s is).filter fun p => counts p.2).map Prod.fst)).2 := by
  induction is generalizing s t with
  | nil => exact ⟨rfl, h⟩
  | cons i is ih =>
    have htrace : trace step s (i :: is) = (i, (step s i).1) :: trace step (step s i).2 is := rfl
    rw [htrace, run_cons]
    cases hcounts : counts (step s i).1 with
    | false =>
      simp only [List.filter_cons, hcounts, Bool.false_eq_true, if_false]
      exact ih (hskip s t i h hcounts)
    | true =>
      simp only [List.filter_cons, hcounts, if_true, List.map_cons, run_cons]
      obtain ⟨hout, hnext⟩ := hstep s t i h
      obtain ⟨houts, hend⟩ := ih hnext
      exact ⟨by rw [hout, houts], hend⟩

/-- The outputs of the inputs that concern another machine. -/
def project {ι' ο' : Type} (concerns : ι → Option ι') (f : ο → ο') (outs : List (ι × ο)) :
    List ο' :=
  outs.filterMap fun p => (concerns p.1).map fun _ => f p.2

/-- **A machine does what another one does** on the inputs that concern that one, if the other
inputs keep the relation between their states. The outputs are compared by a map. -/
theorem run_project {ι' ο' : Type} {concerns : ι → Option ι'} {f : ο → ο'}
    {step' : ρ → ι' → ο' × ρ} {R : σ → ρ → Prop}
    (hkeep : ∀ s r i, concerns i = none → R s r → R (step s i).2 r)
    (hstep : ∀ s r i j, concerns i = some j → R s r →
      f (step s i).1 = (step' r j).1 ∧ R (step s i).2 (step' r j).2)
    {s : σ} {r : ρ} (h : R s r) (is : List ι) :
    project concerns f (trace step s is) = (run step' r (is.filterMap concerns)).1 ∧
      R (run step s is).2 (run step' r (is.filterMap concerns)).2 := by
  induction is generalizing s r with
  | nil => exact ⟨rfl, h⟩
  | cons i is ih =>
    have htrace : trace step s (i :: is) = (i, (step s i).1) :: trace step (step s i).2 is := rfl
    rw [htrace, run_cons]
    unfold project at ih ⊢
    cases hi : concerns i with
    | none =>
      rw [List.filterMap_cons_none hi, List.filterMap_cons_none (by simp [hi])]
      exact ih (hkeep s r i hi h)
    | some j =>
      obtain ⟨hout, hnext⟩ := hstep s r i j hi h
      obtain ⟨houts, hend⟩ := ih hnext
      rw [List.filterMap_cons_some hi, run_cons, ← hout, ← houts]
      exact ⟨by simp [hi], hend⟩

/-- What every step does, the steps of a run do. -/
theorem trace_forall {P : ι × ο → Prop} (hstep : ∀ s i, P (i, (step s i).1)) (s : σ)
    (is : List ι) : ∀ p ∈ trace step s is, P p := by
  induction is generalizing s with
  | nil => exact fun _ h => absurd h List.not_mem_nil
  | cons i is ih =>
    intro p hp
    rcases List.mem_cons.mp hp with rfl | hp
    · exact hstep s i
    · exact ih (step s i).2 p hp

/-- A run that ends within a set was in it all along, if no step enters it. -/
theorem run_within {B : σ → Prop} (hback : ∀ s i, B (step s i).2 → B s) {s : σ} {is : List ι}
    (h : B (run step s is).2) : B s := by
  induction is generalizing s with
  | nil => exact h
  | cons i is ih => exact hback s i (ih h)

/-- **Machines that step alike within a set run alike**, when the run ends within it and no step
enters it. The outputs are compared by a map. -/
theorem run_simulation_within {ο' : Type} {f : ο → ο'} {step' : ρ → ι → ο' × ρ} {R : σ → ρ → Prop}
    {B : σ → Prop} (hback : ∀ s i, B (step s i).2 → B s) {is : List ι}
    (hstep : ∀ i ∈ is, ∀ s r, R s r → B (step s i).2 →
      f (step s i).1 = (step' r i).1 ∧ R (step s i).2 (step' r i).2)
    {s : σ} {r : ρ} (h : R s r) (hend : B (run step s is).2) :
    (run step s is).1.map f = (run step' r is).1 ∧ R (run step s is).2 (run step' r is).2 := by
  induction is generalizing s r with
  | nil => exact ⟨rfl, h⟩
  | cons i is ih =>
    have hnext : B (step s i).2 := run_within hback hend
    obtain ⟨hout, hrel⟩ := hstep i List.mem_cons_self s r h hnext
    obtain ⟨houts, hlast⟩ := ih (fun j hj => hstep j (List.mem_cons_of_mem i hj)) hrel hend
    exact ⟨by rw [run_cons, run_cons, List.map_cons, hout, houts], hlast⟩

end Machine
