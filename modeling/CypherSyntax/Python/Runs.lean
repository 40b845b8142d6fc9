import CypherSyntax.Python.Method

/-!
# Outcomes of a method

`Runs m s Q E` says what a method does from a frame: it returns `a` in a frame with `Q`, or raises
an exception in a frame with `E`. The rules follow the way a method is put together.

`Extends P l l'` says that a log has grown by calls with `P`.
-/

namespace Python

variable {κ σ ρ τ α β : Type}

/-! ## Logs -/

/-- The log `l'` is `l` and then calls with `P`. -/
def Extends (P : τ → Prop) (l l' : List τ) : Prop := ∃ calls, l' = l ++ calls ∧ ∀ c ∈ calls, P c

namespace Extends

variable {P R : τ → Prop} {l l' l'' : List τ}

theorem refl (P : τ → Prop) (l : List τ) : Extends P l l :=
  ⟨[], (List.append_nil l).symm, fun _ h => absurd h List.not_mem_nil⟩

theorem of_calls {calls : List τ} (h : ∀ c ∈ calls, P c) : Extends P l (l ++ calls) :=
  ⟨calls, rfl, h⟩

theorem single {c : τ} (h : P c) : Extends P l (l ++ [c]) :=
  of_calls (List.forall_mem_cons.mpr ⟨h, fun _ h => absurd h List.not_mem_nil⟩)

theorem trans (h : Extends P l l') (h' : Extends P l' l'') : Extends P l l'' := by
  obtain ⟨calls, rfl, hcalls⟩ := h
  obtain ⟨calls', rfl, hcalls'⟩ := h'
  refine ⟨calls ++ calls', List.append_assoc _ _ _, fun c hc => ?_⟩
  rcases List.mem_append.mp hc with hc | hc
  · exact hcalls c hc
  · exact hcalls' c hc

theorem mono (h : Extends P l l') (hP : ∀ c, P c → R c) : Extends R l l' := by
  obtain ⟨calls, rfl, hcalls⟩ := h
  exact ⟨calls, rfl, fun c hc => hP c (hcalls c hc)⟩

theorem mem (h : Extends P l l') {c : τ} (hc : c ∈ l) : c ∈ l' := by
  obtain ⟨calls, rfl, -⟩ := h
  exact List.mem_append_left _ hc

/-- A call of the longer log is an old one or has `P`. -/
theorem cases (h : Extends P l l') {c : τ} (hc : c ∈ l') : c ∈ l ∨ P c := by
  obtain ⟨calls, rfl, hcalls⟩ := h
  exact (List.mem_append.mp hc).imp_right (hcalls c)

end Extends

/-! ## Outcomes -/

/-- From the frame, the method returns with `Q` or raises with `E`. -/
def Runs (m : Method κ σ τ α) (s : Frame σ τ) (Q : α → Frame σ τ → Prop)
    (E : Exc κ → Frame σ τ → Prop) : Prop :=
  match m.run s with
  | (.ok a, t) => Q a t
  | (.error e, t) => E e t

namespace Runs

variable {m : Method κ σ τ α} {f : α → Method κ σ τ β} {s t : Frame σ τ}
  {Q R : α → Frame σ τ → Prop} {S : β → Frame σ τ → Prop} {E F : Exc κ → Frame σ τ → Prop}

theorem of_run {a : α} (h : m.run s = (.ok a, t)) (hq : Q a t) : Runs m s Q E := by
  unfold Runs
  rw [h]
  exact hq

theorem of_run_error {e : Exc κ} (h : m.run s = (.error e, t)) (he : E e t) : Runs m s Q E := by
  unfold Runs
  rw [h]
  exact he

/-- What holds of a method that has returned. -/
theorem of_ok (h : Runs m s Q E) {a : α} (hrun : m.run s = (.ok a, t)) : Q a t := by
  unfold Runs at h
  rw [hrun] at h
  exact h

/-- What holds of a method that has raised. -/
theorem of_error (h : Runs m s Q E) {e : Exc κ} (hrun : m.run s = (.error e, t)) : E e t := by
  unfold Runs at h
  rw [hrun] at h
  exact h

/-- A method that cannot raise returns. -/
theorem returns (h : Runs m s Q E) (hE : ∀ e t, ¬ E e t) :
    ∃ a t, m.run s = (.ok a, t) ∧ Q a t := by
  rcases hrun : m.run s with ⟨e | a, t⟩
  · exact absurd (h.of_error hrun) (hE e t)
  · exact ⟨a, t, rfl, h.of_ok hrun⟩

theorem pure {a : α} (h : Q a s) : Runs (Pure.pure a : Method κ σ τ α) s Q E := h

theorem mono (h : Runs m s Q E) (hq : ∀ a t, Q a t → R a t) (he : ∀ e t, E e t → F e t) :
    Runs m s R F := by
  unfold Runs at h ⊢
  rcases hrun : m.run s with ⟨e | a, t⟩
  · rw [hrun] at h
    exact he e t h
  · rw [hrun] at h
    exact hq a t h

theorem bind (hm : Runs m s Q E) (hf : ∀ a t, Q a t → Runs (f a) t S E) :
    Runs (m >>= f) s S E := by
  unfold Runs at hm ⊢
  rw [Method.run_bind]
  rcases hrun : m.run s with ⟨e | a, t⟩
  · rw [hrun] at hm
    exact hm
  · rw [hrun] at hm
    exact hf a t hm

/-- A first part that raises in its own way. -/
theorem bind' (hm : Runs m s Q F) (hf : ∀ a t, Q a t → Runs (f a) t S E)
    (hE : ∀ e t, F e t → E e t) : Runs (m >>= f) s S E :=
  (hm.mono (fun _ _ h => h) hE).bind hf

/-- A first part that is known to return. -/
theorem bind_run {a : α} (h : m.run s = (.ok a, t)) (hf : Runs (f a) t S E) :
    Runs (m >>= f) s S E := by
  unfold Runs
  rw [Method.run_bind_ok h]
  exact hf

theorem lift {x : Except (Exc κ) α} (hok : ∀ a, x = .ok a → Q a s)
    (herror : ∀ e, x = .error e → E e s) : Runs (liftM x : Method κ σ τ α) s Q E := by
  cases x with
  | ok a => exact hok a rfl
  | error e => exact herror e rfl

/-- A first part that touches neither the object nor the log. -/
theorem bind_lift {x : Except (Exc κ) α} (hf : ∀ a, x = .ok a → Runs (f a) s S E)
    (herror : ∀ e, x = .error e → E e s) : Runs (liftM x >>= f) s S E :=
  (lift (Q := fun a t => x = .ok a ∧ t = s) (fun _ h => ⟨h, rfl⟩) herror).bind
    fun a _ ⟨h, ht⟩ => ht ▸ hf a h

theorem update {g : σ → σ} {Q : Unit → Frame σ τ → Prop} (h : Q () ⟨g s.self, s.log⟩) :
    Runs (Method.update g) s Q E := h

theorem ite {c : Prop} [Decidable c] {m' : Method κ σ τ α} (hthen : c → Runs m s Q E)
    (helse : ¬ c → Runs m' s Q E) : Runs (if c then m else m') s Q E := by
  by_cases h : c
  · rw [if_pos h]
    exact hthen h
  · rw [if_neg h]
    exact helse h

/-- What is raised goes to the handler. -/
theorem tryExcept {handler : Exc κ → Method κ σ τ α}
    (h : Runs m s Q fun e t => Runs (handler e) t Q E) :
    Runs (Method.tryExcept m handler) s Q E := by
  unfold Runs Method.tryExcept at *
  simp only
  rcases hrun : m.run s with ⟨e | a, t⟩
  · rw [hrun] at h
    exact h
  · rw [hrun] at h
    exact h

/-- What is caught is raised as another exception. -/
theorem convert {caught : Exc κ → Bool} {exc : Exc κ}
    (h : Runs m s Q fun e t => E (if caught e then exc else e) t) :
    Runs (Method.convert caught exc m) s Q E :=
  tryExcept (h.mono (fun _ _ hq => hq) fun _ _ he => he)

/-- The clean-up runs after the body has returned and after it has raised. -/
theorem tryFinally {cleanup : Method κ σ τ Unit}
    (h : Runs m s (fun a t => Runs cleanup t (fun _ u => Q a u) E)
      fun e t => Runs cleanup t (fun _ u => E e u) E) :
    Runs (Method.tryFinally m cleanup) s Q E := by
  show match (Method.tryFinally m cleanup).run s with
    | (.ok a, t) => Q a t
    | (.error e, t) => E e t
  unfold Method.tryFinally
  simp only
  rcases hrun : m.run s with ⟨e | a, t⟩
  · have hraised := h.of_error hrun
    rcases hclean : cleanup.run t with ⟨e' | u, v⟩
    · exact hraised.of_error hclean
    · exact hraised.of_ok hclean
  · have hreturned := h.of_ok hrun
    rcases hclean : cleanup.run t with ⟨e' | u, v⟩
    · exact hreturned.of_error hclean
    · exact hreturned.of_ok hclean

/-- A method of a component does to the object what it does to the component. -/
theorem zoom {get : σ → ρ} {set : ρ → σ → σ} {m : Method κ ρ τ α}
    (h : Runs m ⟨get s.self, s.log⟩ (fun a t => Q a ⟨set t.self s.self, t.log⟩)
      fun e t => E e ⟨set t.self s.self, t.log⟩) : Runs (Method.zoom get set m) s Q E := by
  unfold Runs at h ⊢
  rw [Method.run_zoom]
  rcases hrun : m.run ⟨get s.self, s.log⟩ with ⟨e | a, t⟩
  · rw [hrun] at h
    exact h
  · rw [hrun] at h
    exact h

/-- A method of an object of its own does nothing to the object it is called from. -/
theorem withObject {object : ρ} {m : Method κ ρ τ α}
    (h : Runs m ⟨object, s.log⟩ (fun a t => Q a ⟨s.self, t.log⟩) fun e t => E e ⟨s.self, t.log⟩) :
    Runs (Method.withObject object m) s Q E := zoom h

/-- A method of a component that may be absent. -/
theorem zoomOption {get : σ → Option ρ} {set : ρ → σ → σ} {absent : α} {m : Method κ ρ τ α}
    (hnone : get s.self = none → Q absent s)
    (hsome : ∀ c, get s.self = some c → Runs m ⟨c, s.log⟩
      (fun a t => Q a ⟨set t.self s.self, t.log⟩) fun e t => E e ⟨set t.self s.self, t.log⟩) :
    Runs (Method.zoomOption get set absent m) s Q E := by
  unfold Method.zoomOption
  refine .bind_run (Method.run_self s) ?_
  cases hget : get s.self with
  | none => exact .pure (hnone hget)
  | some c => exact .zoom (hsome c hget)

end Runs

end Python
