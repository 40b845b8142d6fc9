import CypherSyntax.Python.Value

/-!
# Methods

A method works on its object, may raise, and keeps the changes it made before it raised. What it
asks of code outside the program is appended to a log, so that an assumption about that code can
be stated of the calls a run makes. A function that uses no object is a method of any object.

`Method.zoom` runs a method on a component of the object.

Results:
* `bind_ok`: a sequence returns through its parts.
* `lift_ok`, `lift_error`, `zoom_ok`, `tryFinally_ok`: the same for other ways to build a method.
* `IgnoresLog.bind`: a sequence of methods that do not read the log does not read it.
-/

namespace Python

/-- What a method works on. -/
@[ext] structure Frame (σ τ : Type) where
  /-- The object. -/
  self : σ
  /-- The calls made so far, oldest first. -/
  log : List τ

/-- A method of an object `σ` that returns `α`. -/
structure Method (κ σ τ α : Type) where
  run : Frame σ τ → Except (Exc κ) α × Frame σ τ

namespace Method

variable {κ σ ρ τ α β : Type}

/-! ## Building methods -/

instance : Monad (Method κ σ τ) where
  pure a := ⟨fun s => (.ok a, s)⟩
  bind m f := ⟨fun s =>
    match m.run s with
    | (.ok a, t) => (f a).run t
    | (.error e, t) => (.error e, t)⟩

/-- A call that touches neither the object nor the log. -/
instance : MonadLift (Except (Exc κ)) (Method κ σ τ) := ⟨fun x => ⟨fun s => (x, s)⟩⟩

/-- The object. -/
def self : Method κ σ τ σ := ⟨fun s => (.ok s.self, s)⟩

/-- Changes the object. -/
def update (f : σ → σ) : Method κ σ τ Unit := ⟨fun s => (.ok (), { s with self := f s.self })⟩

/-- Appends a call to the log. -/
def record (call : τ) : Method κ σ τ Unit := ⟨fun s => (.ok (), { s with log := s.log ++ [call] })⟩

/-- Runs a method on a component of the object. -/
def zoom (get : σ → ρ) (set : ρ → σ → σ) (m : Method κ ρ τ α) : Method κ σ τ α := ⟨fun s =>
  let (result, t) := m.run ⟨get s.self, s.log⟩
  (result, ⟨set t.self s.self, t.log⟩)⟩

/-- Runs a method on an object of its own. -/
def withObject (object : ρ) (m : Method κ ρ τ α) : Method κ σ τ α :=
  zoom (fun _ => object) (fun _ s => s) m

/-- Runs a method on a component that may be absent. -/
def zoomOption (get : σ → Option ρ) (set : ρ → σ → σ) (absent : α) (m : Method κ ρ τ α) :
    Method κ σ τ α := do
  let s ← self
  match get s with
  | none => return absent
  | some component => zoom (fun _ => component) set m

/-- Runs a method and gives back its outcome. -/
def attempt (m : Method κ σ τ α) : Method κ σ τ (Except (Exc κ) α) :=
  ⟨fun s => (.ok (m.run s).1, (m.run s).2)⟩

/-- `try: ... except ...: ...` -/
def tryExcept (m : Method κ σ τ α) (handler : Exc κ → Method κ σ τ α) : Method κ σ τ α := ⟨fun s =>
  match m.run s with
  | (.ok a, t) => (.ok a, t)
  | (.error e, t) => (handler e).run t⟩

/-- `try: ... except caught: raise exc` -/
def convert (caught : Exc κ → Bool) (exc : Exc κ) (m : Method κ σ τ α) : Method κ σ τ α :=
  tryExcept m fun e => ⟨fun s => (.error (if caught e then exc else e), s)⟩

/-- `try: ... finally: ...`, where an exception of the clean-up replaces the outcome. -/
def tryFinally (m : Method κ σ τ α) (cleanup : Method κ σ τ Unit) : Method κ σ τ α := ⟨fun s =>
  match cleanup.run (m.run s).2 with
  | (.ok (), u) => ((m.run s).1, u)
  | (.error e, u) => (.error e, u)⟩

/-! ## What a method does -/

@[simp] theorem run_pure (a : α) (s : Frame σ τ) :
    (pure a : Method κ σ τ α).run s = (.ok a, s) := rfl

@[simp] theorem run_lift (x : Except (Exc κ) α) (s : Frame σ τ) :
    (liftM x : Method κ σ τ α).run s = (x, s) := rfl

@[simp] theorem run_self (s : Frame σ τ) : (self : Method κ σ τ σ).run s = (.ok s.self, s) := rfl

@[simp] theorem run_update (f : σ → σ) (s : Frame σ τ) :
    (update f : Method κ σ τ Unit).run s = (.ok (), ⟨f s.self, s.log⟩) := rfl

@[simp] theorem run_record (call : τ) (s : Frame σ τ) :
    (record call : Method κ σ τ Unit).run s = (.ok (), ⟨s.self, s.log ++ [call]⟩) := rfl

@[simp] theorem run_zoom (get : σ → ρ) (set : ρ → σ → σ) (m : Method κ ρ τ α) (s : Frame σ τ) :
    (zoom get set m).run s = ((m.run ⟨get s.self, s.log⟩).1,
      ⟨set (m.run ⟨get s.self, s.log⟩).2.self s.self, (m.run ⟨get s.self, s.log⟩).2.log⟩) := rfl

@[simp] theorem run_attempt (m : Method κ σ τ α) (s : Frame σ τ) :
    (attempt m).run s = (.ok (m.run s).1, (m.run s).2) := rfl

/-- A sequence runs its first part, and the rest unless that raises. -/
theorem run_bind (m : Method κ σ τ α) (f : α → Method κ σ τ β) (s : Frame σ τ) :
    (m >>= f).run s = match m.run s with
      | (.ok a, t) => (f a).run t
      | (.error e, t) => (.error e, t) := rfl

theorem run_bind_ok {m : Method κ σ τ α} {f : α → Method κ σ τ β} {a : α} {s u : Frame σ τ}
    (h : m.run s = (.ok a, u)) : (m >>= f).run s = (f a).run u := by
  rw [run_bind, h]

theorem run_bind_error {m : Method κ σ τ α} {f : α → Method κ σ τ β} {e : Exc κ}
    {s u : Frame σ τ} (h : m.run s = (.error e, u)) : (m >>= f).run s = (.error e, u) := by
  rw [run_bind, h]

/-- A sequence returns when its first part returns and the rest does, from there. -/
theorem bind_ok {m : Method κ σ τ α} {f : α → Method κ σ τ β} {b : β} {s t : Frame σ τ} :
    (m >>= f).run s = (.ok b, t) ↔
      ∃ a u, m.run s = (.ok a, u) ∧ (f a).run u = (.ok b, t) := by
  rw [run_bind]
  rcases m.run s with ⟨a | e, u⟩ <;> simp

theorem pure_ok {a b : α} {s t : Frame σ τ} :
    (pure a : Method κ σ τ α).run s = (.ok b, t) ↔ a = b ∧ s = t := by
  rw [run_pure, Prod.mk.injEq, Except.ok.injEq]

theorem lift_ok {x : Except (Exc κ) α} {a : α} {s t : Frame σ τ} :
    (liftM x : Method κ σ τ α).run s = (.ok a, t) ↔ x = .ok a ∧ s = t := by
  rw [run_lift, Prod.mk.injEq]

theorem lift_error {x : Except (Exc κ) α} {e : Exc κ} {s t : Frame σ τ} :
    (liftM x : Method κ σ τ α).run s = (.error e, t) ↔ x = .error e ∧ s = t := by
  rw [run_lift, Prod.mk.injEq]

theorem update_ok {f : σ → σ} {a : Unit} {s t : Frame σ τ} :
    (update f : Method κ σ τ Unit).run s = (.ok a, t) ↔ ⟨f s.self, s.log⟩ = t := by
  simp

theorem zoom_ok {get : σ → ρ} {set : ρ → σ → σ} {m : Method κ ρ τ α} {a : α} {s t : Frame σ τ} :
    (zoom get set m).run s = (.ok a, t) ↔
      ∃ u, m.run ⟨get s.self, s.log⟩ = (.ok a, u) ∧ ⟨set u.self s.self, u.log⟩ = t := by
  rw [run_zoom]
  rcases m.run ⟨get s.self, s.log⟩ with ⟨b, u⟩
  simp

theorem tryFinally_ok {m : Method κ σ τ α} {cleanup : Method κ σ τ Unit} {a : α}
    {s t : Frame σ τ} : (tryFinally m cleanup).run s = (.ok a, t) ↔
      ∃ u, m.run s = (.ok a, u) ∧ cleanup.run u = (.ok (), t) := by
  unfold tryFinally
  simp only
  rcases m.run s with ⟨r, u⟩
  rcases hc : cleanup.run u with ⟨e | ⟨⟩, v⟩
  · simp [hc]
  · simp [hc]

/-- What returns from a `try` whose handler only raises has returned in its body. -/
theorem convert_ok {caught : Exc κ → Bool} {exc : Exc κ} {m : Method κ σ τ α} {a : α}
    {s t : Frame σ τ} :
    (convert caught exc m).run s = (.ok a, t) ↔ m.run s = (.ok a, t) := by
  unfold convert tryExcept
  simp only
  rcases m.run s with ⟨b | e, u⟩
  · simp
  · rfl

/-! ## Methods that do not read the log -/

/-- The log shows neither in the outcome nor in the object. -/
def IgnoresLog (m : Method κ σ τ α) : Prop :=
  ∀ object l l', (m.run ⟨object, l⟩).1 = (m.run ⟨object, l'⟩).1 ∧
    (m.run ⟨object, l⟩).2.self = (m.run ⟨object, l'⟩).2.self

namespace IgnoresLog

variable {m : Method κ σ τ α} {f : α → Method κ σ τ β}

theorem pure (a : α) : (Pure.pure a : Method κ σ τ α).IgnoresLog := fun _ _ _ => ⟨rfl, rfl⟩

theorem lift (x : Except (Exc κ) α) : (liftM x : Method κ σ τ α).IgnoresLog :=
  fun _ _ _ => ⟨rfl, rfl⟩

theorem self : (Method.self : Method κ σ τ σ).IgnoresLog := fun _ _ _ => ⟨rfl, rfl⟩

theorem update (f : σ → σ) : (Method.update f : Method κ σ τ Unit).IgnoresLog :=
  fun _ _ _ => ⟨rfl, rfl⟩

theorem record (call : τ) : (Method.record call : Method κ σ τ Unit).IgnoresLog :=
  fun _ _ _ => ⟨rfl, rfl⟩

theorem bind (hm : m.IgnoresLog) (hf : ∀ a, (f a).IgnoresLog) : (m >>= f).IgnoresLog := by
  intro object l l'
  obtain ⟨hout, hself⟩ := hm object l l'
  rw [run_bind, run_bind]
  rcases hrun : m.run ⟨object, l⟩ with ⟨r, ⟨object', log⟩⟩
  rcases hrun' : m.run ⟨object, l'⟩ with ⟨r', ⟨object'', log'⟩⟩
  rw [hrun, hrun'] at hout hself
  obtain rfl : r = r' := hout
  obtain rfl : object' = object'' := hself
  cases r with
  | error e => exact ⟨rfl, rfl⟩
  | ok a => exact hf a object' log log'

theorem zoom {get : σ → ρ} {set : ρ → σ → σ} {m : Method κ ρ τ α} (hm : m.IgnoresLog) :
    (Method.zoom get set m).IgnoresLog := by
  intro object l l'
  obtain ⟨hout, hself⟩ := hm (get object) l l'
  rw [run_zoom, run_zoom]
  exact ⟨hout, congrArg (fun component => set component object) hself⟩

theorem convert {caught : Exc κ → Bool} {exc : Exc κ} (hm : m.IgnoresLog) :
    (Method.convert caught exc m).IgnoresLog := by
  intro object l l'
  obtain ⟨hout, hself⟩ := hm object l l'
  unfold Method.convert tryExcept
  simp only
  rcases hrun : m.run ⟨object, l⟩ with ⟨r, t⟩
  rcases hrun' : m.run ⟨object, l'⟩ with ⟨r', t'⟩
  rw [hrun, hrun'] at hout hself
  obtain rfl : r = r' := hout
  cases r with
  | ok a => exact ⟨rfl, hself⟩
  | error e => exact ⟨rfl, hself⟩

/-- What a method that returned from one log does from another. -/
theorem run_ok (h : m.IgnoresLog) {object : σ} {l : List τ} {a : α} {t : Frame σ τ}
    (hrun : m.run ⟨object, l⟩ = (.ok a, t)) (l' : List τ) :
    ∃ log, m.run ⟨object, l'⟩ = (.ok a, ⟨t.self, log⟩) := by
  obtain ⟨hout, hself⟩ := h object l' l
  rw [hrun] at hout hself
  exact ⟨(m.run ⟨object, l'⟩).2.log, Prod.ext hout (Frame.ext hself rfl)⟩

end IgnoresLog

end Method

end Python
