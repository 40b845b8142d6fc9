import CypherSyntax.Python.Value

/-!
# Outcomes of a call

`Ensures Q P x` says what a call may do: return a value with `Q`, or raise an exception with `P`.
The rules follow the program, one for each way it is put together, so that a postcondition of a
function is proved from those of the functions it calls.
-/

namespace Python

variable {ε α β : Type}

/-- The call returns a value with `Q` or raises an exception with `P`. -/
def Ensures (Q : α → Prop) (P : ε → Prop) : Except ε α → Prop
  | .ok a => Q a
  | .error e => P e

namespace Ensures

variable {Q R : α → Prop} {P : ε → Prop}

theorem ok {a : α} (h : Q a) : Ensures Q P (.ok a) := h

theorem error {e : ε} (h : P e) : Ensures Q P (.error e : Except ε α) := h

theorem bind {S : β → Prop} {x : Except ε α} {f : α → Except ε β} (hx : Ensures Q P x)
    (hf : ∀ a, Q a → Ensures S P (f a)) : Ensures S P (x >>= f) := by
  cases x with
  | ok a => exact hf a hx
  | error e => exact hx

theorem mono {P' : ε → Prop} {x : Except ε α} (hx : Ensures Q P x) (hq : ∀ a, Q a → R a)
    (hp : ∀ e, P e → P' e) : Ensures R P' x := by
  cases x with
  | ok a => exact hq a hx
  | error e => exact hp e hx

theorem ite {c : Prop} [Decidable c] {x y : Except ε α} (hx : c → Ensures Q P x)
    (hy : ¬ c → Ensures Q P y) : Ensures Q P (if c then x else y) := by
  split
  · exact hx ‹_›
  · exact hy ‹_›

theorem raiseIf {c : Prop} [Decidable c] {e : ε} (h : c → P e) :
    Ensures (fun _ => ¬ c) P (raiseIf c e) :=
  .ite (fun hc => h hc) fun hc => hc

theorem attach {x : Except ε α} (hx : Ensures Q P x) :
    Ensures (fun _ => True) P (attach x) := by
  cases x with
  | ok a => trivial
  | error e => exact hx

/-- A loop does what its body does for each element. -/
theorem mapM {f : α → Except ε β} : ∀ {xs : List α}, (∀ a ∈ xs, Ensures (fun _ => True) P (f a)) →
    Ensures (fun _ => True) P (xs.mapM f)
  | [], _ => trivial
  | a :: xs, h => by
    rw [List.mapM_cons]
    exact (h a List.mem_cons_self).bind fun _ _ =>
      (mapM fun b hb => h b (List.mem_cons_of_mem a hb)).bind fun _ _ => trivial

/-- What holds of every exception the call raises. -/
theorem of_error {x : Except ε α} (hx : Ensures Q P x) {e : ε} (h : x = .error e) : P e := by
  subst h
  exact hx

/-- What holds of the value the call returns. -/
theorem of_ok {x : Except ε α} (hx : Ensures Q P x) {a : α} (h : x = .ok a) : Q a := by
  subst h
  exact hx

end Ensures

end Python
