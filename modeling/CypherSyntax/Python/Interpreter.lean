import CypherSyntax.Python.Value

/-!
# What the interpreter decides

`Interpreter` collects what a program can observe of the Python runtime and the language leaves
open: the Unicode database, the text of floats, how many digits `int` and `str` convert, and the
recursion limit. Its laws are the documented ones.

The forms of a JSON number (`IntegerForm`, `FractionForm`, `ExponentForm`) are those of the
regular expression of `json.scanner`,
`(-?(?:0|[1-9][0-9]*))(\.[0-9]+)?([eE][-+]?[0-9]+)?`.
-/

namespace Python

/-! ## Forms of numbers -/

/-- `-?(?:0|[1-9][0-9]*)` -/
def IntegerForm (s : Str) : Prop :=
  ∃ sign digits : Str, s = sign ++ digits ∧ (sign = [] ∨ sign = [0x2D]) ∧
    (digits = [0x30] ∨ ∃ d ds, digits = d :: ds ∧ isDigit d = true ∧ d ≠ 0x30 ∧
      ∀ c ∈ ds, isDigit c = true)

/-- `\.[0-9]+` -/
def FractionForm (s : Str) : Prop :=
  ∃ d ds, s = 0x2E :: d :: ds ∧ isDigit d = true ∧ ∀ c ∈ ds, isDigit c = true

/-- `[eE][-+]?[0-9]+` -/
def ExponentForm (s : Str) : Prop :=
  ∃ e sign d ds, s = e :: sign ++ d :: ds ∧ (e = 0x65 ∨ e = 0x45) ∧
    (sign = [] ∨ sign = [0x2B] ∨ sign = [0x2D]) ∧ isDigit d = true ∧ ∀ c ∈ ds, isDigit c = true

/-- A number with a fraction or an exponent. -/
structure FloatForm (s : Str) : Prop where
  parts : ∃ integer fraction exponent : Str, s = integer ++ fraction ++ exponent ∧
    IntegerForm integer ∧ (fraction = [] ∨ FractionForm fraction) ∧
    (exponent = [] ∨ ExponentForm exponent) ∧ (fraction ≠ [] ∨ exponent ≠ [])

/-- The decimal text of an `int` has the form of an integer. -/
theorem intText_form (i : Int) : IntegerForm (intText i) := by
  have hnat : ∀ n, natText n = [0x30] ∨ ∃ d ds, natText n = d :: ds ∧ isDigit d = true ∧
      d ≠ 0x30 ∧ ∀ c ∈ ds, isDigit c = true := by
    intro n
    obtain ⟨c, s, hcs⟩ := List.exists_cons_of_ne_nil (natText_ne_nil n)
    have hd := natText_digits n
    rw [hcs] at hd ⊢
    rcases natText_head hcs with ⟨rfl, rfl⟩ | h
    · exact Or.inl rfl
    · refine Or.inr ⟨c, s, rfl, hd c List.mem_cons_self, ?_, fun d hds =>
        hd d (List.mem_cons_of_mem c hds)⟩
      rintro rfl
      exact absurd h (by decide)
  cases i with
  | ofNat n => exact ⟨[], natText n, rfl, Or.inl rfl, hnat n⟩
  | negSucc n => exact ⟨[0x2D], natText (n + 1), rfl, Or.inr rfl, hnat (n + 1)⟩

/-! ## The runtime -/

/-- What the runtime decides. -/
class Interpreter extends UnicodeData where
  /-- Whether an `int` of so many digits is converted to or from text. -/
  digitsAllowed : Nat → Bool
  /-- The limit is never below 640 digits. -/
  digitsAllowed_640 : ∀ n ≤ 640, digitsAllowed n = true
  /-- How many containers `json.loads` nests before it raises `RecursionError`. -/
  recursionLimit : Nat
  recursionLimit_pos : 0 < recursionLimit
  /-- `float.__repr__`. -/
  floatRepr : BitVec 64 → Str
  /-- `float(text)`. -/
  floatOfText : Str → BitVec 64
  /-- A finite float prints as a number with a fraction or an exponent. -/
  floatRepr_form : ∀ bits, isFinite bits = true → FloatForm (floatRepr bits)
  /-- The printed text reads back as the float. -/
  floatOfText_repr : ∀ bits, isFinite bits = true → floatOfText (floatRepr bits) = bits

/-- How many digits the decimal text of an `int` has. -/
def digitCount (i : Int) : Nat := (natText i.natAbs).length

end Python
