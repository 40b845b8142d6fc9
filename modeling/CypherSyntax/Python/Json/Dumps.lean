import CypherSyntax.Python.Interpreter

/-!
# `json.dumps`

`dumps` with `separators=(",", ":")` and `sort_keys=True`, which every call of the program passes;
`ensure_ascii` and `allow_nan` are arguments. The items of a dictionary are sorted by their
original keys, and only then is each key turned into a string: `int`, `float`, `bool` and `None`
keys print as their values do. Keys of different kinds cannot be compared, which is the
`TypeError` of `sorted`. A tuple prints as an array.

Circular references and the recursion limit of the encoder are outside the model.
-/

namespace Python.Json

variable {κ : Type}

/-! ## Strings -/

/-- Four lower-case hexadecimal digits. -/
def hex4 (n : Nat) : Str :=
  [digitOf (n / 4096 % 16), digitOf (n / 256 % 16), digitOf (n / 16 % 16), digitOf (n % 16)]

/-- `\uXXXX` -/
def unicodeEscape (n : Nat) : Str := 0x5C :: 0x75 :: hex4 n

/-- The short escape of a code point, if it has one. -/
def shortEscape (c : CodePoint) : Option CodePoint :=
  if c = 0x22 then some 0x22
  else if c = 0x5C then some 0x5C
  else if c = 0x08 then some 0x62
  else if c = 0x0C then some 0x66
  else if c = 0x0A then some 0x6E
  else if c = 0x0D then some 0x72
  else if c = 0x09 then some 0x74
  else none

/-- One code point inside a string: with `ensure_ascii` everything outside space to tilde is
escaped, a code point above `0xFFFF` as a surrogate pair. -/
def escape (ensureAscii : Bool) (c : CodePoint) : Str :=
  match shortEscape c with
  | some e => [0x5C, e]
  | none =>
    if c.val < 0x20 then unicodeEscape c.val
    else if ensureAscii && 0x7E < c.val then
      if c.val < 0x10000 then unicodeEscape c.val
      else unicodeEscape (0xD800 + (c.val - 0x10000) / 0x400) ++
        unicodeEscape (0xDC00 + (c.val - 0x10000) % 0x400)
    else [c]

/-- A string literal. -/
def encodeString (ensureAscii : Bool) (s : Str) : Str :=
  0x22 :: (s.flatMap (escape ensureAscii) ++ [0x22])

/-! ## Numbers and keys -/

section Numbers

variable [Interpreter]

/-- `int.__repr__`, which refuses too many digits. -/
def encodeInt (i : Int) : Except (Exc κ) Str :=
  if Interpreter.digitsAllowed (digitCount i) then .ok (intText i)
  else .error (valueError "Exceeds the limit for integer string conversion")

/-- `float.__repr__`, and the constants of the non-finite floats. -/
def encodeFloat (allowNan : Bool) (bits : BitVec 64) : Except (Exc κ) Str :=
  if isFinite bits then .ok (Interpreter.floatRepr bits)
  else if !allowNan then .error (valueError "Out of range float values are not JSON compliant")
  else if bits.toNat % 2 ^ 52 ≠ 0 then .ok (lit "NaN")
  else if bits.toNat < 2 ^ 63 then .ok (lit "Infinity")
  else .ok (lit "-Infinity")

def encodeBool (b : Bool) : Str := if b then lit "true" else lit "false"

/-- The text of a key, before it is quoted. -/
def encodeKey (allowNan : Bool) : Key → Except (Exc κ) Str
  | .str s => .ok s
  | .int i => encodeInt i
  | .float bits => encodeFloat allowNan bits
  | .bool b => .ok (encodeBool b)
  | .none => .ok (lit "null")

end Numbers

def Key.isStr : Key → Bool
  | .str _ => true
  | _ => false

/-- `sorted(items)`: keys are all strings or all numbers, or there is at most one. -/
def sortItems {α : Type} (kvs : List (Key × α)) : Except (Exc κ) (List (Key × α)) :=
  if kvs.length ≤ 1 ∨ kvs.all (fun p => Key.isStr p.1) = true ∨
      kvs.all (fun p => p.1.number.isSome) = true then
    .ok (sortByKey kvs)
  else .error (typeError "'<' not supported between instances")

/-! ## Values -/

/-- The texts of a sequence, joined by commas. -/
def joinComma : List Str → Str
  | [] => []
  | [s] => s
  | s :: t :: l => s ++ 0x2C :: joinComma (t :: l)

variable [Interpreter]

/-- The text of one item, from the text of its value. -/
def encodeItem (ensureAscii allowNan : Bool) (item : Key × Except (Exc κ) Str) :
    Except (Exc κ) Str := do
  let key ← encodeKey allowNan item.1
  let value ← item.2
  return encodeString ensureAscii key ++ 0x3A :: value

mutual

/-- `json.dumps(value, separators=(",", ":"), sort_keys=True)`. -/
def dumps (ensureAscii allowNan : Bool) : Value → Except (Exc κ) Str
  | .none => .ok (lit "null")
  | .bool b => .ok (encodeBool b)
  | .int i => encodeInt i
  | .float bits => encodeFloat allowNan bits
  | .str s => .ok (encodeString ensureAscii s)
  | .bytes _ => .error (typeError "Object of type bytes is not JSON serializable")
  | .list xs => do
    let items ← dumpsList ensureAscii allowNan xs
    return 0x5B :: (joinComma items ++ [0x5D])
  | .tuple xs => do
    let items ← dumpsList ensureAscii allowNan xs
    return 0x5B :: (joinComma items ++ [0x5D])
  | .dict kvs => do
    let items ← sortItems (dumpsItems ensureAscii allowNan kvs)
    let texts ← items.mapM (encodeItem ensureAscii allowNan)
    return 0x7B :: (joinComma texts ++ [0x7D])

def dumpsList (ensureAscii allowNan : Bool) : List Value → Except (Exc κ) (List Str)
  | [] => .ok []
  | x :: xs => do
    let s ← dumps ensureAscii allowNan x
    let ss ← dumpsList ensureAscii allowNan xs
    return s :: ss

/-- Each value's text, or the exception it raises when its turn comes. -/
def dumpsItems (ensureAscii allowNan : Bool) :
    List (Key × Value) → List (Key × Except (Exc κ) Str)
  | [] => []
  | (k, v) :: kvs => (k, dumps ensureAscii allowNan v) :: dumpsItems ensureAscii allowNan kvs

end

theorem dumpsItems_eq (ea an : Bool) (kvs : List (Key × Value)) :
    dumpsItems (κ := κ) ea an kvs = kvs.map fun p => (p.1, dumps ea an p.2) := by
  induction kvs with
  | nil => rfl
  | cons kv kvs ih => rw [dumpsItems, ih, List.map_cons]

end Python.Json
