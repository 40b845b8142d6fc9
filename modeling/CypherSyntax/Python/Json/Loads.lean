import CypherSyntax.Python.Json.Dumps

/-!
# `json.loads`

The scanner of `json.scanner` and `json.decoder`, over the text that is left to read. Every
`dict` is built by `object_pairs_hook` from the pairs in the order they stand, and `NaN`,
`Infinity` and `-Infinity` go through `parse_constant`; both hooks may raise, and what they raise
leaves `loads` at once. `scanOnce` returns `none` where the decoder raises `StopIteration`.

`fuel` bounds the calls of the scanner: the length of the text is enough (`RoundTrip.lean`).
`depth` is what is left of the recursion limit, and `RecursionError` is raised when a container
opens with nothing left. Messages leave out the position in the text.
-/

namespace Python.Json

variable {κ : Type}

/-- The two hooks of `loads`. -/
structure Hooks (κ : Type) where
  objectPairs : List (Str × Value) → Except (Exc κ) Value
  parseConstant : Str → Except (Exc κ) Value

/-! ## Whitespace and strings -/

/-- `[ \t\n\r]` -/
def isJsonSpace (c : CodePoint) : Bool := c == 0x20 || c == 0x09 || c == 0x0A || c == 0x0D

def skipSpace (s : Str) : Str := s.dropWhile isJsonSpace

/-- The code point of a short escape. -/
def unescape (c : CodePoint) : Option CodePoint :=
  if c = 0x22 then some 0x22
  else if c = 0x5C then some 0x5C
  else if c = 0x2F then some 0x2F
  else if c = 0x62 then some 0x08
  else if c = 0x66 then some 0x0C
  else if c = 0x6E then some 0x0A
  else if c = 0x72 then some 0x0D
  else if c = 0x74 then some 0x09
  else none

/-- The number of four hexadecimal digits. -/
def readHex4 (a b c d : CodePoint) : Option Nat :=
  match hexValue a, hexValue b, hexValue c, hexValue d with
  | some w, some x, some y, some z => some (w * 4096 + x * 256 + y * 16 + z)
  | _, _, _, _ => none

def isHighSurrogate (n : Nat) : Bool := 0xD800 ≤ n && n ≤ 0xDBFF

def isLowSurrogate (n : Nat) : Bool := 0xDC00 ≤ n && n ≤ 0xDFFF

/-- The code points held back by a pending escape. -/
def flush (pending : Option Nat) : Str := (pending.map codePoint).toList

/-- What the escape `\uXXXX` of `n` adds after `pending`, and what it holds back: an escaped high
surrogate waits for an escaped low one, and the two make one code point. -/
def joinEscape (pending : Option Nat) (n : Nat) : Str × Option Nat :=
  match pending with
  | some m =>
    if isLowSurrogate n then ([codePoint (0x10000 + (m - 0xD800) * 0x400 + (n - 0xDC00))], none)
    else if isHighSurrogate n then ([codePoint m], some n)
    else ([codePoint m, codePoint n], none)
  | none => if isHighSurrogate n then ([], some n) else ([codePoint n], none)

/-- `scanstring`, after the opening quote: the string and the text after its closing quote. -/
def scanString (pending : Option Nat) : Str → Except (Exc κ) (Str × Str)
  | [] => .error (jsonDecodeError "Unterminated string starting at")
  | c :: s =>
    if c = 0x22 then .ok (flush pending, s)
    else if c.val < 0x20 then .error (jsonDecodeError "Invalid control character at")
    else if c ≠ 0x5C then do
      let (t, s) ← scanString none s
      return (flush pending ++ c :: t, s)
    else match s with
      | [] => .error (jsonDecodeError "Unterminated string starting at")
      | e :: s =>
        if e ≠ 0x75 then
          match unescape e with
          | none => .error (jsonDecodeError "Invalid \\escape")
          | some d => do
            let (t, s) ← scanString none s
            return (flush pending ++ d :: t, s)
        else match s with
          | h1 :: h2 :: h3 :: h4 :: s =>
            match readHex4 h1 h2 h3 h4 with
            | none => .error (jsonDecodeError "Invalid \\uXXXX escape")
            | some n => do
              let (t, s) ← scanString (joinEscape pending n).2 s
              return ((joinEscape pending n).1 ++ t, s)
          | _ => .error (jsonDecodeError "Invalid \\uXXXX escape")

/-! ## Numbers -/

/-- `(?:0|[1-9][0-9]*)` -/
def scanDigits : Str → Option (Str × Str)
  | [] => none
  | c :: s =>
    if c = 0x30 then some ([c], s)
    else if isDigit c then some (c :: s.takeWhile isDigit, s.dropWhile isDigit)
    else none

/-- `-?(?:0|[1-9][0-9]*)` -/
def scanInteger : Str → Option (Str × Str)
  | [] => none
  | c :: s => if c = 0x2D then (scanDigits s).map fun p => (c :: p.1, p.2) else scanDigits (c :: s)

/-- `(\.[0-9]+)?` -/
def scanFraction : Str → Str × Str
  | c :: d :: s =>
    if c = 0x2E ∧ isDigit d = true then (c :: d :: s.takeWhile isDigit, s.dropWhile isDigit)
    else ([], c :: d :: s)
  | s => ([], s)

/-- `([eE][-+]?[0-9]+)?` -/
def scanExponent : Str → Str × Str
  | c :: d :: s =>
    if c = 0x65 ∨ c = 0x45 then
      if isDigit d then (c :: d :: s.takeWhile isDigit, s.dropWhile isDigit)
      else match s with
        | e :: s =>
          if (d = 0x2B ∨ d = 0x2D) ∧ isDigit e = true then
            (c :: d :: e :: s.takeWhile isDigit, s.dropWhile isDigit)
          else ([], c :: d :: e :: s)
        | [] => ([], [c, d])
    else ([], c :: d :: s)
  | s => ([], s)

/-- The match of the number pattern: integer, fraction, exponent and the text after them. -/
def scanNumber (s : Str) : Option (Str × Str × Str × Str) :=
  (scanInteger s).map fun p =>
    let f := scanFraction p.2
    let e := scanExponent f.2
    (p.1, f.1, e.1, e.2)

section Scanner

variable [Interpreter]

/-- `int(text)` on an optional sign and digits. -/
def readInt (s : Str) : Except (Exc κ) Value :=
  let negative := s.head? == some 0x2D
  let digits := if negative then s.tail else s
  if Interpreter.digitsAllowed digits.length then
    .ok (.int (if negative then -(decimalValue digits : Int) else decimalValue digits))
  else .error (valueError "Exceeds the limit for integer string conversion")

/-- The number a match of the pattern stands for. -/
def readNumber (integer fraction exponent : Str) : Except (Exc κ) Value :=
  if fraction ≠ [] ∨ exponent ≠ [] then
    .ok (.float (Interpreter.floatOfText (integer ++ fraction ++ exponent)))
  else readInt integer

end Scanner

/-- The text after a word, if the text starts with it. -/
def dropWord (word : Str) (s : Str) : Option Str :=
  if word.isPrefixOf s then some (s.drop word.length) else none

/-! ## The scanner -/

def recursionError : Exc κ := .builtin .recursionError (lit "maximum recursion depth exceeded")

def expectingName : Exc κ :=
  jsonDecodeError "Expecting property name enclosed in double quotes"

/-- The constants `NaN`, `Infinity` and `-Infinity`. -/
def scanConstant (hooks : Hooks κ) (s : Str) : Except (Exc κ) (Option (Value × Str)) :=
  match dropWord (lit "NaN") s with
  | some t => do return some (← hooks.parseConstant (lit "NaN"), t)
  | none =>
    match dropWord (lit "Infinity") s with
    | some t => do return some (← hooks.parseConstant (lit "Infinity"), t)
    | none =>
      match dropWord (lit "-Infinity") s with
      | some t => do return some (← hooks.parseConstant (lit "-Infinity"), t)
      | none => .ok none

variable [Interpreter]

/-- `null`, `true`, `false`, numbers and the constants. -/
def scanScalar (hooks : Hooks κ) (s : Str) : Except (Exc κ) (Option (Value × Str)) :=
  match dropWord (lit "null") s with
  | some t => .ok (some (.none, t))
  | none =>
    match dropWord (lit "true") s with
    | some t => .ok (some (.bool true, t))
    | none =>
      match dropWord (lit "false") s with
      | some t => .ok (some (.bool false, t))
      | none =>
        match scanNumber s with
        | some (integer, fraction, exponent, t) => do
          return some (← readNumber integer fraction exponent, t)
        | none => scanConstant hooks s

mutual

/-- `scan_once`: one value, and the text after it. -/
def scanOnce (hooks : Hooks κ) : Nat → Nat → Str → Except (Exc κ) (Option (Value × Str))
  | 0, _, _ => .error recursionError
  | _ + 1, _, [] => .ok none
  | fuel + 1, depth, c :: s =>
    if c = 0x22 then do
      let (t, s) ← scanString none s
      return some (.str t, s)
    else if c = 0x7B then
      match depth with
      | 0 => .error recursionError
      | depth + 1 =>
        match skipSpace s with
        | [] => .error expectingName
        | d :: s =>
          if d = 0x7D then do return some (← hooks.objectPairs [], s)
          else if d = 0x22 then do
            let (pairs, s) ← scanMembers hooks fuel depth s
            return some (← hooks.objectPairs pairs, s)
          else .error expectingName
    else if c = 0x5B then
      match depth with
      | 0 => .error recursionError
      | depth + 1 =>
        match skipSpace s with
        | [] => .error (jsonDecodeError "Expecting value")
        | d :: s =>
          if d = 0x5D then .ok (some (.list [], s))
          else do
            let (xs, s) ← scanElements hooks fuel depth (d :: s)
            return some (.list xs, s)
    else scanScalar hooks (c :: s)

/-- The loop of `JSONObject`, after the opening quote of a key. -/
def scanMembers (hooks : Hooks κ) : Nat → Nat → Str → Except (Exc κ) (List (Str × Value) × Str)
  | 0, _, _ => .error recursionError
  | fuel + 1, depth, s => do
    let (key, s) ← scanString none s
    match skipSpace s with
    | [] => .error (jsonDecodeError "Expecting ':' delimiter")
    | c :: s =>
      if c ≠ 0x3A then .error (jsonDecodeError "Expecting ':' delimiter")
      else match ← scanOnce hooks fuel depth (skipSpace s) with
        | none => .error (jsonDecodeError "Expecting value")
        | some (value, s) =>
          match skipSpace s with
          | [] => .error (jsonDecodeError "Expecting ',' delimiter")
          | c :: s =>
            if c = 0x7D then return ([(key, value)], s)
            else if c ≠ 0x2C then .error (jsonDecodeError "Expecting ',' delimiter")
            else match skipSpace s with
              | [] => .error expectingName
              | c :: s =>
                if c = 0x22 then do
                  let (pairs, s) ← scanMembers hooks fuel depth s
                  return ((key, value) :: pairs, s)
                else if c = 0x7D then
                  .error (jsonDecodeError "Illegal trailing comma before end of object")
                else .error expectingName

/-- The loop of `JSONArray`. -/
def scanElements (hooks : Hooks κ) : Nat → Nat → Str → Except (Exc κ) (List Value × Str)
  | 0, _, _ => .error recursionError
  | fuel + 1, depth, s => do
    match ← scanOnce hooks fuel depth s with
    | none => .error (jsonDecodeError "Expecting value")
    | some (value, s) =>
      match skipSpace s with
      | [] => .error (jsonDecodeError "Expecting ',' delimiter")
      | c :: s =>
        if c = 0x5D then return ([value], s)
        else if c ≠ 0x2C then .error (jsonDecodeError "Expecting ',' delimiter")
        else do
          let (values, s) ← scanElements hooks fuel depth (skipSpace s)
          return (value :: values, s)

end

/-- `json.loads(text, object_pairs_hook=..., parse_constant=...)`. -/
def loads (hooks : Hooks κ) (s : Str) : Except (Exc κ) Value :=
  if s.head? = some 0xFEFF then .error (jsonDecodeError "Unexpected UTF-8 BOM")
  else do
    match ← scanOnce hooks (s.length + 1) Interpreter.recursionLimit (skipSpace s) with
    | none => .error (jsonDecodeError "Expecting value")
    | some (value, s) =>
      if skipSpace s = [] then return value
      else .error (jsonDecodeError "Extra data")

end Python.Json
