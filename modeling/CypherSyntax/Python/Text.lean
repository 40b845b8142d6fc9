import Mathlib.Data.Fin.Basic
import Mathlib.Data.List.Basic
import Mathlib.Tactic.Linarith

/-!
# Text: `str`, `bytes` and UTF-8

A Python `str` is a sequence of code points, lone surrogates included, so `Str` is a list of
`CodePoint` and not a `String`. `encodeUtf8` is `str.encode("utf-8")` (`none` for the
`UnicodeEncodeError` a surrogate raises) and `decodeUtf8` is `bytes.decode("utf-8")` with the
strict error handler (`none` for `UnicodeDecodeError`).

`str.isprintable` reads the Unicode database of the interpreter, which is the parameter
`UnicodeData`. Only its ASCII part is fixed here: the printable ASCII code points are space to
tilde. `str.isspace` is the documented table.

Results:
* `decodeUtf8_encodeUtf8`: decoding inverts encoding.
* `encodeUtf8_inj`: two strings with one encoding are equal.
* `utf8Width_eq`: an encoded code point has 1 to 4 bytes, `utf8Width` of them.
-/

namespace Python

/-- A code point: one element of a `str`. -/
abbrev CodePoint := Fin 0x110000

instance neZero_codePoints : NeZero 0x110000 := ⟨by decide⟩

/-- A Python `str`. -/
abbrev Str := List CodePoint

instance lawfulBEq_str : LawfulBEq Str := inferInstance

/-- A Python `bytes`. -/
abbrev Bytes := List UInt8

def ofChar (c : Char) : CodePoint := Fin.ofNat 0x110000 c.toNat

/-- A `str` literal. -/
def lit (s : String) : Str := s.toList.map ofChar

/-- A `bytes` literal. -/
def ascii (s : String) : Bytes := s.toList.map fun c => UInt8.ofNat c.toNat

def isSurrogate (c : CodePoint) : Bool := 0xD800 ≤ c.val && c.val ≤ 0xDFFF

/-- Strings `str.encode("utf-8")` accepts. -/
def NoSurrogates (s : Str) : Prop := ∀ c ∈ s, isSurrogate c = false

/-! ## Encoding -/

/-- The bytes of a code point, as numbers. -/
def utf8Units (n : Nat) : List Nat :=
  if n < 0x80 then [n]
  else if n < 0x800 then [0xC0 + n / 64, 0x80 + n % 64]
  else if n < 0x10000 then [0xE0 + n / 4096, 0x80 + n / 64 % 64, 0x80 + n % 64]
  else [0xF0 + n / 262144, 0x80 + n / 4096 % 64, 0x80 + n / 64 % 64, 0x80 + n % 64]

/-- `str.encode("utf-8")`. -/
def encodeUtf8 : Str → Option Bytes
  | [] => some []
  | c :: s =>
    if isSurrogate c then none
    else (encodeUtf8 s).map ((utf8Units c.val).map UInt8.ofNat ++ ·)

/-- `str.encode("ascii")`. -/
def encodeAscii : Str → Option Bytes
  | [] => some []
  | c :: s => if c.val < 0x80 then (encodeAscii s).map (UInt8.ofNat c.val :: ·) else none

/-! ## Decoding -/

def isTail (b : UInt8) : Bool := 0x80 ≤ b.toNat && b.toNat < 0xC0

/-- Two-byte sequences: no overlong form. -/
def isTwo (a b : UInt8) : Bool := 0xC2 ≤ a.toNat && a.toNat < 0xE0 && isTail b

/-- Three-byte sequences: no overlong form and no surrogate. -/
def isThree (a b c : UInt8) : Bool :=
  0xE0 ≤ a.toNat && a.toNat < 0xF0 && isTail b && isTail c &&
    !(a.toNat == 0xE0 && b.toNat < 0xA0) && !(a.toNat == 0xED && 0xA0 ≤ b.toNat)

/-- Four-byte sequences: no overlong form and nothing above `0x10FFFF`. -/
def isFour (a b c d : UInt8) : Bool :=
  0xF0 ≤ a.toNat && a.toNat < 0xF5 && isTail b && isTail c && isTail d &&
    !(a.toNat == 0xF0 && b.toNat < 0x90) && !(a.toNat == 0xF4 && 0x90 ≤ b.toNat)

def codePoint (n : Nat) : CodePoint := Fin.ofNat 0x110000 n

/-- `bytes.decode("utf-8")`. -/
def decodeUtf8 : Bytes → Option Str
  | [] => some []
  | a :: l =>
    if a.toNat < 0x80 then (decodeUtf8 l).map (codePoint a.toNat :: ·)
    else match l with
      | [] => none
      | b :: l =>
        if isTwo a b then
          (decodeUtf8 l).map (codePoint ((a.toNat - 0xC0) * 64 + (b.toNat - 0x80)) :: ·)
        else match l with
          | [] => none
          | c :: l =>
            if isThree a b c then
              (decodeUtf8 l).map (codePoint ((a.toNat - 0xE0) * 4096 + (b.toNat - 0x80) * 64 +
                (c.toNat - 0x80)) :: ·)
            else match l with
              | [] => none
              | d :: l =>
                if isFour a b c d then
                  (decodeUtf8 l).map (codePoint ((a.toNat - 0xF0) * 262144 +
                    (b.toNat - 0x80) * 4096 + (c.toNat - 0x80) * 64 + (d.toNat - 0x80)) :: ·)
                else none

/-! ## Decoding inverts encoding -/

theorem toNat_ofNat {n : Nat} (h : n < 256) : (UInt8.ofNat n).toNat = n := by
  rw [UInt8.toNat_ofNat', Nat.mod_eq_of_lt h]

theorem codePoint_val (c : CodePoint) : codePoint c.val = c :=
  Fin.ext (Nat.mod_eq_of_lt c.isLt)

@[simp] theorem codePoint_toNat {n : Nat} (h : n < 0x110000) : (codePoint n).val = n :=
  Nat.mod_eq_of_lt h

theorem isSurrogate_false {c : CodePoint} (h : isSurrogate c = false) :
    c.val < 0xD800 ∨ 0xDFFF < c.val := by
  simp only [isSurrogate, Bool.and_eq_false_iff, decide_eq_false_iff_not, not_le] at h
  exact h

/-- One encoded code point is read back, whatever follows. -/
theorem decodeUtf8_units {c : CodePoint} (hc : isSurrogate c = false) (l : Bytes) :
    decodeUtf8 ((utf8Units c.val).map UInt8.ofNat ++ l) = (decodeUtf8 l).map (c :: ·) := by
  have hlt := c.isLt
  have hs := isSurrogate_false hc
  have hcp : ∀ n, n = c.val → codePoint n = c := fun n hn => by rw [hn, codePoint_val]
  unfold utf8Units
  split_ifs with h1 h2 h3
  · simp only [List.map_cons, List.map_nil, List.cons_append, List.nil_append]
    have ha : (UInt8.ofNat c.val).toNat = c.val := toNat_ofNat (by omega)
    rw [decodeUtf8.eq_def]
    simp only [ha]
    rw [if_pos h1, codePoint_val]
  · have ha : (UInt8.ofNat (0xC0 + c.val / 64)).toNat = 0xC0 + c.val / 64 := toNat_ofNat (by omega)
    have hb : (UInt8.ofNat (0x80 + c.val % 64)).toNat = 0x80 + c.val % 64 := toNat_ofNat (by omega)
    simp only [List.map_cons, List.map_nil, List.cons_append, List.nil_append]
    rw [decodeUtf8.eq_def]
    simp only
    rw [if_neg (by omega),
      if_pos (by simp only [isTwo, isTail, ha, hb, Bool.and_eq_true, decide_eq_true_eq]; omega),
      ha, hb, hcp _ (by omega)]
  · have ha : (UInt8.ofNat (0xE0 + c.val / 4096)).toNat = 0xE0 + c.val / 4096 :=
      toNat_ofNat (by omega)
    have hb : (UInt8.ofNat (0x80 + c.val / 64 % 64)).toNat = 0x80 + c.val / 64 % 64 :=
      toNat_ofNat (by omega)
    have hd : (UInt8.ofNat (0x80 + c.val % 64)).toNat = 0x80 + c.val % 64 := toNat_ofNat (by omega)
    simp only [List.map_cons, List.map_nil, List.cons_append, List.nil_append]
    rw [decodeUtf8.eq_def]
    simp only
    rw [if_neg (by omega),
      if_neg (by simp only [isTwo, ha, Bool.and_eq_true, decide_eq_true_eq]; omega),
      if_pos (by
        simp only [isThree, isTail, ha, hb, hd, Bool.and_eq_true, decide_eq_true_eq,
          Bool.not_eq_true', Bool.and_eq_false_iff, decide_eq_false_iff_not, beq_eq_false_iff_ne]
        omega),
      ha, hb, hd, hcp _ (by omega)]
  · have ha : (UInt8.ofNat (0xF0 + c.val / 262144)).toNat = 0xF0 + c.val / 262144 :=
      toNat_ofNat (by omega)
    have hb : (UInt8.ofNat (0x80 + c.val / 4096 % 64)).toNat = 0x80 + c.val / 4096 % 64 :=
      toNat_ofNat (by omega)
    have hd : (UInt8.ofNat (0x80 + c.val / 64 % 64)).toNat = 0x80 + c.val / 64 % 64 :=
      toNat_ofNat (by omega)
    have he : (UInt8.ofNat (0x80 + c.val % 64)).toNat = 0x80 + c.val % 64 := toNat_ofNat (by omega)
    simp only [List.map_cons, List.map_nil, List.cons_append, List.nil_append]
    rw [decodeUtf8.eq_def]
    simp only
    rw [if_neg (by omega),
      if_neg (by simp only [isTwo, ha, Bool.and_eq_true, decide_eq_true_eq]; omega),
      if_neg (by simp only [isThree, ha, Bool.and_eq_true, decide_eq_true_eq]; omega),
      if_pos (by
        simp only [isFour, isTail, ha, hb, hd, he, Bool.and_eq_true, decide_eq_true_eq,
          Bool.not_eq_true', Bool.and_eq_false_iff, decide_eq_false_iff_not, beq_eq_false_iff_ne]
        omega),
      ha, hb, hd, he, hcp _ (by omega)]

/-- **Decoding inverts encoding.** -/
theorem decodeUtf8_encodeUtf8 : ∀ {s : Str} {b : Bytes}, encodeUtf8 s = some b →
    decodeUtf8 b = some s
  | [], b, h => by
    obtain rfl := Option.some.inj h
    rfl
  | c :: s, b, h => by
    rw [encodeUtf8] at h
    split_ifs at h with hc
    obtain ⟨b', hb', rfl⟩ := Option.map_eq_some_iff.mp h
    rw [decodeUtf8_units (by simpa using hc), decodeUtf8_encodeUtf8 hb']
    rfl

/-- Two strings with one encoding are equal. -/
theorem encodeUtf8_inj {s t : Str} {b : Bytes} (hs : encodeUtf8 s = some b)
    (ht : encodeUtf8 t = some b) : s = t :=
  Option.some.inj ((decodeUtf8_encodeUtf8 hs).symm.trans (decodeUtf8_encodeUtf8 ht))

/-- `str.encode("utf-8")` succeeds exactly on the strings without surrogates. -/
theorem encodeUtf8_isSome {s : Str} : (encodeUtf8 s).isSome = true ↔ NoSurrogates s := by
  induction s with
  | nil => simp [encodeUtf8, NoSurrogates]
  | cons c s ih =>
    rw [encodeUtf8, NoSurrogates, List.forall_mem_cons]
    by_cases hc : isSurrogate c = true
    · simp [hc]
    · rw [if_neg hc, Option.isSome_map, ih]
      simp [hc, NoSurrogates]

theorem noSurrogates_of_encodeUtf8 {s : Str} {b : Bytes} (h : encodeUtf8 s = some b) :
    NoSurrogates s :=
  encodeUtf8_isSome.mp (by rw [h]; rfl)

theorem encodeAscii_eq_some : ∀ {s : Str} {b : Bytes}, encodeAscii s = some b →
    (∀ c ∈ s, c.val < 0x80) ∧ b.length = s.length
  | [], b, h => by
    obtain rfl := Option.some.inj h
    exact ⟨fun _ hc => absurd hc List.not_mem_nil, rfl⟩
  | c :: s, b, h => by
    rw [encodeAscii] at h
    split_ifs at h with hc
    obtain ⟨b', hb', rfl⟩ := Option.map_eq_some_iff.mp h
    obtain ⟨hs, hl⟩ := encodeAscii_eq_some hb'
    exact ⟨List.forall_mem_cons.mpr ⟨hc, hs⟩, by simp [hl]⟩

/-- An ASCII string is accepted by `str.encode("ascii")`. -/
theorem encodeAscii_of_ascii : ∀ {s : Str}, (∀ c ∈ s, c.val < 0x80) →
    ∃ b, encodeAscii s = some b ∧ b.length = s.length
  | [], _ => ⟨[], rfl, rfl⟩
  | c :: s, h => by
    obtain ⟨b, hb, hl⟩ := encodeAscii_of_ascii fun d hd => h d (List.mem_cons_of_mem c hd)
    refine ⟨UInt8.ofNat c.val :: b, ?_, by simp [hl]⟩
    rw [encodeAscii, if_pos (h c List.mem_cons_self), hb]
    rfl

/-! ## Whitespace and printability -/

/-- `str.isspace` of one code point. -/
def isSpace (c : CodePoint) : Bool :=
  (0x09 ≤ c.val && c.val ≤ 0x0D) || (0x1C ≤ c.val && c.val ≤ 0x20) || c.val == 0x85 ||
    c.val == 0xA0 || c.val == 0x1680 || (0x2000 ≤ c.val && c.val ≤ 0x200A) || c.val == 0x2028 ||
    c.val == 0x2029 || c.val == 0x202F || c.val == 0x205F || c.val == 0x3000

/-- `str.strip()`. -/
def strip (s : Str) : Str := ((s.dropWhile isSpace).reverse.dropWhile isSpace).reverse

/-- The part of the interpreter's Unicode database the library reads. -/
class UnicodeData where
  /-- Whether `str.isprintable` accepts the code point. -/
  printable : CodePoint → Bool
  /-- The printable ASCII code points are space to tilde. -/
  printable_ascii : ∀ c : CodePoint, c.val < 0x80 →
    printable c = decide (0x20 ≤ c.val ∧ c.val < 0x7F)

/-- `str.isprintable()`. -/
def isPrintable [UnicodeData] (s : Str) : Bool := s.all UnicodeData.printable

theorem not_control_of_printable [UnicodeData] {s : Str} (h : isPrintable s = true)
    {c : CodePoint} (hc : c ∈ s) : 0x20 ≤ c.val ∧ c.val ≠ 0x7F := by
  have hp := List.all_eq_true.mp h c hc
  by_cases hlt : c.val < 0x80
  · rw [UnicodeData.printable_ascii c hlt, decide_eq_true_eq] at hp
    omega
  · omega

/-- The number of bytes of an encoded code point. -/
def utf8Width (c : CodePoint) : Nat := (utf8Units c.val).length

theorem utf8Width_eq (c : CodePoint) : utf8Width c =
    if c.val < 0x80 then 1 else if c.val < 0x800 then 2 else if c.val < 0x10000 then 3 else 4 := by
  unfold utf8Width utf8Units
  split_ifs <;> rfl

theorem encodeUtf8_length : ∀ {s : Str} {b : Bytes}, encodeUtf8 s = some b →
    b.length = (s.map utf8Width).sum
  | [], b, h => by
    obtain rfl := Option.some.inj h
    rfl
  | c :: s, b, h => by
    rw [encodeUtf8] at h
    split_ifs at h with hc
    obtain ⟨b', hb', rfl⟩ := Option.map_eq_some_iff.mp h
    rw [List.map_cons, List.sum_cons, ← encodeUtf8_length hb', List.length_append, List.length_map]
    rfl

/-- The encoding of a text that can be encoded. -/
def utf8 (text : Str) : Bytes := (encodeUtf8 text).getD []

theorem encode_utf8 {text : Str} (h : (encodeUtf8 text).isSome = true) :
    encodeUtf8 text = some (utf8 text) := by
  obtain ⟨data, hdata⟩ := Option.isSome_iff_exists.mp h
  rw [utf8, hdata]
  rfl

theorem utf8_inj {s t : Str} (hs : (encodeUtf8 s).isSome = true)
    (ht : (encodeUtf8 t).isSome = true) (h : utf8 s = utf8 t) : s = t :=
  encodeUtf8_inj (encode_utf8 hs) (h ▸ encode_utf8 ht)

end Python
