import CypherSyntax.Python.Text
import Mathlib.Data.Nat.Digits.Lemmas

/-!
# Numerals: hexadecimal, decimal and big-endian

* `hex` and `fromhex` are `bytes.hex` and `bytes.fromhex`. `fromhex` accepts both letter cases and
  skips ASCII whitespace between pairs, so it inverts `hex` without being injective.
* `natText` and `intText` are the decimal text of an `int`, `decimalValue` reads digits back.
* `toBytesBig k n` is `n.to_bytes(k, "big")`, `none` for the `OverflowError` of a number that does
  not fit.

Results: `fromhex_hex`, `fromhex_lower` (canonical lower-case text of even length always
converts), `decimalValue_natText`, `beBytes_inj`.
-/

namespace Python

/-! ## Hexadecimal -/

/-- The digit of a number below 16, lower case. -/
def digitOf (n : Nat) : CodePoint := codePoint (if n < 10 then 0x30 + n else 0x57 + n)

/-- `bytes.hex()`. -/
def hex (b : Bytes) : Str := b.flatMap fun x => [digitOf (x.toNat / 16), digitOf (x.toNat % 16)]

def isDigit (c : CodePoint) : Bool := 0x30 ≤ c.val && c.val ≤ 0x39

/-- The characters of `"0123456789abcdef"`. -/
def isLowerHex (c : CodePoint) : Bool := isDigit c || (0x61 ≤ c.val && c.val ≤ 0x66)

/-- The value of a hexadecimal digit of either case. -/
def hexValue (c : CodePoint) : Option Nat :=
  if isDigit c then some (c.val - 0x30)
  else if 0x61 ≤ c.val ∧ c.val ≤ 0x66 then some (c.val - 0x57)
  else if 0x41 ≤ c.val ∧ c.val ≤ 0x46 then some (c.val - 0x37)
  else none

def isAsciiSpace (c : CodePoint) : Bool := (0x09 ≤ c.val && c.val ≤ 0x0D) || c.val == 0x20

/-- `bytes.fromhex`: `none` for `ValueError`. -/
def fromhex : Str → Option Bytes
  | [] => some []
  | [c] => if isAsciiSpace c then some [] else none
  | c :: d :: s =>
    if isAsciiSpace c then fromhex (d :: s)
    else match hexValue c, hexValue d with
      | some x, some y => (fromhex s).map (UInt8.ofNat (16 * x + y) :: ·)
      | _, _ => none

theorem digitOf_val {n : Nat} (h : n < 16) :
    (digitOf n).val = if n < 10 then 0x30 + n else 0x57 + n :=
  codePoint_toNat (by split <;> omega)

theorem isLowerHex_digitOf {n : Nat} (h : n < 16) : isLowerHex (digitOf n) = true := by
  have hv := digitOf_val h
  simp only [isLowerHex, isDigit, Bool.or_eq_true, Bool.and_eq_true, decide_eq_true_eq]
  split at hv <;> omega

theorem hexValue_digitOf {n : Nat} (h : n < 16) : hexValue (digitOf n) = some n := by
  have hv := digitOf_val h
  unfold hexValue isDigit
  split at hv
  · rw [if_pos (by simp only [Bool.and_eq_true, decide_eq_true_eq]; omega)]
    congr 1
    omega
  · rw [if_neg (by simp only [Bool.and_eq_true, decide_eq_true_eq]; omega), if_pos (by omega)]
    congr 1
    omega

theorem not_space_of_lowerHex {c : CodePoint} (h : isLowerHex c = true) :
    isAsciiSpace c = false := by
  simp only [isLowerHex, isDigit, Bool.or_eq_true, Bool.and_eq_true, decide_eq_true_eq] at h
  simp only [isAsciiSpace, Bool.or_eq_false_iff, Bool.and_eq_false_iff, decide_eq_false_iff_not,
    beq_eq_false_iff_ne]
  omega

theorem hexValue_of_lowerHex {c : CodePoint} (h : isLowerHex c = true) :
    ∃ n, hexValue c = some n := by
  unfold hexValue
  by_cases hd : isDigit c = true
  · exact ⟨_, if_pos hd⟩
  · rw [if_neg hd]
    simp only [isLowerHex, Bool.or_eq_true, hd, Bool.false_eq_true, false_or, Bool.and_eq_true,
      decide_eq_true_eq] at h
    exact ⟨_, if_pos h⟩

@[simp] theorem hex_nil : hex [] = [] := rfl

theorem hex_cons (x : UInt8) (b : Bytes) :
    hex (x :: b) = digitOf (x.toNat / 16) :: digitOf (x.toNat % 16) :: hex b := rfl

@[simp] theorem hex_length (b : Bytes) : (hex b).length = 2 * b.length := by
  induction b with
  | nil => rfl
  | cons x b ih =>
    rw [hex_cons, List.length_cons, List.length_cons, ih, List.length_cons]
    omega

theorem hex_lower (b : Bytes) : ∀ c ∈ hex b, isLowerHex c = true := by
  intro c hc
  simp only [hex, List.mem_flatMap, List.mem_cons, List.not_mem_nil, or_false] at hc
  obtain ⟨x, -, rfl | rfl⟩ := hc
  · have := x.toNat_lt
    exact isLowerHex_digitOf (by omega)
  · exact isLowerHex_digitOf (Nat.mod_lt _ (by omega))

/-- **`bytes.fromhex` inverts `bytes.hex`.** -/
theorem fromhex_hex (b : Bytes) : fromhex (hex b) = some b := by
  induction b with
  | nil => rfl
  | cons x b ih =>
    have hx := x.toNat_lt
    have h1 : x.toNat / 16 < 16 := by omega
    have h2 : x.toNat % 16 < 16 := Nat.mod_lt _ (by omega)
    rw [hex_cons, fromhex, not_space_of_lowerHex (isLowerHex_digitOf h1), hexValue_digitOf h1,
      hexValue_digitOf h2, ih]
    simp only [Bool.false_eq_true, if_false, Option.map_some]
    rw [show 16 * (x.toNat / 16) + x.toNat % 16 = x.toNat by omega, UInt8.ofNat_toNat]

/-- Lower-case hexadecimal text of even length always converts, to half as many bytes. -/
theorem fromhex_lower : ∀ {s : Str} {n : Nat}, s.length = 2 * n → (∀ c ∈ s, isLowerHex c = true) →
    ∃ b, fromhex s = some b ∧ b.length = n
  | [], n, hl, _ => ⟨[], rfl, by simp only [List.length_nil] at hl ⊢; omega⟩
  | [c], n, hl, _ => by simp only [List.length_cons, List.length_nil] at hl; omega
  | c :: d :: s, n, hl, h => by
    simp only [List.length_cons] at hl
    obtain ⟨b, hb, hbl⟩ := fromhex_lower (s := s) (n := n - 1) (by omega) fun e he =>
      h e (List.mem_cons_of_mem c (List.mem_cons_of_mem d he))
    obtain ⟨x, hx⟩ := hexValue_of_lowerHex (h c List.mem_cons_self)
    obtain ⟨y, hy⟩ := hexValue_of_lowerHex (h d (List.mem_cons_of_mem c List.mem_cons_self))
    refine ⟨UInt8.ofNat (16 * x + y) :: b, ?_, by rw [List.length_cons, hbl]; omega⟩
    rw [fromhex, not_space_of_lowerHex (h c List.mem_cons_self), hx, hy, hb]
    rfl

/-! ## Decimal -/

/-- The decimal text of a natural number. -/
def natText (n : Nat) : Str := if n = 0 then [0x30] else ((Nat.digits 10 n).map digitOf).reverse

/-- `str` of an `int`. -/
def intText : Int → Str
  | .ofNat n => natText n
  | .negSucc n => 0x2D :: natText (n + 1)

/-- The value of a digit string, read from the last digit on. -/
def decimalValue (s : Str) : Nat := Nat.ofDigits 10 (s.reverse.map fun c => c.val - 0x30)

theorem isDigit_digitOf {n : Nat} (h : n < 10) : isDigit (digitOf n) = true := by
  have hv := digitOf_val (show n < 16 by omega)
  rw [if_pos h] at hv
  simp only [isDigit, Bool.and_eq_true, decide_eq_true_eq]
  omega

theorem natText_digits (n : Nat) : ∀ c ∈ natText n, isDigit c = true := by
  intro c hc
  unfold natText at hc
  split at hc
  · rw [List.mem_singleton.mp hc]
    rfl
  · rw [List.mem_reverse] at hc
    obtain ⟨d, hd, rfl⟩ := List.mem_map.mp hc
    exact isDigit_digitOf (Nat.digits_lt_base (by omega) hd)

theorem natText_ne_nil (n : Nat) : natText n ≠ [] := by
  unfold natText
  split
  · exact List.cons_ne_nil _ _
  · rename_i h
    simpa [Nat.digits_eq_nil_iff_eq_zero] using h

/-- **Reading the decimal text of a number gives the number.** -/
theorem decimalValue_natText (n : Nat) : decimalValue (natText n) = n := by
  unfold natText
  split
  · rename_i h
    subst h
    rfl
  · unfold decimalValue
    rw [List.reverse_reverse, List.map_map]
    have hmap : (Nat.digits 10 n).map ((fun c : CodePoint => c.val - 0x30) ∘ digitOf)
        = Nat.digits 10 n := by
      refine List.map_congr_left (g := id) (fun d hd => ?_) |>.trans (List.map_id _)
      have hlt : d < 10 := Nat.digits_lt_base (by omega) hd
      rw [Function.comp_apply, digitOf_val (by omega), if_pos hlt, id]
      omega
    rw [hmap, Nat.ofDigits_digits]

/-- A text of more than one digit does not start with `0`. -/
theorem natText_head {n : Nat} {c : CodePoint} {s : Str} (h : natText n = c :: s) :
    (c = 0x30 ∧ s = []) ∨ 0x31 ≤ c.val := by
  unfold natText at h
  split at h
  · obtain ⟨rfl, rfl⟩ := List.cons.inj h
    exact Or.inl ⟨rfl, rfl⟩
  · rename_i hn
    right
    have hlast := Nat.getLast_digit_ne_zero 10 hn
    have hne : Nat.digits 10 n ≠ [] := Nat.digits_ne_nil_iff_ne_zero.mpr hn
    obtain ⟨ds, d, hds⟩ := (List.eq_nil_or_concat (Nat.digits 10 n)).resolve_left hne
    rw [List.concat_eq_append] at hds
    rw [hds, List.map_append, List.reverse_append] at h
    have hc : digitOf d = c := (List.cons.inj h).1
    have hd : d < 10 := Nat.digits_lt_base (b := 10) (m := n) (by omega) (by rw [hds]; simp)
    have h0 : d ≠ 0 := by simpa [hds] using hlast
    rw [← hc, digitOf_val (by omega), if_pos hd]
    omega

theorem natText_length_le {n k : Nat} (hk : 0 < k) (h : n < 10 ^ k) : (natText n).length ≤ k := by
  unfold natText
  split
  · exact hk
  · rw [List.length_reverse, List.length_map]
    exact (Nat.digits_length_le_iff (by omega) n).mpr h

theorem isDigit_ascii {c : CodePoint} (h : isDigit c = true) : c.val < 0x80 := by
  simp only [isDigit, Bool.and_eq_true, decide_eq_true_eq] at h
  omega

theorem isLowerHex_ascii {c : CodePoint} (h : isLowerHex c = true) : c.val < 0x80 := by
  simp only [isLowerHex, isDigit, Bool.or_eq_true, Bool.and_eq_true, decide_eq_true_eq] at h
  omega

/-! ## Big-endian -/

/-- The low `k` bytes of `n`, most significant first. -/
def beBytes : Nat → Nat → Bytes
  | 0, _ => []
  | k + 1, n => beBytes k (n / 256) ++ [UInt8.ofNat n]

/-- `n.to_bytes(k, "big")`. -/
def toBytesBig (k n : Nat) : Option Bytes := if n < 256 ^ k then some (beBytes k n) else none

@[simp] theorem beBytes_length (k n : Nat) : (beBytes k n).length = k := by
  induction k generalizing n with
  | zero => rfl
  | succ k ih => rw [beBytes, List.length_append, ih, List.length_singleton]

theorem beBytes_inj {k m n : Nat} (hm : m < 256 ^ k) (hn : n < 256 ^ k)
    (h : beBytes k m = beBytes k n) : m = n := by
  induction k generalizing m n with
  | zero => rw [pow_zero] at hm hn; omega
  | succ k ih =>
    rw [beBytes, beBytes] at h
    obtain ⟨hhi, hlo⟩ := List.append_inj' h rfl
    have hq : m / 256 = n / 256 :=
      ih (Nat.div_lt_of_lt_mul (by rw [pow_succ] at hm; omega))
        (Nat.div_lt_of_lt_mul (by rw [pow_succ] at hn; omega)) hhi
    have hr : m % 256 = n % 256 := by
      have := congrArg UInt8.toNat (List.singleton_inj.mp hlo)
      rwa [UInt8.toNat_ofNat', UInt8.toNat_ofNat'] at this
    omega

end Python
