import CypherSyntax.Python.Json.Loads

/-!
# `json.loads` inverts `json.dumps`

On a tree of string-keyed dictionaries, lists, strings, numbers, booleans and `None`, reading the
text that `dumps` writes gives the tree back, with the items of every dictionary in sorted order
(`loads_dumps`). Each piece of the encoder is read back by one piece of the scanner, whatever text
follows it: `scanString_encode`, `scanNumber_form`, then `scans_dumps` by induction over the
tree. The scanner never runs out of `fuel`, which the length of the text covers.

With `ensure_ascii` a high surrogate followed by a low one is written as two escapes, which read
back as one code point, so there the strings must be free of surrogates (`Readable`).
-/

namespace Python.Json

variable {κ : Type}

/-! ## Strings -/

theorem hexValue_hex4 (n : Nat) :
    readHex4 (digitOf (n / 4096 % 16)) (digitOf (n / 256 % 16)) (digitOf (n / 16 % 16))
      (digitOf (n % 16)) = some (n % 65536) := by
  have hlt : ∀ m, m % 16 < 16 := fun m => Nat.mod_lt m (by omega)
  unfold readHex4
  rw [hexValue_digitOf (hlt _), hexValue_digitOf (hlt _), hexValue_digitOf (hlt _),
    hexValue_digitOf (hlt _)]
  simp only
  congr 1
  omega

/-- An escape is read by `joinEscape`. -/
theorem scanString_unicode (pending : Option Nat) {n : Nat} (hn : n < 65536) (t : Str) :
    scanString (κ := κ) pending (unicodeEscape n ++ t) =
      (scanString (joinEscape pending n).2 t).map
        fun p => ((joinEscape pending n).1 ++ p.1, p.2) := by
  unfold unicodeEscape hex4
  simp only [List.cons_append, List.nil_append]
  rw [scanString.eq_def]
  simp only [hexValue_hex4]
  rw [if_neg (by decide), if_neg (by decide), if_neg (by simp), if_neg (by simp),
    Nat.mod_eq_of_lt hn]
  rfl

/-- An escape outside the surrogates is its code point. -/
theorem scanString_unicode_plain {c : CodePoint} (hc : isSurrogate c = false)
    (hlt : c.val < 65536) (t : Str) :
    scanString (κ := κ) none (unicodeEscape c.val ++ t) =
      (scanString none t).map fun p => (c :: p.1, p.2) := by
  have hs := isSurrogate_false hc
  rw [scanString_unicode none hlt, joinEscape,
    if_neg (by simp only [isHighSurrogate, Bool.and_eq_true, decide_eq_true_eq]; omega),
    codePoint_val]
  rfl

/-- A surrogate pair of escapes is one code point. -/
theorem scanString_unicode_pair {c : CodePoint} (hc : 65536 ≤ c.val) (t : Str) :
    scanString (κ := κ) none (unicodeEscape (0xD800 + (c.val - 0x10000) / 0x400) ++
        (unicodeEscape (0xDC00 + (c.val - 0x10000) % 0x400) ++ t)) =
      (scanString none t).map fun p => (c :: p.1, p.2) := by
  have hlt := c.isLt
  have hhigh : isHighSurrogate (0xD800 + (c.val - 0x10000) / 0x400) = true := by
    simp only [isHighSurrogate, Bool.and_eq_true, decide_eq_true_eq]
    omega
  have hlow : isLowSurrogate (0xDC00 + (c.val - 0x10000) % 0x400) = true := by
    simp only [isLowSurrogate, Bool.and_eq_true, decide_eq_true_eq]
    omega
  have hjoin : 0x10000 + (0xD800 + (c.val - 0x10000) / 0x400 - 0xD800) * 0x400 +
      (0xDC00 + (c.val - 0x10000) % 0x400 - 0xDC00) = c.val := by omega
  rw [scanString_unicode none (by omega), joinEscape]
  simp only [hhigh, if_true]
  rw [scanString_unicode _ (by omega), joinEscape]
  simp only [hlow, if_true, hjoin, codePoint_val, List.nil_append]
  cases scanString (κ := κ) none t <;> rfl

theorem scanString_short {c e : CodePoint} (h : shortEscape c = some e) (t : Str) :
    scanString (κ := κ) none (0x5C :: e :: t) =
      (scanString none t).map fun p => (c :: p.1, p.2) := by
  have he : e ≠ 0x75 ∧ unescape e = some c := by
    unfold shortEscape at h
    split_ifs at h with h1 h2 h3 h4 h5 h6 h7 <;> obtain rfl := Option.some.inj h <;> subst c <;>
      decide
  rw [scanString.eq_def]
  simp only [he.2]
  rw [if_neg (by decide), if_neg (by decide), if_neg (by simp), if_pos he.1]
  rfl

theorem shortEscape_none {c : CodePoint} (h : shortEscape c = none) : c ≠ 0x22 ∧ c ≠ 0x5C := by
  constructor <;> rintro rfl <;> exact absurd h (by decide)

/-- One encoded code point is read back, whatever follows. -/
theorem scanString_escape {ea : Bool} {c : CodePoint} (h : ea = true → isSurrogate c = false)
    (t : Str) : scanString (κ := κ) none (escape ea c ++ t) =
      (scanString none t).map fun p => (c :: p.1, p.2) := by
  unfold escape
  cases hs : shortEscape c with
  | some e =>
    simp only [List.cons_append, List.nil_append]
    exact scanString_short hs t
  | none =>
    obtain ⟨hq, hb⟩ := shortEscape_none hs
    simp only
    split_ifs with h1 h2 h3
    · exact scanString_unicode_plain
        (by simp only [isSurrogate, Bool.and_eq_false_iff, decide_eq_false_iff_not]; omega)
        (by omega) t
    · simp only [Bool.and_eq_true, decide_eq_true_eq] at h2
      exact scanString_unicode_plain (h h2.1) h3 t
    · rw [List.append_assoc]
      exact scanString_unicode_pair (by omega) t
    · rw [List.cons_append, List.nil_append, scanString.eq_def]
      simp only
      rw [if_neg hq, if_neg h1, if_pos hb]
      rfl

/-- **`scanstring` reads back an encoded string**, up to its closing quote. -/
theorem scanString_encode {ea : Bool} {s : Str} (h : ea = true → NoSurrogates s) (t : Str) :
    scanString (κ := κ) none (s.flatMap (escape ea) ++ 0x22 :: t) = .ok (s, t) := by
  induction s with
  | nil =>
    rw [List.flatMap_nil, List.nil_append, scanString.eq_def]
    rfl
  | cons c s ih =>
    have hc : ea = true → isSurrogate c = false := fun he => h he c List.mem_cons_self
    rw [List.flatMap_cons, List.append_assoc, scanString_escape hc,
      ih fun he d hd => h he d (List.mem_cons_of_mem c hd)]
    rfl

/-! ## Numbers -/

/-- The text ends, or goes on with a character that cannot continue a number. -/
def Delimited (t : Str) : Prop :=
  t = [] ∨ ∃ c s, t = c :: s ∧ (c = 0x2C ∨ c = 0x5D ∨ c = 0x7D)

theorem takeWhile_digits {ds t : Str} (hd : ∀ c ∈ ds, isDigit c = true)
    (ht : ∀ c s, t = c :: s → isDigit c = false) :
    (ds ++ t).takeWhile isDigit = ds ∧ (ds ++ t).dropWhile isDigit = t := by
  induction ds with
  | nil =>
    cases t with
    | nil => exact ⟨rfl, rfl⟩
    | cons c s =>
      have := ht c s rfl
      simp [this]
  | cons d ds ih =>
    have h1 := hd d List.mem_cons_self
    obtain ⟨i1, i2⟩ := ih fun c hc => hd c (List.mem_cons_of_mem d hc)
    simp [h1, i1, i2]

/-- What may follow the integer part: nothing that its pattern would take. -/
theorem scanInteger_form {i t : Str} (hi : IntegerForm i)
    (ht : ∀ c s, t = c :: s → isDigit c = false) : scanInteger (i ++ t) = some (i, t) := by
  obtain ⟨sign, digits, rfl, hsign, hdigits⟩ := hi
  have hscan : scanDigits (digits ++ t) = some (digits, t) := by
    rcases hdigits with rfl | ⟨d, ds, rfl, hd, hd0, hds⟩
    · rfl
    · obtain ⟨h1, h2⟩ := takeWhile_digits hds ht
      rw [List.cons_append, scanDigits, if_neg hd0, if_pos hd, h1, h2]
  have hne : ∀ c s, digits ++ t = c :: s → c ≠ 0x2D := by
    rintro c s h rfl
    rcases hdigits with rfl | ⟨d, ds, rfl, hd, -, -⟩
    · exact absurd (List.cons.inj h).1 (by decide)
    · rw [(List.cons.inj h).1] at hd
      exact absurd hd (by decide)
  rcases hsign with rfl | rfl
  · rw [List.nil_append]
    cases hdt : digits ++ t with
    | nil => rw [hdt] at hscan; exact absurd hscan (by simp [scanDigits])
    | cons c s => rw [scanInteger, if_neg (hne c s hdt), ← hdt, hscan]
  · rw [List.append_assoc, List.cons_append, List.nil_append, scanInteger, if_pos rfl, hscan]
    rfl

theorem scanFraction_form {f t : Str} (hf : f = [] ∨ FractionForm f)
    (ht : ∀ c s, t = c :: s → isDigit c = false ∧ c ≠ 0x2E) : scanFraction (f ++ t) = (f, t) := by
  rcases hf with rfl | ⟨d, ds, rfl, hd, hds⟩
  · rw [List.nil_append]
    match t, ht with
    | [], _ => rfl
    | [_], _ => rfl
    | c :: d :: s, ht => rw [scanFraction, if_neg fun h => (ht c (d :: s) rfl).2 h.1]
  · obtain ⟨h1, h2⟩ := takeWhile_digits hds fun c s h => (ht c s h).1
    rw [List.cons_append, List.cons_append, scanFraction, if_pos ⟨rfl, hd⟩, h1, h2]

theorem scanExponent_form {e t : Str} (he : e = [] ∨ ExponentForm e)
    (ht : ∀ c s, t = c :: s → isDigit c = false ∧ c ≠ 0x65 ∧ c ≠ 0x45) :
    scanExponent (e ++ t) = (e, t) := by
  rcases he with rfl | ⟨x, sign, d, ds, rfl, hx, hsign, hd, hds⟩
  · rw [List.nil_append]
    match t, ht with
    | [], _ => rfl
    | [_], _ => rfl
    | c :: d :: s, ht =>
      have := (ht c (d :: s) rfl).2
      rw [scanExponent.eq_def]
      simp only
      rw [if_neg (by tauto)]
  · obtain ⟨h1, h2⟩ := takeWhile_digits hds fun c s h => (ht c s h).1
    rcases hsign with rfl | rfl | rfl <;>
      simp only [List.cons_append, List.nil_append] <;> rw [scanExponent.eq_def] <;> simp only
    · rw [if_pos hx, if_pos hd, h1, h2]
    · rw [if_pos hx, if_neg (by decide), if_pos ⟨Or.inl trivial, hd⟩, h1, h2]
    · rw [if_pos hx, if_neg (by decide), if_pos ⟨Or.inr trivial, hd⟩, h1, h2]

theorem head_exponent {e t : Str} (he : e = [] ∨ ExponentForm e) (ht : Delimited t) :
    ∀ c s, e ++ t = c :: s → isDigit c = false ∧ c ≠ 0x2E := by
  intro c s h
  rcases he with rfl | ⟨x, sign, d, ds, rfl, hx, -⟩
  · rcases ht with rfl | ⟨c', s', rfl, hc⟩
    · exact absurd h (by simp)
    · obtain ⟨rfl, -⟩ := List.cons.inj h
      rcases hc with rfl | rfl | rfl <;> decide
  · obtain ⟨rfl, -⟩ := List.cons.inj h
    rcases hx with rfl | rfl <;> decide

theorem head_fraction {f e t : Str} (hf : f = [] ∨ FractionForm f) (he : e = [] ∨ ExponentForm e)
    (ht : Delimited t) : ∀ c s, f ++ (e ++ t) = c :: s → isDigit c = false := by
  intro c s h
  rcases hf with rfl | ⟨d, ds, rfl, -⟩
  · exact (head_exponent he ht c s h).1
  · obtain ⟨rfl, -⟩ := List.cons.inj h
    decide

/-- **A number is read back part by part.** -/
theorem scanNumber_form {i f e t : Str} (hi : IntegerForm i) (hf : f = [] ∨ FractionForm f)
    (he : e = [] ∨ ExponentForm e) (ht : Delimited t) :
    scanNumber (i ++ (f ++ (e ++ t))) = some (i, f, e, t) := by
  have hend : ∀ c s, t = c :: s → isDigit c = false ∧ c ≠ 0x65 ∧ c ≠ 0x45 := by
    rintro c s rfl
    rcases ht with ht | ⟨c', s', h, hc⟩
    · exact absurd ht (by simp)
    · obtain ⟨rfl, -⟩ := List.cons.inj h
      rcases hc with rfl | rfl | rfl <;> decide
  unfold scanNumber
  rw [scanInteger_form hi (head_fraction hf he ht)]
  simp only [Option.map_some]
  rw [scanFraction_form hf (head_exponent he ht), scanExponent_form he hend]

/-- A number starts with a digit or a minus sign. -/
theorem integerForm_head {i : Str} (hi : IntegerForm i) :
    ∃ c s, i = c :: s ∧ (isDigit c = true ∨ c = 0x2D) := by
  obtain ⟨sign, digits, rfl, rfl | rfl, hd⟩ := hi
  · rcases hd with rfl | ⟨d, ds, rfl, hd, -⟩
    · exact ⟨_, _, rfl, Or.inl (by decide)⟩
    · exact ⟨_, _, rfl, Or.inl hd⟩
  · exact ⟨_, _, rfl, Or.inr rfl⟩

theorem dropWord_none {w : CodePoint} {ws s : Str} {c : CodePoint} (h : w ≠ c) :
    dropWord (w :: ws) (c :: s) = none := by
  unfold dropWord
  rw [if_neg]
  simp [List.isPrefixOf, h]

theorem not_word_of_head {c : CodePoint} (h : isDigit c = true ∨ c = 0x2D) :
    (0x6E : CodePoint) ≠ c ∧ (0x74 : CodePoint) ≠ c ∧ (0x66 : CodePoint) ≠ c ∧ c ≠ 0x22 ∧
      c ≠ 0x7B ∧ c ≠ 0x5B := by
  refine ⟨?_, ?_, ?_, ?_, ?_, ?_⟩ <;> rintro rfl <;> revert h <;> decide

section Scanner

variable [Interpreter]

/-- A text that starts like a number is scanned as one. -/
theorem scanOnce_number (hooks : Hooks κ) {i f e t : Str} (hi : IntegerForm i)
    (hf : f = [] ∨ FractionForm f) (he : e = [] ∨ ExponentForm e) (ht : Delimited t)
    (fuel depth : Nat) :
    scanOnce hooks (fuel + 1) depth (i ++ (f ++ (e ++ t))) =
      (readNumber i f e).map fun v => some (v, t) := by
  have hnum := scanNumber_form hi hf he ht
  obtain ⟨c, s, rfl, hc⟩ := integerForm_head hi
  obtain ⟨h1, h2, h3, h4, h5, h6⟩ := not_word_of_head hc
  have hn : dropWord (lit "null") (c :: s ++ (f ++ (e ++ t))) = none := dropWord_none h1
  have htr : dropWord (lit "true") (c :: s ++ (f ++ (e ++ t))) = none := dropWord_none h2
  have hfa : dropWord (lit "false") (c :: s ++ (f ++ (e ++ t))) = none := dropWord_none h3
  rw [List.cons_append, scanOnce.eq_def]
  simp only
  rw [if_neg h4, if_neg h5, if_neg h6, ← List.cons_append, scanScalar, hn, htr, hfa, hnum]
  simp only
  cases readNumber (κ := κ) (c :: s) f e <;> rfl

/-- The decimal text of an `int` reads back as the `int`. -/
theorem readInt_intText {i : Int} (h : Interpreter.digitsAllowed (digitCount i) = true) :
    readInt (κ := κ) (intText i) = .ok (.int i) := by
  cases i with
  | ofNat n =>
    have hne : ((natText n).head? == some 0x2D) = false := by
      obtain ⟨c, s, hcs⟩ := List.exists_cons_of_ne_nil (natText_ne_nil n)
      have hc := natText_digits n c (by rw [hcs]; exact List.mem_cons_self)
      rw [hcs, List.head?_cons]
      simp only [Option.some_beq_some, beq_eq_false_iff_ne]
      rintro rfl
      exact absurd hc (by decide)
    have h' : Interpreter.digitsAllowed (natText n).length = true := h
    rw [intText, readInt]
    simp only [hne, Bool.false_eq_true, if_false, h', if_true, decimalValue_natText]
    rfl
  | negSucc n =>
    have h' : Interpreter.digitsAllowed (natText (n + 1)).length = true := h
    rw [intText, readInt]
    simp only [List.head?_cons, beq_self_eq_true, if_true, List.tail_cons, h',
      decimalValue_natText]
    rfl

/-! ## Values -/

mutual

/-- The values whose text reads back as the value: trees of string-keyed dictionaries with
distinct keys, lists, strings, finite numbers, booleans and `None`. -/
def Readable (ensureAscii : Bool) : Value → Prop
  | .none => True
  | .bool _ => True
  | .int _ => True
  | .float bits => isFinite bits = true
  | .str s => ensureAscii = true → NoSurrogates s
  | .bytes _ => False
  | .tuple _ => False
  | .list xs => readableList ensureAscii xs
  | .dict kvs => kvs.Pairwise (fun p q => p.1 ≠ q.1) ∧ readableItems ensureAscii kvs

def readableList (ensureAscii : Bool) : List Value → Prop
  | [] => True
  | x :: xs => Readable ensureAscii x ∧ readableList ensureAscii xs

def readableItems (ensureAscii : Bool) : List (Key × Value) → Prop
  | [] => True
  | (k, v) :: kvs => (∃ s, k = .str s ∧ (ensureAscii = true → NoSurrogates s)) ∧
      Readable ensureAscii v ∧ readableItems ensureAscii kvs

end

omit [Interpreter] in
theorem readableList_iff {ea : Bool} {xs : List Value} :
    readableList ea xs ↔ ∀ x ∈ xs, Readable ea x := by
  induction xs with
  | nil => simp [readableList]
  | cons x xs ih => rw [readableList, ih, List.forall_mem_cons]

omit [Interpreter] in
theorem readableItems_iff {ea : Bool} {kvs : List (Key × Value)} : readableItems ea kvs ↔
    ∀ kv ∈ kvs, (∃ s, kv.1 = .str s ∧ (ea = true → NoSurrogates s)) ∧ Readable ea kv.2 := by
  induction kvs with
  | nil => simp [readableItems]
  | cons kv kvs ih => rw [readableItems, ih, List.forall_mem_cons, and_assoc]

/-- The hook builds a dictionary from pairs with distinct keys. -/
def Hooks.Builds (hooks : Hooks κ) : Prop :=
  ∀ pairs : List (Str × Value), pairs.Pairwise (fun p q => p.1 ≠ q.1) →
    hooks.objectPairs pairs = .ok (.dict (pairs.map fun p => (.str p.1, p.2)))

/-- The scanner reads `v` from `text`, whatever delimiter follows, with at least `depth` nested
containers left and fuel for the length of the text. -/
structure Scans (hooks : Hooks κ) (depth : Nat) (text : Str) (v : Value) : Prop where
  head : ∃ c s, text = c :: s ∧ isJsonSpace c = false ∧ c ≠ 0x5D ∧ c ≠ 0xFEFF
  scan : ∀ fuel t, text.length ≤ fuel → Delimited t →
    scanOnce hooks fuel depth (text ++ t) = .ok (some (v, t))

omit [Interpreter] in
theorem skipSpace_cons {c : CodePoint} (h : isJsonSpace c = false) (s : Str) :
    skipSpace (c :: s) = c :: s := by
  rw [skipSpace, List.dropWhile_cons, if_neg (by rw [h]; exact Bool.false_ne_true)]

theorem Scans.skipSpace {hooks : Hooks κ} {depth : Nat} {text : Str} {v : Value}
    (h : Scans hooks depth text v) (t : Str) : skipSpace (text ++ t) = text ++ t := by
  obtain ⟨c, s, rfl, hc, -⟩ := h.head
  exact skipSpace_cons hc _

theorem Scans.length_pos {hooks : Hooks κ} {depth : Nat} {text : Str} {v : Value}
    (h : Scans hooks depth text v) : 0 < text.length := by
  obtain ⟨c, s, rfl, -⟩ := h.head
  exact Nat.succ_pos _

omit [Interpreter] in
theorem delimited_cons {c : CodePoint} (h : c = 0x2C ∨ c = 0x5D ∨ c = 0x7D) (t : Str) :
    Delimited (c :: t) :=
  Or.inr ⟨c, t, rfl, h⟩

/-! ### Scalars -/

theorem scans_word (hooks : Hooks κ) (depth : Nat) {w : Str} {v : Value}
    (hw : (w, v) ∈ [(lit "null", Value.none), (lit "true", .bool true),
      (lit "false", .bool false)]) : Scans hooks depth w v := by
  simp only [List.mem_cons, List.not_mem_nil, or_false, Prod.mk.injEq] at hw
  rcases hw with ⟨rfl, rfl⟩ | ⟨rfl, rfl⟩ | ⟨rfl, rfl⟩ <;>
    refine ⟨⟨_, _, rfl, by decide, by decide, by decide⟩, fun fuel t hf _ => ?_⟩ <;>
    cases fuel with
    | zero => exact absurd hf (by decide)
    | succ fuel => rfl

theorem scans_string (hooks : Hooks κ) (depth : Nat) {ea : Bool} {s : Str}
    (h : ea = true → NoSurrogates s) : Scans hooks depth (encodeString ea s) (.str s) := by
  refine ⟨⟨_, _, rfl, by decide, by decide, by decide⟩, fun fuel t hf _ => ?_⟩
  obtain ⟨fuel, rfl⟩ : ∃ n, fuel = n + 1 :=
    Nat.exists_eq_succ_of_ne_zero (by rintro rfl; simp [encodeString] at hf)
  rw [encodeString, List.cons_append, scanOnce.eq_def]
  simp only
  rw [if_pos trivial, List.append_assoc, List.cons_append, List.nil_append, scanString_encode h]
  rfl

theorem scans_number (hooks : Hooks κ) (depth : Nat) {i f e : Str} {v : Value}
    (hi : IntegerForm i) (hf : f = [] ∨ FractionForm f) (he : e = [] ∨ ExponentForm e)
    (hv : readNumber i f e = (.ok v : Except (Exc κ) Value)) :
    Scans hooks depth (i ++ (f ++ e)) v := by
  constructor
  · obtain ⟨c, s, rfl, hc⟩ := integerForm_head hi
    refine ⟨c, _, rfl, ?_, ?_, ?_⟩
    · rcases hc with hc | rfl
      · simp only [isDigit, Bool.and_eq_true, decide_eq_true_eq] at hc
        simp only [isJsonSpace, Bool.or_eq_false_iff, beq_eq_false_iff_ne]
        refine ⟨⟨⟨?_, ?_⟩, ?_⟩, ?_⟩ <;> rintro rfl <;> revert hc <;> decide
      · decide
    · rintro rfl
      revert hc
      decide
    · rintro rfl
      revert hc
      decide
  · intro fuel t hlen ht
    obtain ⟨fuel, rfl⟩ : ∃ n, fuel = n + 1 := Nat.exists_eq_succ_of_ne_zero (by
      rintro rfl
      obtain ⟨c, s, rfl, -⟩ := integerForm_head hi
      simp at hlen)
    rw [List.append_assoc, List.append_assoc, scanOnce_number hooks hi hf he ht, hv]
    rfl

theorem scans_int (hooks : Hooks κ) (depth : Nat) {i : Int} {s : Str}
    (h : encodeInt i = (.ok s : Except (Exc κ) Str)) : Scans hooks depth s (.int i) := by
  unfold encodeInt at h
  split at h
  · rename_i hd
    obtain rfl := Except.ok.inj h
    have := scans_number hooks depth (intText_form i) (Or.inl rfl) (Or.inl rfl)
      ((if_neg (by simp)).trans (readInt_intText hd))
    simpa using this
  · cases h

theorem scans_float (hooks : Hooks κ) (depth : Nat) {an : Bool} {bits : BitVec 64} {s : Str}
    (hfin : isFinite bits = true) (h : encodeFloat an bits = (.ok s : Except (Exc κ) Str)) :
    Scans hooks depth s (.float bits) := by
  unfold encodeFloat at h
  rw [if_pos hfin] at h
  obtain rfl := Except.ok.inj h
  obtain ⟨i, f, e, hs, hi, hf, he, hne⟩ := (Interpreter.floatRepr_form bits hfin).parts
  have hv : readNumber i f e = (.ok (.float bits) : Except (Exc κ) Value) := by
    rw [readNumber, if_pos hne, ← hs, Interpreter.floatOfText_repr bits hfin]
  rw [hs, List.append_assoc]
  exact scans_number hooks depth hi hf he hv

/-! ### Arrays -/

/-- The array loop reads the elements one by one: induction over them, each followed by a comma
or the closing bracket. -/
theorem scanElements_texts (hooks : Hooks κ) (depth : Nat) : ∀ {xs : List Value} {texts : List Str},
    List.Forall₂ (fun x text => Scans hooks depth text x) xs texts → xs ≠ [] → ∀ fuel t,
    (joinComma texts).length < fuel →
    scanElements hooks fuel depth (joinComma texts ++ 0x5D :: t) = .ok (xs, t)
  | _, _, .nil, hne, _, _, _ => absurd rfl hne
  | [x], [text], .cons hx .nil, _, fuel + 1, t, hf => by
    rw [joinComma] at hf ⊢
    rw [scanElements, hx.scan fuel _ (by omega) (delimited_cons (Or.inr (Or.inl rfl)) t)]
    rfl
  | x :: y :: xs, text :: text' :: texts, .cons hx (.cons hy hxs), _, fuel + 1, t, hf => by
    have hlen := hx.length_pos
    rw [joinComma, List.length_append, List.length_cons] at hf
    have ih := scanElements_texts hooks depth (.cons hy hxs) (List.cons_ne_nil _ _) fuel t
      (by omega)
    have hskip : skipSpace (joinComma (text' :: texts) ++ 0x5D :: t) =
        joinComma (text' :: texts) ++ 0x5D :: t := by
      obtain ⟨c, s, rfl, hc, -⟩ := hy.head
      cases texts <;> exact skipSpace_cons hc _
    rw [joinComma, List.append_assoc, List.cons_append, scanElements,
      hx.scan fuel _ (by omega) (delimited_cons (Or.inl rfl) _)]
    show (scanElements hooks fuel depth (skipSpace (joinComma (text' :: texts) ++ 0x5D :: t)) >>=
      _) = _
    rw [hskip, ih]
    rfl

theorem joinComma_head {hooks : Hooks κ} {depth : Nat} {x : Value} {text : Str}
    (h : Scans hooks depth text x) (texts : List Str) :
    ∃ c s, joinComma (text :: texts) = c :: s ∧ isJsonSpace c = false ∧ c ≠ 0x5D := by
  obtain ⟨c, s, rfl, hc, hc', -⟩ := h.head
  cases texts with
  | nil => exact ⟨c, s, rfl, hc, hc'⟩
  | cons t ts => exact ⟨c, _, rfl, hc, hc'⟩

theorem scans_list (hooks : Hooks κ) (depth : Nat) {xs : List Value} {texts : List Str}
    (h : List.Forall₂ (fun x text => Scans hooks depth text x) xs texts) :
    Scans hooks (depth + 1) (0x5B :: (joinComma texts ++ [0x5D])) (.list xs) := by
  refine ⟨⟨_, _, rfl, by decide, by decide, by decide⟩, fun fuel t hf _ => ?_⟩
  rw [List.length_cons, List.length_append, List.length_singleton] at hf
  obtain ⟨fuel, rfl⟩ : ∃ n, fuel = n + 1 := Nat.exists_eq_succ_of_ne_zero (by omega)
  rw [List.cons_append, List.append_assoc, List.cons_append, List.nil_append, scanOnce.eq_def]
  simp only
  rw [if_neg (by decide), if_neg (by decide), if_pos trivial]
  cases h with
  | nil => rfl
  | @cons x text xs texts hx hxs =>
    obtain ⟨c, s, hcs, hc, hc'⟩ := joinComma_head hx texts
    have hscan := scanElements_texts hooks depth (.cons hx hxs) (List.cons_ne_nil _ _) fuel t
      (by omega)
    rw [hcs, List.cons_append] at hscan ⊢
    rw [skipSpace_cons hc]
    simp only
    rw [if_neg hc', hscan]
    rfl

/-! ### Objects -/

/-- The text of a key, where it has one. -/
def Key.text : Key → Str
  | .str s => s
  | .int i => intText i
  | .float bits => Interpreter.floatRepr bits
  | .bool b => encodeBool b
  | .none => lit "null"

/-- An item's text: a quoted key, a colon and a value the scanner reads. -/
def ItemScans (hooks : Hooks κ) (ea : Bool) (depth : Nat) (kv : Key × Value) (text : Str) : Prop :=
  ∃ s body, kv.1 = .str s ∧ text = encodeString ea s ++ 0x3A :: body ∧
    (ea = true → NoSurrogates s) ∧ Scans hooks depth body kv.2

/-- The last item of the members loop. -/
theorem scanMembers_last (hooks : Hooks κ) {ea : Bool} {depth : Nat} {s body : Str} {v : Value}
    (hs : ea = true → NoSurrogates s) (hb : Scans hooks depth body v) {fuel : Nat}
    (hf : body.length ≤ fuel) (t : Str) :
    scanMembers hooks (fuel + 1) depth
      (s.flatMap (escape ea) ++ 0x22 :: 0x3A :: (body ++ 0x7D :: t)) = .ok ([(s, v)], t) := by
  rw [scanMembers, scanString_encode hs, ok_bind]
  simp only
  rw [skipSpace_cons (by decide)]
  simp only
  rw [if_neg (by simp), hb.skipSpace,
    hb.scan fuel _ hf (delimited_cons (Or.inr (Or.inr rfl)) t), ok_bind]
  simp only
  rw [skipSpace_cons (by decide)]
  rfl

/-- An item of the members loop with another one after it. -/
theorem scanMembers_more (hooks : Hooks κ) {ea : Bool} {depth : Nat} {s body : Str} {v : Value}
    (hs : ea = true → NoSurrogates s) (hb : Scans hooks depth body v) {fuel : Nat}
    (hf : body.length ≤ fuel) {t u : Str} {pairs : List (Str × Value)}
    (hm : scanMembers hooks fuel depth t = .ok (pairs, u)) :
    scanMembers hooks (fuel + 1) depth
      (s.flatMap (escape ea) ++ 0x22 :: 0x3A :: (body ++ 0x2C :: 0x22 :: t)) =
        .ok ((s, v) :: pairs, u) := by
  rw [scanMembers, scanString_encode hs, ok_bind]
  simp only
  rw [skipSpace_cons (by decide)]
  simp only
  rw [if_neg (by simp), hb.skipSpace, hb.scan fuel _ hf (delimited_cons (Or.inl rfl) _), ok_bind]
  simp only
  rw [skipSpace_cons (by decide)]
  simp only
  rw [if_neg (by decide), if_neg (by simp), skipSpace_cons (by decide)]
  simp only
  rw [if_pos trivial, hm]
  rfl

theorem item_head {hooks : Hooks κ} {ea : Bool} {depth : Nat} {kv : Key × Value} {text : Str}
    (h : ItemScans hooks ea depth kv text) (texts : List Str) :
    ∃ u, joinComma (text :: texts) = 0x22 :: u := by
  obtain ⟨s, body, -, rfl, -⟩ := h
  cases texts <;> exact ⟨_, rfl⟩

theorem scanMembers_texts (hooks : Hooks κ) (ea : Bool) (depth : Nat) :
    ∀ {kvs : List (Key × Value)} {texts : List Str},
    List.Forall₂ (ItemScans hooks ea depth) kvs texts → ∀ fuel t u,
    (joinComma texts).length < fuel → joinComma texts = 0x22 :: u →
    scanMembers hooks fuel depth (u ++ 0x7D :: t) =
      .ok (kvs.map fun kv => (Key.text kv.1, kv.2), t)
  | _, _, .nil, _, _, _, _, h => absurd h (by simp [joinComma])
  | [kv], [text], .cons hx .nil, fuel + 1, t, u, hf, hu => by
    obtain ⟨s, body, hk, rfl, hs, hb⟩ := hx
    rw [joinComma] at hf hu
    have hlen : body.length ≤ fuel := by
      rw [List.length_append, List.length_cons] at hf
      omega
    rw [encodeString, List.cons_append, List.cons.injEq] at hu
    rw [← hu.2]
    simp only [List.append_assoc, List.cons_append, List.nil_append]
    rw [scanMembers_last hooks hs hb hlen]
    simp only [List.map_cons, List.map_nil, hk, Key.text]
  | kv :: kw :: kvs, text :: text' :: texts, .cons hx (.cons hy hxs), fuel + 1, t, u, hf, hu => by
    obtain ⟨s, body, hk, rfl, hs, hb⟩ := hx
    obtain ⟨u', hu'⟩ := item_head hy texts
    rw [joinComma, List.length_append, List.length_cons] at hf
    have hlen : body.length ≤ fuel := by
      rw [List.length_append, List.length_cons] at hf
      omega
    have ih := scanMembers_texts hooks ea depth (.cons hy hxs) fuel t u' (by omega) hu'
    rw [joinComma, hu', encodeString, List.cons_append, List.cons_append, List.cons.injEq] at hu
    rw [← hu.2]
    simp only [List.append_assoc, List.cons_append, List.nil_append]
    rw [scanMembers_more hooks hs hb hlen ih]
    simp only [List.map_cons, hk, Key.text]

/-- Items with `str` keys are made of the pairs of their texts. -/
theorem pairs_of_strKeys {kvs : List (Key × Value)} (h : ∀ kv ∈ kvs, ∃ s, kv.1 = .str s) :
    (kvs.map fun kv => (Key.text kv.1, kv.2)).map (fun p => (Key.str p.1, p.2)) = kvs := by
  rw [List.map_map]
  refine (List.map_congr_left fun kv hkv => ?_).trans (List.map_id kvs)
  obtain ⟨s, hs⟩ := h kv hkv
  exact Prod.ext (by simp only [Function.comp, hs, Key.text, id]) rfl

/-- What the hook builds from the texts of distinct `str` keys. -/
theorem objectPairs_of_builds {hooks : Hooks κ} (hb : hooks.Builds) {kvs : List (Key × Value)}
    (hkeys : ∀ kv ∈ kvs, ∃ s, kv.1 = .str s) (hd : kvs.Pairwise fun p q => p.1 ≠ q.1) :
    hooks.objectPairs (kvs.map fun kv => (Key.text kv.1, kv.2)) = .ok (.dict kvs) := by
  rw [hb, pairs_of_strKeys hkeys]
  rw [List.pairwise_map]
  refine hd.imp_of_mem fun {p q} hp hq hne heq => hne ?_
  obtain ⟨s, hs⟩ := hkeys p hp
  obtain ⟨t, ht⟩ := hkeys q hq
  rw [hs, ht] at heq ⊢
  exact congrArg Key.str heq

theorem scans_dict {hooks : Hooks κ} {ea : Bool} (depth : Nat)
    {kvs : List (Key × Value)} {texts : List Str}
    (hbuilt : hooks.objectPairs (kvs.map fun kv => (Key.text kv.1, kv.2)) = .ok (.dict kvs))
    (h : List.Forall₂ (ItemScans hooks ea depth) kvs texts) :
    Scans hooks (depth + 1) (0x7B :: (joinComma texts ++ [0x7D])) (.dict kvs) := by
  refine ⟨⟨_, _, rfl, by decide, by decide, by decide⟩, fun fuel t hf _ => ?_⟩
  rw [List.length_cons, List.length_append, List.length_singleton] at hf
  obtain ⟨fuel, rfl⟩ : ∃ n, fuel = n + 1 := Nat.exists_eq_succ_of_ne_zero (by omega)
  rw [List.cons_append, List.append_assoc, List.cons_append, List.nil_append, scanOnce.eq_def]
  simp only
  rw [if_neg (by decide), if_pos trivial]
  cases h with
  | nil =>
    rw [List.map_nil] at hbuilt
    rw [show joinComma [] = [] from rfl, List.nil_append, skipSpace_cons (by decide)]
    simp only
    rw [if_pos trivial, hbuilt]
    rfl
  | @cons kv text kvs texts hx hxs =>
    obtain ⟨u, hu⟩ := item_head hx texts
    have hscan := scanMembers_texts hooks ea depth (.cons hx hxs) fuel t u (by omega) hu
    rw [hu, List.cons_append, skipSpace_cons (by decide)]
    simp only
    rw [if_neg (by decide), if_pos trivial, hscan]
    show (do return some (← hooks.objectPairs _, t) : Except (Exc κ) (Option (Value × Str))) = _
    rw [hbuilt]
    rfl

/-! ## The round trip -/

omit [Interpreter] in
theorem forall₂_map_left {α β γ : Type} {R : α → β → Prop} {f : γ → α} {l : List γ} {u : List β}
    (h : List.Forall₂ R (l.map f) u) : List.Forall₂ (fun x y => R (f x) y) l u :=
  List.forall₂_map_left_iff.mp h

theorem dumpsList_eq_ok {ea an : Bool} {xs : List Value} {texts : List Str} :
    dumpsList (κ := κ) ea an xs = .ok texts →
      List.Forall₂ (fun x text => dumps (κ := κ) ea an x = .ok text) xs texts := by
  induction xs generalizing texts with
  | nil =>
    intro h
    obtain rfl := Except.ok.inj h
    exact .nil
  | cons x xs ih =>
    intro h
    obtain ⟨s, hs, h⟩ := bind_eq_ok.mp h
    obtain ⟨ss, hss, h⟩ := bind_eq_ok.mp h
    obtain rfl := Except.ok.inj h
    exact .cons hs (ih hss)

omit [Interpreter] in
theorem sortItems_eq_ok {α : Type} {kvs l : List (Key × α)}
    (h : sortItems (κ := κ) kvs = .ok l) : l = sortByKey kvs := by
  unfold sortItems at h
  split at h
  · exact (Except.ok.inj h).symm
  · cases h

/-- The texts of a list are scanned one by one. -/
theorem forall₂_scans {hooks : Hooks κ} {ea an : Bool} {depth : Nat} {f : Value → Value}
    {xs : List Value} {texts : List Str}
    (ht : dumpsList ea an xs = (.ok texts : Except (Exc κ) (List Str)))
    (h : ∀ x ∈ xs, ∀ text, dumps ea an x = (.ok text : Except (Exc κ) Str) →
      Scans hooks depth text (f x)) :
    List.Forall₂ (fun x text => Scans hooks depth text x) (xs.map f) texts := by
  rw [List.forall₂_map_left_iff]
  have hmem := (List.forall₂_and_left _ _).mpr ⟨fun x (hx : x ∈ xs) => hx, dumpsList_eq_ok ht⟩
  exact hmem.imp fun x text ⟨hx, hdump⟩ => h x hx text hdump

/-- The texts of a dictionary are scanned item by item. -/
theorem forall₂_itemScans {hooks : Hooks κ} {ea an : Bool} {depth : Nat} {f : Value → Value}
    {kvs : List (Key × Value)} {texts : List Str}
    (ht : (sortByKey (dumpsItems ea an kvs)).mapM (encodeItem ea an) =
      (.ok texts : Except (Exc κ) (List Str)))
    (h : ∀ kv ∈ kvs, ∀ key body, encodeKey an kv.1 = (.ok key : Except (Exc κ) Str) →
      dumps ea an kv.2 = (.ok body : Except (Exc κ) Str) →
      Key.text kv.1 = key ∧ (ea = true → NoSurrogates key) ∧ Scans hooks depth body (f kv.2)) :
    List.Forall₂ (ItemScans hooks ea depth)
      ((sortByKey kvs).map fun p => (.str (Key.text p.1), f p.2)) texts := by
  rw [dumpsItems_eq, ← sortByKey_map] at ht
  rw [List.forall₂_map_left_iff]
  have hmem := (List.forall₂_and_left _ _).mpr
    ⟨fun kv (hkv : kv ∈ sortByKey kvs) => hkv, forall₂_map_left (mapM_eq_ok ht)⟩
  refine hmem.imp fun kv text ⟨hkv, hitem⟩ => ?_
  obtain ⟨key, hkey, hitem⟩ := bind_eq_ok.mp hitem
  obtain ⟨body, hbody, hitem⟩ := bind_eq_ok.mp hitem
  obtain rfl := Except.ok.inj hitem
  obtain ⟨rfl, hs, hscans⟩ := h kv (mem_sortByKey.mp hkv) key body hkey hbody
  exact ⟨_, body, rfl, rfl, hs, hscans⟩

/-- **Every text `dumps` writes for a readable value is scanned as the value, sorted**: induction
over the value. -/
theorem scans_dumps {hooks : Hooks κ} (hb : hooks.Builds) {ea an : Bool} (v : Value) :
    ∀ {text : Str} {depth : Nat}, Readable ea v → dumps ea an v = (.ok text : Except (Exc κ) Str) →
      v.depth ≤ depth → Scans hooks depth text v.sorted := by
  induction v using Value.induct with
  | none =>
    intro text depth _ h _
    obtain rfl := Except.ok.inj h
    exact scans_word hooks depth List.mem_cons_self
  | bool b =>
    intro text depth _ h _
    obtain rfl := Except.ok.inj h
    cases b with
    | false =>
      exact scans_word hooks depth
        (List.mem_cons_of_mem _ (List.mem_cons_of_mem _ List.mem_cons_self))
    | true => exact scans_word hooks depth (List.mem_cons_of_mem _ List.mem_cons_self)
  | int i => exact fun _ h _ => scans_int hooks _ h
  | float f => exact fun hr h _ => scans_float hooks _ hr h
  | str s =>
    intro text depth hr h _
    obtain rfl := Except.ok.inj h
    exact scans_string hooks depth hr
  | bytes b => exact fun hr => absurd hr id
  | tuple xs _ => exact fun hr => absurd hr id
  | list xs ih =>
    intro text depth hr h hd
    obtain ⟨texts, ht, h⟩ := bind_eq_ok.mp h
    obtain rfl := Except.ok.inj h
    rw [Value.depth] at hd
    obtain ⟨depth, rfl⟩ : ∃ n, depth = n + 1 := Nat.exists_eq_succ_of_ne_zero (by omega)
    rw [Value.sorted, sortedList_eq]
    exact scans_list hooks depth (forall₂_scans ht fun x hx text hdump =>
      ih x hx (readableList_iff.mp hr x hx) hdump
        (depthList_le.mp (Nat.le_of_succ_le_succ hd) x hx))
  | dict kvs ih =>
    intro text depth hr h hd
    obtain ⟨hdist, hitems⟩ := hr
    obtain ⟨items, hs, h⟩ := bind_eq_ok.mp h
    obtain ⟨texts, ht, h⟩ := bind_eq_ok.mp h
    obtain rfl := Except.ok.inj h
    rw [Value.depth] at hd
    obtain ⟨depth, rfl⟩ : ∃ n, depth = n + 1 := Nat.exists_eq_succ_of_ne_zero (by omega)
    obtain rfl := sortItems_eq_ok hs
    have hkeys : ∀ kv ∈ sortByKey kvs, ∃ s, kv.1 = .str s := fun kv hkv =>
      (readableItems_iff.mp hitems kv (mem_sortByKey.mp hkv)).1.imp fun _ h => h.1
    have hall := forall₂_itemScans ht
      fun kv hkv key body hkey hbody => by
        obtain ⟨⟨s, hk, hs⟩, hr⟩ := readableItems_iff.mp hitems kv hkv
        rw [hk] at hkey ⊢
        obtain rfl := Except.ok.inj hkey
        exact ⟨rfl, hs, ih kv hkv hr hbody (depthItems_le.mp (Nat.le_of_succ_le_succ hd) kv hkv)⟩
    have hsorted : ((sortByKey kvs).map fun p => (Key.str (Key.text p.1), p.2.sorted)) =
        (sortByKey kvs).map fun p => (p.1, p.2.sorted) := by
      refine List.map_congr_left fun kv hkv => ?_
      obtain ⟨s, hs⟩ := hkeys kv hkv
      rw [hs, Key.text]
    rw [hsorted] at hall
    rw [Value.sorted, sortedItems_eq, ← sortByKey_map]
    refine scans_dict depth (objectPairs_of_builds hb (fun kv hkv => ?_) ?_) hall
    · obtain ⟨p, hp, rfl⟩ := List.mem_map.mp hkv
      exact hkeys p hp
    · rw [List.pairwise_map]
      exact ((sortByKey_perm kvs).pairwise_iff fun {_ _} h => Ne.symm h).mpr hdist

/-- **`json.loads` inverts `json.dumps`**, up to the order of items. -/
theorem loads_dumps {hooks : Hooks κ} (hb : hooks.Builds) {ea an : Bool} {v : Value} {text : Str}
    (hr : Readable ea v) (hd : v.depth ≤ Interpreter.recursionLimit)
    (h : dumps ea an v = (.ok text : Except (Exc κ) Str)) : loads hooks text = .ok v.sorted := by
  have hscan := scans_dumps hb v hr h hd
  have hskip := hscan.skipSpace []
  have hrun := hscan.scan (text.length + 1) [] (Nat.le_succ _) (Or.inl rfl)
  rw [List.append_nil] at hskip hrun
  have hbom : text.head? ≠ some 0xFEFF := by
    obtain ⟨c, s, rfl, -, -, hc⟩ := hscan.head
    simpa using hc
  rw [loads, if_neg hbom, hskip, hrun]
  rfl

end Scanner

end Python.Json
