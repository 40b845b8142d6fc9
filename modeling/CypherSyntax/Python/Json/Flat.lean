import CypherSyntax.Python.Json.RoundTrip

/-!
# Flat objects

A flat object is a dictionary with `str` keys whose values are strings and integers. Its text
always exists, can be encoded, and its size in bytes is bounded by the sum of the sizes of its
fields (`dumps_flat`). Reading the encoded text back gives the object, sorted (`loads_flat`), so
the text determines the fields, whatever they hold (`perm_of_dumps`).

An escaped string takes at most `escapeFactor` bytes for each byte of the string
(`encodeString_size`), and a string of ASCII characters that need no escape takes no more than the
quotes (`encodeString_plain`).
-/

namespace Python.Json

variable {κ : Type}

/-! ## Sizes -/

/-- The number of bytes of an encoded string. -/
def utf8Size (s : Str) : Nat := (s.map utf8Width).sum

@[simp] theorem utf8Size_nil : utf8Size [] = 0 := rfl

@[simp] theorem utf8Size_cons (c : CodePoint) (s : Str) :
    utf8Size (c :: s) = utf8Width c + utf8Size s := by
  unfold utf8Size
  rw [List.map_cons, List.sum_cons]

@[simp] theorem utf8Size_append (s t : Str) : utf8Size (s ++ t) = utf8Size s + utf8Size t := by
  unfold utf8Size
  rw [List.map_append, List.sum_append]

theorem utf8Width_ascii {c : CodePoint} (h : c.val < 0x80) : utf8Width c = 1 := by
  rw [utf8Width_eq, if_pos h]

theorem utf8Size_ascii : ∀ {s : Str}, (∀ c ∈ s, c.val < 0x80) → utf8Size s = s.length
  | [], _ => rfl
  | c :: s, h => by
    rw [utf8Size_cons, utf8Width_ascii (h c List.mem_cons_self),
      utf8Size_ascii fun d hd => h d (List.mem_cons_of_mem c hd), List.length_cons]
    omega

theorem noSurrogates_append {s t : Str} : NoSurrogates (s ++ t) ↔ NoSurrogates s ∧ NoSurrogates t :=
  List.forall_mem_append

theorem noSurrogates_cons {c : CodePoint} {s : Str} :
    NoSurrogates (c :: s) ↔ isSurrogate c = false ∧ NoSurrogates s :=
  List.forall_mem_cons

theorem noSurrogates_ascii {s : Str} (h : ∀ c ∈ s, c.val < 0x80) : NoSurrogates s := by
  intro c hc
  have := h c hc
  simp only [isSurrogate, Bool.and_eq_false_iff, decide_eq_false_iff_not]
  omega

/-! ## Escapes -/

/-- The most bytes an escape adds for each byte of a printable character. -/
def escapeFactor (ensureAscii : Bool) : Nat := if ensureAscii then 3 else 2

theorem digitOf_ascii {n : Nat} (h : n < 16) : (digitOf n).val < 0x80 :=
  isLowerHex_ascii (isLowerHex_digitOf h)

theorem unicodeEscape_ascii (n : Nat) : ∀ c ∈ unicodeEscape n, c.val < 0x80 := by
  have hlt : ∀ m, m % 16 < 16 := fun m => Nat.mod_lt m (by omega)
  unfold unicodeEscape hex4
  simp only [List.forall_mem_cons]
  exact ⟨by decide, by decide, digitOf_ascii (hlt _), digitOf_ascii (hlt _),
    digitOf_ascii (hlt _), digitOf_ascii (hlt _), fun _ h => absurd h List.not_mem_nil⟩

theorem unicodeEscape_size (n : Nat) : utf8Size (unicodeEscape n) = 6 := by
  rw [utf8Size_ascii (unicodeEscape_ascii n)]
  rfl

/-- Only quote and backslash have a short escape outside the control characters. -/
theorem shortEscape_cases {c e : CodePoint} (h : shortEscape c = some e) :
    e.val < 0x80 ∧ c.val < 0x80 := by
  unfold shortEscape at h
  split_ifs at h <;> cases h <;> subst c <;> decide

theorem escape_noSurrogates {ea : Bool} {c : CodePoint} (hc : isSurrogate c = false) :
    NoSurrogates (escape ea c) := by
  unfold escape
  split
  · rename_i e he
    refine noSurrogates_ascii (List.forall_mem_cons.mpr ⟨by decide, ?_⟩)
    exact List.forall_mem_singleton.mpr (shortEscape_cases he).1
  · split_ifs
    · exact noSurrogates_ascii (unicodeEscape_ascii _)
    · exact noSurrogates_ascii (unicodeEscape_ascii _)
    · exact noSurrogates_append.mpr
        ⟨noSurrogates_ascii (unicodeEscape_ascii _), noSurrogates_ascii (unicodeEscape_ascii _)⟩
    · exact List.forall_mem_singleton.mpr hc

theorem escape_size (ea : Bool) {c : CodePoint} (h : 0x20 ≤ c.val ∧ c.val ≠ 0x7F) :
    utf8Size (escape ea c) ≤ escapeFactor ea * utf8Width c := by
  have hw := utf8Width_eq c
  have hf : escapeFactor ea = 3 ∨ escapeFactor ea = 2 := by cases ea <;> simp [escapeFactor]
  unfold escape
  split
  · rename_i e he
    obtain ⟨he, hc⟩ := shortEscape_cases he
    rw [utf8Size_cons, utf8Size_cons, utf8Size_nil, utf8Width_ascii he, utf8Width_ascii hc,
      utf8Width_ascii (by decide)]
    omega
  · rw [if_neg (by omega)]
    cases ea with
    | false =>
      simp only [escapeFactor, Bool.false_and, Bool.false_eq_true, if_false, utf8Size_cons,
        utf8Size_nil]
      omega
    | true =>
      simp only [Bool.true_and, decide_eq_true_eq, escapeFactor, if_true]
      split_ifs at hw ⊢ <;>
        simp only [unicodeEscape_size, utf8Size_append, utf8Size_cons, utf8Size_nil] <;> omega

/-- **An escaped string of printable characters** takes at most `escapeFactor` bytes for each
byte, and two quotes. -/
theorem encodeString_size (ea : Bool) {s : Str} (h : ∀ c ∈ s, 0x20 ≤ c.val ∧ c.val ≠ 0x7F) :
    utf8Size (encodeString ea s) ≤ escapeFactor ea * utf8Size s + 2 := by
  have hbody : utf8Size (s.flatMap (escape ea)) ≤ escapeFactor ea * utf8Size s := by
    induction s with
    | nil => simp
    | cons c s ih =>
      obtain ⟨hc, hs⟩ := List.forall_mem_cons.mp h
      rw [List.flatMap_cons, utf8Size_append, utf8Size_cons, Nat.mul_add]
      have := escape_size ea hc
      have := ih hs
      omega
  unfold encodeString
  rw [utf8Size_cons, utf8Size_append, utf8Size_cons, utf8Size_nil, utf8Width_ascii (by decide)]
  omega

theorem encodeString_noSurrogates {ea : Bool} {s : Str} (h : NoSurrogates s) :
    NoSurrogates (encodeString ea s) := by
  have hbody : NoSurrogates (s.flatMap (escape ea)) := by
    intro c hc
    obtain ⟨d, hd, hc⟩ := List.mem_flatMap.mp hc
    exact escape_noSurrogates (h d hd) c hc
  exact noSurrogates_cons.mpr ⟨by decide,
    noSurrogates_append.mpr ⟨hbody, List.forall_mem_singleton.mpr (by decide)⟩⟩

/-- An ASCII character that is written as it is. -/
def isPlain (c : CodePoint) : Bool :=
  0x20 ≤ c.val && c.val < 0x7F && c.val != 0x22 && c.val != 0x5C

theorem escape_plain {ea : Bool} {c : CodePoint} (h : isPlain c = true) : escape ea c = [c] := by
  simp only [isPlain, Bool.and_eq_true, decide_eq_true_eq, bne_iff_ne] at h
  have hne : ∀ d : CodePoint, c.val ≠ d.val → c ≠ d := fun d hd hcd => hd (congrArg _ hcd)
  have hshort : shortEscape c = none := by
    unfold shortEscape
    rw [if_neg (hne _ h.1.2), if_neg (hne _ h.2), if_neg (hne _ _), if_neg (hne _ _),
      if_neg (hne _ _), if_neg (hne _ _), if_neg (hne _ _)]
    all_goals
      intro hc
      rw [hc] at h
      exact absurd h.1.1.1 (by decide)
  unfold escape
  rw [hshort]
  simp only
  rw [if_neg (by omega), if_neg]
  simp only [Bool.and_eq_true, decide_eq_true_eq]
  omega

theorem isPlain_ascii {c : CodePoint} (h : isPlain c = true) : c.val < 0x80 := by
  simp only [isPlain, Bool.and_eq_true, decide_eq_true_eq] at h
  omega

theorem ascii_of_plain {s : Str} (h : s.all isPlain = true) : ∀ c ∈ s, c.val < 0x80 :=
  fun c hc => isPlain_ascii (List.all_eq_true.mp h c hc)

theorem encodeString_plain (ea : Bool) {s : Str} (h : s.all isPlain = true) :
    utf8Size (encodeString ea s) = s.length + 2 := by
  have hbody : s.flatMap (escape ea) = s := by
    have hall := List.all_eq_true.mp h
    clear h
    induction s with
    | nil => rfl
    | cons c s ih =>
      obtain ⟨hc, hs⟩ := List.forall_mem_cons.mp hall
      rw [List.flatMap_cons, escape_plain hc, ih hs]
      rfl
  unfold encodeString
  rw [hbody, utf8Size_cons, utf8Size_append, utf8Size_cons, utf8Size_nil,
    utf8Size_ascii (ascii_of_plain h), utf8Width_ascii (by decide)]
  omega

/-! ## Integers -/

theorem intText_ascii (i : Int) : ∀ c ∈ intText i, c.val < 0x80 := by
  have hnat : ∀ n, ∀ c ∈ natText n, c.val < 0x80 := fun n c hc =>
    isDigit_ascii (natText_digits n c hc)
  cases i with
  | ofNat n => exact hnat n
  | negSucc n => exact List.forall_mem_cons.mpr ⟨by decide, hnat (n + 1)⟩

/-- The text of a natural number below `10 ^ k` has at most `k` bytes. -/
theorem intText_size {i : Int} {k : Nat} (hk : 0 < k) (h0 : 0 ≤ i) (h : i < 10 ^ k) :
    utf8Size (intText i) ≤ k := by
  obtain ⟨n, rfl⟩ := Int.eq_ofNat_of_zero_le h0
  rw [utf8Size_ascii (intText_ascii n)]
  exact natText_length_le hk (by exact_mod_cast h)

variable [Interpreter]

theorem digitsAllowed_of_lt {i : Int} {k : Nat} (hk : 0 < k) (hk' : k ≤ 640) (h0 : 0 ≤ i)
    (h : i < 10 ^ k) : Interpreter.digitsAllowed (digitCount i) = true := by
  obtain ⟨n, rfl⟩ := Int.eq_ofNat_of_zero_le h0
  refine Interpreter.digitsAllowed_640 _ (le_trans ?_ hk')
  exact natText_length_le hk (by exact_mod_cast h)

/-! ## Objects -/

/-- A field of a flat object whose text exists and can be encoded. -/
def FlatField : Key × Value → Prop
  | (.str k, .str s) => NoSurrogates k ∧ NoSurrogates s
  | (.str k, .int i) => NoSurrogates k ∧ Interpreter.digitsAllowed (digitCount i) = true
  | _ => False

/-- The bytes of the key and of the value of a field. -/
def fieldSize (ensureAscii : Bool) : Key × Value → Nat
  | (.str k, .str s) =>
    utf8Size (encodeString ensureAscii k) + utf8Size (encodeString ensureAscii s)
  | (.str k, .int i) => utf8Size (encodeString ensureAscii k) + utf8Size (intText i)
  | _ => 0

theorem flatField_str {k s : Str} (hk : k.all isPlain = true) (hs : NoSurrogates s) :
    FlatField (.str k, .str s) :=
  ⟨noSurrogates_ascii (ascii_of_plain hk), hs⟩

theorem flatField_int {k : Str} {i : Int} (hk : k.all isPlain = true)
    (hi : Interpreter.digitsAllowed (digitCount i) = true) : FlatField (.str k, .int i) :=
  ⟨noSurrogates_ascii (ascii_of_plain hk), hi⟩

omit [Interpreter] in
theorem fieldSize_str {ea : Bool} {k s : Str} (hk : k.all isPlain = true) :
    fieldSize ea (.str k, .str s) = k.length + 2 + utf8Size (encodeString ea s) := by
  rw [fieldSize, encodeString_plain ea hk]

omit [Interpreter] in
theorem fieldSize_int {ea : Bool} {k : Str} {i : Int} (hk : k.all isPlain = true) :
    fieldSize ea (.str k, .int i) = k.length + 2 + utf8Size (intText i) := by
  rw [fieldSize, encodeString_plain ea hk]

omit [Interpreter] in
theorem hex_plain (b : Bytes) : (hex b).all isPlain = true := by
  refine List.all_eq_true.mpr fun c hc => ?_
  have h := hex_lower b c hc
  simp only [isLowerHex, isDigit, isPlain, Bool.or_eq_true, Bool.and_eq_true, decide_eq_true_eq,
    bne_iff_ne] at h ⊢
  omega

theorem flatField_hex {k : Str} (hk : k.all isPlain = true) (b : Bytes) :
    FlatField (.str k, .str (hex b)) :=
  flatField_str hk (noSurrogates_ascii (ascii_of_plain (hex_plain b)))

omit [Interpreter] in
theorem fieldSize_hex {ea : Bool} {k : Str} (hk : k.all isPlain = true) (b : Bytes) :
    fieldSize ea (.str k, .str (hex b)) = k.length + 4 + 2 * b.length := by
  rw [fieldSize_str hk, encodeString_plain ea (hex_plain b), hex_length]
  omega

theorem FlatField.cases {kv : Key × Value} (h : FlatField kv) : ∃ k, kv.1 = .str k ∧
    NoSurrogates k ∧ ((∃ s, kv.2 = .str s ∧ NoSurrogates s) ∨
      ∃ i, kv.2 = .int i ∧ Interpreter.digitsAllowed (digitCount i) = true) := by
  unfold FlatField at h
  split at h
  · exact ⟨_, rfl, h.1, Or.inl ⟨_, rfl, h.2⟩⟩
  · exact ⟨_, rfl, h.1, Or.inr ⟨_, rfl, h.2⟩⟩
  · exact absurd h id

/-- The text of one field. -/
theorem encodeItem_flat (ea an : Bool) {kv : Key × Value} (h : FlatField kv) :
    ∃ text, encodeItem ea an (kv.1, dumps (κ := κ) ea an kv.2) = .ok text ∧ NoSurrogates text ∧
      utf8Size text = fieldSize ea kv + 1 := by
  obtain ⟨k, v⟩ := kv
  obtain ⟨k', hk, hkey, ⟨s, hv, hs⟩ | ⟨i, hv, hi⟩⟩ := h.cases
  · cases hk
    cases hv
    refine ⟨encodeString ea k' ++ 0x3A :: encodeString ea s, rfl, ?_, ?_⟩
    · exact noSurrogates_append.mpr ⟨encodeString_noSurrogates hkey,
        noSurrogates_cons.mpr ⟨by decide, encodeString_noSurrogates hs⟩⟩
    · rw [utf8Size_append, utf8Size_cons, utf8Width_ascii (by decide), fieldSize]
      omega
  · cases hk
    cases hv
    refine ⟨encodeString ea k' ++ 0x3A :: intText i, ?_, ?_, ?_⟩
    · simp only [encodeItem, encodeKey, dumps, encodeInt, hi, if_true, ok_bind]
      rfl
    · exact noSurrogates_append.mpr ⟨encodeString_noSurrogates hkey,
        noSurrogates_cons.mpr ⟨by decide, noSurrogates_ascii (intText_ascii i)⟩⟩
    · rw [utf8Size_append, utf8Size_cons, utf8Width_ascii (by decide), fieldSize]
      omega

omit [Interpreter] in
theorem joinComma_flat {texts : List Str} {sizes : List Nat}
    (h : List.Forall₂ (fun text n => NoSurrogates text ∧ utf8Size text = n + 1) texts sizes) :
    NoSurrogates (joinComma texts) ∧
      utf8Size (joinComma texts) ≤ (sizes.map (· + 2)).sum := by
  induction h with
  | nil => exact ⟨fun _ h => absurd h List.not_mem_nil, Nat.zero_le _⟩
  | cons hx hxs ih =>
    rename_i text n texts sizes
    obtain ⟨hno, hsize⟩ := ih
    cases hxs with
    | nil =>
      rw [joinComma, List.map_cons, List.sum_cons]
      exact ⟨hx.1, by omega⟩
    | cons hy hys =>
      rw [joinComma, List.map_cons, List.sum_cons, utf8Size_append, utf8Size_cons,
        utf8Width_ascii (by decide)]
      exact ⟨noSurrogates_append.mpr ⟨hx.1, noSurrogates_cons.mpr ⟨by decide, hno⟩⟩, by omega⟩

omit [Interpreter] in
/-- Looking a field up does not depend on the order of the fields. -/
theorem lookup_sortByKey {α : Type} {kvs : List (Key × α)}
    (hd : kvs.Pairwise fun p q => p.1 ≠ q.1) {k : Key} {v : α} (h : (k, v) ∈ kvs) :
    (sortByKey kvs).lookup k = some v :=
  lookup_of_mem (((sortByKey_perm kvs).pairwise_iff fun {_ _} h => Ne.symm h).mpr hd)
    (mem_sortByKey.mpr h)

theorem mapM_flat (ea an : Bool) : ∀ {kvs : List (Key × Value)}, (∀ kv ∈ kvs, FlatField kv) →
    ∃ texts, (kvs.map fun p => (p.1, dumps (κ := κ) ea an p.2)).mapM (encodeItem ea an) =
        .ok texts ∧
      List.Forall₂ (fun text n => NoSurrogates text ∧ utf8Size text = n + 1) texts
        (kvs.map (fieldSize ea))
  | [], _ => ⟨[], rfl, .nil⟩
  | kv :: kvs, h => by
    obtain ⟨text, htext, hsize⟩ := encodeItem_flat (κ := κ) ea an
      (h kv List.mem_cons_self)
    obtain ⟨texts, htexts, hsizes⟩ :=
      mapM_flat ea an fun kw hkw => h kw (List.mem_cons_of_mem kv hkw)
    refine ⟨text :: texts, ?_, .cons hsize hsizes⟩
    rw [List.map_cons, List.mapM_cons, htext, htexts]
    rfl

/-- **The text of a flat object** exists, can be encoded, and is no larger than its fields, two
bytes of punctuation for each and two braces. -/
theorem dumps_flat (ea an : Bool) {kvs : List (Key × Value)} (h : ∀ kv ∈ kvs, FlatField kv) :
    ∃ text, dumps (κ := κ) ea an (.dict kvs) = .ok text ∧ NoSurrogates text ∧
      utf8Size text ≤ (kvs.map fun kv => fieldSize ea kv + 2).sum + 2 := by
  obtain ⟨texts, htexts, hsizes⟩ := mapM_flat (κ := κ) ea an fun kv hkv =>
    h kv (mem_sortByKey.mp hkv)
  obtain ⟨hno, hsize⟩ := joinComma_flat hsizes
  refine ⟨0x7B :: (joinComma texts ++ [0x7D]), ?_, ?_, ?_⟩
  · have hstr : (kvs.map fun p => (p.1, dumps (κ := κ) ea an p.2)).all
        (fun p => Key.isStr p.1) = true := by
      simp only [List.all_map, List.all_eq_true, Function.comp]
      intro kv hkv
      obtain ⟨k, hk, -⟩ := (h kv hkv).cases
      rw [hk]
      rfl
    rw [dumps, dumpsItems_eq, sortItems, if_pos (Or.inr (Or.inl hstr)), ok_bind, ← sortByKey_map,
      htexts]
    rfl
  · exact noSurrogates_cons.mpr ⟨by decide,
      noSurrogates_append.mpr ⟨hno, List.forall_mem_singleton.mpr (by decide)⟩⟩
  · rw [List.map_map, ((sortByKey_perm kvs).map _).sum_eq] at hsize
    rw [utf8Size_cons, utf8Size_append, utf8Size_cons, utf8Size_nil, utf8Width_ascii (by decide),
      utf8Width_ascii (by decide)]
    simp only [Function.comp_def] at hsize
    omega

theorem readable_flat {ea : Bool} {kvs : List (Key × Value)} (h : ∀ kv ∈ kvs, FlatField kv)
    (hd : kvs.Pairwise fun p q => p.1 ≠ q.1) : Readable ea (.dict kvs) := by
  refine ⟨hd, readableItems_iff.mpr fun kv hkv => ?_⟩
  obtain ⟨k, hk, hkey, ⟨s, hv, hs⟩ | ⟨i, hv, -⟩⟩ := (h kv hkv).cases
  · exact ⟨⟨k, hk, fun _ => hkey⟩, by rw [hv]; exact fun _ => hs⟩
  · exact ⟨⟨k, hk, fun _ => hkey⟩, by rw [hv]; trivial⟩

theorem sorted_flat {kvs : List (Key × Value)} (h : ∀ kv ∈ kvs, FlatField kv) :
    (Value.dict kvs).sorted = .dict (sortByKey kvs) := by
  have hmap : (kvs.map fun p => (p.1, p.2.sorted)) = kvs.map id := by
    refine List.map_congr_left fun kv hkv => ?_
    obtain ⟨k, v⟩ := kv
    obtain ⟨_, -, -, ⟨s, rfl, -⟩ | ⟨i, rfl, -⟩⟩ := (h _ hkv).cases <;> rfl
  rw [Value.sorted, sortedItems_eq, hmap, List.map_id]

theorem plain_flat {kvs : List (Key × Value)} (h : ∀ kv ∈ kvs, FlatField kv) :
    (Value.dict kvs).plain = true := by
  refine plainItems_iff.mpr fun kv hkv => ?_
  obtain ⟨name, hname, -, ⟨s, hs, -⟩ | ⟨i, hi, -⟩⟩ := (h kv hkv).cases
  · exact ⟨⟨name, hname⟩, by rw [hs]; rfl⟩
  · exact ⟨⟨name, hname⟩, by rw [hi]; rfl⟩

theorem wf_flat {kvs : List (Key × Value)} (h : ∀ kv ∈ kvs, FlatField kv)
    (hd : kvs.Pairwise fun p q => p.1 ≠ q.1) : (Value.dict kvs).WF := by
  refine ⟨hd.imp_of_mem fun {p q} hp hq hne => ?_, wfItems_iff.mpr fun kv hkv => ?_⟩
  · obtain ⟨s, hs, -⟩ := (h p hp).cases
    obtain ⟨t, ht, -⟩ := (h q hq).cases
    rw [hs, ht] at hne
    rw [hs, ht, Key.eqPy_str]
    exact beq_eq_false_iff_ne.mpr fun heq => hne (congrArg Key.str heq)
  · obtain ⟨-, -, -, ⟨s, hs, -⟩ | ⟨i, hi, -⟩⟩ := (h kv hkv).cases
    · rw [hs]
      trivial
    · rw [hi]
      trivial

theorem depth_flat {kvs : List (Key × Value)} (h : ∀ kv ∈ kvs, FlatField kv) :
    (Value.dict kvs).depth ≤ 1 := by
  have hle : depthItems kvs ≤ 0 := depthItems_le.mpr fun kv hkv => by
    obtain ⟨k, v⟩ := kv
    obtain ⟨_, -, -, ⟨s, rfl, -⟩ | ⟨i, rfl, -⟩⟩ := (h _ hkv).cases <;> exact Nat.le_refl 0
  rw [Value.depth]
  omega

/-- **The text of a flat object reads back as the object**, its fields sorted. -/
theorem loads_flat {hooks : Hooks κ} (hb : hooks.Builds) {ea an : Bool}
    {kvs : List (Key × Value)} (h : ∀ kv ∈ kvs, FlatField kv)
    (hd : kvs.Pairwise fun p q => p.1 ≠ q.1) {text : Str}
    (ht : dumps (κ := κ) ea an (.dict kvs) = .ok text) :
    loads hooks text = .ok (.dict (sortByKey kvs)) := by
  rw [← sorted_flat h]
  exact loads_dumps hb (readable_flat h hd)
    (le_trans (depth_flat h) Interpreter.recursionLimit_pos) ht

/-- Flat objects with one text have the same fields, up to their order. -/
theorem perm_of_dumps {hooks : Hooks κ} (hb : hooks.Builds) {ea an : Bool}
    {kvs kws : List (Key × Value)} (hv : ∀ kv ∈ kvs, FlatField kv) (hw : ∀ kw ∈ kws, FlatField kw)
    (hdv : kvs.Pairwise fun p q => p.1 ≠ q.1) (hdw : kws.Pairwise fun p q => p.1 ≠ q.1) {text : Str}
    (htv : dumps (κ := κ) ea an (.dict kvs) = .ok text)
    (htw : dumps (κ := κ) ea an (.dict kws) = .ok text) : kvs.Perm kws := by
  have hread := (loads_flat hb hv hdv htv).symm.trans (loads_flat hb hw hdw htw)
  have hsorted : sortByKey kvs = sortByKey kws := Value.dict.inj (Except.ok.inj hread)
  have hperm := sortByKey_perm kvs
  rw [hsorted] at hperm
  exact hperm.symm.trans (sortByKey_perm kws)

end Python.Json
