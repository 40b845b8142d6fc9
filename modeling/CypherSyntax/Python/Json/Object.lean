import CypherSyntax.Python.Json.Flat
import CypherSyntax.Python.Json.Hooks

/-!
# Objects with a fixed set of fields

The items of a parsed object, compared with the fields a format expects: `missingFields` and
`unexpectedFields` are the sorted differences, and `getItem` is `raw[name]`. The expected fields
are listed in sorted order.

`convert` is `try: ... except (...) as exc: raise ... from exc` with one exception for all it
catches.

Results:
* `missingFields_eq_nil`, `unexpectedFields_eq_nil`: when the differences are empty.
* `getItem_sorted`: a field of a sorted object is that of the object.
-/

namespace Python.Json

variable {κ α : Type}

/-! ## Fields -/

/-- The names of the items of a parsed object, whose keys are all `str`. -/
def fieldNames (items : List (Key × Value)) : List Str :=
  items.filterMap fun kv => match kv.1 with
    | .str name => some name
    | _ => none

/-- `sorted(expected - received)` -/
def missingFields (expected : List Str) (items : List (Key × Value)) : List Str :=
  expected.filter fun name => !(fieldNames items).contains name

/-- `sorted(received - expected)` -/
def unexpectedFields (expected : List Str) (items : List (Key × Value)) : List Str :=
  ((fieldNames items).filter fun name => !expected.contains name).insertionSort
    fun s t => strLe s t = true

/-- `', '.join(names)` -/
def joinNames : List Str → Str
  | [] => []
  | [s] => s
  | s :: t :: names => s ++ lit ", " ++ joinNames (t :: names)

/-- `items[name]` -/
def getItem (items : List (Key × Value)) (name : Str) : Except (Exc κ) Value :=
  match items.lookup (.str name) with
  | some v => .ok v
  | none => .error (.builtin .keyError name)

/-- `type(value) is str and value == text` -/
def isText (text : Str) : Value → Bool
  | .str s => s == text
  | _ => false

theorem mem_fieldNames {items : List (Key × Value)} {name : Str} :
    name ∈ fieldNames items ↔ ∃ v, (.str name, v) ∈ items := by
  unfold fieldNames
  rw [List.mem_filterMap]
  constructor
  · rintro ⟨⟨k, v⟩, hmem, h⟩
    cases k with
    | str s =>
      cases h
      exact ⟨v, hmem⟩
    | _ => cases h
  · rintro ⟨v, hmem⟩
    exact ⟨_, hmem, rfl⟩

theorem missingFields_eq_nil {expected : List Str} {items : List (Key × Value)} :
    missingFields expected items = [] ↔ ∀ name ∈ expected, name ∈ fieldNames items := by
  unfold missingFields
  rw [List.filter_eq_nil_iff]
  simp

theorem unexpectedFields_eq_nil {expected : List Str} {items : List (Key × Value)} :
    unexpectedFields expected items = [] ↔ ∀ name ∈ fieldNames items, name ∈ expected := by
  unfold unexpectedFields
  rw [← List.length_eq_zero_iff, List.length_insertionSort, List.length_eq_zero_iff,
    List.filter_eq_nil_iff]
  simp

theorem fieldNames_sortByKey {items : List (Key × Value)} {name : Str} :
    name ∈ fieldNames (sortByKey items) ↔ name ∈ fieldNames items := by
  rw [mem_fieldNames, mem_fieldNames]
  exact exists_congr fun v => mem_sortByKey

theorem getItem_isOk {items : List (Key × Value)} {name : Str} (h : name ∈ fieldNames items) :
    ∃ v, getItem (κ := κ) items name = .ok v ∧ (.str name, v) ∈ items := by
  obtain ⟨w, hw⟩ := mem_fieldNames.mp h
  unfold getItem
  cases hl : items.lookup (.str name) with
  | none =>
    have := List.lookup_eq_none_iff.mp hl _ hw
    simp at this
  | some v =>
    obtain ⟨l₁, l₂, rfl, -⟩ := List.lookup_eq_some_iff.mp hl
    exact ⟨v, rfl, by simp⟩

/-- A field of a sorted object is that of the object. -/
theorem getItem_sorted {items : List (Key × Value)} (hd : items.Pairwise fun p q => p.1 ≠ q.1)
    {name : Str} {v : Value} (h : (.str name, v) ∈ items) :
    getItem (κ := κ) (sortByKey items) name = .ok v := by
  unfold getItem
  rw [lookup_sortByKey hd h]

/-! ## Bytes -/

/-- `text.encode("utf-8")` -/
def encode (text : Str) : Except (Exc κ) Bytes :=
  match encodeUtf8 text with
  | some data => .ok data
  | none => .error (.builtin .unicodeEncodeError (lit "surrogates not allowed"))

/-- `text.encode("ascii")` -/
def encodeAsciiText (text : Str) : Except (Exc κ) Bytes :=
  match encodeAscii text with
  | some data => .ok data
  | none => .error (.builtin .unicodeEncodeError (lit "ordinal not in range(128)"))

/-- `data.decode("utf-8")` -/
def decode (data : Bytes) : Except (Exc κ) Str :=
  match decodeUtf8 data with
  | some text => .ok text
  | none => .error (.builtin .unicodeDecodeError (lit "invalid utf-8"))

theorem encode_ok {text : Str} {data : Bytes} :
    encode (κ := κ) text = .ok data ↔ encodeUtf8 text = some data := by
  unfold encode
  cases encodeUtf8 text <;> simp

theorem decode_ok {data : Bytes} {text : Str} :
    decode (κ := κ) data = .ok text ↔ decodeUtf8 data = some text := by
  unfold decode
  cases decodeUtf8 data <;> simp

/-- Text without surrogates is encoded to `utf8Size` bytes, which decode to the text. -/
theorem encode_decode {text : Str} (h : NoSurrogates text) : ∃ data,
    encode (κ := κ) text = .ok data ∧ data.length = utf8Size text ∧
      decode (κ := κ) data = .ok text := by
  obtain ⟨data, hdata⟩ := Option.isSome_iff_exists.mp (encodeUtf8_isSome.mpr h)
  refine ⟨data, encode_ok.mpr hdata, encodeUtf8_length hdata, ?_⟩
  unfold decode
  rw [decodeUtf8_encodeUtf8 hdata]

/-! ## Converted exceptions -/

/-- `except caught: raise exc` -/
def convert (caught : Exc κ → Bool) (exc : Exc κ) : Except (Exc κ) α → Except (Exc κ) α
  | .ok a => .ok a
  | .error e => .error (if caught e then exc else e)

/-- `except (UnicodeDecodeError, json.JSONDecodeError, RecursionError, ValueError)` -/
def isDecodeFailure : Exc κ → Bool
  | .builtin .recursionError _ => true
  | .builtin c _ => c.isValueError
  | .user _ _ => false

@[simp] theorem convert_ok {caught : Exc κ → Bool} {exc : Exc κ} {x : Except (Exc κ) α} {a : α} :
    convert caught exc x = .ok a ↔ x = .ok a := by
  cases x <;> simp [convert]

/-- What is caught becomes the one exception; the rest goes through. -/
theorem convert_ensures {caught : Exc κ → Bool} {exc : Exc κ} {x : Except (Exc κ) α}
    {Q : α → Prop} {P : Exc κ → Prop} (hexc : P exc)
    (h : Ensures Q (fun e => caught e = true ∨ P e) x) : Ensures Q P (convert caught exc x) := by
  cases x with
  | ok a => exact h
  | error e =>
    show P (if caught e then exc else e)
    split
    · exact hexc
    · exact h.resolve_left ‹_›

/-- `json.loads(data.decode("utf-8"), ...)`, with hooks that raise nothing but `P`. -/
theorem loads_decode_ensures [Interpreter] {P : Exc κ → Prop} {hooks : Hooks κ}
    (h : hooks.Ensures fun e => isDecodeFailure e = true ∨ P e) (data : Bytes) :
    Ensures (Built Interpreter.recursionLimit) (fun e => isDecodeFailure e = true ∨ P e)
      (do loads hooks (← decode data)) := by
  have hdecoder : DecoderErrors fun e : Exc κ => isDecodeFailure e = true ∨ P e :=
    ⟨fun _ => Or.inl rfl, fun _ => Or.inl rfl, fun _ => Or.inl rfl⟩
  refine Ensures.bind (Q := fun _ => True) ?_ fun text _ => loads_ensures hdecoder h text
  unfold decode
  cases decodeUtf8 data with
  | some text => trivial
  | none => exact Or.inl rfl

/-- Hooks that raise on a repeated key and on a constant build plain values with distinct keys. -/
theorem rejectingHooks_ensures {P : Exc κ → Prop} {duplicate nonfinite : Str → Exc κ}
    (hdup : ∀ key, P (duplicate key)) (hnon : ∀ name, P (nonfinite name)) :
    (rejectingHooks duplicate nonfinite).Ensures P :=
  ensures_of_rejectDuplicateKeys hdup fun _ name => .error (hnon name)

end Python.Json
