import CypherSyntax.Wire

/-!
# The envelope codec

The valid envelopes and the accepted byte strings are in bijection (`envelope_codec_exact`):
`to_bytes` succeeds on every valid envelope within the size limit, whatever escapes the names need,
`from_bytes` inverts it, and what `from_bytes` accepts is what `to_bytes` writes. Everything else
is an `EnvelopeError` (`fromBytes_ensures`).

The JSON text is that of a flat object, so sizes and the round trip are those of
`Python.Json.Flat`.
-/

namespace CypherSyntax

open Python Json

variable [Interpreter]

/-! ## Writing -/

/-- The items of an encoded envelope. -/
def envelopeItems (m : Metadata) (ciphertext : Bytes) : List (Key × Value) :=
  m.items ++ [(key "ciphertext", .str (hex ciphertext))]

namespace Metadata.Valid

variable {m : Metadata}

omit [Interpreter] in
theorem version_lt [UnicodeData] (h : m.Valid) : 0 ≤ m.version ∧ m.version < 10 ^ 5 := by
  have := h.version
  simp only [maxProtocolVersion] at this
  omega

omit [Interpreter] in
theorem sequence_lt [UnicodeData] (h : m.Valid) : 0 ≤ m.sequence ∧ m.sequence < 10 ^ 20 := by
  have := h.sequence
  simp only [maxMessageSequence] at this
  omega

theorem flat (h : m.Valid) : ∀ kv ∈ m.items, FlatField kv := by
  unfold items
  simp only [List.forall_mem_cons]
  refine ⟨flatField_int (by decide) ?_, flatField_str (by decide) ?_,
    flatField_str (by decide) h.sender.noSurrogates,
    flatField_str (by decide) h.recipient.noSurrogates, flatField_int (by decide) ?_,
    fun _ h => absurd h List.not_mem_nil⟩
  · exact digitsAllowed_of_lt (by decide) (by decide) h.version_lt.1 h.version_lt.2
  · exact noSurrogates_ascii (ascii_of_plain (suitePattern_plain h.suite.2))
  · exact digitsAllowed_of_lt (by decide) (by decide) h.sequence_lt.1 h.sequence_lt.2

/-- The metadata never takes more than 2048 bytes of JSON. -/
theorem size_le (h : m.Valid) :
    (m.items.map fun kv => fieldSize true kv + 2).sum ≤ 2048 := by
  have hversion := intText_size (by decide) h.version_lt.1 h.version_lt.2
  have hsequence := intText_size (by decide) h.sequence_lt.1 h.sequence_lt.2
  have hsuite := encodeString_plain true (suitePattern_plain h.suite.2)
  have hlen : m.suite.length ≤ 64 := h.suite.1
  have hsender : utf8Size (encodeString true m.sender) ≤ 3 * 255 + 2 :=
    h.sender.encodeString_size true
  have hrecipient : utf8Size (encodeString true m.recipient) ≤ 3 * 255 + 2 :=
    h.recipient.encodeString_size true
  have hkeys : (lit "v").length = 1 ∧ (lit "suite").length = 5 ∧ (lit "sender").length = 6 ∧
      (lit "recipient").length = 9 ∧ (lit "sequence").length = 8 := by decide
  simp only [items, key, List.map_cons, List.map_nil, List.sum_cons, List.sum_nil]
  rw [fieldSize_int (by decide), fieldSize_str (by decide), fieldSize_str (by decide),
    fieldSize_str (by decide), fieldSize_int (by decide)]
  omega

end Metadata.Valid

omit [Interpreter] in
/-- The keys of an encoded envelope are distinct. -/
theorem envelopeItems_distinct (m : Metadata) (ciphertext : Bytes) :
    (envelopeItems m ciphertext).Pairwise fun p q => p.1 ≠ q.1 := by
  have hkeys : ((envelopeItems m ciphertext).map Prod.fst).Pairwise (· ≠ ·) := by
    show [key "v", key "suite", key "sender", key "recipient", key "sequence",
      key "ciphertext"].Pairwise (· ≠ ·)
    decide
  exact List.pairwise_map.mp hkeys

/-- **The text of a valid envelope** exists, can be encoded and fits the size limit. -/
theorem dumps_envelope {m : Metadata} {ciphertext : Bytes} (hm : m.Valid)
    (hc : ValidCiphertext ciphertext) :
    ∃ text, dumps (κ := ErrorClass) true true (.dict (envelopeItems m ciphertext)) = .ok text ∧
      NoSurrogates text ∧ utf8Size text ≤ maxEnvelopeBytes ∧
      (∀ kv ∈ envelopeItems m ciphertext, FlatField kv) := by
  have hflat : ∀ kv ∈ envelopeItems m ciphertext, FlatField kv := by
    refine List.forall_mem_append.mpr ⟨hm.flat, List.forall_mem_singleton.mpr ?_⟩
    exact flatField_hex (by decide) ciphertext
  obtain ⟨text, htext, hno, hsize⟩ := dumps_flat (κ := ErrorClass) true true hflat
  have hmeta := hm.size_le
  have hlen : ciphertext.length ≤ 1048592 := hc.2
  have hkey : (lit "ciphertext").length = 10 := by decide
  refine ⟨text, htext, hno, le_trans hsize ?_, hflat⟩
  rw [envelopeItems, List.map_append, List.sum_append, List.map_cons, List.map_nil,
    List.sum_cons, List.sum_nil, key, fieldSize_hex (by decide)]
  show _ ≤ 2101280
  omega

/-- A valid envelope is written as the encoding of a text that reads back as its items. -/
theorem toBytes_valid {m : Metadata} {ciphertext : Bytes} (hm : m.Valid)
    (hc : ValidCiphertext ciphertext) :
    ∃ data, (m.envelope ciphertext).toBytes = .ok data ∧ data ≠ [] ∧
      data.length ≤ maxEnvelopeBytes ∧
      ((do loads MessageEnvelope.hooks (← decode data)) : Except PyError Value) =
        .ok (.dict (sortByKey (envelopeItems m ciphertext))) := by
  obtain ⟨text, htext, hno, hsize, hflat⟩ := dumps_envelope hm hc
  obtain ⟨data, hencode, hlen, hdecode⟩ := encode_decode (κ := ErrorClass) hno
  have hbuilds : MessageEnvelope.hooks.Builds := builds_of_rejectDuplicateKeys _ _
  have hloads := loads_flat hbuilds hflat (envelopeItems_distinct m ciphertext) htext
  refine ⟨data, ?_, ?_, hlen.trans_le hsize, ?_⟩
  · rw [MessageEnvelope.toBytes, validateComplete_ok.mpr ⟨rfl, hm, hc⟩, ok_bind]
    simp only
    rw [← envelopeItems, htext, ok_bind, hencode, ok_bind, raiseIf_neg (by omega)]
    rfl
  · rintro rfl
    cases hdecode
    exact absurd hloads (by
      show ¬ loads MessageEnvelope.hooks [] = _
      simp [loads, scanOnce, skipSpace])
  · rw [hdecode, ok_bind]
    exact hloads

/-! ## Associated data -/

/-- The associated data of a metadata, without its checks. -/
def Metadata.associatedData (m : Metadata) : Except PyError Bytes := do
  encode (← dumps true true (.dict m.items))

/-- A valid metadata has associated data. -/
theorem Metadata.Valid.associatedData {m : Metadata} (hm : m.Valid) :
    ∃ data, m.associatedData = .ok data := by
  obtain ⟨text, htext, hno, -⟩ := dumps_flat (κ := ErrorClass) true true hm.flat
  obtain ⟨data, hencode, -⟩ := encode_decode (κ := ErrorClass) hno
  refine ⟨data, ?_⟩
  unfold Metadata.associatedData
  rw [htext, ok_bind, hencode]

/-- The associated data of an envelope is that of its metadata, which is valid. -/
theorem associatedData_ok {e : MessageEnvelope} {data : Bytes} :
    e.associatedData = .ok data ↔ ∃ m : Metadata,
      e = { m.envelope [] with ciphertext := e.ciphertext } ∧ m.Valid ∧
      m.associatedData = .ok data := by
  unfold MessageEnvelope.associatedData
  simp only [bind_eq_ok (x := e.validateMetadata), validateMetadata_ok, and_assoc]
  rfl

/-! ## Reading back -/

/-- The parsed items have the fields of an envelope. -/
theorem parse_toBytes {m : Metadata} {ciphertext : Bytes} {data : Bytes}
    (h : ((do loads MessageEnvelope.hooks (← decode data)) : Except PyError Value) =
      .ok (.dict (sortByKey (envelopeItems m ciphertext)))) :
    MessageEnvelope.parse data = .ok (sortByKey (envelopeItems m ciphertext)) := by
  have hnames : ∀ name, name ∈ fieldNames (sortByKey (envelopeItems m ciphertext)) ↔
      name ∈ envelopeFields := by
    intro name
    have hperm : [lit "v", lit "suite", lit "sender", lit "recipient", lit "sequence",
        lit "ciphertext"].Perm envelopeFields := by decide
    rw [fieldNames_sortByKey]
    exact hperm.mem_iff
  have hmissing := missingFields_eq_nil.mpr fun name hn => (hnames name).mpr hn
  have hunexpected := unexpectedFields_eq_nil.mpr fun name hn => (hnames name).mp hn
  exact bind_eq_ok.mpr ⟨_, convert_ok.mpr h,
    bind_eq_ok.mpr ⟨(), raiseIf_ok.mpr (not_not.mpr hmissing),
      bind_eq_ok.mpr ⟨(), raiseIf_ok.mpr (not_not.mpr hunexpected), rfl⟩⟩⟩

theorem construct_toBytes {m : Metadata} {ciphertext : Bytes} (hm : m.Valid)
    (hc : ValidCiphertext ciphertext) :
    MessageEnvelope.construct (sortByKey (envelopeItems m ciphertext)) =
      .ok (m.envelope ciphertext) := by
  have hitem : ∀ name v, (key name, v) ∈ envelopeItems m ciphertext →
      getItem (κ := ErrorClass) (sortByKey (envelopeItems m ciphertext)) (lit name) = .ok v :=
    fun name v h => getItem_sorted (envelopeItems_distinct m ciphertext) h
  have hne : ciphertext ≠ [] := by
    rintro rfl
    exact absurd hc.1 (by decide)
  rw [MessageEnvelope.construct,
    hitem "v" (.int m.version) (by simp [envelopeItems, Metadata.items]),
    hitem "suite" (.str m.suite) (by simp [envelopeItems, Metadata.items]),
    hitem "sender" (.str m.sender) (by simp [envelopeItems, Metadata.items]),
    hitem "recipient" (.str m.recipient) (by simp [envelopeItems, Metadata.items]),
    hitem "sequence" (.int m.sequence) (by simp [envelopeItems, Metadata.items]),
    hitem "ciphertext" (.str (hex ciphertext)) (by simp [envelopeItems])]
  simp only [ok_bind]
  rw [validateProtocolVersion_ok.mpr ⟨rfl, hm.version⟩,
    validateSuiteName_ok.mpr ⟨rfl, hm.suite⟩, ok_bind, ok_bind, validateParticipantName,
    validateName_ok.mpr ⟨rfl, hm.sender⟩, ok_bind, validateParticipantName,
    validateName_ok.mpr ⟨rfl, hm.recipient⟩, ok_bind, decodeCiphertext_hex hne]
  rfl

/-- **`from_bytes` inverts `to_bytes`** on every valid envelope. -/
theorem fromBytes_toBytes {m : Metadata} {ciphertext : Bytes} (hm : m.Valid)
    (hc : ValidCiphertext ciphertext) : ∃ data, (m.envelope ciphertext).toBytes = .ok data ∧
      MessageEnvelope.fromBytes (.bytes data) = .ok (m.envelope ciphertext) := by
  obtain ⟨data, hto, hne, hlen, hloads⟩ := toBytes_valid hm hc
  refine ⟨data, hto, ?_⟩
  rw [MessageEnvelope.fromBytes, raiseIf_neg hne, ok_bind, raiseIf_neg (by omega), ok_bind,
    parse_toBytes hloads, ok_bind, construct_toBytes hm hc, ok_bind,
    validateComplete_ok.mpr ⟨rfl, hm, hc⟩, ok_bind, hto, ok_bind, raiseIf_neg (by simp)]
  rfl

/-- What `to_bytes` writes, `from_bytes` reads. -/
theorem fromBytes_of_toBytes {e : MessageEnvelope} {data : Bytes} (h : e.toBytes = .ok data) :
    MessageEnvelope.fromBytes (.bytes data) = .ok e := by
  obtain ⟨⟨m, ciphertext⟩, hvalid, -⟩ := bind_eq_ok.mp h
  obtain ⟨rfl, hm, hc⟩ := validateComplete_ok.mp hvalid
  obtain ⟨data', hto, hfrom⟩ := fromBytes_toBytes hm hc
  obtain rfl := Except.ok.inj (h.symm.trans hto)
  exact hfrom

/-- What `from_bytes` accepts is valid and is what `to_bytes` writes. -/
theorem toBytes_fromBytes {data : Value} {e : MessageEnvelope}
    (h : MessageEnvelope.fromBytes data = .ok e) :
    ∃ m ciphertext bytes, data = .bytes bytes ∧ e.validateComplete = .ok (m, ciphertext) ∧
      e.toBytes = .ok bytes := by
  unfold MessageEnvelope.fromBytes at h
  split at h
  · rename_i bytes
    simp only [bind_eq_ok, raiseIf_ok, pure_eq_ok, not_not] at h
    obtain ⟨-, -, -, -, items, -, e', -, ⟨m, ciphertext⟩, hvalid, encoded, hto, -, rfl, rfl⟩ := h
    exact ⟨m, ciphertext, encoded, rfl, hvalid, hto⟩
  · cases h

/-! ## Outcomes -/

theorem parse_ensures (data : Bytes) :
    Ensures (fun items => ∀ name ∈ envelopeFields, name ∈ fieldNames items) IsEnvelopeError
      (MessageEnvelope.parse data) := by
  have hhooks : MessageEnvelope.hooks.Ensures
      fun e : PyError => isDecodeFailure e = true ∨ IsEnvelopeError e :=
    ensures_of_rejectDuplicateKeys (fun _ => Or.inr (isEnvelopeError _)) defaultConstant_ensures
  refine (convert_ensures (isEnvelopeError _) (loads_decode_ensures hhooks data)).bind
    fun raw _ => ?_
  split
  · exact (Ensures.raiseIf fun _ => isEnvelopeError _).bind fun _ hmissing =>
      (Ensures.raiseIf fun _ => isEnvelopeError _).bind fun _ _ =>
        missingFields_eq_nil.mp (not_not.mp hmissing)
  · exact .error (isEnvelopeError _)

theorem construct_ensures {items : List (Key × Value)}
    (h : ∀ name ∈ envelopeFields, name ∈ fieldNames items) :
    Ensures (fun _ => True) IsEnvelopeError (MessageEnvelope.construct items) := by
  have hitem : ∀ name : String, lit name ∈ envelopeFields →
      Ensures (fun _ => True) IsEnvelopeError (getItem items (lit name)) := by
    intro name hname
    obtain ⟨v, hv, -⟩ := getItem_isOk (κ := ErrorClass) (h _ hname)
    rw [hv]
    trivial
  have hname := fun field => validateName_ensures isEnvelopeError isEnvelopeError
    (lit "envelope " ++ lit field)
  exact (hitem "v" (by simp [envelopeFields])).bind fun _ _ =>
    (validateProtocolVersion_ensures _).bind fun _ _ =>
    (hitem "suite" (by simp [envelopeFields])).bind fun _ _ =>
    (validateSuiteName_ensures _).bind fun _ _ =>
    (hitem "sender" (by simp [envelopeFields])).bind fun _ _ => (hname "sender" _).bind fun _ _ =>
    (hitem "recipient" (by simp [envelopeFields])).bind fun _ _ =>
    (hname "recipient" _).bind fun _ _ =>
    (hitem "sequence" (by simp [envelopeFields])).bind fun _ _ =>
    (hitem "ciphertext" (by simp [envelopeFields])).bind fun _ _ =>
    (decodeCiphertext_ensures _).bind fun _ _ => trivial

/-- **Only `EnvelopeError` leaves `from_bytes`**, whatever it is given. -/
theorem fromBytes_ensures (data : Value) :
    Ensures (fun _ => True) IsEnvelopeError (MessageEnvelope.fromBytes data) := by
  unfold MessageEnvelope.fromBytes
  split
  · refine (Ensures.raiseIf fun _ => isEnvelopeError _).bind fun _ _ =>
      (Ensures.raiseIf fun _ => isEnvelopeError _).bind fun _ _ =>
        (parse_ensures _).bind fun items hitems => (construct_ensures hitems).bind fun e _ => ?_
    have hvalid := validateComplete_ensures e
    cases hc : e.validateComplete with
    | error err =>
      rw [hc] at hvalid
      exact hvalid
    | ok checked =>
      obtain ⟨m, ciphertext⟩ := checked
      obtain ⟨rfl, hm, hct⟩ := validateComplete_ok.mp hc
      obtain ⟨encoded, hto, -⟩ := fromBytes_toBytes hm hct
      rw [ok_bind, hto, ok_bind]
      exact (Ensures.raiseIf fun _ => isEnvelopeError _).bind fun _ _ => trivial
  · exact .error (isEnvelopeError _)

/-! ## The bijection -/

/-- The envelopes that `_validate_complete` accepts. -/
abbrev ValidEnvelope : Type := { e : MessageEnvelope // ∃ checked, e.validateComplete = .ok checked }

/-- The byte strings that `from_bytes` accepts. -/
abbrev AcceptedEnvelope : Type :=
  { data : Bytes // ∃ e, MessageEnvelope.fromBytes (.bytes data) = .ok e }

/-- **The envelope codec is exact**: valid envelopes are written, within the size limit, to byte
strings that read back as them; what is accepted is valid and is written as it was; anything else
is an `EnvelopeError`; and so the two are in bijection. -/
theorem envelope_codec_exact :
    (∀ e : MessageEnvelope, (∃ checked, e.validateComplete = .ok checked) →
      ∃ data, e.toBytes = .ok data ∧ data.length ≤ maxEnvelopeBytes ∧
        MessageEnvelope.fromBytes (.bytes data) = .ok e) ∧
    (∀ data : Bytes, match MessageEnvelope.fromBytes (.bytes data) with
      | .ok e => (∃ checked, e.validateComplete = .ok checked) ∧ e.toBytes = .ok data
      | .error err => IsEnvelopeError err) ∧
    ∃ codec : ValidEnvelope ≃ AcceptedEnvelope,
      ∀ e : ValidEnvelope, e.val.toBytes = .ok (codec e).val := by
  have hwrite : ∀ e : MessageEnvelope, (∃ checked, e.validateComplete = .ok checked) →
      ∃ data, e.toBytes = .ok data ∧ data.length ≤ maxEnvelopeBytes ∧
        MessageEnvelope.fromBytes (.bytes data) = .ok e := by
    rintro e ⟨⟨m, ciphertext⟩, h⟩
    obtain ⟨rfl, hm, hc⟩ := validateComplete_ok.mp h
    obtain ⟨data, hto, hfrom⟩ := fromBytes_toBytes hm hc
    obtain ⟨data', hto', -, hlen, -⟩ := toBytes_valid hm hc
    obtain rfl := Except.ok.inj (hto.symm.trans hto')
    exact ⟨data, hto, hlen, hfrom⟩
  have hread : ∀ (data : Bytes) (e : MessageEnvelope),
      MessageEnvelope.fromBytes (.bytes data) = .ok e →
      (∃ checked, e.validateComplete = .ok checked) ∧ e.toBytes = .ok data := by
    intro data e h
    obtain ⟨m, ciphertext, bytes, hdata, hvalid, hto⟩ := toBytes_fromBytes h
    cases hdata
    exact ⟨⟨_, hvalid⟩, hto⟩
  refine ⟨hwrite, fun data => ?_, ?_⟩
  · split
    · exact hread data _ ‹_›
    · exact (fromBytes_ensures (.bytes data)).of_error ‹_›
  · choose! write hto hlen hfrom using hwrite
    refine ⟨Equiv.ofBijective
      (fun e : ValidEnvelope => ⟨write e.val, e.val, hfrom e.val e.property⟩) ⟨?_, ?_⟩,
      fun e => hto e.val e.property⟩
    · rintro ⟨e, he⟩ ⟨f, hf⟩ heq
      have hdata : write e = write f := congrArg Subtype.val heq
      have := (hfrom e he).symm.trans ((congrArg _ (congrArg Value.bytes hdata)).trans (hfrom f hf))
      exact Subtype.ext (Except.ok.inj this)
    · rintro ⟨data, e, he⟩
      obtain ⟨hvalid, hdata⟩ := hread data e he
      exact ⟨⟨e, hvalid⟩, Subtype.ext (Except.ok.inj ((hto e hvalid).symm.trans hdata))⟩

end CypherSyntax
