import CypherSyntax.Handshake
import CypherSyntax.Wire.Codec

/-!
# The handshake codec

Each class of handshake messages is written and read exactly (`handshake_codec_exact`): every
constructible message has bytes, within the size limit, that read back as it; what is accepted is
constructible and is written as it was; anything else is a `HandshakeError`. No byte string is
accepted by two of the parsers, nor by one of them and the parser of envelopes.

`MessageFormat.Laws` is what a format needs for this; the three formats have it (`offer_laws`,
`response_laws`, `confirmation_laws`).
-/

namespace CypherSyntax

open Python Json

variable [Interpreter]

/-! ## Formats in general -/

/-- What makes a format exact. -/
structure MessageFormat.Laws {μ : Type} (format : MessageFormat μ) : Prop where
  flat : ∀ m, ∀ kv ∈ format.payload m, FlatField kv
  distinct : ∀ m, (format.payload m).Pairwise fun p q => p.1 ≠ q.1
  size : ∀ m, ((format.payload m).map fun kv => fieldSize false kv + 2).sum + 2 ≤
    maxHandshakeMessageBytes
  kind : ∀ m, (key "kind", .str format.kind) ∈ format.payload m
  names : ∀ m name, name ∈ fieldNames (format.payload m) ↔ name ∈ format.fields
  construct : ∀ m, format.construct (sortByKey (format.payload m)) = .ok (.ok m)
  outcome : ∀ raw, (∀ name ∈ format.fields, name ∈ fieldNames raw) →
    Ensures (fun built => Ensures (fun _ => True) IsFieldError built) IsHandshakeError
      (format.construct raw)

namespace MessageFormat.Laws

variable {μ : Type} {format : MessageFormat μ}

/-- Every message is written, and any hooks that build dictionaries read its payload. -/
theorem toBytes_loads (h : format.Laws) (m : μ) : ∃ data, format.toBytes m = .ok data ∧
    data ≠ [] ∧ data.length ≤ maxHandshakeMessageBytes ∧
    ∀ hooks : Hooks ErrorClass, hooks.Builds →
      ((do loads hooks (← decode data)) : Except PyError Value) =
        .ok (.dict (sortByKey (format.payload m))) := by
  obtain ⟨text, htext, hno, hsize⟩ := dumps_flat (κ := ErrorClass) false true (h.flat m)
  obtain ⟨data, hencode, hlen, hdecode⟩ := encode_decode (κ := ErrorClass) hno
  have hmax := hlen.trans_le (le_trans hsize (h.size m))
  have hread : ∀ hooks : Hooks ErrorClass, hooks.Builds →
      ((do loads hooks (← decode data)) : Except PyError Value) =
        .ok (.dict (sortByKey (format.payload m))) := by
    intro hooks hb
    rw [hdecode, ok_bind]
    exact loads_flat hb (h.flat m) (h.distinct m) htext
  refine ⟨data, ?_, ?_, hmax, hread⟩
  · rw [MessageFormat.toBytes, encodeMessage, htext, ok_bind, hencode, ok_bind,
      raiseIf_neg (by omega)]
    rfl
  · rintro rfl
    have hnil := hread handshakeHooks (builds_of_rejectDuplicateKeys _ _)
    exact absurd hnil (by
      show ¬ loads handshakeHooks [] = _
      simp [loads, scanOnce, skipSpace])

theorem parseMessage_toBytes (h : format.Laws) {m : μ} {data : Bytes} (hne : data ≠ [])
    (hlen : data.length ≤ maxHandshakeMessageBytes)
    (hread : ((do loads handshakeHooks (← decode data)) : Except PyError Value) =
      .ok (.dict (sortByKey (format.payload m)))) :
    parseMessage format.kind format.fields (.bytes data) =
      .ok (data, sortByKey (format.payload m)) := by
  have hnames : ∀ name, name ∈ fieldNames (sortByKey (format.payload m)) ↔ name ∈ format.fields :=
    fun name => fieldNames_sortByKey.trans (h.names m name)
  have hkind : (sortByKey (format.payload m)).lookup (.str (lit "kind")) =
      some (.str format.kind) := lookup_sortByKey (h.distinct m) (h.kind m)
  rw [parseMessage, raiseIf_neg hne, ok_bind, raiseIf_neg (by omega), ok_bind, hread]
  simp only [convert, ok_bind]
  rw [hkind, raiseIf_neg (by simp [isText]), ok_bind,
    missingFields_eq_nil.mpr fun name hn => (hnames name).mpr hn,
    unexpectedFields_eq_nil.mpr fun name hn => (hnames name).mp hn]
  rfl

/-- **`from_bytes` inverts `to_bytes`.** -/
theorem fromBytes_toBytes (h : format.Laws) (m : μ) : ∃ data, format.toBytes m = .ok data ∧
    data.length ≤ maxHandshakeMessageBytes ∧ format.fromBytes (.bytes data) = .ok m := by
  obtain ⟨data, hto, hne, hlen, hread⟩ := h.toBytes_loads m
  refine ⟨data, hto, hlen, ?_⟩
  rw [MessageFormat.fromBytes, h.parseMessage_toBytes hne hlen
    (hread handshakeHooks (builds_of_rejectDuplicateKeys _ _)), ok_bind]
  simp only
  rw [h.construct, ok_bind, constructAndVerifyCanonical]
  simp only [convert, ok_bind]
  rw [hto, ok_bind, raiseIf_neg (by simp)]
  rfl

/-- The data a parsed message came from. -/
theorem parseMessage_data {kind : Str} {fields : List Str} {data : Value}
    {p : Bytes × List (Key × Value)} (h : parseMessage kind fields data = .ok p) :
    data = .bytes p.1 := by
  unfold parseMessage at h
  split at h
  · simp only [bind_eq_ok, raiseIf_ok] at h
    obtain ⟨-, -, -, -, raw, -, h⟩ := h
    split at h
    · simp only [bind_eq_ok, raiseIf_ok, pure_eq_ok] at h
      obtain ⟨-, -, -, -, -, -, rfl⟩ := h
      rfl
    · cases h
  · cases h

/-- What `from_bytes` accepts is what `to_bytes` writes. -/
theorem toBytes_fromBytes {data : Value} {m : μ} (h : format.fromBytes data = .ok m) :
    ∃ bytes, data = .bytes bytes ∧ format.toBytes m = .ok bytes := by
  unfold MessageFormat.fromBytes at h
  obtain ⟨⟨bytes, raw⟩, hparse, h⟩ := bind_eq_ok.mp h
  simp only [constructAndVerifyCanonical, bind_eq_ok, raiseIf_ok, pure_eq_ok, not_not] at h
  obtain ⟨-, -, m', -, encoded, hto, -, rfl, rfl⟩ := h
  exact ⟨encoded, parseMessage_data hparse, hto⟩

/-- **Only `HandshakeError` leaves `from_bytes`**, whatever it is given. -/
theorem fromBytes_ensures (h : format.Laws) (data : Value) :
    Ensures (fun _ => True) IsHandshakeError (format.fromBytes data) := by
  refine (parseMessage_ensures _ _ data).bind fun p hp =>
    (h.outcome p.2 hp).bind fun built hbuilt => ?_
  have hconvert : Ensures (fun _ => True) IsHandshakeError
      (convert Exc.isTypeOrValueError
        (handshakeError (lit "handshake message contains invalid field values")) built) :=
    convert_ensures (isHandshakeError _) (hbuilt.mono (fun _ h => h) fun _ h => Or.inl h)
  refine hconvert.bind fun m _ => ?_
  obtain ⟨encoded, hto, -⟩ := h.fromBytes_toBytes m
  rw [hto, ok_bind]
  exact (Ensures.raiseIf fun _ => isHandshakeError _).bind fun _ _ => trivial

/-- A message is told by its kind, whoever parses it. -/
theorem kind_eq {ν : Type} {other : MessageFormat ν} (h : format.Laws) (ho : other.Laws)
    {data : Value} {m : μ} {n : ν} (hm : format.fromBytes data = .ok m)
    (hn : other.fromBytes data = .ok n) : format.kind = other.kind := by
  have hbuilds : handshakeHooks.Builds := builds_of_rejectDuplicateKeys _ _
  obtain ⟨bytes, rfl, hto⟩ := toBytes_fromBytes hm
  obtain ⟨bytes', hbytes, hto'⟩ := toBytes_fromBytes hn
  cases hbytes
  obtain ⟨data, hdata, -, -, hread⟩ := h.toBytes_loads m
  obtain ⟨data', hdata', -, -, hread'⟩ := ho.toBytes_loads n
  obtain rfl := Except.ok.inj (hto.symm.trans hdata)
  obtain rfl := Except.ok.inj (hto'.symm.trans hdata')
  have hitems := Value.dict.inj (Except.ok.inj
    ((hread handshakeHooks hbuilds).symm.trans (hread' handshakeHooks hbuilds)))
  have hkind := lookup_sortByKey (h.distinct m) (h.kind m)
  rw [hitems, lookup_sortByKey (ho.distinct n) (ho.kind n)] at hkind
  exact (Value.str.inj (Option.some.inj hkind)).symm

/-- No handshake message is an envelope, which has no kind. -/
theorem not_envelope (h : format.Laws) {data : Value} {m : μ} {e : MessageEnvelope}
    (hm : format.fromBytes data = .ok m) : ¬ MessageEnvelope.fromBytes data = .ok e := by
  intro he
  obtain ⟨bytes, rfl, hto⟩ := toBytes_fromBytes hm
  obtain ⟨metadata, ciphertext, bytes', hbytes, hvalid, hto'⟩ := CypherSyntax.toBytes_fromBytes he
  cases hbytes
  obtain ⟨rfl, hm', hct⟩ := validateComplete_ok.mp hvalid
  obtain ⟨data, hdata, -, -, hread⟩ := h.toBytes_loads m
  obtain ⟨data', hdata', -, -, hread'⟩ := toBytes_valid hm' hct
  obtain rfl := Except.ok.inj (hto.symm.trans hdata)
  obtain rfl := Except.ok.inj (hto'.symm.trans hdata')
  have hitems := Value.dict.inj (Except.ok.inj
    ((hread MessageEnvelope.hooks (builds_of_rejectDuplicateKeys _ _)).symm.trans hread'))
  have hmem := mem_sortByKey.mpr (h.kind m)
  rw [hitems, mem_sortByKey] at hmem
  have hname : lit "kind" ∈ fieldNames (envelopeItems metadata ciphertext) :=
    mem_fieldNames.mpr ⟨_, hmem⟩
  exact absurd (show lit "kind" ∈ [lit "v", lit "suite", lit "sender", lit "recipient",
    lit "sequence", lit "ciphertext"] from hname) (by decide)

end MessageFormat.Laws

/-! ## The three formats -/

omit [Interpreter] in
theorem suite_plain {suite : Str} (h : suite ∈ supportedHandshakeSuites) :
    suite.all isPlain = true ∧ suite.length ≤ 17 := by
  rcases List.mem_cons.mp h with rfl | h
  · decide
  · obtain rfl := List.mem_singleton.mp h
    decide

namespace ValidHeader

variable {version : Int} {suite initiator responder : Str}

/-- The four fields that every message has, in its payload. -/
def payload (version : Int) (suite initiator responder : Str) : List (Key × Value) :=
  [(key "v", .int version), (key "suite", .str suite), (key "initiator", .str initiator),
    (key "responder", .str responder)]

theorem flat (h : ValidHeader version suite initiator responder) :
    ∀ kv ∈ payload version suite initiator responder, FlatField kv := by
  unfold payload
  simp only [List.forall_mem_cons]
  refine ⟨flatField_int (by decide) ?_, flatField_str (by decide) ?_,
    flatField_str (by decide) h.initiator_valid.noSurrogates,
    flatField_str (by decide) h.responder_valid.noSurrogates,
    fun _ h => absurd h List.not_mem_nil⟩
  · rw [h.version_eq]
    exact digitsAllowed_of_lt (k := 1) (by decide) (by decide) (by decide) (by decide)
  · exact noSurrogates_ascii (ascii_of_plain (suite_plain h.suite_mem).1)

/-- The four fields never take more than 1100 bytes. -/
theorem size_le (h : ValidHeader version suite initiator responder) :
    ((payload version suite initiator responder).map fun kv => fieldSize false kv + 2).sum ≤
      1100 := by
  have hversion : utf8Size (intText version) ≤ 1 := by
    rw [h.version_eq]
    exact intText_size (by decide) (by decide) (by decide)
  have hsuite := encodeString_plain false (suite_plain h.suite_mem).1
  have hlen := (suite_plain h.suite_mem).2
  have hinitiator : utf8Size (encodeString false initiator) ≤ 2 * 255 + 2 :=
    h.initiator_valid.encodeString_size false
  have hresponder : utf8Size (encodeString false responder) ≤ 2 * 255 + 2 :=
    h.responder_valid.encodeString_size false
  have hkeys : (lit "v").length = 1 ∧ (lit "suite").length = 5 ∧ (lit "initiator").length = 9 ∧
      (lit "responder").length = 9 := by decide
  simp only [payload, key, List.map_cons, List.map_nil, List.sum_cons, List.sum_nil]
  rw [fieldSize_int (by decide), fieldSize_str (by decide), fieldSize_str (by decide),
    fieldSize_str (by decide)]
  omega

end ValidHeader

/-- The payload of a message: its kind, the four common fields and its byte strings. -/
def messagePayload (kind : String) (version : Int) (suite initiator responder : Str)
    (names : List String) (binary : List Bytes) : List (Key × Value) :=
  (key "kind", .str (lit kind)) :: (ValidHeader.payload version suite initiator responder ++
    (names.zip binary).map fun p => (key p.1, .str (hex p.2)))

/-- The names of the fields of such a payload. -/
def payloadNames (names : List String) : List Str :=
  [lit "kind", lit "v", lit "suite", lit "initiator", lit "responder"] ++ names.map lit

omit [Interpreter] in
theorem binary_size {names : List String} {binary : List Bytes}
    (hn : ∀ name ∈ names, (lit name).all isPlain = true ∧ (lit name).length ≤ 30)
    (hb : ∀ b ∈ binary, b.length ≤ 64) :
    (((names.zip binary).map fun p => ((key p.1, .str (hex p.2)) : Key × Value)).map
      fun kv => fieldSize false kv + 2).sum ≤ 164 * names.length := by
  induction names generalizing binary with
  | nil => exact Nat.zero_le _
  | cons name names ih =>
    cases binary with
    | nil => exact Nat.zero_le _
    | cons b binary =>
      obtain ⟨⟨hplain, hname⟩, hn⟩ := List.forall_mem_cons.mp hn
      obtain ⟨hlen, hb⟩ := List.forall_mem_cons.mp hb
      have := ih hn hb
      rw [List.zip_cons_cons, List.map_cons, List.map_cons, List.sum_cons, List.length_cons, key,
        fieldSize_hex hplain]
      dsimp only
      omega

/-- How the payload of a format is made up. -/
structure Shape {μ : Type} (format : MessageFormat μ) where
  kind : String
  names : List String
  version : μ → Int
  suite : μ → Str
  initiator : μ → Str
  responder : μ → Str
  binary : μ → List Bytes
  header : ∀ m, ValidHeader (version m) (suite m) (initiator m) (responder m)
  binary_length : ∀ m, (binary m).length = names.length
  binary_short : ∀ m, ∀ b ∈ binary m, b.length ≤ 64
  kind_eq : format.kind = lit kind
  payload_eq : ∀ m, format.payload m =
    messagePayload kind (version m) (suite m) (initiator m) (responder m) names (binary m)
  kind_plain : (lit kind).all isPlain = true ∧ (lit kind).length ≤ 12
  names_plain : ∀ name ∈ names, (lit name).all isPlain = true ∧ (lit name).length ≤ 30
  names_few : names.length ≤ 7
  names_perm : (payloadNames names).Perm format.fields
  names_nodup : (payloadNames names).Nodup

namespace Shape

variable {μ : Type} {format : MessageFormat μ} (shape : Shape format)

include shape

theorem flat (m : μ) : ∀ kv ∈ format.payload m, FlatField kv := by
  rw [shape.payload_eq]
  refine List.forall_mem_cons.mpr ⟨?_, List.forall_mem_append.mpr ⟨(shape.header m).flat, ?_⟩⟩
  · exact flatField_str (by decide) (noSurrogates_ascii (ascii_of_plain shape.kind_plain.1))
  · intro kv hkv
    obtain ⟨p, hp, rfl⟩ := List.mem_map.mp hkv
    exact flatField_hex (shape.names_plain p.1 (List.of_mem_zip hp).1).1 p.2

theorem size (m : μ) : ((format.payload m).map fun kv => fieldSize false kv + 2).sum + 2 ≤
    maxHandshakeMessageBytes := by
  have hheader := (shape.header m).size_le
  have hbinary := binary_size shape.names_plain (shape.binary_short m)
  have hkind := encodeString_plain false shape.kind_plain.1
  have hlen := shape.kind_plain.2
  have hfew := shape.names_few
  have hkey : (lit "kind").length = 4 := by decide
  rw [shape.payload_eq, messagePayload, List.map_cons, List.sum_cons, List.map_append,
    List.sum_append, key, fieldSize_str (by decide)]
  show _ ≤ 4096
  omega

theorem keys (m : μ) :
    (format.payload m).map Prod.fst = (payloadNames shape.names).map Key.str := by
  have hzip : (shape.names.zip (shape.binary m)).map (fun p => Key.str (lit p.1)) =
      shape.names.map fun name => Key.str (lit name) := by
    have hfst := List.map_fst_zip (le_of_eq (shape.binary_length m).symm)
    conv_rhs => rw [← hfst, List.map_map]
    rfl
  rw [shape.payload_eq, messagePayload, payloadNames]
  simp only [ValidHeader.payload, List.map_cons, List.map_map, Function.comp_def, key,
    List.cons_append, List.nil_append, hzip]

theorem names_iff (m : μ) (name : Str) :
    name ∈ fieldNames (format.payload m) ↔ name ∈ format.fields := by
  rw [mem_fieldNames, ← shape.names_perm.mem_iff]
  have hkeys := shape.keys m
  constructor
  · rintro ⟨v, hv⟩
    have hmem : Key.str name ∈ (format.payload m).map Prod.fst := List.mem_map.mpr ⟨_, hv, rfl⟩
    rw [hkeys] at hmem
    obtain ⟨name', hname', heq⟩ := List.mem_map.mp hmem
    exact Key.str.inj heq ▸ hname'
  · intro hname
    have hmem : Key.str name ∈ (format.payload m).map Prod.fst :=
      hkeys ▸ List.mem_map.mpr ⟨name, hname, rfl⟩
    obtain ⟨⟨k, v⟩, hv, hk⟩ := List.mem_map.mp hmem
    cases hk
    exact ⟨v, hv⟩

theorem distinct (m : μ) : (format.payload m).Pairwise fun p q => p.1 ≠ q.1 := by
  have hkeys : ((format.payload m).map Prod.fst).Pairwise (· ≠ ·) := by
    rw [shape.keys, List.pairwise_map]
    exact shape.names_nodup.imp fun hne h => hne (Key.str.inj h)
  exact List.pairwise_map.mp hkeys

/-! ### Reading a sorted payload -/

theorem header_items (m : μ) :
    let raw := sortByKey (format.payload m)
    getItem (κ := ErrorClass) raw (lit "v") = .ok (.int (shape.version m)) ∧
      getItem (κ := ErrorClass) raw (lit "suite") = .ok (.str (shape.suite m)) ∧
      getItem (κ := ErrorClass) raw (lit "initiator") = .ok (.str (shape.initiator m)) ∧
      getItem (κ := ErrorClass) raw (lit "responder") = .ok (.str (shape.responder m)) := by
  have hitem : ∀ name v, (key name, v) ∈ ValidHeader.payload (shape.version m) (shape.suite m)
      (shape.initiator m) (shape.responder m) →
      getItem (κ := ErrorClass) (sortByKey (format.payload m)) (lit name) = .ok v := by
    intro name v h
    refine getItem_sorted (shape.distinct m) ?_
    rw [shape.payload_eq]
    exact List.mem_cons_of_mem _ (List.mem_append_left _ h)
  unfold ValidHeader.payload at hitem
  exact ⟨hitem "v" _ (by simp only [List.mem_cons, true_or]),
    hitem "suite" _ (by simp only [List.mem_cons, true_or, or_true]),
    hitem "initiator" _ (by simp only [List.mem_cons, true_or, or_true]),
    hitem "responder" _ (by simp only [List.mem_cons, true_or, or_true])⟩

theorem binary_item {m : μ} {name : String} {b : Bytes}
    (h : (name, b) ∈ shape.names.zip (shape.binary m)) :
    getItem (κ := ErrorClass) (sortByKey (format.payload m)) (lit name) = .ok (.str (hex b)) := by
  refine getItem_sorted (shape.distinct m) ?_
  rw [shape.payload_eq]
  exact List.mem_cons_of_mem _ (List.mem_append_right _ (List.mem_map.mpr ⟨_, h, rfl⟩))

/-- A shape and the two facts about the constructor make a format exact. -/
theorem laws (construct : ∀ m, format.construct (sortByKey (format.payload m)) = .ok (.ok m))
    (outcome : ∀ raw, (∀ name ∈ format.fields, name ∈ fieldNames raw) →
      Ensures (fun built => Ensures (fun _ => True) IsFieldError built) IsHandshakeError
        (format.construct raw)) : format.Laws where
  flat := shape.flat
  distinct := shape.distinct
  size := shape.size
  kind m := by
    rw [shape.payload_eq, shape.kind_eq]
    exact List.mem_cons_self
  names := shape.names_iff
  construct := construct
  outcome := outcome

end Shape

def offerShape : Shape offerFormat where
  kind := "offer"
  names := ["initiator_ephemeral_public_key", "initiator_signing_public_key", "signature"]
  version m := m.version
  suite m := m.suite
  initiator m := m.initiator
  responder m := m.responder
  binary m := [m.initiatorEphemeralPublicKey, m.initiatorSigningPublicKey, m.signature]
  header m := m.header
  binary_length _ := rfl
  binary_short m := by
    have he : m.initiatorEphemeralPublicKey.length = 32 := m.initiatorEphemeralPublicKey_length
    have hk : m.initiatorSigningPublicKey.length = 32 := m.initiatorSigningPublicKey_length
    have hs : m.signature.length = 64 := m.signature_length
    simp only [List.forall_mem_cons]
    exact ⟨by omega, by omega, by omega, fun _ h => absurd h List.not_mem_nil⟩
  kind_eq := rfl
  payload_eq _ := rfl
  kind_plain := by decide
  names_plain := by decide
  names_few := by decide
  names_perm := by
    simp only [offerFormat]
    decide
  names_nodup := by decide

theorem HandshakeResponse.validHeader (m : HandshakeResponse) :
    ValidHeader m.version m.suite m.initiator m.responder := m.header

def responseShape : Shape responseFormat where
  kind := "response"
  names := ["initiator_ephemeral_public_key", "initiator_signing_public_key",
    "responder_ephemeral_public_key", "responder_signing_public_key",
    "responder_key_confirmation", "signature"]
  version m := m.version
  suite m := m.suite
  initiator m := m.initiator
  responder m := m.responder
  binary m := [m.initiatorEphemeralPublicKey, m.initiatorSigningPublicKey,
    m.responderEphemeralPublicKey, m.responderSigningPublicKey, m.responderKeyConfirmation,
    m.signature]
  header := HandshakeResponse.validHeader
  binary_length _ := rfl
  binary_short m := by
    have he : m.initiatorEphemeralPublicKey.length = 32 := m.initiatorEphemeralPublicKey_length
    have hk : m.initiatorSigningPublicKey.length = 32 := m.initiatorSigningPublicKey_length
    have hre : m.responderEphemeralPublicKey.length = 32 := m.responderEphemeralPublicKey_length
    have hrk : m.responderSigningPublicKey.length = 32 := m.responderSigningPublicKey_length
    have hc : m.responderKeyConfirmation.length = 32 := m.responderKeyConfirmation_length
    have hs : m.signature.length = 64 := m.signature_length
    simp only [List.forall_mem_cons]
    exact ⟨by omega, by omega, by omega, by omega, by omega, by omega,
      fun _ h => absurd h List.not_mem_nil⟩
  kind_eq := rfl
  payload_eq _ := rfl
  kind_plain := by decide
  names_plain := by decide
  names_few := by decide
  names_perm := by
    simp only [responseFormat]
    decide
  names_nodup := by decide

def confirmationShape : Shape confirmationFormat where
  kind := "confirmation"
  names := ["initiator_ephemeral_public_key", "responder_ephemeral_public_key",
    "initiator_key_confirmation", "signature"]
  version m := m.version
  suite m := m.suite
  initiator m := m.initiator
  responder m := m.responder
  binary m := [m.initiatorEphemeralPublicKey, m.responderEphemeralPublicKey,
    m.initiatorKeyConfirmation, m.signature]
  header m := m.header
  binary_length _ := rfl
  binary_short m := by
    have he : m.initiatorEphemeralPublicKey.length = 32 := m.initiatorEphemeralPublicKey_length
    have hre : m.responderEphemeralPublicKey.length = 32 := m.responderEphemeralPublicKey_length
    have hc : m.initiatorKeyConfirmation.length = 32 := m.initiatorKeyConfirmation_length
    have hs : m.signature.length = 64 := m.signature_length
    simp only [List.forall_mem_cons]
    exact ⟨by omega, by omega, by omega, by omega, fun _ h => absurd h List.not_mem_nil⟩
  kind_eq := rfl
  payload_eq _ := rfl
  kind_plain := by decide
  names_plain := by decide
  names_few := by decide
  names_perm := by
    simp only [confirmationFormat]
    decide
  names_nodup := by decide

/-! ### The constructors -/

omit [Interpreter] in
/-- A field that is there does not raise. -/
theorem getItem_ensures {fields : List Str} {raw : List (Key × Value)}
    (h : ∀ name ∈ fields, name ∈ fieldNames raw) (name : String) (hname : lit name ∈ fields) :
    Ensures (fun _ => True) IsHandshakeError (getItem raw (lit name)) := by
  obtain ⟨v, hv, -⟩ := getItem_isOk (κ := ErrorClass) (h _ hname)
  rw [hv]
  trivial

omit [Interpreter] in
theorem validateOfferFields_ensures [UnicodeData] (v s i r e k : Value) :
    Ensures (fun _ => True) IsFieldError (validateOfferFields v s i r e k) :=
  (validateVersion_ensures v).attach.bind fun _ _ =>
    (validateSuite_ensures s).attach.bind fun _ _ =>
      (validateParticipants_ensures i r).attach.bind fun _ _ =>
        (validateBytes_ensures _ _ e).attach.bind fun _ _ =>
          (validateBytes_ensures _ _ k).attach.bind fun _ _ => trivial

theorem offer_laws : offerFormat.Laws := by
  refine offerShape.laws (fun m => ?_) fun raw h => ?_
  · obtain ⟨hv, hs, hi, hr⟩ := offerShape.header_items m
    have he := offerShape.binary_item (m := m) List.mem_cons_self
    have hk := offerShape.binary_item (m := m) (List.mem_cons_of_mem _ List.mem_cons_self)
    have hg := offerShape.binary_item (m := m)
      (List.mem_cons_of_mem _ (List.mem_cons_of_mem _ List.mem_cons_self))
    have hnew : HandshakeOffer.new (.int m.version) (.str m.suite) (.str m.initiator)
        (.str m.responder) (.bytes m.initiatorEphemeralPublicKey)
        (.bytes m.initiatorSigningPublicKey) (.bytes m.signature) = .ok m :=
      HandshakeOffer.new_ok.mpr
        ⟨validateOfferFields_ok.mpr ⟨rfl, rfl, rfl, rfl, rfl, rfl⟩, rfl⟩
    show offerFormat.construct _ = _
    simp only [offerFormat] at hv hs hi hr he hk hg ⊢
    simp only [hv, hs, hi, hr, he, hk, hg, ok_bind,
      decodeHex_hex _ m.initiatorEphemeralPublicKey_length,
      decodeHex_hex _ m.initiatorSigningPublicKey_length, decodeHex_hex _ m.signature_length]
    exact congrArg Except.ok hnew
  · have hfields := h
    simp only [offerFormat] at hfields
    have hitem := getItem_ensures hfields
    exact (hitem "v" (by decide)).bind fun _ _ => (hitem "suite" (by decide)).bind fun _ _ =>
      (hitem "initiator" (by decide)).bind fun _ _ =>
      (hitem "responder" (by decide)).bind fun _ _ =>
      (hitem "initiator_ephemeral_public_key" (by decide)).bind fun _ _ =>
      (decodeHex_ensures _ _ _).bind fun _ _ =>
      (hitem "initiator_signing_public_key" (by decide)).bind fun _ _ =>
      (decodeHex_ensures _ _ _).bind fun _ _ => (hitem "signature" (by decide)).bind fun _ _ =>
      (decodeHex_ensures _ _ _).bind fun _ _ =>
        (validateOfferFields_ensures _ _ _ _ _ _).bind fun _ _ =>
          (validateBytes_ensures _ _ _).attach.bind fun _ _ => trivial

theorem response_laws : responseFormat.Laws := by
  refine responseShape.laws (fun m => ?_) fun raw h => ?_
  · obtain ⟨hv, hs, hi, hr⟩ := responseShape.header_items m
    have hbinary : ∀ name b, (name, b) ∈ responseShape.names.zip (responseShape.binary m) → _ :=
      fun name b => responseShape.binary_item
    have he := hbinary "initiator_ephemeral_public_key" m.initiatorEphemeralPublicKey
      (by simp [responseShape])
    have hk := hbinary "initiator_signing_public_key" m.initiatorSigningPublicKey
      (by simp [responseShape])
    have hre := hbinary "responder_ephemeral_public_key" m.responderEphemeralPublicKey
      (by simp [responseShape])
    have hrk := hbinary "responder_signing_public_key" m.responderSigningPublicKey
      (by simp [responseShape])
    have hc := hbinary "responder_key_confirmation" m.responderKeyConfirmation
      (by simp [responseShape])
    have hg := hbinary "signature" m.signature (by simp [responseShape])
    have hnew : HandshakeResponse.new (.int m.version) (.str m.suite) (.str m.initiator)
        (.str m.responder) (.bytes m.initiatorEphemeralPublicKey)
        (.bytes m.initiatorSigningPublicKey) (.bytes m.responderEphemeralPublicKey)
        (.bytes m.responderSigningPublicKey) (.bytes m.responderKeyConfirmation)
        (.bytes m.signature) = .ok m :=
      HandshakeResponse.new_ok.mpr
        ⟨validateOfferFields_ok.mpr ⟨rfl, rfl, rfl, rfl, rfl, rfl⟩, rfl, rfl, rfl, rfl⟩
    show responseFormat.construct _ = _
    simp only [responseFormat] at hv hs hi hr he hk hre hrk hc hg ⊢
    simp only [hv, hs, hi, hr, he, hk, hre, hrk, hc, hg, ok_bind,
      decodeHex_hex _ m.initiatorEphemeralPublicKey_length,
      decodeHex_hex _ m.initiatorSigningPublicKey_length,
      decodeHex_hex _ m.responderEphemeralPublicKey_length,
      decodeHex_hex _ m.responderSigningPublicKey_length,
      decodeHex_hex _ m.responderKeyConfirmation_length, decodeHex_hex _ m.signature_length]
    exact congrArg Except.ok hnew
  · have hfields := h
    simp only [responseFormat] at hfields
    have hitem := getItem_ensures hfields
    exact (hitem "v" (by decide)).bind fun _ _ => (hitem "suite" (by decide)).bind fun _ _ =>
      (hitem "initiator" (by decide)).bind fun _ _ =>
      (hitem "responder" (by decide)).bind fun _ _ =>
      (hitem "initiator_ephemeral_public_key" (by decide)).bind fun _ _ =>
      (decodeHex_ensures _ _ _).bind fun _ _ =>
      (hitem "initiator_signing_public_key" (by decide)).bind fun _ _ =>
      (decodeHex_ensures _ _ _).bind fun _ _ =>
      (hitem "responder_ephemeral_public_key" (by decide)).bind fun _ _ =>
      (decodeHex_ensures _ _ _).bind fun _ _ =>
      (hitem "responder_signing_public_key" (by decide)).bind fun _ _ =>
      (decodeHex_ensures _ _ _).bind fun _ _ =>
      (hitem "responder_key_confirmation" (by decide)).bind fun _ _ =>
      (decodeHex_ensures _ _ _).bind fun _ _ => (hitem "signature" (by decide)).bind fun _ _ =>
      (decodeHex_ensures _ _ _).bind fun _ _ =>
        (validateOfferFields_ensures _ _ _ _ _ _).bind fun _ _ =>
          (validateBytes_ensures _ _ _).attach.bind fun _ _ =>
          (Ensures.raiseIf fun _ => isFieldError_value _).attach.bind fun _ _ =>
          (validateBytes_ensures _ _ _).attach.bind fun _ _ =>
          (validateBytes_ensures _ _ _).attach.bind fun _ _ =>
          (validateBytes_ensures _ _ _).attach.bind fun _ _ => trivial

theorem confirmation_laws : confirmationFormat.Laws := by
  refine confirmationShape.laws (fun m => ?_) fun raw h => ?_
  · obtain ⟨hv, hs, hi, hr⟩ := confirmationShape.header_items m
    have hbinary : ∀ name b,
        (name, b) ∈ confirmationShape.names.zip (confirmationShape.binary m) → _ :=
      fun name b => confirmationShape.binary_item
    have he := hbinary "initiator_ephemeral_public_key" m.initiatorEphemeralPublicKey
      (by simp [confirmationShape])
    have hre := hbinary "responder_ephemeral_public_key" m.responderEphemeralPublicKey
      (by simp [confirmationShape])
    have hc := hbinary "initiator_key_confirmation" m.initiatorKeyConfirmation
      (by simp [confirmationShape])
    have hg := hbinary "signature" m.signature (by simp [confirmationShape])
    have hnew : HandshakeConfirmation.new (.int m.version) (.str m.suite) (.str m.initiator)
        (.str m.responder) (.bytes m.initiatorEphemeralPublicKey)
        (.bytes m.responderEphemeralPublicKey) (.bytes m.initiatorKeyConfirmation)
        (.bytes m.signature) = .ok m :=
      HandshakeConfirmation.new_ok.mpr ⟨rfl, rfl, rfl, rfl, rfl, rfl, rfl, rfl⟩
    show confirmationFormat.construct _ = _
    simp only [confirmationFormat] at hv hs hi hr he hre hc hg ⊢
    simp only [hv, hs, hi, hr, he, hre, hc, hg, ok_bind,
      decodeHex_hex _ m.initiatorEphemeralPublicKey_length,
      decodeHex_hex _ m.responderEphemeralPublicKey_length,
      decodeHex_hex _ m.initiatorKeyConfirmation_length, decodeHex_hex _ m.signature_length]
    exact congrArg Except.ok hnew
  · have hfields := h
    simp only [confirmationFormat] at hfields
    have hitem := getItem_ensures hfields
    exact (hitem "v" (by decide)).bind fun _ _ => (hitem "suite" (by decide)).bind fun _ _ =>
      (hitem "initiator" (by decide)).bind fun _ _ =>
      (hitem "responder" (by decide)).bind fun _ _ =>
      (hitem "initiator_ephemeral_public_key" (by decide)).bind fun _ _ =>
      (decodeHex_ensures _ _ _).bind fun _ _ =>
      (hitem "responder_ephemeral_public_key" (by decide)).bind fun _ _ =>
      (decodeHex_ensures _ _ _).bind fun _ _ =>
      (hitem "initiator_key_confirmation" (by decide)).bind fun _ _ =>
      (decodeHex_ensures _ _ _).bind fun _ _ => (hitem "signature" (by decide)).bind fun _ _ =>
      (decodeHex_ensures _ _ _).bind fun _ _ =>
        (validateVersion_ensures _).attach.bind fun _ _ =>
        (validateSuite_ensures _).attach.bind fun _ _ =>
        (validateParticipants_ensures _ _).attach.bind fun _ _ =>
        (validateBytes_ensures _ _ _).attach.bind fun _ _ =>
        (validateBytes_ensures _ _ _).attach.bind fun _ _ =>
        (Ensures.raiseIf fun _ => isFieldError_value _).attach.bind fun _ _ =>
        (validateBytes_ensures _ _ _).attach.bind fun _ _ =>
        (validateBytes_ensures _ _ _).attach.bind fun _ _ => trivial

/-! ## Exactness and separation -/

/-- What it means that a class of messages is written and read exactly. -/
def Exact {μ : Type} (toBytes : μ → Except PyError Bytes) (fromBytes : Value → Except PyError μ) :
    Prop :=
  (∀ m, ∃ data, toBytes m = .ok data ∧ data.length ≤ maxHandshakeMessageBytes ∧
    fromBytes (.bytes data) = .ok m) ∧
  ∀ data : Bytes, match fromBytes (.bytes data) with
    | .ok m => toBytes m = .ok data
    | .error e => IsHandshakeError e

theorem MessageFormat.Laws.exact {μ : Type} {format : MessageFormat μ} (h : format.Laws) :
    Exact format.toBytes format.fromBytes := by
  refine ⟨h.fromBytes_toBytes, fun data => ?_⟩
  split
  · rename_i m hm
    obtain ⟨bytes, hbytes, hto⟩ := MessageFormat.Laws.toBytes_fromBytes hm
    cases hbytes
    exact hto
  · rename_i e he
    exact (h.fromBytes_ensures (.bytes data)).of_error he

def Accepts {μ : Type} (fromBytes : Value → Except PyError μ) (data : Bytes) : Prop :=
  ∃ m, fromBytes (.bytes data) = .ok m

/-- **The handshake codec is exact and tells the kinds apart**: the three classes of messages are
each written and read exactly, and no byte string is accepted by two of the four parsers. -/
theorem handshake_codec_exact :
    Exact HandshakeOffer.toBytes HandshakeOffer.fromBytes ∧
    Exact HandshakeResponse.toBytes HandshakeResponse.fromBytes ∧
    Exact HandshakeConfirmation.toBytes HandshakeConfirmation.fromBytes ∧
    ∀ data : Bytes, [Accepts HandshakeOffer.fromBytes data,
      Accepts HandshakeResponse.fromBytes data, Accepts HandshakeConfirmation.fromBytes data,
      Accepts MessageEnvelope.fromBytes data].Pairwise fun p q => ¬ (p ∧ q) := by
  have hor : ¬ offerFormat.kind = responseFormat.kind := by
    simp only [offerFormat, responseFormat]
    decide
  have hoc : ¬ offerFormat.kind = confirmationFormat.kind := by
    simp only [offerFormat, confirmationFormat]
    decide
  have hrc : ¬ responseFormat.kind = confirmationFormat.kind := by
    simp only [responseFormat, confirmationFormat]
    decide
  refine ⟨offer_laws.exact, response_laws.exact, confirmation_laws.exact, fun data => ?_⟩
  simp only [List.pairwise_cons, List.forall_mem_cons]
  refine ⟨⟨?_, ?_, ?_, by simp⟩, ⟨?_, ?_, by simp⟩, ⟨?_, by simp⟩, by simp⟩
  · rintro ⟨⟨_, ho⟩, _, hr⟩
    exact hor (offer_laws.kind_eq response_laws ho hr)
  · rintro ⟨⟨_, ho⟩, _, hc⟩
    exact hoc (offer_laws.kind_eq confirmation_laws ho hc)
  · rintro ⟨⟨_, ho⟩, _, he⟩
    exact offer_laws.not_envelope ho he
  · rintro ⟨⟨_, hr⟩, _, hc⟩
    exact hrc (response_laws.kind_eq confirmation_laws hr hc)
  · rintro ⟨⟨_, hr⟩, _, he⟩
    exact response_laws.not_envelope hr he
  · rintro ⟨⟨_, hc⟩, _, he⟩
    exact confirmation_laws.not_envelope hc he

end CypherSyntax
