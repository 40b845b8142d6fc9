import CypherSyntax.Names

/-!
# Message envelopes

`MessageEnvelope` of `src/cyphersyntax/wire.py`, with its checks in their order and the texts of
their errors.

* Its fields hold any object until they are validated, as in the source, where `from_bytes` stores
  the parsed `sequence` before it checks it. `validateMetadata` and `validateComplete` return the
  fields they have checked.
* The bytes of an envelope are JSON. Writing and reading them is in `Wire/Codec.lean`.

Results:
* `validateMetadata_ok`, `validateComplete_ok`: the valid envelopes are those of `Metadata.Valid`
  with a ciphertext of the right size.
* `validateMetadata_ensures`, `validateComplete_ensures`: they raise `EnvelopeError` only.
-/

namespace CypherSyntax

open Python Json

/-! ## Fields -/

/-- `_ENVELOPE_FIELDS`, sorted. -/
def envelopeFields : List Str :=
  [lit "ciphertext", lit "recipient", lit "sender", lit "sequence", lit "suite", lit "v"]

def validateProtocolVersion : Value → Except PyError Int
  | .int version => do
    raiseIf (¬ (1 ≤ version ∧ version ≤ maxProtocolVersion))
      (envelopeError (lit "envelope version is outside the supported wire range"))
    return version
  | _ => .error (envelopeError (lit "envelope version must be an integer"))

def isUpper (c : CodePoint) : Bool := 0x41 ≤ c.val && c.val ≤ 0x5A

/-- `[A-Z][A-Z0-9_]*\Z` -/
def suitePattern : Str → Bool
  | [] => false
  | c :: s => isUpper c && s.all fun d => isUpper d || isDigit d || d == 0x5F

def validateSuiteName : Value → Except PyError Str
  | .str suite =>
    match encodeAscii suite with
    | none => .error (envelopeError (lit "envelope suite must contain only ASCII characters"))
    | some encoded => do
      raiseIf (encoded = [] ∨ maxSuiteNameBytes < encoded.length)
        (envelopeError (lit "envelope suite must contain 1 to " ++ natText maxSuiteNameBytes ++
          lit " bytes"))
      raiseIf (suitePattern suite = false)
        (envelopeError (lit "envelope suite contains invalid characters"))
      return suite
  | _ => .error (envelopeError (lit "envelope suite must be a string"))

def validateParticipantName [UnicodeData] (fieldName : String) (value : Value) :
    Except PyError Str :=
  validateName envelopeError envelopeError (lit "envelope " ++ lit fieldName) value

def validateCiphertext : Value → Except PyError Bytes
  | .bytes ciphertext => do
    raiseIf (ciphertext.length < aeadTagBytes)
      (envelopeError (lit "envelope ciphertext is shorter than the AEAD tag"))
    raiseIf (maxCiphertextBytes < ciphertext.length)
      (envelopeError (lit "envelope ciphertext exceeds the maximum size"))
    return ciphertext
  | _ => .error (envelopeError (lit "envelope ciphertext must be bytes"))

/-- `[0-9a-f]+\Z` -/
def hexPattern (s : Str) : Bool := !s.isEmpty && s.all isLowerHex

def decodeCiphertext : Value → Except PyError Bytes
  | .str value => do
    raiseIf (value.length % 2 ≠ 0)
      (envelopeError (lit "envelope ciphertext must contain an even number of hex digits"))
    raiseIf (hexPattern value = false)
      (envelopeError (lit "envelope ciphertext must use canonical lowercase hexadecimal"))
    match fromhex value with
    | some ciphertext => return ciphertext
    | none => throw (envelopeError (lit "envelope ciphertext is not valid hexadecimal"))
  | _ => .error (envelopeError (lit "envelope ciphertext encoding must be a string"))

/-! ## Envelopes -/

structure MessageEnvelope where
  version : Value
  suite : Value
  sender : Value
  recipient : Value
  sequence : Value
  ciphertext : Value

/-- The fields that `_validate_metadata` checks. -/
structure Metadata where
  version : Int
  suite : Str
  sender : Str
  recipient : Str
  sequence : Int
  deriving DecidableEq

namespace Metadata

/-- The items the metadata adds to an object. -/
def items (m : Metadata) : List (Key × Value) :=
  [(key "v", .int m.version), (key "suite", .str m.suite), (key "sender", .str m.sender),
    (key "recipient", .str m.recipient), (key "sequence", .int m.sequence)]

/-- The envelope of a metadata and a ciphertext. -/
def envelope (m : Metadata) (ciphertext : Bytes) : MessageEnvelope :=
  ⟨.int m.version, .str m.suite, .str m.sender, .str m.recipient, .int m.sequence,
    .bytes ciphertext⟩

structure Valid [UnicodeData] (m : Metadata) : Prop where
  version : 1 ≤ m.version ∧ m.version ≤ maxProtocolVersion
  suite : m.suite.length ≤ maxSuiteNameBytes ∧ suitePattern m.suite = true
  sender : ValidName m.sender
  recipient : ValidName m.recipient
  distinct : m.sender ≠ m.recipient
  sequence : 0 ≤ m.sequence ∧ m.sequence ≤ maxMessageSequence

end Metadata

/-- Sizes of a ciphertext that `_validate_ciphertext` accepts. -/
def ValidCiphertext (ciphertext : Bytes) : Prop :=
  aeadTagBytes ≤ ciphertext.length ∧ ciphertext.length ≤ maxCiphertextBytes

/-- `except (TypeError, ValueError) as exc: raise EnvelopeError(str(exc)) from exc` -/
def asEnvelopeError {α : Type} : Except PyError α → Except PyError α
  | .ok a => .ok a
  | .error e => .error (if e.isTypeOrValueError then envelopeError e.message else e)

namespace MessageEnvelope

section Metadata

variable [UnicodeData]

def validateMetadata (self : MessageEnvelope) : Except PyError Metadata := do
  let version ← validateProtocolVersion self.version
  let suite ← validateSuiteName self.suite
  let sender ← validateParticipantName "sender" self.sender
  let recipient ← validateParticipantName "recipient" self.recipient
  raiseIf (sender = recipient)
    (envelopeError (lit "envelope sender and recipient must be distinct"))
  let sequence ← asEnvelopeError (validateMessageSequence self.sequence)
  return ⟨version, suite, sender, recipient, sequence⟩

def validateComplete (self : MessageEnvelope) : Except PyError (Metadata × Bytes) := do
  let metadata ← self.validateMetadata
  let ciphertext ← validateCiphertext self.ciphertext
  return (metadata, ciphertext)

end Metadata

variable [Interpreter]

def associatedData (self : MessageEnvelope) : Except PyError Bytes := do
  let metadata ← self.validateMetadata
  encode (← dumps true true (.dict metadata.items))

def toBytes (self : MessageEnvelope) : Except PyError Bytes := do
  let (metadata, ciphertext) ← self.validateComplete
  let payload := Value.dict (metadata.items ++ [(key "ciphertext", .str (hex ciphertext))])
  let encoded ← encode (← dumps true true payload)
  raiseIf (maxEnvelopeBytes < encoded.length)
    (envelopeError (lit "encoded message envelope exceeds the maximum size"))
  return encoded

/-- The hooks of `from_bytes`. -/
def hooks : Hooks ErrorClass where
  objectPairs :=
    rejectDuplicateKeys fun name => envelopeError (lit "duplicate envelope field: " ++ name)
  parseConstant := defaultConstant

/-- The items of a message, with the fields of an envelope. -/
def parse (data : Bytes) : Except PyError (List (Key × Value)) := do
  let raw ← convert isDecodeFailure (envelopeError (lit "failed to parse message envelope")) do
    loads hooks (← decode data)
  match raw with
  | .dict items =>
    let missing := missingFields envelopeFields items
    let unexpected := unexpectedFields envelopeFields items
    raiseIf (missing ≠ [])
      (envelopeError (lit "message envelope is missing fields: " ++ joinNames missing))
    raiseIf (unexpected ≠ [])
      (envelopeError (lit "message envelope contains unexpected fields: " ++ joinNames unexpected))
    return items
  | _ => throw (envelopeError (lit "message envelope must be a JSON object"))

/-- `cls(version=..., ...)` in `from_bytes`. -/
def construct (items : List (Key × Value)) : Except PyError MessageEnvelope := do
  let version ← validateProtocolVersion (← getItem items (lit "v"))
  let suite ← validateSuiteName (← getItem items (lit "suite"))
  let sender ← validateParticipantName "sender" (← getItem items (lit "sender"))
  let recipient ← validateParticipantName "recipient" (← getItem items (lit "recipient"))
  let sequence ← getItem items (lit "sequence")
  let ciphertext ← decodeCiphertext (← getItem items (lit "ciphertext"))
  return ⟨.int version, .str suite, .str sender, .str recipient, sequence, .bytes ciphertext⟩

def fromBytes : Value → Except PyError MessageEnvelope
  | .bytes data => do
    raiseIf (data = []) (envelopeError (lit "message envelope input must not be empty"))
    raiseIf (maxEnvelopeBytes < data.length)
      (envelopeError (lit "message envelope input exceeds the maximum size"))
    let envelope ← construct (← parse data)
    let _ ← envelope.validateComplete
    let encoded ← envelope.toBytes
    raiseIf (encoded ≠ data) (envelopeError (lit "message envelope is not canonically encoded"))
    return envelope
  | _ => .error (envelopeError (lit "message envelope input must be bytes"))

end MessageEnvelope

/-! ## What the validators accept -/

theorem validateProtocolVersion_ok {value : Value} {version : Int} :
    validateProtocolVersion value = .ok version ↔
      value = .int version ∧ 1 ≤ version ∧ version ≤ maxProtocolVersion := by
  unfold validateProtocolVersion
  split
  · simp only [bind_eq_ok, raiseIf_ok, pure_eq_ok, not_not]
    constructor
    · rintro ⟨-, h, rfl⟩
      exact ⟨rfl, h⟩
    · rintro ⟨h, hv⟩
      cases h
      exact ⟨(), hv, rfl⟩
  · rename_i hne
    constructor
    · intro h
      cases h
    · rintro ⟨rfl, -⟩
      exact absurd rfl (hne version)

theorem suitePattern_plain {s : Str} (h : suitePattern s = true) : s.all isPlain = true := by
  have hplain : ∀ c : CodePoint, (isUpper c || isDigit c || c == 0x5F) = true →
      isPlain c = true := by
    intro c hc
    simp only [isUpper, isDigit, isPlain, Bool.or_eq_true, Bool.and_eq_true, decide_eq_true_eq,
      beq_iff_eq, bne_iff_ne] at hc ⊢
    rcases hc with (hc | hc) | rfl
    · omega
    · omega
    · decide
  cases s with
  | nil => rfl
  | cons c s =>
    simp only [suitePattern, Bool.and_eq_true, List.all_eq_true] at h
    refine List.all_eq_true.mpr (List.forall_mem_cons.mpr
      ⟨hplain c ?_, fun d hd => hplain d (h.2 d hd)⟩)
    rw [h.1]
    rfl

theorem validateSuiteName_ok {value : Value} {suite : Str} :
    validateSuiteName value = .ok suite ↔ value = .str suite ∧
      suite.length ≤ maxSuiteNameBytes ∧ suitePattern suite = true := by
  unfold validateSuiteName
  split
  · rename_i s
    split
    · rename_i henc
      constructor
      · intro h
        cases h
      · rintro ⟨h, -, hp⟩
        cases h
        obtain ⟨b, hb, -⟩ := encodeAscii_of_ascii (ascii_of_plain (suitePattern_plain hp))
        rw [henc] at hb
        cases hb
    · rename_i encoded henc
      have hlen := (encodeAscii_eq_some henc).2
      simp only [bind_eq_ok, raiseIf_ok, pure_eq_ok, not_or, not_lt, Bool.not_eq_false]
      constructor
      · rintro ⟨-, ⟨-, hle⟩, -, hp, rfl⟩
        exact ⟨rfl, hlen ▸ hle, hp⟩
      · rintro ⟨h, hle, hp⟩
        cases h
        refine ⟨(), ⟨?_, hlen ▸ hle⟩, (), hp, rfl⟩
        rintro rfl
        obtain rfl := List.length_eq_zero_iff.mp hlen.symm
        cases hp
  · rename_i hne
    constructor
    · intro h
      cases h
    · rintro ⟨rfl, -⟩
      exact absurd rfl (hne suite)

theorem validateCiphertext_ok {value : Value} {ciphertext : Bytes} :
    validateCiphertext value = .ok ciphertext ↔
      value = .bytes ciphertext ∧ ValidCiphertext ciphertext := by
  unfold validateCiphertext ValidCiphertext
  split
  · simp only [bind_eq_ok, raiseIf_ok, pure_eq_ok, not_lt]
    constructor
    · rintro ⟨-, hlo, -, hhi, rfl⟩
      exact ⟨rfl, hlo, hhi⟩
    · rintro ⟨h, hlo, hhi⟩
      cases h
      exact ⟨(), hlo, (), hhi, rfl⟩
  · rename_i hne
    constructor
    · intro h
      cases h
    · rintro ⟨rfl, -⟩
      exact absurd rfl (hne ciphertext)

/-- The ciphertext of a nonempty lower-case text is read back. -/
theorem decodeCiphertext_hex {ciphertext : Bytes} (h : ciphertext ≠ []) :
    decodeCiphertext (.str (hex ciphertext)) = .ok ciphertext := by
  have hlen := hex_length ciphertext
  have hpos := List.length_pos_of_ne_nil h
  have hpattern : hexPattern (hex ciphertext) = true := by
    unfold hexPattern
    rw [Bool.and_eq_true, List.all_eq_true]
    refine ⟨?_, hex_lower ciphertext⟩
    rw [Bool.not_eq_true', List.isEmpty_eq_false_iff]
    intro hnil
    rw [hnil, List.length_nil] at hlen
    omega
  unfold decodeCiphertext
  simp only
  rw [raiseIf_neg (by omega), ok_bind, raiseIf_neg (by rw [hpattern]; simp), ok_bind, fromhex_hex]
  rfl

theorem asEnvelopeError_ok {α : Type} {x : Except PyError α} {a : α} :
    asEnvelopeError x = .ok a ↔ x = .ok a := by
  cases x <;> simp [asEnvelopeError]

section Validators

variable [UnicodeData]

theorem validateMetadata_ok {e : MessageEnvelope} {m : Metadata} :
    e.validateMetadata = .ok m ↔ e = { m.envelope [] with ciphertext := e.ciphertext } ∧
      m.Valid := by
  simp only [MessageEnvelope.validateMetadata, bind_eq_ok, validateProtocolVersion_ok,
    validateSuiteName_ok, validateParticipantName, validateName_ok, raiseIf_ok, asEnvelopeError_ok,
    validateMessageSequence_ok, pure_eq_ok]
  constructor
  · rintro ⟨v, ⟨hv, hv'⟩, s, ⟨hs, hs'⟩, n, ⟨hn, hn'⟩, r, ⟨hr, hr'⟩, -, hd, q, ⟨hq, hq'⟩, rfl⟩
    refine ⟨?_, hv', hs', hn', hr', hd, hq'⟩
    cases e
    cases hv
    cases hs
    cases hn
    cases hr
    cases hq
    rfl
  · rintro ⟨he, h⟩
    rw [he]
    exact ⟨m.version, ⟨rfl, h.version⟩, m.suite, ⟨rfl, h.suite⟩, m.sender, ⟨rfl, h.sender⟩,
      m.recipient, ⟨rfl, h.recipient⟩, (), h.distinct, m.sequence, ⟨rfl, h.sequence⟩, rfl⟩

theorem validateComplete_ok {e : MessageEnvelope} {m : Metadata} {ciphertext : Bytes} :
    e.validateComplete = .ok (m, ciphertext) ↔
      e = m.envelope ciphertext ∧ m.Valid ∧ ValidCiphertext ciphertext := by
  simp only [MessageEnvelope.validateComplete, bind_eq_ok, validateMetadata_ok,
    validateCiphertext_ok, pure_eq_ok, Prod.mk.injEq]
  constructor
  · rintro ⟨m', ⟨he, hm⟩, c, ⟨hc, hc'⟩, rfl, rfl⟩
    refine ⟨?_, hm, hc'⟩
    rw [he, hc]
    rfl
  · rintro ⟨rfl, hm, hc⟩
    exact ⟨m, ⟨rfl, hm⟩, ciphertext, ⟨rfl, hc⟩, rfl, rfl⟩

end Validators

/-! ## Outcomes -/

def IsEnvelopeError (e : PyError) : Prop := ∃ message, e = envelopeError message

theorem isEnvelopeError (message : Str) : IsEnvelopeError (envelopeError message) := ⟨message, rfl⟩

theorem validateProtocolVersion_ensures (value : Value) :
    Ensures (fun _ => True) IsEnvelopeError (validateProtocolVersion value) := by
  unfold validateProtocolVersion
  split
  · exact (Ensures.raiseIf fun _ => isEnvelopeError _).bind fun _ _ => trivial
  · exact .error (isEnvelopeError _)

theorem validateSuiteName_ensures (value : Value) :
    Ensures (fun _ => True) IsEnvelopeError (validateSuiteName value) := by
  unfold validateSuiteName
  split
  · split
    · exact .error (isEnvelopeError _)
    · exact (Ensures.raiseIf fun _ => isEnvelopeError _).bind fun _ _ =>
        (Ensures.raiseIf fun _ => isEnvelopeError _).bind fun _ _ => trivial
  · exact .error (isEnvelopeError _)

theorem validateCiphertext_ensures (value : Value) :
    Ensures (fun _ => True) IsEnvelopeError (validateCiphertext value) := by
  unfold validateCiphertext
  split
  · exact (Ensures.raiseIf fun _ => isEnvelopeError _).bind fun _ _ =>
      (Ensures.raiseIf fun _ => isEnvelopeError _).bind fun _ _ => trivial
  · exact .error (isEnvelopeError _)

theorem decodeCiphertext_ensures (value : Value) :
    Ensures (fun _ => True) IsEnvelopeError (decodeCiphertext value) := by
  unfold decodeCiphertext
  split
  · refine (Ensures.raiseIf fun _ => isEnvelopeError _).bind fun _ _ =>
      (Ensures.raiseIf fun _ => isEnvelopeError _).bind fun _ _ => ?_
    split
    · trivial
    · exact .error (isEnvelopeError _)
  · exact .error (isEnvelopeError _)

section Envelopes

variable [UnicodeData]

theorem validateMetadata_ensures (e : MessageEnvelope) :
    Ensures (fun _ => True) IsEnvelopeError e.validateMetadata := by
  have hsequence : Ensures (fun _ => True) IsEnvelopeError
      (asEnvelopeError (validateMessageSequence e.sequence)) := by
    cases h : validateMessageSequence e.sequence with
    | ok n => trivial
    | error err =>
      show IsEnvelopeError (if err.isTypeOrValueError = true then _ else err)
      rw [if_pos (validateMessageSequence_error h)]
      exact isEnvelopeError _
  have hname := fun field => validateName_ensures isEnvelopeError isEnvelopeError
    (lit "envelope " ++ lit field)
  exact (validateProtocolVersion_ensures _).bind fun _ _ =>
    (validateSuiteName_ensures _).bind fun _ _ => (hname "sender" _).bind fun _ _ =>
      (hname "recipient" _).bind fun _ _ =>
        (Ensures.raiseIf fun _ => isEnvelopeError _).bind fun _ _ =>
          hsequence.bind fun _ _ => trivial

theorem validateComplete_ensures (e : MessageEnvelope) :
    Ensures (fun _ => True) IsEnvelopeError e.validateComplete :=
  (validateMetadata_ensures e).bind fun _ _ =>
    (validateCiphertext_ensures _).bind fun _ _ => trivial

end Envelopes

end CypherSyntax
