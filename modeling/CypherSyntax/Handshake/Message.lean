import CypherSyntax.Names
import CypherSyntax.Python.Framing

/-!
# What the handshake messages share

The validators of `handshake.py`, the JSON encoding of a payload, the parser that the three message
classes share, and the check that a parsed message is the one that was written.

A `MessageFormat` is what a class hands to the shared functions: its kind, its fields, the payload
of `to_bytes` and the constructor behind `from_bytes`.

Results:
* `validateVersion_ok`, `validateSuite_ok`, `validateParticipants_ok`, `validateBytes_ok`: what the
  validators accept.
* `parseMessage_ensures`, `decodeHex_ensures`: only `HandshakeError` leaves the parser.
-/

namespace CypherSyntax

open Python Json

/-! ## Constants -/

def x25519PublicKeyLength : Nat := 32

def ed25519PublicKeyLength : Nat := 32

def ed25519SignatureLength : Nat := 64

def keyConfirmationLength : Nat := 32

def maxHandshakeMessageBytes : Nat := 4096

def supportedHandshakeSuites : List Str := [lit "AES_GCM_SIV", lit "CHACHA20_POLY1305"]

/-! ## Validators -/

def validateVersion : Value → Except PyError Int
  | .int version => do
    raiseIf (version ≠ protocolVersion)
      (.builtin .valueError (lit "unsupported handshake version: " ++ intText version))
    return version
  | _ => .error (typeError "handshake version must be an integer")

def validateSuite : Value → Except PyError Str
  | .str suite => do
    raiseIf (suite ∉ supportedHandshakeSuites)
      (.builtin .valueError (lit "unsupported handshake suite: " ++ suite))
    return suite
  | _ => .error (typeError "handshake suite must be a string")

/-- `_validate_name` -/
def validateHandshakeName [UnicodeData] (fieldName : String) (value : Value) :
    Except PyError Str :=
  validateName (.builtin .typeError) (.builtin .valueError) (lit fieldName) value

def validateBytes (fieldName : String) (expectedLength : Nat) : Value → Except PyError Bytes
  | .bytes value => do
    raiseIf (value.length ≠ expectedLength)
      (.builtin .valueError (lit fieldName ++ lit " must be exactly " ++ natText expectedLength ++
        lit " bytes"))
    return value
  | _ => .error (.builtin .typeError (lit fieldName ++ lit " must be bytes"))

def validateParticipants [UnicodeData] (initiator responder : Value) :
    Except PyError (Str × Str) := do
  let initiator ← validateHandshakeName "handshake initiator" initiator
  let responder ← validateHandshakeName "handshake responder" responder
  raiseIf (initiator = responder) (valueError "handshake participants must be distinct")
  return (initiator, responder)

theorem validateVersion_ok {value : Value} {version : Int} :
    validateVersion value = .ok version ↔ value = .int version ∧ version = protocolVersion := by
  unfold validateVersion
  split
  · simp only [bind_eq_ok, raiseIf_ok, pure_eq_ok, not_not]
    constructor
    · rintro ⟨-, h, rfl⟩
      exact ⟨rfl, h⟩
    · rintro ⟨h, hv⟩
      cases h
      exact ⟨(), hv, rfl⟩
  · rename_i hne
    constructor
    · intro h
      cases h
    · rintro ⟨rfl, -⟩
      exact absurd rfl (hne version)

theorem validateSuite_ok {value : Value} {suite : Str} :
    validateSuite value = .ok suite ↔ value = .str suite ∧ suite ∈ supportedHandshakeSuites := by
  unfold validateSuite
  split
  · simp only [bind_eq_ok, raiseIf_ok, pure_eq_ok, not_not]
    constructor
    · rintro ⟨-, h, rfl⟩
      exact ⟨rfl, h⟩
    · rintro ⟨h, hs⟩
      cases h
      exact ⟨(), hs, rfl⟩
  · rename_i hne
    constructor
    · intro h
      cases h
    · rintro ⟨rfl, -⟩
      exact absurd rfl (hne suite)

theorem validateBytes_ok {fieldName : String} {expectedLength : Nat} {value : Value} {b : Bytes} :
    validateBytes fieldName expectedLength value = .ok b ↔
      value = .bytes b ∧ b.length = expectedLength := by
  unfold validateBytes
  split
  · simp only [bind_eq_ok, raiseIf_ok, pure_eq_ok, not_not]
    constructor
    · rintro ⟨-, h, rfl⟩
      exact ⟨rfl, h⟩
    · rintro ⟨h, hb⟩
      cases h
      exact ⟨(), hb, rfl⟩
  · rename_i hne
    constructor
    · intro h
      cases h
    · rintro ⟨rfl, -⟩
      exact absurd rfl (hne b)

theorem validateParticipants_ok [UnicodeData] {initiator responder : Value} {names : Str × Str} :
    validateParticipants initiator responder = .ok names ↔
      initiator = .str names.1 ∧ responder = .str names.2 ∧ ValidName names.1 ∧
        ValidName names.2 ∧ names.1 ≠ names.2 := by
  simp only [validateParticipants, validateHandshakeName, bind_eq_ok, validateName_ok, raiseIf_ok,
    pure_eq_ok]
  constructor
  · rintro ⟨i, ⟨rfl, hi⟩, r, ⟨rfl, hr⟩, -, hne, rfl⟩
    exact ⟨rfl, rfl, hi, hr, hne⟩
  · rintro ⟨rfl, rfl, hi, hr, hne⟩
    exact ⟨names.1, ⟨rfl, hi⟩, names.2, ⟨rfl, hr⟩, (), hne, rfl⟩

/-! ### Their exceptions -/

/-- What `_construct_and_verify_canonical` catches of a constructor. -/
def IsFieldError (e : PyError) : Prop := e.isTypeOrValueError = true

theorem isFieldError_type (message : Str) : IsFieldError (.builtin .typeError message) := rfl

theorem isFieldError_value (message : Str) : IsFieldError (.builtin .valueError message) := rfl

theorem validateVersion_ensures (value : Value) :
    Ensures (fun _ => True) IsFieldError (validateVersion value) := by
  unfold validateVersion
  split
  · exact (Ensures.raiseIf fun _ => isFieldError_value _).bind fun _ _ => trivial
  · exact .error (isFieldError_type _)

theorem validateSuite_ensures (value : Value) :
    Ensures (fun _ => True) IsFieldError (validateSuite value) := by
  unfold validateSuite
  split
  · exact (Ensures.raiseIf fun _ => isFieldError_value _).bind fun _ _ => trivial
  · exact .error (isFieldError_type _)

theorem validateBytes_ensures (fieldName : String) (expectedLength : Nat) (value : Value) :
    Ensures (fun _ => True) IsFieldError
      (validateBytes fieldName expectedLength value) := by
  unfold validateBytes
  split
  · exact (Ensures.raiseIf fun _ => isFieldError_value _).bind fun _ _ => trivial
  · exact .error (isFieldError_type _)

theorem validateParticipants_ensures [UnicodeData] (initiator responder : Value) :
    Ensures (fun _ => True) IsFieldError
      (validateParticipants initiator responder) := by
  have hname : ∀ (field : String) (value : Value),
      Ensures (fun _ => True) IsFieldError
        (validateHandshakeName field value) :=
    fun field => validateName_ensures isFieldError_type isFieldError_value (lit field)
  exact (hname _ initiator).bind fun _ _ => (hname _ responder).bind fun _ _ =>
    (Ensures.raiseIf fun _ => isFieldError_value _).bind fun _ _ => trivial

/-! ## Messages as JSON -/

section Json

variable [Interpreter]

/-- `_encode_message` -/
def encodeMessage (payload : List (Key × Value)) : Except PyError Bytes := do
  let encoded ← encode (← dumps false true (.dict payload))
  raiseIf (maxHandshakeMessageBytes < encoded.length)
    (handshakeError (lit "encoded handshake message exceeds the maximum size"))
  return encoded

/-- The hooks of `_parse_message`. -/
def handshakeHooks : Hooks ErrorClass :=
  rejectingHooks (fun name => handshakeError (lit "duplicate handshake field: " ++ name))
    fun value => handshakeError (lit "non-finite handshake number is not permitted: " ++ value)

/-- `_parse_message`: the bytes it was given and the items of the object they hold. -/
def parseMessage (expectedKind : Str) (expectedFields : List Str) :
    Value → Except PyError (Bytes × List (Key × Value))
  | .bytes data => do
    raiseIf (data = []) (handshakeError (lit "handshake message input must not be empty"))
    raiseIf (maxHandshakeMessageBytes < data.length)
      (handshakeError (lit "handshake message input exceeds the maximum size"))
    let raw ← convert isDecodeFailure (handshakeError (lit "failed to parse handshake message")) do
      loads handshakeHooks (← decode data)
    match raw with
    | .dict items =>
      raiseIf ((items.lookup (.str (lit "kind"))).any fun kind => !isText expectedKind kind)
        (handshakeError (lit "expected handshake message kind '" ++ expectedKind ++ lit "'"))
      let missing := missingFields expectedFields items
      let unexpected := unexpectedFields expectedFields items
      raiseIf (missing ≠ [])
        (handshakeError (lit "handshake message is missing fields: " ++ joinNames missing))
      raiseIf (unexpected ≠ [])
        (handshakeError
          (lit "handshake message contains unexpected fields: " ++ joinNames unexpected))
      return (data, items)
    | _ => throw (handshakeError (lit "handshake message must be a JSON object"))
  | _ => .error (handshakeError (lit "handshake message input must be bytes"))

/-- `_decode_hex` -/
def decodeHex (fieldName : String) (expectedLength : Nat) : Value → Except PyError Bytes
  | .str value => do
    raiseIf (value.length ≠ expectedLength * 2)
      (handshakeError (lit "handshake " ++ lit fieldName ++ lit " must encode exactly " ++
        natText expectedLength ++ lit " bytes"))
    raiseIf (value.all isLowerHex = false)
      (handshakeError (lit "handshake " ++ lit fieldName ++
        lit " must use canonical lowercase hexadecimal"))
    match fromhex value with
    | some decoded => return decoded
    | none => throw (valueError "non-hexadecimal number found in fromhex() arg")
  | _ => .error (handshakeError (lit "handshake " ++ lit fieldName ++
      lit " encoding must be a string"))

/-- `_construct_and_verify_canonical`, with the outcome of the constructor. -/
def constructAndVerifyCanonical {μ : Type} (toBytes : μ → Except PyError Bytes) (data : Bytes)
    (constructed : Except PyError μ) : Except PyError μ := do
  let message ← convert Exc.isTypeOrValueError
    (handshakeError (lit "handshake message contains invalid field values")) constructed
  let encoded ← toBytes message
  raiseIf (encoded ≠ data) (handshakeError (lit "handshake message is not canonically encoded"))
  return message

/-- A class of messages, as the shared functions see it. -/
structure MessageFormat (μ : Type) where
  kind : Str
  /-- The names of the fields, sorted. -/
  fields : List Str
  /-- The payload of `to_bytes`. -/
  payload : μ → List (Key × Value)
  /-- The values `from_bytes` hands to the constructor, and the outcome of the constructor. -/
  construct : List (Key × Value) → Except PyError (Except PyError μ)

namespace MessageFormat

variable {μ : Type} (format : MessageFormat μ)

def toBytes (message : μ) : Except PyError Bytes := encodeMessage (format.payload message)

def fromBytes (data : Value) : Except PyError μ := do
  let (data, raw) ← parseMessage format.kind format.fields data
  let constructed ← format.construct raw
  constructAndVerifyCanonical format.toBytes data constructed

end MessageFormat

/-! ## Outcomes -/

def IsHandshakeError (e : PyError) : Prop := ∃ message, e = handshakeError message

omit [Interpreter] in
theorem isHandshakeError (message : Str) : IsHandshakeError (handshakeError message) :=
  ⟨message, rfl⟩

omit [Interpreter] in
theorem decodeHex_ensures (fieldName : String) (expectedLength : Nat) (value : Value) :
    Ensures (fun b => b.length = expectedLength) IsHandshakeError
      (decodeHex fieldName expectedLength value) := by
  unfold decodeHex
  split
  · rename_i s
    refine (Ensures.raiseIf fun _ => isHandshakeError _).bind fun _ hlen =>
      (Ensures.raiseIf fun _ => isHandshakeError _).bind fun _ hhex => ?_
    rw [not_not] at hlen
    rw [Bool.not_eq_false, List.all_eq_true] at hhex
    obtain ⟨b, hb, hlength⟩ := fromhex_lower (by rw [hlen, Nat.mul_comm]) hhex
    rw [hb]
    exact hlength
  · exact .error (isHandshakeError _)

omit [Interpreter] in
/-- The text of bytes of the expected length is read back. -/
theorem decodeHex_hex (fieldName : String) {b : Bytes} {n : Nat} (h : b.length = n) :
    decodeHex fieldName n (.str (hex b)) = .ok b := by
  have hall : (hex b).all isLowerHex = true := List.all_eq_true.mpr (hex_lower b)
  have hlen := hex_length b
  unfold decodeHex
  simp only
  rw [raiseIf_neg (by omega), ok_bind, raiseIf_neg (by rw [hall]; simp), ok_bind, fromhex_hex]
  rfl

theorem parseMessage_ensures (kind : Str) (fields : List Str) (data : Value) :
    Ensures (fun p => ∀ name ∈ fields, name ∈ fieldNames p.2) IsHandshakeError
      (parseMessage kind fields data) := by
  have hhooks : handshakeHooks.Ensures
      fun e : PyError => isDecodeFailure e = true ∨ IsHandshakeError e :=
    rejectingHooks_ensures (fun _ => Or.inr (isHandshakeError _))
      fun _ => Or.inr (isHandshakeError _)
  unfold parseMessage
  split
  · rename_i data
    refine (Ensures.raiseIf fun _ => isHandshakeError _).bind fun _ _ =>
      (Ensures.raiseIf fun _ => isHandshakeError _).bind fun _ _ =>
        (convert_ensures (isHandshakeError _) (loads_decode_ensures hhooks data)).bind
          fun raw _ => ?_
    split
    · exact (Ensures.raiseIf fun _ => isHandshakeError _).bind fun _ _ =>
        (Ensures.raiseIf fun _ => isHandshakeError _).bind fun _ hmissing =>
          (Ensures.raiseIf fun _ => isHandshakeError _).bind fun _ _ =>
            missingFields_eq_nil.mp (not_not.mp hmissing)
    · exact .error (isHandshakeError _)
  · exact .error (isHandshakeError _)

end Json

end CypherSyntax
