import CypherSyntax.Handshake.Message

/-!
# Handshake messages

`HandshakeOffer`, `HandshakeResponse` and `HandshakeConfirmation` of `handshake.py`. The three
dataclasses are frozen and validated when they are built, so here a message carries the facts that
`__post_init__` has checked, and `new` is the constructor, given any objects. The fields that
`_validate_offer_fields` checks are `OfferFields`.

Results:
* `validateOfferFields_ok`, `HandshakeOffer.new_ok`, `HandshakeResponse.new_ok`,
  `HandshakeConfirmation.new_ok`: a message is built from exactly its own fields.
* `validateForOffer_ok`, `validateForResponse_ok`: what the cross-checks compare.
-/

namespace CypherSyntax

open Python Json

/-! ## Offers -/

structure ValidHeader [UnicodeData] (version : Int) (suite initiator responder : Str) : Prop where
  version_eq : version = protocolVersion
  suite_mem : suite ∈ supportedHandshakeSuites
  initiator_valid : ValidName initiator
  responder_valid : ValidName responder
  distinct : initiator ≠ responder

/-- The fields that `_validate_offer_fields` checks. -/
@[ext] structure OfferFields [UnicodeData] where
  version : Int
  suite : Str
  initiator : Str
  responder : Str
  initiatorEphemeralPublicKey : Bytes
  initiatorSigningPublicKey : Bytes
  header : ValidHeader version suite initiator responder
  initiatorEphemeralPublicKey_length : initiatorEphemeralPublicKey.length = x25519PublicKeyLength
  initiatorSigningPublicKey_length : initiatorSigningPublicKey.length = ed25519PublicKeyLength

@[ext] structure HandshakeOffer [UnicodeData] extends OfferFields where
  signature : Bytes
  signature_length : signature.length = ed25519SignatureLength

@[ext] structure HandshakeResponse [UnicodeData] extends OfferFields where
  responderEphemeralPublicKey : Bytes
  responderSigningPublicKey : Bytes
  responderKeyConfirmation : Bytes
  signature : Bytes
  responderEphemeralPublicKey_length : responderEphemeralPublicKey.length = x25519PublicKeyLength
  ephemeral_distinct : responderEphemeralPublicKey ≠ initiatorEphemeralPublicKey
  responderSigningPublicKey_length : responderSigningPublicKey.length = ed25519PublicKeyLength
  responderKeyConfirmation_length : responderKeyConfirmation.length = keyConfirmationLength
  signature_length : signature.length = ed25519SignatureLength

@[ext] structure HandshakeConfirmation [UnicodeData] where
  version : Int
  suite : Str
  initiator : Str
  responder : Str
  initiatorEphemeralPublicKey : Bytes
  responderEphemeralPublicKey : Bytes
  initiatorKeyConfirmation : Bytes
  signature : Bytes
  header : ValidHeader version suite initiator responder
  initiatorEphemeralPublicKey_length : initiatorEphemeralPublicKey.length = x25519PublicKeyLength
  responderEphemeralPublicKey_length : responderEphemeralPublicKey.length = x25519PublicKeyLength
  ephemeral_distinct : responderEphemeralPublicKey ≠ initiatorEphemeralPublicKey
  initiatorKeyConfirmation_length : initiatorKeyConfirmation.length = keyConfirmationLength
  signature_length : signature.length = ed25519SignatureLength

section Messages

variable [UnicodeData]

/-! ## Constructors -/

theorem validHeader {v s i r : Value} {version : Int} {suite : Str} {names : Str × Str}
    (hv : validateVersion v = .ok version) (hs : validateSuite s = .ok suite)
    (hn : validateParticipants i r = .ok names) :
    ValidHeader version suite names.1 names.2 := by
  obtain ⟨-, -, hi, hr, hne⟩ := validateParticipants_ok.mp hn
  exact ⟨(validateVersion_ok.mp hv).2, (validateSuite_ok.mp hs).2, hi, hr, hne⟩

/-- `_validate_offer_fields` -/
def validateOfferFields (version suite initiator responder initiatorEphemeralPublicKey
    initiatorSigningPublicKey : Value) : Except PyError OfferFields := do
  let ⟨version, hv⟩ ← attach (validateVersion version)
  let ⟨suite, hs⟩ ← attach (validateSuite suite)
  let ⟨names, hn⟩ ← attach (validateParticipants initiator responder)
  let ⟨ephemeral, he⟩ ← attach (validateBytes "initiator ephemeral public key"
    x25519PublicKeyLength initiatorEphemeralPublicKey)
  let ⟨signing, hk⟩ ← attach (validateBytes "initiator signing public key"
    ed25519PublicKeyLength initiatorSigningPublicKey)
  return ⟨version, suite, names.1, names.2, ephemeral, signing, validHeader hv hs hn,
    (validateBytes_ok.mp he).2, (validateBytes_ok.mp hk).2⟩

/-- `HandshakeOffer(...)` -/
def HandshakeOffer.new (version suite initiator responder initiatorEphemeralPublicKey
    initiatorSigningPublicKey signature : Value) : Except PyError HandshakeOffer := do
  let fields ← validateOfferFields version suite initiator responder initiatorEphemeralPublicKey
    initiatorSigningPublicKey
  let ⟨signature, h⟩ ← attach (validateBytes "initiator handshake signature"
    ed25519SignatureLength signature)
  return ⟨fields, signature, (validateBytes_ok.mp h).2⟩

/-- `HandshakeResponse(...)` -/
def HandshakeResponse.new (version suite initiator responder initiatorEphemeralPublicKey
    initiatorSigningPublicKey responderEphemeralPublicKey responderSigningPublicKey
    responderKeyConfirmation signature : Value) : Except PyError HandshakeResponse := do
  let fields ← validateOfferFields version suite initiator responder initiatorEphemeralPublicKey
    initiatorSigningPublicKey
  let ⟨ephemeral, he⟩ ← attach (validateBytes "responder ephemeral public key"
    x25519PublicKeyLength responderEphemeralPublicKey)
  let ⟨_, hd⟩ ← attach (raiseIf (ephemeral = fields.initiatorEphemeralPublicKey)
    (valueError "handshake ephemeral public keys must be distinct" : PyError))
  let ⟨signing, hk⟩ ← attach (validateBytes "responder signing public key"
    ed25519PublicKeyLength responderSigningPublicKey)
  let ⟨confirmation, hc⟩ ← attach (validateBytes "responder key confirmation"
    keyConfirmationLength responderKeyConfirmation)
  let ⟨signature, hs⟩ ← attach (validateBytes "responder handshake signature"
    ed25519SignatureLength signature)
  return ⟨fields, ephemeral, signing, confirmation, signature, (validateBytes_ok.mp he).2,
    raiseIf_ok.mp hd, (validateBytes_ok.mp hk).2, (validateBytes_ok.mp hc).2,
    (validateBytes_ok.mp hs).2⟩

/-- `HandshakeConfirmation(...)` -/
def HandshakeConfirmation.new (version suite initiator responder initiatorEphemeralPublicKey
    responderEphemeralPublicKey initiatorKeyConfirmation signature : Value) :
    Except PyError HandshakeConfirmation := do
  let ⟨version, hv⟩ ← attach (validateVersion version)
  let ⟨suite, hs⟩ ← attach (validateSuite suite)
  let ⟨names, hn⟩ ← attach (validateParticipants initiator responder)
  let ⟨initiatorKey, hi⟩ ← attach (validateBytes "initiator ephemeral public key"
    x25519PublicKeyLength initiatorEphemeralPublicKey)
  let ⟨responderKey, hr⟩ ← attach (validateBytes "responder ephemeral public key"
    x25519PublicKeyLength responderEphemeralPublicKey)
  let ⟨_, hd⟩ ← attach (raiseIf (responderKey = initiatorKey)
    (valueError "handshake ephemeral public keys must be distinct" : PyError))
  let ⟨confirmation, hc⟩ ← attach (validateBytes "initiator key confirmation"
    keyConfirmationLength initiatorKeyConfirmation)
  let ⟨signature, hg⟩ ← attach (validateBytes "initiator confirmation signature"
    ed25519SignatureLength signature)
  return ⟨version, suite, names.1, names.2, initiatorKey, responderKey, confirmation, signature,
    validHeader hv hs hn, (validateBytes_ok.mp hi).2, (validateBytes_ok.mp hr).2,
    raiseIf_ok.mp hd, (validateBytes_ok.mp hc).2, (validateBytes_ok.mp hg).2⟩

/-! ### What the constructors accept -/

theorem validateOfferFields_ok {v s i r e k : Value} {f : OfferFields} :
    validateOfferFields v s i r e k = .ok f ↔ v = .int f.version ∧ s = .str f.suite ∧
      i = .str f.initiator ∧ r = .str f.responder ∧ e = .bytes f.initiatorEphemeralPublicKey ∧
      k = .bytes f.initiatorSigningPublicKey := by
  simp only [validateOfferFields, attach_bind_eq_ok, validateVersion_ok, validateSuite_ok,
    validateParticipants_ok, validateBytes_ok, pure_eq_ok]
  constructor
  · rintro ⟨v, ⟨rfl, -⟩, s, ⟨rfl, -⟩, n, ⟨rfl, rfl, -⟩, e, ⟨rfl, -⟩, k, ⟨rfl, -⟩, rfl⟩
    exact ⟨rfl, rfl, rfl, rfl, rfl, rfl⟩
  · rintro ⟨rfl, rfl, rfl, rfl, rfl, rfl⟩
    exact ⟨f.version, ⟨rfl, f.header.version_eq⟩, f.suite, ⟨rfl, f.header.suite_mem⟩,
      (f.initiator, f.responder),
      ⟨rfl, rfl, f.header.initiator_valid, f.header.responder_valid, f.header.distinct⟩,
      f.initiatorEphemeralPublicKey, ⟨rfl, f.initiatorEphemeralPublicKey_length⟩,
      f.initiatorSigningPublicKey, ⟨rfl, f.initiatorSigningPublicKey_length⟩, rfl⟩

theorem HandshakeOffer.new_ok {v s i r e k g : Value} {m : HandshakeOffer} :
    HandshakeOffer.new v s i r e k g = .ok m ↔
      validateOfferFields v s i r e k = .ok m.toOfferFields ∧ g = .bytes m.signature := by
  simp only [HandshakeOffer.new, bind_eq_ok (x := validateOfferFields _ _ _ _ _ _),
    attach_bind_eq_ok, validateBytes_ok, pure_eq_ok]
  constructor
  · rintro ⟨f, hf, g, ⟨rfl, -⟩, rfl⟩
    exact ⟨hf, rfl⟩
  · rintro ⟨hf, rfl⟩
    exact ⟨m.toOfferFields, hf, m.signature, ⟨rfl, m.signature_length⟩, rfl⟩

theorem HandshakeResponse.new_ok {v s i r e k re rk c g : Value} {m : HandshakeResponse} :
    HandshakeResponse.new v s i r e k re rk c g = .ok m ↔
      validateOfferFields v s i r e k = .ok m.toOfferFields ∧
      re = .bytes m.responderEphemeralPublicKey ∧ rk = .bytes m.responderSigningPublicKey ∧
      c = .bytes m.responderKeyConfirmation ∧ g = .bytes m.signature := by
  simp only [HandshakeResponse.new, bind_eq_ok (x := validateOfferFields _ _ _ _ _ _),
    attach_bind_eq_ok, validateBytes_ok, raiseIf_ok, pure_eq_ok]
  constructor
  · rintro ⟨f, hf, e, ⟨rfl, -⟩, -, hd, k, ⟨rfl, -⟩, c, ⟨rfl, -⟩, g, ⟨rfl, -⟩, rfl⟩
    exact ⟨hf, rfl, rfl, rfl, rfl⟩
  · rintro ⟨hf, rfl, rfl, rfl, rfl⟩
    exact ⟨m.toOfferFields, hf, m.responderEphemeralPublicKey,
      ⟨rfl, m.responderEphemeralPublicKey_length⟩, (), m.ephemeral_distinct,
      m.responderSigningPublicKey, ⟨rfl, m.responderSigningPublicKey_length⟩,
      m.responderKeyConfirmation, ⟨rfl, m.responderKeyConfirmation_length⟩,
      m.signature, ⟨rfl, m.signature_length⟩, rfl⟩

theorem HandshakeConfirmation.new_ok {v s i r e re c g : Value} {m : HandshakeConfirmation} :
    HandshakeConfirmation.new v s i r e re c g = .ok m ↔ v = .int m.version ∧ s = .str m.suite ∧
      i = .str m.initiator ∧ r = .str m.responder ∧ e = .bytes m.initiatorEphemeralPublicKey ∧
      re = .bytes m.responderEphemeralPublicKey ∧ c = .bytes m.initiatorKeyConfirmation ∧
      g = .bytes m.signature := by
  simp only [HandshakeConfirmation.new, attach_bind_eq_ok, validateVersion_ok, validateSuite_ok,
    validateParticipants_ok, validateBytes_ok, raiseIf_ok, pure_eq_ok]
  constructor
  · rintro ⟨v, ⟨rfl, -⟩, s, ⟨rfl, -⟩, n, ⟨rfl, rfl, -⟩, e, ⟨rfl, -⟩, re, ⟨rfl, -⟩, -, hd,
      c, ⟨rfl, -⟩, g, ⟨rfl, -⟩, rfl⟩
    exact ⟨rfl, rfl, rfl, rfl, rfl, rfl, rfl, rfl⟩
  · rintro ⟨rfl, rfl, rfl, rfl, rfl, rfl, rfl, rfl⟩
    exact ⟨m.version, ⟨rfl, m.header.version_eq⟩, m.suite, ⟨rfl, m.header.suite_mem⟩,
      (m.initiator, m.responder),
      ⟨rfl, rfl, m.header.initiator_valid, m.header.responder_valid, m.header.distinct⟩,
      m.initiatorEphemeralPublicKey, ⟨rfl, m.initiatorEphemeralPublicKey_length⟩,
      m.responderEphemeralPublicKey, ⟨rfl, m.responderEphemeralPublicKey_length⟩, (),
      m.ephemeral_distinct, m.initiatorKeyConfirmation,
      ⟨rfl, m.initiatorKeyConfirmation_length⟩, m.signature, ⟨rfl, m.signature_length⟩, rfl⟩

/-! ## Cross-checks -/

namespace HandshakeResponse

/-- `HandshakeResponse.from_offer` -/
def fromOffer (offer : HandshakeOffer) (responderEphemeralPublicKey responderSigningPublicKey
    responderKeyConfirmation signature : Bytes) : Except PyError HandshakeResponse :=
  HandshakeResponse.new (.int offer.version) (.str offer.suite) (.str offer.initiator)
    (.str offer.responder) (.bytes offer.initiatorEphemeralPublicKey)
    (.bytes offer.initiatorSigningPublicKey) (.bytes responderEphemeralPublicKey)
    (.bytes responderSigningPublicKey) (.bytes responderKeyConfirmation) (.bytes signature)

def validateForOffer (self : HandshakeResponse) (offer : HandshakeOffer) :
    Except PyError Unit := do
  raiseIf (self.version ≠ offer.version) (valueError "handshake response version mismatch")
  raiseIf (self.suite ≠ offer.suite) (valueError "handshake response suite mismatch")
  raiseIf (self.initiator ≠ offer.initiator) (valueError "handshake response initiator mismatch")
  raiseIf (self.responder ≠ offer.responder) (valueError "handshake response responder mismatch")
  raiseIf (self.initiatorEphemeralPublicKey ≠ offer.initiatorEphemeralPublicKey)
    (valueError "handshake response initiator key mismatch")
  raiseIf (self.initiatorSigningPublicKey ≠ offer.initiatorSigningPublicKey)
    (valueError "handshake response initiator signing key mismatch")

theorem validateForOffer_ok {self : HandshakeResponse} {offer : HandshakeOffer} {u : Unit} :
    self.validateForOffer offer = .ok u ↔ self.toOfferFields = offer.toOfferFields := by
  simp only [validateForOffer, bind_eq_ok, raiseIf_ok, not_not, OfferFields.ext_iff]
  constructor
  · rintro ⟨-, hv, -, hs, -, hi, -, hr, -, he, hk⟩
    exact ⟨hv, hs, hi, hr, he, hk⟩
  · rintro ⟨hv, hs, hi, hr, he, hk⟩
    exact ⟨(), hv, (), hs, (), hi, (), hr, (), he, hk⟩

/-- A response built from an offer repeats the fields of the offer. -/
theorem fromOffer_ok {offer : HandshakeOffer} {re rk c g : Bytes} {m : HandshakeResponse} :
    fromOffer offer re rk c g = .ok m ↔ m.toOfferFields = offer.toOfferFields ∧
      m.responderEphemeralPublicKey = re ∧ m.responderSigningPublicKey = rk ∧
      m.responderKeyConfirmation = c ∧ m.signature = g := by
  rw [fromOffer, new_ok, validateOfferFields_ok, OfferFields.ext_iff]
  constructor
  · rintro ⟨⟨hv, hs, hi, hr, he, hk⟩, hre, hrk, hc, hg⟩
    cases hre
    cases hrk
    cases hc
    cases hg
    exact ⟨⟨(Value.int.inj hv).symm, (Value.str.inj hs).symm, (Value.str.inj hi).symm,
      (Value.str.inj hr).symm, (Value.bytes.inj he).symm, (Value.bytes.inj hk).symm⟩,
      rfl, rfl, rfl, rfl⟩
  · rintro ⟨⟨hv, hs, hi, hr, he, hk⟩, rfl, rfl, rfl, rfl⟩
    rw [hv, hs, hi, hr, he, hk]
    exact ⟨⟨rfl, rfl, rfl, rfl, rfl, rfl⟩, rfl, rfl, rfl, rfl⟩

end HandshakeResponse

namespace HandshakeConfirmation

def validateForResponse (self : HandshakeConfirmation) (response : HandshakeResponse) :
    Except PyError Unit := do
  raiseIf (self.version ≠ response.version)
    (valueError "handshake confirmation version mismatch")
  raiseIf (self.suite ≠ response.suite) (valueError "handshake confirmation suite mismatch")
  raiseIf (self.initiator ≠ response.initiator)
    (valueError "handshake confirmation initiator mismatch")
  raiseIf (self.responder ≠ response.responder)
    (valueError "handshake confirmation responder mismatch")
  raiseIf (self.initiatorEphemeralPublicKey ≠ response.initiatorEphemeralPublicKey)
    (valueError "handshake confirmation initiator key mismatch")
  raiseIf (self.responderEphemeralPublicKey ≠ response.responderEphemeralPublicKey)
    (valueError "handshake confirmation responder key mismatch")

theorem validateForResponse_ok {self : HandshakeConfirmation} {response : HandshakeResponse}
    {u : Unit} : self.validateForResponse response = .ok u ↔
      self.version = response.version ∧ self.suite = response.suite ∧
      self.initiator = response.initiator ∧ self.responder = response.responder ∧
      self.initiatorEphemeralPublicKey = response.initiatorEphemeralPublicKey ∧
      self.responderEphemeralPublicKey = response.responderEphemeralPublicKey := by
  simp only [validateForResponse, bind_eq_ok, raiseIf_ok, not_not]
  constructor
  · rintro ⟨-, hv, -, hs, -, hi, -, hr, -, he, hre⟩
    exact ⟨hv, hs, hi, hr, he, hre⟩
  · rintro ⟨hv, hs, hi, hr, he, hre⟩
    exact ⟨(), hv, (), hs, (), hi, (), hr, (), he, hre⟩

end HandshakeConfirmation

/-! ## Signed payloads -/

def handshakeContext (fields : OfferFields) : Except PyError Bytes := do
  joinFields (ascii "CypherSyntax/handshake-offer/v1")
    [← encodeAsciiText (intText fields.version), ← encode fields.suite, ← encode fields.initiator,
      ← encode fields.responder, fields.initiatorEphemeralPublicKey,
      fields.initiatorSigningPublicKey]

def handshakeTranscript (offer : HandshakeOffer) (response : HandshakeResponse) :
    Except PyError Bytes := do
  response.validateForOffer offer
  joinFields (ascii "CypherSyntax/handshake-transcript/v1")
    [← encodeAsciiText (intText offer.version), ← encode offer.suite, ← encode offer.initiator,
      ← encode offer.responder, offer.initiatorEphemeralPublicKey,
      offer.initiatorSigningPublicKey, offer.signature, response.responderEphemeralPublicKey,
      response.responderSigningPublicKey]

/-- `HandshakeOffer.signature_payload_for` -/
def HandshakeOffer.signaturePayloadFor (version suite initiator responder
    initiatorEphemeralPublicKey initiatorSigningPublicKey : Value) : Except PyError Bytes := do
  handshakeContext (← validateOfferFields version suite initiator responder
    initiatorEphemeralPublicKey initiatorSigningPublicKey)

def HandshakeOffer.signaturePayload (self : HandshakeOffer) : Except PyError Bytes :=
  signaturePayloadFor (.int self.version) (.str self.suite) (.str self.initiator)
    (.str self.responder) (.bytes self.initiatorEphemeralPublicKey)
    (.bytes self.initiatorSigningPublicKey)

def HandshakeResponse.signaturePayload (self : HandshakeResponse) (offer : HandshakeOffer) :
    Except PyError Bytes := do
  let transcript ← handshakeTranscript offer self
  joinFields (ascii "CypherSyntax/handshake-response-signature/v1")
    [transcript, self.responderKeyConfirmation]

def HandshakeConfirmation.signaturePayload (self : HandshakeConfirmation) (offer : HandshakeOffer)
    (response : HandshakeResponse) : Except PyError Bytes := do
  self.validateForResponse response
  let transcript ← handshakeTranscript offer response
  joinFields (ascii "CypherSyntax/handshake-confirmation-signature/v1")
    [transcript, response.responderKeyConfirmation, self.initiatorKeyConfirmation]

end Messages

/-! ## The three formats -/

section Formats

variable [Interpreter]

def offerFormat : MessageFormat HandshakeOffer where
  kind := lit "offer"
  fields := [lit "initiator", lit "initiator_ephemeral_public_key",
    lit "initiator_signing_public_key", lit "kind", lit "responder", lit "signature",
    lit "suite", lit "v"]
  payload self :=
    [(key "kind", .str (lit "offer")), (key "v", .int self.version),
      (key "suite", .str self.suite), (key "initiator", .str self.initiator),
      (key "responder", .str self.responder),
      (key "initiator_ephemeral_public_key", .str (hex self.initiatorEphemeralPublicKey)),
      (key "initiator_signing_public_key", .str (hex self.initiatorSigningPublicKey)),
      (key "signature", .str (hex self.signature))]
  construct raw := do
    let version ← getItem raw (lit "v")
    let suite ← getItem raw (lit "suite")
    let initiator ← getItem raw (lit "initiator")
    let responder ← getItem raw (lit "responder")
    let initiatorEphemeral ← decodeHex "initiator ephemeral public key" x25519PublicKeyLength
      (← getItem raw (lit "initiator_ephemeral_public_key"))
    let initiatorSigning ← decodeHex "initiator signing public key" ed25519PublicKeyLength
      (← getItem raw (lit "initiator_signing_public_key"))
    let signature ← decodeHex "initiator handshake signature" ed25519SignatureLength
      (← getItem raw (lit "signature"))
    return HandshakeOffer.new version suite initiator responder (.bytes initiatorEphemeral)
      (.bytes initiatorSigning) (.bytes signature)

def responseFormat : MessageFormat HandshakeResponse where
  kind := lit "response"
  fields := [lit "initiator", lit "initiator_ephemeral_public_key",
    lit "initiator_signing_public_key", lit "kind", lit "responder",
    lit "responder_ephemeral_public_key", lit "responder_key_confirmation",
    lit "responder_signing_public_key", lit "signature", lit "suite", lit "v"]
  payload self :=
    [(key "kind", .str (lit "response")), (key "v", .int self.version),
      (key "suite", .str self.suite), (key "initiator", .str self.initiator),
      (key "responder", .str self.responder),
      (key "initiator_ephemeral_public_key", .str (hex self.initiatorEphemeralPublicKey)),
      (key "initiator_signing_public_key", .str (hex self.initiatorSigningPublicKey)),
      (key "responder_ephemeral_public_key", .str (hex self.responderEphemeralPublicKey)),
      (key "responder_signing_public_key", .str (hex self.responderSigningPublicKey)),
      (key "responder_key_confirmation", .str (hex self.responderKeyConfirmation)),
      (key "signature", .str (hex self.signature))]
  construct raw := do
    let version ← getItem raw (lit "v")
    let suite ← getItem raw (lit "suite")
    let initiator ← getItem raw (lit "initiator")
    let responder ← getItem raw (lit "responder")
    let initiatorEphemeral ← decodeHex "initiator ephemeral public key" x25519PublicKeyLength
      (← getItem raw (lit "initiator_ephemeral_public_key"))
    let initiatorSigning ← decodeHex "initiator signing public key" ed25519PublicKeyLength
      (← getItem raw (lit "initiator_signing_public_key"))
    let responderEphemeral ← decodeHex "responder ephemeral public key" x25519PublicKeyLength
      (← getItem raw (lit "responder_ephemeral_public_key"))
    let responderSigning ← decodeHex "responder signing public key" ed25519PublicKeyLength
      (← getItem raw (lit "responder_signing_public_key"))
    let confirmation ← decodeHex "responder key confirmation" keyConfirmationLength
      (← getItem raw (lit "responder_key_confirmation"))
    let signature ← decodeHex "responder handshake signature" ed25519SignatureLength
      (← getItem raw (lit "signature"))
    return HandshakeResponse.new version suite initiator responder (.bytes initiatorEphemeral)
      (.bytes initiatorSigning) (.bytes responderEphemeral) (.bytes responderSigning)
      (.bytes confirmation) (.bytes signature)

def confirmationFormat : MessageFormat HandshakeConfirmation where
  kind := lit "confirmation"
  fields := [lit "initiator", lit "initiator_ephemeral_public_key",
    lit "initiator_key_confirmation", lit "kind", lit "responder",
    lit "responder_ephemeral_public_key", lit "signature", lit "suite", lit "v"]
  payload self :=
    [(key "kind", .str (lit "confirmation")), (key "v", .int self.version),
      (key "suite", .str self.suite), (key "initiator", .str self.initiator),
      (key "responder", .str self.responder),
      (key "initiator_ephemeral_public_key", .str (hex self.initiatorEphemeralPublicKey)),
      (key "responder_ephemeral_public_key", .str (hex self.responderEphemeralPublicKey)),
      (key "initiator_key_confirmation", .str (hex self.initiatorKeyConfirmation)),
      (key "signature", .str (hex self.signature))]
  construct raw := do
    let version ← getItem raw (lit "v")
    let suite ← getItem raw (lit "suite")
    let initiator ← getItem raw (lit "initiator")
    let responder ← getItem raw (lit "responder")
    let initiatorEphemeral ← decodeHex "initiator ephemeral public key" x25519PublicKeyLength
      (← getItem raw (lit "initiator_ephemeral_public_key"))
    let responderEphemeral ← decodeHex "responder ephemeral public key" x25519PublicKeyLength
      (← getItem raw (lit "responder_ephemeral_public_key"))
    let confirmation ← decodeHex "initiator key confirmation" keyConfirmationLength
      (← getItem raw (lit "initiator_key_confirmation"))
    let signature ← decodeHex "initiator confirmation signature" ed25519SignatureLength
      (← getItem raw (lit "signature"))
    return HandshakeConfirmation.new version suite initiator responder
      (.bytes initiatorEphemeral) (.bytes responderEphemeral) (.bytes confirmation)
      (.bytes signature)

def HandshakeOffer.toBytes (self : HandshakeOffer) : Except PyError Bytes :=
  offerFormat.toBytes self

def HandshakeOffer.fromBytes (data : Value) : Except PyError HandshakeOffer :=
  offerFormat.fromBytes data

def HandshakeResponse.toBytes (self : HandshakeResponse) : Except PyError Bytes :=
  responseFormat.toBytes self

def HandshakeResponse.fromBytes (data : Value) : Except PyError HandshakeResponse :=
  responseFormat.fromBytes data

def HandshakeConfirmation.toBytes (self : HandshakeConfirmation) : Except PyError Bytes :=
  confirmationFormat.toBytes self

def HandshakeConfirmation.fromBytes (data : Value) : Except PyError HandshakeConfirmation :=
  confirmationFormat.fromBytes data

end Formats

end CypherSyntax
