import CypherSyntax.Handshake.Payload
import CypherSyntax.Identity
import CypherSyntax.Session

/-!
# The handshake

`InitiatorHandshake`, `ResponderHandshake` and `SessionFactory` of `src/cyphersyntax/session.py`,
with their checks in the order of the source.

* A pending handshake is its record. The private key, or the root key, is `none` once it is
  completed. Nothing locks it: threads that complete one handshake are in `Session/Race.lean`.
* The ephemeral key that a party draws is an argument. That drawn keys are distinct is assumed of
  the calls of a run (`FreshKeys`).
* Signatures, the key exchange and the hashes are parameters, and no property of them is assumed in
  this module but the lengths of their results.

Results:
* `SessionFactory.initiator_runs`, `SessionFactory.responder_runs`: what starting a handshake
  builds, derives and signs.
* `InitiatorHandshake.complete_runs`, `ResponderHandshake.complete_runs`: what a completion has
  checked, and that a rejected message changes nothing.
-/

namespace CypherSyntax

open Python Json

variable [Interpreter] [Crypto]

/-! ## Pending handshakes -/

structure InitiatorHandshake where
  localIdentity : Identity
  remoteSigningPublicKey : Bytes
  offer : HandshakeOffer
  supplementalSecret : Bytes
  ephemeralPrivateKey : Option Crypto.ExchangeKey

structure ResponderHandshake where
  remoteSigningPublicKey : Bytes
  offer : HandshakeOffer
  response : HandshakeResponse
  suite : AeadSuite
  rootKey : Option Bytes

/-- `b"\x00" * n` -/
def zeros (n : Nat) : Value := .bytes (List.replicate n 0)

namespace InitiatorHandshake

def completed (self : InitiatorHandshake) : Bool := self.ephemeralPrivateKey.isNone

/-- The body of `complete` after its first check. -/
def completeWith (self : InitiatorHandshake) (privateKey : Crypto.ExchangeKey)
    (response : HandshakeResponse) :
    Method ErrorClass InitiatorHandshake Call (HandshakeConfirmation × SessionState) := do
  response.validateForOffer self.offer
  raiseIf (response.responderSigningPublicKey ≠ self.remoteSigningPublicKey)
    (invalidSignatureError (lit "responder signing key does not match trust anchor"))
  let signedPayload ← response.signaturePayload self.offer
  Identity.verifySignature signedPayload response.signature self.remoteSigningPublicKey
  let suite ← AeadSuite.ofValue response.suite
  let sharedSecret ← Crypto.exchange privateKey response.responderEphemeralPublicKey
  let transcript ← handshakeTranscript self.offer response
  let transcriptHash := Crypto.sha256 transcript
  let rootKey ← deriveSessionRoot sharedSecret transcriptHash self.supplementalSecret
  let expectedResponderConfirmation ←
    deriveKeyConfirmation rootKey transcriptHash (lit "responder")
  raiseIf (response.responderKeyConfirmation ≠ expectedResponderConfirmation)
    (keyConfirmationError (lit "responder key confirmation failed"))
  let initiatorKeyConfirmation ← deriveKeyConfirmation rootKey transcriptHash (lit "initiator")
  let unsigned ← HandshakeConfirmation.new (.int response.version) (.str response.suite)
    (.str response.initiator) (.str response.responder)
    (.bytes response.initiatorEphemeralPublicKey) (.bytes response.responderEphemeralPublicKey)
    (.bytes initiatorKeyConfirmation) (zeros 64)
  let payload ← unsigned.signaturePayload self.offer response
  let signature ← self.localIdentity.sign payload
  let confirmation ← HandshakeConfirmation.new (.int unsigned.version) (.str unsigned.suite)
    (.str unsigned.initiator) (.str unsigned.responder)
    (.bytes unsigned.initiatorEphemeralPublicKey) (.bytes unsigned.responderEphemeralPublicKey)
    (.bytes unsigned.initiatorKeyConfirmation) (.bytes signature)
  let session := SessionState.new self.offer.initiator self.offer.responder suite rootKey
    self.offer.initiatorEphemeralPublicKey response.responderEphemeralPublicKey
  Method.update fun h => { h with ephemeralPrivateKey := none }
  return (confirmation, session)

def complete (response : HandshakeResponse) :
    Method ErrorClass InitiatorHandshake Call (HandshakeConfirmation × SessionState) := do
  let self ← Method.self
  match self.ephemeralPrivateKey with
  | none => liftM (Except.error (.builtin .runtimeError
      (lit "initiator handshake has already been completed")) :
      Except PyError (HandshakeConfirmation × SessionState))
  | some privateKey => self.completeWith privateKey response

end InitiatorHandshake

namespace ResponderHandshake

def completed (self : ResponderHandshake) : Bool := self.rootKey.isNone

/-- The body of `complete` after its first check. -/
def completeWith (self : ResponderHandshake) (rootKey : Bytes)
    (confirmation : HandshakeConfirmation) :
    Method ErrorClass ResponderHandshake Call SessionState := do
  confirmation.validateForResponse self.response
  let signedPayload ← confirmation.signaturePayload self.offer self.response
  Identity.verifySignature signedPayload confirmation.signature self.remoteSigningPublicKey
  let transcript ← handshakeTranscript self.offer self.response
  let transcriptHash := Crypto.sha256 transcript
  let expectedConfirmation ← deriveKeyConfirmation rootKey transcriptHash (lit "initiator")
  raiseIf (confirmation.initiatorKeyConfirmation ≠ expectedConfirmation)
    (keyConfirmationError (lit "initiator key confirmation failed"))
  let session := SessionState.new self.offer.responder self.offer.initiator self.suite rootKey
    self.response.responderEphemeralPublicKey self.offer.initiatorEphemeralPublicKey
  Method.update fun h => { h with rootKey := none }
  return session

def complete (confirmation : HandshakeConfirmation) :
    Method ErrorClass ResponderHandshake Call SessionState := do
  let self ← Method.self
  match self.rootKey with
  | none => liftM (Except.error (.builtin .runtimeError
      (lit "responder handshake has already been completed")) : Except PyError SessionState)
  | some rootKey => self.completeWith rootKey confirmation

end ResponderHandshake

/-! ## Starting a handshake -/

namespace SessionFactory

variable {σ : Type}

def initiator (localIdentity : Identity) (remoteName : Str) (remoteSigningPublicKey : Bytes)
    (suite : AeadSuite) (supplementalSecret : Bytes) (localEphemeral : Crypto.ExchangeKey) :
    Method ErrorClass σ Call InitiatorHandshake := do
  let localEphemeralPublic ← generate localEphemeral
  let localSigningPublic := localIdentity.ed25519PublicBytes
  let payload ← HandshakeOffer.signaturePayloadFor (.int protocolVersion) (.str suite.value)
    (.str localIdentity.name) (.str remoteName) (.bytes localEphemeralPublic)
    (.bytes localSigningPublic)
  let signature ← localIdentity.sign payload
  let offer ← HandshakeOffer.new (.int protocolVersion) (.str suite.value)
    (.str localIdentity.name) (.str remoteName) (.bytes localEphemeralPublic)
    (.bytes localSigningPublic) (.bytes signature)
  return ⟨localIdentity, remoteSigningPublicKey, offer, supplementalSecret, some localEphemeral⟩

def responder (localIdentity : Identity) (remoteSigningPublicKey : Bytes) (offer : HandshakeOffer)
    (supplementalSecret : Bytes) (localEphemeral : Crypto.ExchangeKey) :
    Method ErrorClass σ Call (HandshakeResponse × ResponderHandshake) := do
  raiseIf (localIdentity.name ≠ offer.responder)
    (valueError "local identity does not match handshake responder" : PyError)
  raiseIf (offer.initiatorSigningPublicKey ≠ remoteSigningPublicKey)
    (invalidSignatureError (lit "initiator signing key does not match trust anchor"))
  let signedPayload ← offer.signaturePayload
  Identity.verifySignature signedPayload offer.signature remoteSigningPublicKey
  let suite ← AeadSuite.ofValue offer.suite
  let localEphemeralPublic ← generate localEphemeral
  let localSigningPublic := localIdentity.ed25519PublicBytes
  let sharedSecret ← Crypto.exchange localEphemeral offer.initiatorEphemeralPublicKey
  let provisionalResponse ← HandshakeResponse.fromOffer offer localEphemeralPublic
    localSigningPublic (List.replicate 32 0) (List.replicate 64 0)
  let transcript ← handshakeTranscript offer provisionalResponse
  let transcriptHash := Crypto.sha256 transcript
  let rootKey ← deriveSessionRoot sharedSecret transcriptHash supplementalSecret
  let responderKeyConfirmation ← deriveKeyConfirmation rootKey transcriptHash (lit "responder")
  let unsignedResponse ← HandshakeResponse.fromOffer offer localEphemeralPublic localSigningPublic
    responderKeyConfirmation (List.replicate 64 0)
  let payload ← unsignedResponse.signaturePayload offer
  let signature ← localIdentity.sign payload
  let response ← HandshakeResponse.fromOffer offer localEphemeralPublic localSigningPublic
    responderKeyConfirmation signature
  return (response, ⟨remoteSigningPublicKey, offer, response, suite, some rootKey⟩)

end SessionFactory

/-! ## The keys of a handshake -/

/-- The hash that binds the keys to the messages. -/
def transcriptHash (offer : HandshakeOffer) (response : HandshakeResponse) : Bytes :=
  Crypto.sha256 (response.transcript offer)

/-- The HKDF call of the root key. -/
def rootInput (offer : HandshakeOffer) (response : HandshakeResponse)
    (shared supplemental : Bytes) : HkdfInput :=
  sessionRootInput (shared ++ supplemental) (transcriptHash offer response)

/-- The root key of a handshake. -/
def rootOf (offer : HandshakeOffer) (response : HandshakeResponse)
    (shared supplemental : Bytes) : Bytes :=
  Crypto.hkdf (rootInput offer response shared supplemental)

/-- What a role proves with the root key. -/
def keyConfirmation (role : String) (offer : HandshakeOffer) (response : HandshakeResponse)
    (rootKey : Bytes) : Bytes :=
  Crypto.hmacSha256 rootKey (keyConfirmationPayload role (transcriptHash offer response))

/-- The HMAC call of a key confirmation. -/
def confirmationCall (role : String) (offer : HandshakeOffer) (response : HandshakeResponse)
    (rootKey : Bytes) : Call :=
  .authenticated rootKey (keyConfirmationPayload role (transcriptHash offer response))

theorem keyConfirmation_length (role : String) (offer : HandshakeOffer)
    (response : HandshakeResponse) (rootKey : Bytes) :
    (keyConfirmation role offer response rootKey).length = keyConfirmationLength :=
  Crypto.hmacSha256_length _ _

omit [Interpreter] [Crypto] in
/-- The suites of handshake messages are those of sessions. -/
theorem exists_suite {suite : Str} (h : suite ∈ supportedHandshakeSuites) :
    ∃ a : AeadSuite, suite = a.value := by
  simp only [supportedHandshakeSuites, List.mem_cons, List.not_mem_nil, or_false] at h
  rcases h with rfl | rfl
  · exact ⟨.aesGcmSiv, rfl⟩
  · exact ⟨.chacha20Poly1305, rfl⟩

omit [Interpreter] [Crypto] in
theorem value_mem (suite : AeadSuite) : suite.value ∈ supportedHandshakeSuites := by
  cases suite <;> decide

/-! ## Completing as the initiator -/

namespace InitiatorHandshake

/-- What `complete` checks of a response. -/
structure Accepts (pending : InitiatorHandshake) (privateKey : Crypto.ExchangeKey)
    (response : HandshakeResponse) (shared : Bytes) : Prop where
  fields : response.toOfferFields = pending.offer.toOfferFields
  anchor : response.responderSigningPublicKey = pending.remoteSigningPublicKey
  signature : Crypto.verify pending.remoteSigningPublicKey response.signature
    (responsePayload (response.transcript pending.offer) response.responderKeyConfirmation) = true
  exchange : Crypto.exchange privateKey response.responderEphemeralPublicKey = .ok shared
  confirmation : response.responderKeyConfirmation = keyConfirmation "responder" pending.offer
    response (Crypto.hkdf (rootInput pending.offer response shared pending.supplementalSecret))

/-- The payload of the confirmation. -/
def payload (self : InitiatorHandshake) (response : HandshakeResponse) (rootKey : Bytes) : Bytes :=
  confirmationPayload (response.transcript self.offer) response.responderKeyConfirmation
    (keyConfirmation "initiator" self.offer response rootKey)

/-- The confirmation with a signature. -/
def confirmationWith (self : InitiatorHandshake) (response : HandshakeResponse) (rootKey : Bytes)
    (signature : FixedBytes 64) : HandshakeConfirmation where
  version := response.version
  suite := response.suite
  initiator := response.initiator
  responder := response.responder
  initiatorEphemeralPublicKey := response.initiatorEphemeralPublicKey
  responderEphemeralPublicKey := response.responderEphemeralPublicKey
  initiatorKeyConfirmation := keyConfirmation "initiator" self.offer response rootKey
  signature := signature.val
  header := response.header
  initiatorEphemeralPublicKey_length := response.initiatorEphemeralPublicKey_length
  responderEphemeralPublicKey_length := response.responderEphemeralPublicKey_length
  ephemeral_distinct := response.ephemeral_distinct
  initiatorKeyConfirmation_length := keyConfirmation_length _ _ _ _
  signature_length := signature.property

/-- The confirmation that `complete` returns. -/
def confirmation (self : InitiatorHandshake) (response : HandshakeResponse) (rootKey : Bytes) :
    HandshakeConfirmation :=
  self.confirmationWith response rootKey
    ⟨Crypto.sign self.localIdentity.signingPrivateKey (self.payload response rootKey),
      Crypto.sign_length _ _⟩

/-- The session that `complete` returns. -/
def session (self : InitiatorHandshake) (response : HandshakeResponse) (suite : AeadSuite)
    (rootKey : Bytes) : SessionState :=
  SessionState.new self.offer.initiator self.offer.responder suite rootKey
    self.offer.initiatorEphemeralPublicKey response.responderEphemeralPublicKey

/-- The calls of a `complete` that returns. -/
def completeCalls (self : InitiatorHandshake) (response : HandshakeResponse)
    (shared : Bytes) : List Call :=
  let input := rootInput self.offer response shared self.supplementalSecret
  [.verified self.remoteSigningPublicKey response.signature
      (responsePayload (response.transcript self.offer) response.responderKeyConfirmation),
    .derived input, confirmationCall "responder" self.offer response (Crypto.hkdf input),
    confirmationCall "initiator" self.offer response (Crypto.hkdf input),
    .signed self.localIdentity.ed25519PublicBytes (self.payload response (Crypto.hkdf input))]

/-- The constructor builds the confirmation with any signature. -/
theorem confirmationWith_new (self : InitiatorHandshake) (response : HandshakeResponse)
    (rootKey : Bytes) (signature : FixedBytes 64) :
    HandshakeConfirmation.new (.int response.version) (.str response.suite)
      (.str response.initiator) (.str response.responder)
      (.bytes response.initiatorEphemeralPublicKey)
      (.bytes response.responderEphemeralPublicKey)
      (.bytes (keyConfirmation "initiator" self.offer response rootKey)) (.bytes signature.val) =
      .ok (self.confirmationWith response rootKey signature) :=
  HandshakeConfirmation.new_ok.mpr ⟨rfl, rfl, rfl, rfl, rfl, rfl, rfl, rfl⟩

theorem confirmationWith_payload {self : InitiatorHandshake} {response : HandshakeResponse}
    (hfields : response.toOfferFields = self.offer.toOfferFields) (rootKey : Bytes)
    (signature : FixedBytes 64) :
    (self.confirmationWith response rootKey signature).signaturePayload self.offer response =
      .ok (self.payload response rootKey) :=
  HandshakeConfirmation.signaturePayload_ok.mpr
    ⟨HandshakeConfirmation.validateForResponse_ok.mpr ⟨rfl, rfl, rfl, rfl, rfl, rfl⟩, hfields, rfl⟩

theorem completeWith_runs (self : InitiatorHandshake) (privateKey : Crypto.ExchangeKey)
    (response : HandshakeResponse) (s : Frame InitiatorHandshake Call) :
    Runs (self.completeWith privateKey response) s
      (fun result t => ∃ shared suite, self.Accepts privateKey response shared ∧
        response.suite = suite.value ∧
        result = (self.confirmation response
            (Crypto.hkdf (rootInput self.offer response shared self.supplementalSecret)),
          self.session response suite
            (Crypto.hkdf (rootInput self.offer response shared self.supplementalSecret))) ∧
        t = ⟨{ s.self with ephemeralPrivateKey := none },
          s.log ++ self.completeCalls response shared⟩)
      fun _ t => t.self = s.self ∧ Extends Call.Silent s.log t.log ∧
        ∀ shared, ¬ self.Accepts privateKey response shared := by
  unfold completeWith
  refine .bind_lift (fun _ hfields => ?_) fun e he => ⟨rfl, .refl _ _, fun shared h =>
    ok_ne_error (a := ()) (HandshakeResponse.validateForOffer_ok.mpr h.fields) he⟩
  replace hfields := HandshakeResponse.validateForOffer_ok.mp hfields
  refine .bind_lift (fun _ hanchor => ?_) fun e he => ⟨rfl, .refl _ _, fun shared h =>
    (raiseIf_error.mp he).1 h.anchor⟩
  replace hanchor := not_not.mp (raiseIf_ok.mp hanchor)
  have hpayload := HandshakeResponse.signaturePayload_ok.mpr
    ⟨hfields, (rfl : responsePayload (response.transcript self.offer) _ = _)⟩
  refine .bind_run (Method.lift_ok.mpr ⟨hpayload, rfl⟩) ?_
  refine (Identity.verifySignature_runs _ _ _ s).bind' (fun _ t ⟨hverify, ht⟩ => ?_)
    fun e t ⟨hverify, ht⟩ => ?_
  swap
  · subst ht
    exact ⟨rfl, .refl _ _, fun shared h => hverify h.signature⟩
  subst ht
  obtain ⟨suite, hsuite⟩ := exists_suite response.header.suite_mem
  refine .bind_run (Method.lift_ok.mpr ⟨AeadSuite.ofValue_ok.mpr hsuite, rfl⟩) ?_
  refine .bind_lift (fun shared hshared => ?_) fun e he => ⟨rfl, .single trivial, fun shared h =>
    ok_ne_error h.exchange he⟩
  refine .bind_run (Method.lift_ok.mpr ⟨handshakeTranscript_ok.mpr ⟨hfields, rfl⟩, rfl⟩) ?_
  refine .bind_run (deriveSessionRoot_run _ _ _ _) ?_
  refine .bind_run (deriveKeyConfirmation_run (Or.inr rfl) _ _ _) ?_
  refine .bind_lift (fun _ hconfirmation => ?_) fun e he => ⟨rfl, ?_, fun shared' h => ?_⟩
  rotate_left
  · exact ((Extends.single trivial).trans (.single trivial)).trans (.single trivial)
  · obtain rfl := Except.ok.inj (hshared.symm.trans h.exchange)
    exact (raiseIf_error.mp he).1 h.confirmation
  replace hconfirmation := not_not.mp (raiseIf_ok.mp hconfirmation)
  refine .bind_run (deriveKeyConfirmation_run (Or.inl rfl) _ _ _) ?_
  refine .bind_run (Method.lift_ok.mpr ⟨confirmationWith_new self response _
    ⟨List.replicate 64 0, List.length_replicate⟩, rfl⟩) ?_
  refine .bind_run (Method.lift_ok.mpr ⟨confirmationWith_payload hfields _ _, rfl⟩) ?_
  refine .bind_run (Identity.sign_run _ _ _) ?_
  refine .bind_run (Method.lift_ok.mpr ⟨confirmationWith_new self response _
    ⟨_, Crypto.sign_length _ _⟩, rfl⟩) ?_
  refine .bind_run (Method.run_update _ _) (.pure ?_)
  refine ⟨shared, suite, ⟨hfields, hanchor, hverify, hshared, hconfirmation⟩, hsuite, rfl, ?_⟩
  simp only [completeCalls, List.append_assoc, List.cons_append, List.nil_append]
  rfl

/-- **What `complete` does.** Whatever makes it raise, the pending handshake is as it was. -/
theorem complete_runs (response : HandshakeResponse) (s : Frame InitiatorHandshake Call) :
    Runs (complete response) s
      (fun result t => ∃ privateKey shared suite,
        s.self.ephemeralPrivateKey = some privateKey ∧
        s.self.Accepts privateKey response shared ∧ response.suite = suite.value ∧
        result = (s.self.confirmation response
            (Crypto.hkdf (rootInput s.self.offer response shared s.self.supplementalSecret)),
          s.self.session response suite
            (Crypto.hkdf (rootInput s.self.offer response shared s.self.supplementalSecret))) ∧
        t = ⟨{ s.self with ephemeralPrivateKey := none },
          s.log ++ s.self.completeCalls response shared⟩)
      fun _ t => t.self = s.self ∧ Extends Call.Silent s.log t.log ∧ ∀ privateKey shared,
        s.self.ephemeralPrivateKey = some privateKey →
        ¬ s.self.Accepts privateKey response shared := by
  unfold complete
  refine .bind_run (Method.run_self s) ?_
  cases hkey : s.self.ephemeralPrivateKey with
  | none => exact ⟨rfl, .refl _ _, fun _ _ h => by cases h⟩
  | some privateKey =>
    refine (completeWith_runs s.self privateKey response s).mono ?_ ?_
    · rintro result t ⟨shared, suite, haccepts, hsuite, hresult, ht⟩
      exact ⟨privateKey, shared, suite, rfl, haccepts, hsuite, hresult, ht⟩
    · rintro _ t ⟨hself, hlog, hreject⟩
      exact ⟨hself, hlog, fun key shared hkey => by cases hkey; exact hreject shared⟩

end InitiatorHandshake

/-! ## Completing as the responder -/

namespace ResponderHandshake

/-- What `complete` checks of a confirmation. -/
structure Accepts (pending : ResponderHandshake) (rootKey : Bytes)
    (confirmation : HandshakeConfirmation) : Prop where
  fields : confirmation.validateForResponse pending.response = .ok ()
  offer : pending.response.toOfferFields = pending.offer.toOfferFields
  signature : Crypto.verify pending.remoteSigningPublicKey confirmation.signature
    (confirmationPayload (pending.response.transcript pending.offer)
      pending.response.responderKeyConfirmation confirmation.initiatorKeyConfirmation) = true
  confirmation : confirmation.initiatorKeyConfirmation =
    keyConfirmation "initiator" pending.offer pending.response rootKey

/-- The session that `complete` returns. -/
def session (self : ResponderHandshake) (rootKey : Bytes) : SessionState :=
  SessionState.new self.offer.responder self.offer.initiator self.suite rootKey
    self.response.responderEphemeralPublicKey self.offer.initiatorEphemeralPublicKey

/-- The calls of a `complete` that returns. -/
def completeCalls (self : ResponderHandshake) (rootKey : Bytes)
    (confirmation : HandshakeConfirmation) : List Call :=
  [.verified self.remoteSigningPublicKey confirmation.signature
      (confirmationPayload (self.response.transcript self.offer)
        self.response.responderKeyConfirmation confirmation.initiatorKeyConfirmation),
    confirmationCall "initiator" self.offer self.response rootKey]

theorem completeWith_runs (self : ResponderHandshake) (rootKey : Bytes)
    (confirmation : HandshakeConfirmation) (s : Frame ResponderHandshake Call) :
    Runs (self.completeWith rootKey confirmation) s
      (fun session t => self.Accepts rootKey confirmation ∧ session = self.session rootKey ∧
        t = ⟨{ s.self with rootKey := none }, s.log ++ self.completeCalls rootKey confirmation⟩)
      fun _ t => t.self = s.self ∧ Extends Call.Silent s.log t.log ∧
        ¬ self.Accepts rootKey confirmation := by
  unfold completeWith
  refine .bind_lift (fun _ hfields => ?_) fun e he => ⟨rfl, .refl _ _, fun h =>
    ok_ne_error h.fields he⟩
  refine .bind_lift (fun payload hpayload => ?_) fun e he => ⟨rfl, .refl _ _, fun h => ?_⟩
  swap
  · exact ok_ne_error (HandshakeConfirmation.signaturePayload_ok.mpr
      ⟨h.fields, h.offer, rfl⟩) he
  obtain ⟨-, hoffer, rfl⟩ := HandshakeConfirmation.signaturePayload_ok.mp hpayload
  refine (Identity.verifySignature_runs _ _ _ s).bind' (fun _ t ⟨hverify, ht⟩ => ?_)
    fun e t ⟨hverify, ht⟩ => ?_
  swap
  · subst ht
    exact ⟨rfl, .refl _ _, fun h => hverify h.signature⟩
  subst ht
  refine .bind_run (Method.lift_ok.mpr ⟨handshakeTranscript_ok.mpr ⟨hoffer, rfl⟩, rfl⟩) ?_
  refine .bind_run (deriveKeyConfirmation_run (Or.inl rfl) _ _ _) ?_
  refine .bind_lift (fun _ hconfirmation => ?_) fun e he =>
    ⟨rfl, (Extends.single trivial).trans (.single trivial), fun h =>
      (raiseIf_error.mp he).1 h.confirmation⟩
  replace hconfirmation := not_not.mp (raiseIf_ok.mp hconfirmation)
  refine .bind_run (Method.run_update _ _) (.pure ?_)
  refine ⟨⟨hfields, hoffer, hverify, hconfirmation⟩, rfl, ?_⟩
  simp only [completeCalls, List.append_assoc, List.cons_append, List.nil_append]
  rfl

/-- **What `complete` does.** Whatever makes it raise, the pending handshake is as it was. -/
theorem complete_runs (confirmation : HandshakeConfirmation) (s : Frame ResponderHandshake Call) :
    Runs (complete confirmation) s
      (fun session t => ∃ rootKey, s.self.rootKey = some rootKey ∧
        s.self.Accepts rootKey confirmation ∧ session = s.self.session rootKey ∧
        t = ⟨{ s.self with rootKey := none },
          s.log ++ s.self.completeCalls rootKey confirmation⟩)
      fun _ t => t.self = s.self ∧ Extends Call.Silent s.log t.log ∧ ∀ rootKey,
        s.self.rootKey = some rootKey → ¬ s.self.Accepts rootKey confirmation := by
  unfold complete
  refine .bind_run (Method.run_self s) ?_
  cases hroot : s.self.rootKey with
  | none => exact ⟨rfl, .refl _ _, fun _ h => by cases h⟩
  | some rootKey =>
    refine (completeWith_runs s.self rootKey confirmation s).mono ?_ ?_
    · rintro session t ⟨haccepts, hsession, ht⟩
      exact ⟨rootKey, rfl, haccepts, hsession, ht⟩
    · rintro _ t ⟨hself, hlog, hreject⟩
      exact ⟨hself, hlog, fun key hkey => by cases hkey; exact hreject⟩

/-- Handshakes with the same messages and root key end in sessions with one another. -/
theorem session_mirrors {self : ResponderHandshake} {pending : InitiatorHandshake}
    {response : HandshakeResponse} (hoffer : self.offer = pending.offer)
    (hephemeral : self.response.responderEphemeralPublicKey = response.responderEphemeralPublicKey)
    (rootKey : Bytes) :
    (pending.session response self.suite rootKey).Mirrors (self.session rootKey) := by
  refine ⟨rfl, rfl, ?_, ?_, ?_, hephemeral.symm⟩
  · exact congrArg (fun offer => offer.initiator) hoffer.symm
  · exact congrArg (fun offer => offer.responder) hoffer.symm
  · exact congrArg (fun offer => offer.initiatorEphemeralPublicKey) hoffer.symm

end ResponderHandshake

/-! ## Starting -/

namespace SessionFactory

variable {σ : Type}

/-- The offer of an initiator, from fields that have been checked. -/
def offerOf (localIdentity : Identity) (fields : OfferFields) : HandshakeOffer where
  toOfferFields := fields
  signature := Crypto.sign localIdentity.signingPrivateKey (offerPayload fields)
  signature_length := Crypto.sign_length _ _

/-- The fields of an initiator's offer. -/
structure Offers (localIdentity : Identity) (remoteName : Str) (suite : AeadSuite)
    (localEphemeral : Crypto.ExchangeKey) (fields : OfferFields) : Prop where
  version : fields.version = protocolVersion
  suite : fields.suite = suite.value
  initiator : fields.initiator = localIdentity.name
  responder : fields.responder = remoteName
  ephemeral : fields.initiatorEphemeralPublicKey = Crypto.exchangePublic localEphemeral
  signing : fields.initiatorSigningPublicKey = localIdentity.ed25519PublicBytes

/-- **What starting as the initiator does.** -/
theorem initiator_runs (localIdentity : Identity) (remoteName : Str)
    (remoteSigningPublicKey : Bytes) (suite : AeadSuite) (supplementalSecret : Bytes)
    (localEphemeral : Crypto.ExchangeKey) (s : Frame σ Call) :
    Runs (initiator localIdentity remoteName remoteSigningPublicKey suite supplementalSecret
      localEphemeral) s
      (fun pending t => ∃ fields, Offers localIdentity remoteName suite localEphemeral fields ∧
        pending = ⟨localIdentity, remoteSigningPublicKey, offerOf localIdentity fields,
          supplementalSecret, some localEphemeral⟩ ∧
        t = ⟨s.self, s.log ++ [.generated (Crypto.exchangePublic localEphemeral),
          .signed localIdentity.ed25519PublicBytes (offerPayload fields)]⟩)
      fun _ t => t = ⟨s.self, s.log ++ [.generated (Crypto.exchangePublic localEphemeral)]⟩ ∧
        ¬ (ValidName remoteName ∧ localIdentity.name ≠ remoteName) := by
  unfold initiator
  refine .bind_run (generate_run _ _) ?_
  have hfields : ∀ fields : OfferFields, validateOfferFields (.int protocolVersion)
      (.str suite.value) (.str localIdentity.name) (.str remoteName)
      (.bytes (Crypto.exchangePublic localEphemeral)) (.bytes localIdentity.ed25519PublicBytes) =
      .ok fields ↔ Offers localIdentity remoteName suite localEphemeral fields := by
    intro fields
    rw [validateOfferFields_ok]
    simp only [Value.int.injEq, Value.str.injEq, Value.bytes.injEq]
    constructor
    · rintro ⟨h₁, h₂, h₃, h₄, h₅, h₆⟩
      exact ⟨h₁.symm, h₂.symm, h₃.symm, h₄.symm, h₅.symm, h₆.symm⟩
    · rintro ⟨h₁, h₂, h₃, h₄, h₅, h₆⟩
      exact ⟨h₁.symm, h₂.symm, h₃.symm, h₄.symm, h₅.symm, h₆.symm⟩
  refine .bind_lift (fun payload hpayload => ?_) fun e he => ⟨rfl, fun ⟨hvalid, hne⟩ => ?_⟩
  swap
  · have hok := (hfields ⟨protocolVersion, suite.value, localIdentity.name, remoteName,
      _, _, ⟨rfl, value_mem suite, localIdentity.name_valid.1, hvalid, hne⟩,
      Crypto.exchangePublic_length localEphemeral, localIdentity.ed25519PublicBytes_length⟩).mpr
        ⟨rfl, rfl, rfl, rfl, rfl, rfl⟩
    unfold HandshakeOffer.signaturePayloadFor at he
    rw [hok, ok_bind, handshakeContext_eq] at he
    cases he
  obtain ⟨fields, hvalidate, hcontext⟩ := bind_eq_ok.mp hpayload
  obtain rfl := Except.ok.inj ((handshakeContext_eq fields).symm.trans hcontext)
  refine .bind_run (Identity.sign_run _ _ _) ?_
  refine .bind_run (Method.lift_ok.mpr ⟨HandshakeOffer.new_ok.mpr
    ⟨hvalidate, (rfl : _ = Value.bytes (offerOf localIdentity fields).signature)⟩, rfl⟩) (.pure ?_)
  refine ⟨fields, (hfields fields).mp hvalidate, rfl, ?_⟩
  rw [List.append_assoc]
  rfl

/-- What `responder` checks of an offer. -/
structure Accepts (localIdentity : Identity) (remoteSigningPublicKey : Bytes)
    (offer : HandshakeOffer) (localEphemeral : Crypto.ExchangeKey) (shared : Bytes) : Prop where
  name : localIdentity.name = offer.responder
  anchor : offer.initiatorSigningPublicKey = remoteSigningPublicKey
  signature : Crypto.verify remoteSigningPublicKey offer.signature
    (offerPayload offer.toOfferFields) = true
  exchange : Crypto.exchange localEphemeral offer.initiatorEphemeralPublicKey = .ok shared
  distinct : Crypto.exchangePublic localEphemeral ≠ offer.initiatorEphemeralPublicKey

/-- The response to an offer, with any confirmation and signature. -/
def responseWith (localIdentity : Identity) (offer : HandshakeOffer)
    (localEphemeral : Crypto.ExchangeKey)
    (distinct : Crypto.exchangePublic localEphemeral ≠ offer.initiatorEphemeralPublicKey)
    (confirmation : FixedBytes 32) (signature : FixedBytes 64) : HandshakeResponse where
  toOfferFields := offer.toOfferFields
  responderEphemeralPublicKey := Crypto.exchangePublic localEphemeral
  responderSigningPublicKey := localIdentity.ed25519PublicBytes
  responderKeyConfirmation := confirmation.val
  signature := signature.val
  responderEphemeralPublicKey_length := Crypto.exchangePublic_length _
  ephemeral_distinct := distinct
  responderSigningPublicKey_length := localIdentity.ed25519PublicBytes_length
  responderKeyConfirmation_length := confirmation.property
  signature_length := signature.property

/-- What a response proves and signs. -/
structure Responds (localIdentity : Identity) (offer : HandshakeOffer)
    (localEphemeral : Crypto.ExchangeKey) (rootKey : Bytes) (response : HandshakeResponse) :
    Prop where
  fields : response.toOfferFields = offer.toOfferFields
  ephemeral : response.responderEphemeralPublicKey = Crypto.exchangePublic localEphemeral
  signing : response.responderSigningPublicKey = localIdentity.ed25519PublicBytes
  confirmation : response.responderKeyConfirmation =
    keyConfirmation "responder" offer response rootKey
  signature : response.signature = Crypto.sign localIdentity.signingPrivateKey
    (responsePayload (response.transcript offer) response.responderKeyConfirmation)

/-- The calls of a `responder` that returns. -/
def responderCalls (localIdentity : Identity) (offer : HandshakeOffer)
    (localEphemeral : Crypto.ExchangeKey) (response : HandshakeResponse)
    (shared supplementalSecret : Bytes) : List Call :=
  let input := rootInput offer response shared supplementalSecret
  [.verified offer.initiatorSigningPublicKey offer.signature (offerPayload offer.toOfferFields),
    .generated (Crypto.exchangePublic localEphemeral), .derived input,
    confirmationCall "responder" offer response (Crypto.hkdf input),
    .signed localIdentity.ed25519PublicBytes
      (responsePayload (response.transcript offer) response.responderKeyConfirmation)]

/-- **What starting as the responder does.** The transcript hash comes from a provisional response,
whose zeroed fields the transcript leaves out. -/
theorem responder_runs (localIdentity : Identity) (remoteSigningPublicKey : Bytes)
    (offer : HandshakeOffer) (supplementalSecret : Bytes) (localEphemeral : Crypto.ExchangeKey)
    (s : Frame σ Call) :
    Runs (responder localIdentity remoteSigningPublicKey offer supplementalSecret localEphemeral) s
      (fun result t => ∃ shared suite response,
        Accepts localIdentity remoteSigningPublicKey offer localEphemeral shared ∧
        offer.suite = suite.value ∧
        Responds localIdentity offer localEphemeral
          (Crypto.hkdf (rootInput offer response shared supplementalSecret)) response ∧
        result = (response, ⟨remoteSigningPublicKey, offer, response, suite,
          some (Crypto.hkdf (rootInput offer response shared supplementalSecret))⟩) ∧
        t = ⟨s.self, s.log ++ responderCalls localIdentity offer localEphemeral response shared
          supplementalSecret⟩)
      fun _ t => t.self = s.self ∧
        Extends (fun c => c.Silent ∨ c = .generated (Crypto.exchangePublic localEphemeral))
          s.log t.log ∧
        ∀ shared, ¬ Accepts localIdentity remoteSigningPublicKey offer localEphemeral shared := by
  unfold responder
  refine .bind_lift (fun _ hname => ?_) fun e he => ⟨rfl, .refl _ _, fun shared h =>
    (raiseIf_error.mp he).1 h.name⟩
  replace hname := not_not.mp (raiseIf_ok.mp hname)
  refine .bind_lift (fun _ hanchor => ?_) fun e he => ⟨rfl, .refl _ _, fun shared h =>
    (raiseIf_error.mp he).1 h.anchor⟩
  replace hanchor := not_not.mp (raiseIf_ok.mp hanchor)
  refine .bind_run (Method.lift_ok.mpr ⟨offer.signaturePayload_eq, rfl⟩) ?_
  refine (Identity.verifySignature_runs _ _ _ s).bind' (fun _ t ⟨hverify, ht⟩ => ?_)
    fun e t ⟨hverify, ht⟩ => ?_
  swap
  · subst ht
    exact ⟨rfl, .refl _ _, fun shared h => hverify h.signature⟩
  subst ht
  obtain ⟨suite, hsuite⟩ := exists_suite offer.header.suite_mem
  refine .bind_run (Method.lift_ok.mpr ⟨AeadSuite.ofValue_ok.mpr hsuite, rfl⟩) ?_
  refine .bind_run (generate_run _ _) ?_
  have hlog : Extends (fun c => c.Silent ∨ c = .generated (Crypto.exchangePublic localEphemeral))
      s.log ((s.log ++ [.verified remoteSigningPublicKey offer.signature
        (offerPayload offer.toOfferFields)]) ++
        [.generated (Crypto.exchangePublic localEphemeral)]) := by
    have hverified : Call.Silent (.verified remoteSigningPublicKey offer.signature
        (offerPayload offer.toOfferFields)) := trivial
    exact .trans (.single (Or.inl hverified)) (.single (Or.inr rfl))
  refine .bind_lift (fun shared hshared => ?_) fun e he => ⟨rfl, hlog, fun shared h =>
    ok_ne_error h.exchange he⟩
  by_cases hdistinct : Crypto.exchangePublic localEphemeral = offer.initiatorEphemeralPublicKey
  · refine .bind_lift (fun response h => ?_) fun e he => ⟨rfl, hlog, fun shared h =>
      h.distinct hdistinct⟩
    -- a response with the offer's own key cannot be built
    obtain ⟨hfields, hephemeral, -⟩ := HandshakeResponse.fromOffer_ok.mp h
    refine absurd (hephemeral.trans (hdistinct.trans ?_)) response.ephemeral_distinct
    rw [hfields]
  have hnew : ∀ (confirmation : FixedBytes 32) (signature : FixedBytes 64),
      HandshakeResponse.fromOffer offer (Crypto.exchangePublic localEphemeral)
        localIdentity.ed25519PublicBytes confirmation.val signature.val = .ok (responseWith
          localIdentity offer localEphemeral hdistinct confirmation signature) :=
    fun _ _ => HandshakeResponse.fromOffer_ok.mpr ⟨rfl, rfl, rfl, rfl, rfl⟩
  refine .bind_run (Method.lift_ok.mpr ⟨hnew ⟨List.replicate 32 0, List.length_replicate⟩
    ⟨List.replicate 64 0, List.length_replicate⟩, rfl⟩) ?_
  refine .bind_run (Method.lift_ok.mpr ⟨handshakeTranscript_ok.mpr ⟨rfl, rfl⟩, rfl⟩) ?_
  refine .bind_run (deriveSessionRoot_run _ _ _ _) ?_
  refine .bind_run (deriveKeyConfirmation_run (Or.inr rfl) _ _ _) ?_
  refine .bind_run (Method.lift_ok.mpr ⟨hnew ⟨_, Crypto.hmacSha256_length _ _⟩
    ⟨List.replicate 64 0, List.length_replicate⟩, rfl⟩) ?_
  refine .bind_run (Method.lift_ok.mpr ⟨HandshakeResponse.signaturePayload_ok.mpr ⟨rfl, rfl⟩,
    rfl⟩) ?_
  refine .bind_run (Identity.sign_run _ _ _) ?_
  refine .bind_run (Method.lift_ok.mpr ⟨hnew ⟨_, Crypto.hmacSha256_length _ _⟩
    ⟨_, Crypto.sign_length _ _⟩, rfl⟩) (.pure ?_)
  refine ⟨shared, suite, _, ⟨hname, hanchor, hverify, hshared, hdistinct⟩, hsuite,
    ⟨rfl, rfl, rfl, rfl, rfl⟩, rfl, ?_⟩
  rw [← hanchor]
  simp only [responderCalls, List.append_assoc, List.cons_append, List.nil_append]
  rfl

end SessionFactory

end CypherSyntax
