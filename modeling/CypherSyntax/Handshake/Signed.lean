import CypherSyntax.Handshake.Payload

/-!
# Signed payloads

What the parties sign, for the three kinds of messages together.

Results:
* `Signed.same_of_bytes`: payloads that are equal are of one kind and bind the same fields.
* `signed_unambiguous`: this, and what a transcript determines and leaves out.
-/

namespace CypherSyntax

open Python Json

variable [UnicodeData]

/-- A message with what its signature refers to. -/
inductive Signed where
  | offer (offer : HandshakeOffer)
  | response (offer : HandshakeOffer) (response : HandshakeResponse)
  | confirmation (offer : HandshakeOffer) (response : HandshakeResponse)
      (confirmation : HandshakeConfirmation)

namespace Signed

/-- The `signature_payload` of the message. -/
def payload : Signed → Except PyError Bytes
  | .offer o => o.signaturePayload
  | .response o r => r.signaturePayload o
  | .confirmation o r c => c.signaturePayload o r

/-- Responses to the same offer that differ in their signatures at most. -/
structure SameResponse (offer offer' : HandshakeOffer) (response response' : HandshakeResponse) :
    Prop where
  offer : offer = offer'
  fields : response.toOfferFields = response'.toOfferFields
  ephemeral : response.responderEphemeralPublicKey = response'.responderEphemeralPublicKey
  signing : response.responderSigningPublicKey = response'.responderSigningPublicKey
  confirmation : response.responderKeyConfirmation = response'.responderKeyConfirmation

/-- Confirmations that differ in their signatures at most. -/
structure SameConfirmation (confirmation confirmation' : HandshakeConfirmation) : Prop where
  version : confirmation.version = confirmation'.version
  suite : confirmation.suite = confirmation'.suite
  initiator : confirmation.initiator = confirmation'.initiator
  responder : confirmation.responder = confirmation'.responder
  initiatorEphemeral :
    confirmation.initiatorEphemeralPublicKey = confirmation'.initiatorEphemeralPublicKey
  responderEphemeral :
    confirmation.responderEphemeralPublicKey = confirmation'.responderEphemeralPublicKey
  initiatorConfirmation :
    confirmation.initiatorKeyConfirmation = confirmation'.initiatorKeyConfirmation

/-- Messages of one kind whose signatures bind the same fields. -/
def Same : Signed → Signed → Prop
  | .offer o, .offer o' => o.toOfferFields = o'.toOfferFields
  | .response o r, .response o' r' => SameResponse o o' r r'
  | .confirmation o r c, .confirmation o' r' c' => SameResponse o o' r r' ∧ SameConfirmation c c'
  | _, _ => False

/-! ## Payloads of messages -/

/-- The payload of a message whose parts belong together. -/
def bytes : Signed → Bytes
  | .offer o => offerPayload o.toOfferFields
  | .response o r => responsePayload (r.transcript o) r.responderKeyConfirmation
  | .confirmation o r c =>
    confirmationPayload (r.transcript o) r.responderKeyConfirmation c.initiatorKeyConfirmation

/-- The parts belong together. -/
def Consistent : Signed → Prop
  | .offer _ => True
  | .response o r => r.toOfferFields = o.toOfferFields
  | .confirmation o r c =>
    c.validateForResponse r = .ok () ∧ r.toOfferFields = o.toOfferFields

theorem payload_ok {message : Signed} {data : Bytes} :
    message.payload = .ok data ↔ message.Consistent ∧ message.bytes = data := by
  cases message with
  | offer offer =>
    simp only [payload, Consistent, bytes]
    rw [offer.signaturePayload_eq, Except.ok.injEq, true_and]
  | response offer response => exact HandshakeResponse.signaturePayload_ok
  | confirmation offer response confirmation =>
    simp only [payload, Consistent, bytes]
    rw [HandshakeConfirmation.signaturePayload_ok, and_assoc]

/-- What the two nested payloads share. -/
theorem sameResponse {offer offer' : HandshakeOffer} {response response' : HandshakeResponse}
    (hfields : response.toOfferFields = offer.toOfferFields)
    (hfields' : response'.toOfferFields = offer'.toOfferFields)
    (htranscript : response.transcript offer = response'.transcript offer')
    (hconfirmation : response.responderKeyConfirmation = response'.responderKeyConfirmation) :
    SameResponse offer offer' response response' := by
  obtain ⟨hoffer, hephemeral, hsigning⟩ := transcriptOf_inj response.ephemeral_small
    response'.ephemeral_small response.signing_small response'.signing_small htranscript
  refine ⟨hoffer, ?_, hephemeral, hsigning, hconfirmation⟩
  rw [hfields, hfields', hoffer]

theorem confirmation_small (confirmation : HandshakeConfirmation) :
    Small confirmation.initiatorKeyConfirmation :=
  small_of_length confirmation.initiatorKeyConfirmation_length (by decide)

/-- **Equal payloads are of one kind and bind the same fields.** -/
theorem same_of_bytes {message message' : Signed} (h : message.Consistent)
    (h' : message'.Consistent) (heq : message.bytes = message'.bytes) :
    message.Same message' := by
  cases message with
  | offer offer =>
    cases message' with
    | offer offer' => exact offerPayload_inj heq
    | response => exact absurd heq (offerPayload_ne_response _ _ _)
    | confirmation => exact absurd heq (offerPayload_ne_confirmation _ _ _ _)
  | response offer response =>
    cases message' with
    | offer => exact absurd heq.symm (offerPayload_ne_response _ _ _)
    | response offer' response' =>
      obtain ⟨htranscript, hconfirmation⟩ := responsePayload_inj (response.transcript_short offer)
        (response'.transcript_short offer') response.confirmation_small.short
        response'.confirmation_small.short heq
      exact sameResponse h h' htranscript hconfirmation
    | confirmation => exact absurd heq (responsePayload_ne_confirmation _ _ _ _ _)
  | confirmation offer response confirmation =>
    cases message' with
    | offer => exact absurd heq.symm (offerPayload_ne_confirmation _ _ _ _)
    | response => exact absurd heq.symm (responsePayload_ne_confirmation _ _ _ _ _)
    | confirmation offer' response' confirmation' =>
      obtain ⟨hvalid, hfields⟩ := h
      obtain ⟨hvalid', hfields'⟩ := h'
      obtain ⟨htranscript, hresponder, hinitiator⟩ := confirmationPayload_inj
        (response.transcript_short offer) (response'.transcript_short offer')
        response.confirmation_small.short response'.confirmation_small.short
        (confirmation_small confirmation).short (confirmation_small confirmation').short heq
      have hsame := sameResponse hfields hfields' htranscript hresponder
      have hfield := fun {α : Type} (f : OfferFields → α) => congrArg f hsame.fields
      obtain ⟨hv, hs, hi, hr, he, hre⟩ := HandshakeConfirmation.validateForResponse_ok.mp hvalid
      obtain ⟨hv', hs', hi', hr', he', hre'⟩ :=
        HandshakeConfirmation.validateForResponse_ok.mp hvalid'
      refine ⟨hsame, ?_, ?_, ?_, ?_, ?_, ?_, hinitiator⟩
      · exact hv.trans ((hfield OfferFields.version).trans hv'.symm)
      · exact hs.trans ((hfield OfferFields.suite).trans hs'.symm)
      · exact hi.trans ((hfield OfferFields.initiator).trans hi'.symm)
      · exact hr.trans ((hfield OfferFields.responder).trans hr'.symm)
      · exact he.trans ((hfield OfferFields.initiatorEphemeralPublicKey).trans he'.symm)
      · exact hre.trans (hsame.ephemeral.trans hre'.symm)

end Signed

/-- **Signed payloads are unambiguous**: two messages with one payload are of one kind and agree on
every field that it binds. A transcript determines the offer and both public keys of the responder,
and nothing else of the response. -/
theorem signed_unambiguous :
    (∀ (message message' : Signed) (data : Bytes), message.payload = .ok data →
      message'.payload = .ok data → message.Same message') ∧
    (∀ (offer offer' : HandshakeOffer) (response response' : HandshakeResponse)
      (transcript : Bytes), handshakeTranscript offer response = .ok transcript →
      handshakeTranscript offer' response' = .ok transcript →
      offer = offer' ∧
      response.responderEphemeralPublicKey = response'.responderEphemeralPublicKey ∧
      response.responderSigningPublicKey = response'.responderSigningPublicKey) ∧
    ∀ (offer : HandshakeOffer) (response response' : HandshakeResponse),
      response.toOfferFields = response'.toOfferFields →
      response.responderEphemeralPublicKey = response'.responderEphemeralPublicKey →
      response.responderSigningPublicKey = response'.responderSigningPublicKey →
      handshakeTranscript offer response = handshakeTranscript offer response' := by
  refine ⟨fun message message' data h h' => ?_, fun offer offer' response response' transcript h h' =>
    ?_, fun offer response response' hfields hephemeral hsigning => ?_⟩
  · obtain ⟨hconsistent, rfl⟩ := Signed.payload_ok.mp h
    obtain ⟨hconsistent', heq⟩ := Signed.payload_ok.mp h'
    exact Signed.same_of_bytes hconsistent hconsistent' heq.symm
  · obtain ⟨-, rfl⟩ := handshakeTranscript_ok.mp h
    obtain ⟨-, heq⟩ := handshakeTranscript_ok.mp h'
    exact transcriptOf_inj response.ephemeral_small response'.ephemeral_small
      response.signing_small response'.signing_small heq.symm
  · unfold handshakeTranscript HandshakeResponse.validateForOffer
    rw [hfields, hephemeral, hsigning]

end CypherSyntax
