import CypherSyntax.Handshake

/-!
# What the handshake signs

The signed payloads of valid messages, as byte strings, and what they determine. Every field goes
in behind its length, and the three kinds of payload have labels of which none starts another.

Results:
* `HandshakeOffer.signaturePayload_eq`, `HandshakeResponse.signaturePayload_ok`,
  `HandshakeConfirmation.signaturePayload_ok`: what the source computes.
* `transcriptOf_inj`: a transcript determines the offer and the responder's public keys.
* `responsePayload_inj`, `confirmationPayload_inj`: the payloads determine what they bind.
* `offerPayload_ne_response`, `offerPayload_ne_confirmation`, `responsePayload_ne_confirmation`:
  payloads of different kinds differ.
-/

namespace CypherSyntax

open Python Json

/-! ## Encoded fields -/

/-- The digits of a version. -/
def versionBytes (version : Int) : Bytes := (encodeAscii (intText version)).getD []

theorem suite_encodes {suite : Str} (h : suite ∈ supportedHandshakeSuites) :
    (encodeUtf8 suite).isSome = true ∧ (utf8 suite).length ≤ maxSuiteNameBytes := by
  simp only [supportedHandshakeSuites, List.mem_cons, List.not_mem_nil, or_false] at h
  rcases h with rfl | rfl <;> decide

theorem versionBytes_ok {version : Int} (h : version = protocolVersion) :
    encodeAsciiText (κ := ErrorClass) (intText version) = .ok (versionBytes version) ∧
      (versionBytes version).length = 1 := by
  subst h
  decide

/-! ## Small fields -/

/-- Small enough for any payload. -/
def Small (value : Bytes) : Prop := value.length ≤ maxParticipantNameBytes

theorem Small.short {value : Bytes} (h : Small value) : Short value :=
  Nat.lt_of_le_of_lt h (by decide)

theorem small_of_length {value : Bytes} {n : Nat} (h : value.length = n) (hn : n ≤ 255) :
    Small value := h.trans_le hn

theorem frames_length_le : ∀ {values : List Bytes}, (∀ v ∈ values, Small v) →
    (frames values).length ≤ values.length * (4 + maxParticipantNameBytes)
  | [], _ => Nat.zero_le _
  | v :: values, h => by
    obtain ⟨hv, hvs⟩ := List.forall_mem_cons.mp h
    have ih := frames_length_le hvs
    have hsmall : v.length ≤ maxParticipantNameBytes := hv
    show (frame v ++ frames values).length ≤ _
    rw [List.length_append, frame, List.length_append, beBytes_length, List.length_cons,
      Nat.succ_mul]
    omega

theorem short_pair {a b : Bytes} (ha : Short a) (hb : Short b) : ∀ v ∈ [a, b], Short v := by
  simp only [List.forall_mem_cons]
  exact ⟨ha, hb, fun _ h => absurd h List.not_mem_nil⟩

theorem short_triple {a b c : Bytes} (ha : Short a) (hb : Short b) (hc : Short c) :
    ∀ v ∈ [a, b, c], Short v :=
  List.forall_mem_cons.mpr ⟨ha, short_pair hb hc⟩

/-! ## Payloads of transcripts -/

def responsePayload (transcript confirmation : Bytes) : Bytes :=
  ascii "CypherSyntax/handshake-response-signature/v1" ++ frames [transcript, confirmation]

def confirmationPayload (transcript responderConfirmation initiatorConfirmation : Bytes) : Bytes :=
  ascii "CypherSyntax/handshake-confirmation-signature/v1" ++
    frames [transcript, responderConfirmation, initiatorConfirmation]

theorem responsePayload_inj {t t' c c' : Bytes} (ht : Short t) (ht' : Short t') (hc : Short c)
    (hc' : Short c') (h : responsePayload t c = responsePayload t' c') : t = t' ∧ c = c' := by
  have hvalues := joinFields_inj (short_pair ht hc) (short_pair ht' hc') h
  simp only [List.cons.injEq, and_true] at hvalues
  exact hvalues

theorem confirmationPayload_inj {t t' r r' i i' : Bytes} (ht : Short t) (ht' : Short t')
    (hr : Short r) (hr' : Short r') (hi : Short i) (hi' : Short i')
    (h : confirmationPayload t r i = confirmationPayload t' r' i') :
    t = t' ∧ r = r' ∧ i = i' := by
  have hvalues := joinFields_inj (short_triple ht hr hi) (short_triple ht' hr' hi') h
  simp only [List.cons.injEq, and_true] at hvalues
  exact hvalues

/-- Payloads whose labels differ early differ. -/
theorem ne_of_take {a b s t : Bytes} {n : Nat} (ha : n ≤ a.length) (hb : n ≤ b.length)
    (hne : a.take n ≠ b.take n) : a ++ s ≠ b ++ t := by
  intro h
  have htake := congrArg (List.take n) h
  rw [List.take_append_of_le_length ha, List.take_append_of_le_length hb] at htake
  exact hne htake

theorem responsePayload_ne_confirmation (t c t' r i : Bytes) :
    responsePayload t c ≠ confirmationPayload t' r i :=
  ne_of_take (n := 24) (by decide) (by decide) (by decide)

section Payloads

variable [UnicodeData]

theorem ValidName.utf8_length {name : Str} (h : ValidName name) :
    (utf8 name).length ≤ maxParticipantNameBytes :=
  (encodeUtf8_length (encode_utf8 h.isSome)).trans_le h.utf8Size_le

/-! ## Offers and transcripts -/

/-- The values of `handshake_context`. -/
def OfferFields.values (f : OfferFields) : List Bytes :=
  [versionBytes f.version, utf8 f.suite, utf8 f.initiator, utf8 f.responder,
    f.initiatorEphemeralPublicKey, f.initiatorSigningPublicKey]

def offerPayload (f : OfferFields) : Bytes :=
  ascii "CypherSyntax/handshake-offer/v1" ++ frames f.values

/-- The values of `handshake_transcript`. -/
def transcriptValues (offer : HandshakeOffer) (ephemeral signing : Bytes) : List Bytes :=
  offer.toOfferFields.values ++ [offer.signature, ephemeral, signing]

def transcriptOf (offer : HandshakeOffer) (ephemeral signing : Bytes) : Bytes :=
  ascii "CypherSyntax/handshake-transcript/v1" ++ frames (transcriptValues offer ephemeral signing)

/-! ### Sizes -/

theorem OfferFields.values_small (f : OfferFields) : ∀ v ∈ f.values, Small v := by
  have hversion := (versionBytes_ok f.header.version_eq).2
  have hsuite := (suite_encodes f.header.suite_mem).2
  have hephemeral := f.initiatorEphemeralPublicKey_length
  have hsigning := f.initiatorSigningPublicKey_length
  unfold maxSuiteNameBytes at hsuite
  unfold x25519PublicKeyLength at hephemeral
  unfold ed25519PublicKeyLength at hsigning
  simp only [OfferFields.values, List.forall_mem_cons]
  refine ⟨?_, ?_, f.header.initiator_valid.utf8_length, f.header.responder_valid.utf8_length,
    ?_, ?_, fun _ h => absurd h List.not_mem_nil⟩
  all_goals
    unfold Small maxParticipantNameBytes
    omega

theorem transcriptValues_small (offer : HandshakeOffer) {ephemeral signing : Bytes}
    (he : Small ephemeral) (hs : Small signing) :
    ∀ v ∈ transcriptValues offer ephemeral signing, Small v := by
  have hsignature : Small offer.signature := by
    unfold Small
    rw [offer.signature_length]
    decide
  intro v hv
  rcases List.mem_append.mp hv with hv | hv
  · exact offer.toOfferFields.values_small v hv
  · simp only [List.mem_cons, List.not_mem_nil, or_false] at hv
    rcases hv with rfl | rfl | rfl
    · exact hsignature
    · exact he
    · exact hs

/-- A transcript is short, though it is not small. -/
theorem transcriptOf_short (offer : HandshakeOffer) {ephemeral signing : Bytes}
    (he : Small ephemeral) (hs : Small signing) : Short (transcriptOf offer ephemeral signing) := by
  have hlen := frames_length_le (transcriptValues_small offer he hs)
  have hcount : (transcriptValues offer ephemeral signing).length = 9 := rfl
  have hlabel : (ascii "CypherSyntax/handshake-transcript/v1").length = 36 := by decide
  rw [hcount, show maxParticipantNameBytes = 255 from rfl] at hlen
  unfold Short transcriptOf
  rw [List.length_append, hlabel]
  omega

theorem HandshakeResponse.ephemeral_small (response : HandshakeResponse) :
    Small response.responderEphemeralPublicKey :=
  small_of_length response.responderEphemeralPublicKey_length (by decide)

theorem HandshakeResponse.signing_small (response : HandshakeResponse) :
    Small response.responderSigningPublicKey :=
  small_of_length response.responderSigningPublicKey_length (by decide)

theorem HandshakeResponse.confirmation_small (response : HandshakeResponse) :
    Small response.responderKeyConfirmation :=
  small_of_length response.responderKeyConfirmation_length (by decide)

/-- The transcript of a response to an offer. -/
def HandshakeResponse.transcript (response : HandshakeResponse) (offer : HandshakeOffer) : Bytes :=
  transcriptOf offer response.responderEphemeralPublicKey response.responderSigningPublicKey

theorem HandshakeResponse.transcript_short (response : HandshakeResponse)
    (offer : HandshakeOffer) : Short (response.transcript offer) :=
  transcriptOf_short offer response.ephemeral_small response.signing_small

/-! ## What the source signs -/

theorem OfferFields.encoded (f : OfferFields) :
    encodeAsciiText (κ := ErrorClass) (intText f.version) = .ok (versionBytes f.version) ∧
    encode (κ := ErrorClass) f.suite = .ok (utf8 f.suite) ∧
    encode (κ := ErrorClass) f.initiator = .ok (utf8 f.initiator) ∧
    encode (κ := ErrorClass) f.responder = .ok (utf8 f.responder) :=
  ⟨(versionBytes_ok f.header.version_eq).1,
    encode_ok.mpr (encode_utf8 (suite_encodes f.header.suite_mem).1),
    encode_ok.mpr (encode_utf8 f.header.initiator_valid.isSome),
    encode_ok.mpr (encode_utf8 f.header.responder_valid.isSome)⟩

theorem handshakeContext_eq (f : OfferFields) : handshakeContext f = .ok (offerPayload f) := by
  obtain ⟨hversion, hsuite, hinitiator, hresponder⟩ := f.encoded
  unfold handshakeContext
  rw [hversion, ok_bind, hsuite, ok_bind, hinitiator, ok_bind, hresponder, ok_bind]
  exact joinFields_ok fun v hv => (f.values_small v hv).short

theorem HandshakeOffer.signaturePayload_eq (offer : HandshakeOffer) :
    offer.signaturePayload = .ok (offerPayload offer.toOfferFields) := by
  have hfields := (validateOfferFields_ok (f := offer.toOfferFields)).mpr
    ⟨rfl, rfl, rfl, rfl, rfl, rfl⟩
  unfold HandshakeOffer.signaturePayload HandshakeOffer.signaturePayloadFor
  rw [hfields, ok_bind, handshakeContext_eq]

theorem handshakeTranscript_ok {offer : HandshakeOffer} {response : HandshakeResponse}
    {transcript : Bytes} : handshakeTranscript offer response = .ok transcript ↔
      response.toOfferFields = offer.toOfferFields ∧ response.transcript offer = transcript := by
  obtain ⟨hversion, hsuite, hinitiator, hresponder⟩ := offer.toOfferFields.encoded
  have hjoin : joinFields (ascii "CypherSyntax/handshake-transcript/v1")
      (transcriptValues offer response.responderEphemeralPublicKey
        response.responderSigningPublicKey) =
      (.ok (response.transcript offer) : Except PyError Bytes) :=
    joinFields_ok fun v hv => (transcriptValues_small offer response.ephemeral_small
      response.signing_small v hv).short
  unfold handshakeTranscript
  rw [bind_eq_ok, hversion, ok_bind, hsuite, ok_bind, hinitiator, ok_bind, hresponder, ok_bind]
  constructor
  · rintro ⟨_, hvalid, h⟩
    exact ⟨HandshakeResponse.validateForOffer_ok.mp hvalid, Except.ok.inj (hjoin.symm.trans h)⟩
  · rintro ⟨hfields, rfl⟩
    exact ⟨(), HandshakeResponse.validateForOffer_ok.mpr hfields, hjoin⟩

theorem HandshakeResponse.signaturePayload_ok {offer : HandshakeOffer}
    {response : HandshakeResponse} {payload : Bytes} :
    response.signaturePayload offer = .ok payload ↔
      response.toOfferFields = offer.toOfferFields ∧
      responsePayload (response.transcript offer) response.responderKeyConfirmation = payload := by
  have hjoin : joinFields (ascii "CypherSyntax/handshake-response-signature/v1")
      [response.transcript offer, response.responderKeyConfirmation] =
      (.ok (responsePayload _ _) : Except PyError Bytes) :=
    joinFields_ok (short_pair (response.transcript_short offer) response.confirmation_small.short)
  unfold HandshakeResponse.signaturePayload
  rw [bind_eq_ok]
  constructor
  · rintro ⟨transcript, htranscript, h⟩
    obtain ⟨hfields, rfl⟩ := handshakeTranscript_ok.mp htranscript
    exact ⟨hfields, Except.ok.inj (hjoin.symm.trans h)⟩
  · rintro ⟨hfields, rfl⟩
    exact ⟨_, handshakeTranscript_ok.mpr ⟨hfields, rfl⟩, hjoin⟩

theorem HandshakeConfirmation.signaturePayload_ok {offer : HandshakeOffer}
    {response : HandshakeResponse} {confirmation : HandshakeConfirmation} {payload : Bytes} :
    confirmation.signaturePayload offer response = .ok payload ↔
      confirmation.validateForResponse response = .ok () ∧
      response.toOfferFields = offer.toOfferFields ∧
      confirmationPayload (response.transcript offer) response.responderKeyConfirmation
        confirmation.initiatorKeyConfirmation = payload := by
  have hinitiator : Small confirmation.initiatorKeyConfirmation :=
    small_of_length confirmation.initiatorKeyConfirmation_length (by decide)
  have hjoin : joinFields (ascii "CypherSyntax/handshake-confirmation-signature/v1")
      [response.transcript offer, response.responderKeyConfirmation,
        confirmation.initiatorKeyConfirmation] =
      (.ok (confirmationPayload _ _ _) : Except PyError Bytes) :=
    joinFields_ok (short_triple (response.transcript_short offer)
      response.confirmation_small.short hinitiator.short)
  unfold HandshakeConfirmation.signaturePayload
  rw [bind_eq_ok]
  constructor
  · rintro ⟨_, hvalid, h⟩
    obtain ⟨transcript, htranscript, h⟩ := bind_eq_ok.mp h
    obtain ⟨hfields, rfl⟩ := handshakeTranscript_ok.mp htranscript
    exact ⟨hvalid, hfields, Except.ok.inj (hjoin.symm.trans h)⟩
  · rintro ⟨hvalid, hfields, rfl⟩
    exact ⟨(), hvalid, bind_eq_ok.mpr ⟨_, handshakeTranscript_ok.mpr ⟨hfields, rfl⟩, hjoin⟩⟩

/-! ## What the payloads determine -/

theorem OfferFields.values_inj {f g : OfferFields} (h : f.values = g.values) : f = g := by
  simp only [OfferFields.values, List.cons.injEq, and_true] at h
  obtain ⟨-, hsuite, hinitiator, hresponder, hephemeral, hsigning⟩ := h
  exact OfferFields.ext (f.header.version_eq.trans g.header.version_eq.symm)
    (utf8_inj (suite_encodes f.header.suite_mem).1 (suite_encodes g.header.suite_mem).1 hsuite)
    (utf8_inj f.header.initiator_valid.isSome g.header.initiator_valid.isSome hinitiator)
    (utf8_inj f.header.responder_valid.isSome g.header.responder_valid.isSome hresponder)
    hephemeral hsigning

theorem offerPayload_inj {f g : OfferFields} (h : offerPayload f = offerPayload g) : f = g :=
  OfferFields.values_inj (joinFields_inj (fun v hv => (f.values_small v hv).short)
    (fun v hv => (g.values_small v hv).short) h)

/-- **A transcript determines the offer and the responder's public keys.** -/
theorem transcriptOf_inj {offer offer' : HandshakeOffer}
    {ephemeral ephemeral' signing signing' : Bytes} (he : Small ephemeral)
    (he' : Small ephemeral') (hs : Small signing) (hs' : Small signing')
    (h : transcriptOf offer ephemeral signing = transcriptOf offer' ephemeral' signing') :
    offer = offer' ∧ ephemeral = ephemeral' ∧ signing = signing' := by
  have hvalues := joinFields_inj (fun v hv => (transcriptValues_small offer he hs v hv).short)
    (fun v hv => (transcriptValues_small offer' he' hs' v hv).short) h
  obtain ⟨hfields, hrest⟩ := List.append_inj hvalues rfl
  simp only [List.cons.injEq, and_true] at hrest
  obtain ⟨hsignature, hephemeral, hsigning⟩ := hrest
  exact ⟨HandshakeOffer.ext (congrArg _ (OfferFields.values_inj hfields))
    (congrArg _ (OfferFields.values_inj hfields)) (congrArg _ (OfferFields.values_inj hfields))
    (congrArg _ (OfferFields.values_inj hfields)) (congrArg _ (OfferFields.values_inj hfields))
    (congrArg _ (OfferFields.values_inj hfields)) hsignature, hephemeral, hsigning⟩

/-! ### Kinds -/

theorem offerPayload_ne_response (f : OfferFields) (t c : Bytes) :
    offerPayload f ≠ responsePayload t c :=
  ne_of_take (n := 24) (by decide) (by decide) (by decide)

theorem offerPayload_ne_confirmation (f : OfferFields) (t r i : Bytes) :
    offerPayload f ≠ confirmationPayload t r i :=
  ne_of_take (n := 24) (by decide) (by decide) (by decide)

end Payloads

end CypherSyntax
