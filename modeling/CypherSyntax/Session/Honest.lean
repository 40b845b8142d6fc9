import CypherSyntax.Channel
import CypherSyntax.Handshake.Codec

/-!
# Honest parties

Two identities that follow the protocol, each message passed through its bytes.

Results:
* `honestExchange_run`: the exchange of offer, response and confirmation ends in two sessions with
  one another.
* `SessionState.encrypt_delivers`: what either session encrypts, the other decrypts.
* `honest_completeness`: both, from the two identities.
-/

namespace CypherSyntax

open Python Json

section Honest

variable [Interpreter] [Crypto]

/-! ## The exchange -/

/-- The three messages of a handshake, each written and read back, and the sessions that it ends
in. -/
def honestExchange (initiator responder : Identity) (suite : AeadSuite)
    (supplementalSecret : Bytes) (initiatorEphemeral responderEphemeral : Crypto.ExchangeKey) :
    Method ErrorClass Unit Call (SessionState × SessionState) := do
  let pending ← SessionFactory.initiator initiator responder.name responder.ed25519PublicBytes suite
    supplementalSecret initiatorEphemeral
  let offerBytes ← pending.offer.toBytes
  let offer ← HandshakeOffer.fromBytes (.bytes offerBytes)
  let (response, served) ← SessionFactory.responder responder initiator.ed25519PublicBytes offer
    supplementalSecret responderEphemeral
  let responseBytes ← response.toBytes
  let response ← HandshakeResponse.fromBytes (.bytes responseBytes)
  let (confirmation, initiatorSession) ←
    Method.withObject pending (InitiatorHandshake.complete response)
  let confirmationBytes ← confirmation.toBytes
  let confirmation ← HandshakeConfirmation.fromBytes (.bytes confirmationBytes)
  let responderSession ← Method.withObject served (ResponderHandshake.complete confirmation)
  return (initiatorSession, responderSession)

/-- Every signature of a key verifies with its public key. -/
def Verifies : Prop := ∀ key data,
  Crypto.verify (Crypto.signingPublic key) (Crypto.sign key data) data = true

/-- Both parties of an exchange compute one secret. -/
def Agrees : Prop := ∀ a b, ∃ shared,
  Crypto.exchange a (Crypto.exchangePublic b) = .ok shared ∧
  Crypto.exchange b (Crypto.exchangePublic a) = .ok shared

omit [Crypto] in
/-- A message that goes through its bytes arrives. -/
theorem MessageFormat.Laws.crosses {σ τ μ α : Type} {format : MessageFormat μ} (h : format.Laws)
    (m : μ) (f : μ → Method ErrorClass σ τ α) (s : Frame σ τ) :
    (liftM (format.toBytes m) >>= fun data =>
      liftM (format.fromBytes (.bytes data)) >>= f).run s = (f m).run s := by
  obtain ⟨data, hto, -, hfrom⟩ := h.fromBytes_toBytes m
  rw [Method.run_bind_ok (Method.lift_ok.mpr ⟨hto, rfl⟩),
    Method.run_bind_ok (Method.lift_ok.mpr ⟨hfrom, rfl⟩)]

/-- The initiator accepts the response that an honest responder makes. -/
theorem InitiatorHandshake.accepts_honest (hverify : Verifies) {pending : InitiatorHandshake}
    {responder : Identity} {privateKey responderEphemeral : Crypto.ExchangeKey} {shared : Bytes}
    (hanchor : pending.remoteSigningPublicKey = responder.ed25519PublicBytes)
    (hshared : Crypto.exchange privateKey (Crypto.exchangePublic responderEphemeral) = .ok shared)
    {response : HandshakeResponse}
    (h : SessionFactory.Responds responder pending.offer responderEphemeral
      (rootOf pending.offer response shared pending.supplementalSecret) response) :
    pending.Accepts privateKey response shared := by
  refine ⟨h.fields, h.signing.trans hanchor.symm, ?_, ?_, h.confirmation⟩
  · rw [hanchor, h.signature]
    exact hverify _ _
  · rw [h.ephemeral]
    exact hshared

/-- The responder accepts the confirmation that an honest initiator makes. -/
theorem ResponderHandshake.accepts_honest (hverify : Verifies) {pending : InitiatorHandshake}
    {served : ResponderHandshake} {rootKey : Bytes} (hoffer : served.offer = pending.offer)
    (hanchor : served.remoteSigningPublicKey = pending.localIdentity.ed25519PublicBytes)
    (hfields : served.response.toOfferFields = served.offer.toOfferFields) :
    served.Accepts rootKey (pending.confirmation served.response rootKey) := by
  refine ⟨HandshakeConfirmation.validateForResponse_ok.mpr ⟨rfl, rfl, rfl, rfl, rfl, rfl⟩, hfields,
    ?_, ?_⟩
  · rw [hanchor, hoffer]
    exact hverify _ _
  · rw [hoffer]
    rfl

/-- **Honest parties complete the handshake.** -/
theorem honestExchange_run (hverify : Verifies) (hagree : Agrees)
    {initiator responder : Identity} (hnames : initiator.name ≠ responder.name) (suite : AeadSuite)
    (supplementalSecret : Bytes) {initiatorEphemeral responderEphemeral : Crypto.ExchangeKey}
    (hephemeral : Crypto.exchangePublic initiatorEphemeral ≠
      Crypto.exchangePublic responderEphemeral) (s : Frame Unit Call) :
    ∃ rootKey t, (honestExchange initiator responder suite supplementalSecret initiatorEphemeral
      responderEphemeral).run s = (.ok
        (.new initiator.name responder.name suite rootKey
          (Crypto.exchangePublic initiatorEphemeral) (Crypto.exchangePublic responderEphemeral),
        .new responder.name initiator.name suite rootKey
          (Crypto.exchangePublic responderEphemeral) (Crypto.exchangePublic initiatorEphemeral)),
        t) := by
  obtain ⟨shared, hshared, hshared'⟩ := hagree initiatorEphemeral responderEphemeral
  obtain ⟨pending, s₁, hinitiate, fields, hfields, hpending, -⟩ :=
    (SessionFactory.initiator_runs initiator responder.name responder.ed25519PublicBytes suite
      supplementalSecret initiatorEphemeral s).returns fun _ _ h =>
        h.2 ⟨responder.name_valid.1, hnames⟩
  have hserves : SessionFactory.Accepts responder initiator.ed25519PublicBytes pending.offer
      responderEphemeral shared := by
    rw [hpending]
    refine ⟨hfields.responder.symm, hfields.signing, hverify _ _, ?_, ?_⟩
    · exact (congrArg (Crypto.exchange _) hfields.ephemeral).trans hshared'
    · exact fun h => hephemeral (h.trans hfields.ephemeral).symm
  obtain ⟨⟨response, served⟩, s₂, hrespond, shared', suite', response', haccepts, hsuite,
      hresponds, hserved, -⟩ :=
    (SessionFactory.responder_runs responder initiator.ed25519PublicBytes pending.offer
      supplementalSecret responderEphemeral s₁).returns fun _ _ h => h.2.2 _ hserves
  obtain ⟨rfl, rfl⟩ := Prod.mk.inj hserved
  obtain rfl : shared' = shared := Except.ok.inj (haccepts.exchange.symm.trans hserves.exchange)
  have hsecret : pending.supplementalSecret = supplementalSecret := by rw [hpending]
  have hkey : pending.ephemeralPrivateKey = some initiatorEphemeral := by rw [hpending]
  have hoffer : pending.offer.toOfferFields = fields := by rw [hpending]; rfl
  have hresponse : pending.Accepts initiatorEphemeral response shared' :=
    InitiatorHandshake.accepts_honest hverify (by rw [hpending]) hshared (hsecret ▸ hresponds)
  obtain ⟨⟨confirmation, initiatorSession⟩, s₃, hcomplete, key, shared'', suite'', hkey', haccepts',
      hsuite', hcompleted, -⟩ :=
    (InitiatorHandshake.complete_runs response ⟨pending, s₂.log⟩).returns fun _ _ h =>
      h.2.2 _ _ hkey hresponse
  obtain ⟨rfl, rfl⟩ := Prod.mk.inj hcompleted
  obtain rfl := Option.some.inj (hkey.symm.trans hkey')
  obtain rfl : shared'' = shared' :=
    Except.ok.inj (haccepts'.exchange.symm.trans hresponse.exchange)
  rw [hsecret] at hcomplete
  obtain rfl : suite' = suite := by
    rw [hpending] at hsuite
    exact AeadSuite.value_inj (hsuite.symm.trans hfields.suite)
  obtain rfl : suite'' = suite' := by
    refine AeadSuite.value_inj (hsuite'.symm.trans (Eq.trans ?_ hsuite))
    exact congrArg OfferFields.suite hresponds.fields
  have haccept : ResponderHandshake.Accepts ⟨initiator.ed25519PublicBytes, pending.offer, response,
      suite'', some (rootOf pending.offer response shared'' supplementalSecret)⟩
      (rootOf pending.offer response shared'' supplementalSecret) (pending.confirmation response
        (rootOf pending.offer response shared'' supplementalSecret)) :=
    ResponderHandshake.accepts_honest hverify rfl (by rw [hpending]) hresponds.fields
  obtain ⟨session, s₄, hfinish, root, hroot, -, rfl, -⟩ :=
    (ResponderHandshake.complete_runs _ ⟨_, s₃.log⟩).returns fun _ _ h => h.2.2 _ rfl haccept
  obtain rfl := Option.some.inj hroot
  have hleft : pending.session response suite'' (rootOf pending.offer response shared''
      supplementalSecret) = .new initiator.name responder.name suite'' (rootOf pending.offer response
        shared'' supplementalSecret) (Crypto.exchangePublic initiatorEphemeral)
        (Crypto.exchangePublic responderEphemeral) := by
    unfold InitiatorHandshake.session
    rw [hresponds.ephemeral, hoffer, hfields.initiator, hfields.responder, hfields.ephemeral]
  have hright : ResponderHandshake.session ⟨initiator.ed25519PublicBytes, pending.offer, response,
      suite'', some (rootOf pending.offer response shared'' supplementalSecret)⟩
      (rootOf pending.offer response shared'' supplementalSecret) = .new responder.name
        initiator.name suite'' (rootOf pending.offer response shared'' supplementalSecret)
        (Crypto.exchangePublic responderEphemeral) (Crypto.exchangePublic initiatorEphemeral) := by
    unfold ResponderHandshake.session
    rw [hresponds.ephemeral, hoffer, hfields.initiator, hfields.responder, hfields.ephemeral]
  refine ⟨rootOf pending.offer response shared'' supplementalSecret, ⟨(), s₄.log⟩, ?_⟩
  unfold honestExchange
  refine (Method.run_bind_ok hinitiate).trans ?_
  refine (offer_laws.crosses _ _ _).trans ?_
  refine (Method.run_bind_ok hrespond).trans ?_
  refine (response_laws.crosses _ _ _).trans ?_
  refine (Method.run_bind_ok (Method.zoom_ok.mpr ⟨_, hcomplete, rfl⟩)).trans ?_
  refine (confirmation_laws.crosses _ _ _).trans ?_
  refine (Method.run_bind_ok (Method.zoom_ok.mpr ⟨_, hfinish, rfl⟩)).trans ?_
  rw [Method.run_pure, ← hleft, ← hright]
  rfl

/-! ## Messages -/

/-- The AEAD seals every plaintext that `encrypt` takes. -/
def SealsMessages : Prop := ∀ aead key nonce data associatedData, key.length = 32 →
  nonce.length = 12 → data.length ≤ maxPlaintextBytes →
  ∃ ciphertext, Crypto.encrypt aead key nonce data associatedData = .ok ciphertext

omit [Interpreter] in
theorem messageKey_length (d : Direction) (n : Nat) :
    (messageKey d n).1.length = 32 ∧ (messageKey d n).2.length = 12 := by
  have hlen : (messageMaterial d n).length = 44 :=
    Crypto.hkdf_length _ (by show 44 ≤ 255 * 32; omega)
  unfold messageKey
  simp only [List.length_take, List.length_drop]
  omega

namespace SessionState

/-- What two identities agree on makes a session that can send. -/
structure Ready (session : SessionState) : Prop where
  localName : ValidName session.localName
  remoteName : ValidName session.remoteName
  distinct : session.localName ≠ session.remoteName
  localEphemeral : session.localEphemeralPublicBytes.length = 32
  remoteEphemeral : session.remoteEphemeralPublicBytes.length = 32

omit [Crypto] in
theorem Continues.ready {a b : SessionState} (h : a.Continues b) (ha : a.Ready) : b.Ready := by
  obtain ⟨_, _, rfl⟩ := h
  exact ⟨ha.localName, ha.remoteName, ha.distinct, ha.localEphemeral, ha.remoteEphemeral⟩

omit [Interpreter] [Crypto] in
theorem protocolVersion_valid : 1 ≤ protocolVersion ∧ protocolVersion ≤ maxProtocolVersion := by
  decide

omit [Interpreter] [Crypto] in
theorem suitePattern_value (suite : AeadSuite) :
    suite.value.length ≤ maxSuiteNameBytes ∧ suitePattern suite.value = true := by
  cases suite <;> decide

omit [Crypto] in
theorem Ready.valid {self : SessionState} (h : self.Ready) {n : Int}
    (hn : 0 ≤ n ∧ n ≤ maxMessageSequence) : (self.sendMetadata n).Valid :=
  ⟨protocolVersion_valid, suitePattern_value _, h.localName, h.remoteName, h.distinct, hn⟩

omit [Crypto] in
theorem Ready.short {self : SessionState} (h : self.Ready) : self.sendDirection.Short :=
  ⟨self.suite.bytes_short, (small_of_length h.localEphemeral (by decide)).short,
    (small_of_length h.remoteEphemeral (by decide)).short⟩

/-- A session that is ready seals every plaintext of the right size. -/
theorem Ready.sends (hseals : SealsMessages) {self : SessionState} (h : self.Ready)
    (hsequence : 0 ≤ self.sendSequence ∧ self.sendSequence ≤ maxMessageSequence)
    {plaintext : Bytes} (hsize : plaintext.length ≤ maxPlaintextBytes) :
    ∃ call ciphertext, self.Sends plaintext call ∧ call.result = some ciphertext := by
  obtain ⟨data, hdata⟩ := (h.valid hsequence).associatedData
  obtain ⟨hkey, hnonce⟩ := messageKey_length self.sendDirection self.sendSequence.toNat
  obtain ⟨ciphertext, hseal⟩ := hseals self.suite.buildAead _ _ plaintext data hkey hnonce hsize
  exact ⟨⟨self.suite.buildAead, _, _, plaintext, data, some ciphertext⟩, ciphertext,
    ⟨hsize, hsequence, h.short, h.valid hsequence, rfl, rfl, rfl, hdata,
      (toOption_eq_some.mpr hseal).symm⟩, rfl⟩

/-- **What a session encrypts, the session that mirrors it decrypts**, unless its window refuses the
sequence. -/
theorem encrypt_delivers (hopen : OpensSealed) (hseals : SealsMessages)
    {sender receiver : SessionState} (hmirrors : sender.Mirrors receiver) (hready : sender.Ready)
    (hsequence : 0 ≤ sender.sendSequence ∧ sender.sendSequence ≤ maxMessageSequence)
    {plaintext : Bytes} (hsize : plaintext.length ≤ maxPlaintextBytes) (log : List Call) :
    ∃ packet t, (encrypt (.bytes plaintext)).run ⟨sender, log⟩ = (.ok packet, t) ∧
      packet.length ≤ maxEnvelopeBytes ∧
      (∃ e, MessageEnvelope.fromBytes (.bytes packet) = .ok e) ∧
      (sender.sendSequence ∉ receiver.replayWindow.seen →
        receiver.replayWindow.highestSeen - receiver.replayWindow.windowSize <
          sender.sendSequence →
        ∀ log', ∃ u, (decrypt (.bytes packet)).run ⟨receiver, log'⟩ = (.ok plaintext, u)) := by
  obtain ⟨call, ciphertext, hsends, hresult⟩ := hready.sends hseals hsequence hsize
  obtain ⟨packet, hpacket, hrun⟩ :=
    encrypt_returns (s := ⟨sender, log⟩) hsends hresult
  have hseal := toOption_eq_some.mp (hsends.result.symm.trans hresult)
  have hfrom := fromBytes_of_toBytes hpacket
  refine ⟨packet, _, hrun, ?_, ⟨_, hfrom⟩, fun hseen hwindow log' => ?_⟩
  · obtain ⟨packet', hpacket', -, hlen, -⟩ := toBytes_valid (hready.valid hsequence)
      (validCiphertext_of_encrypt (hsends.data ▸ hsize) hseal)
    obtain rfl := Except.ok.inj (hpacket.symm.trans hpacket')
    exact hlen
  · obtain ⟨opening, hopens, hopened⟩ := (hsends.messageCall log).opens hopen hmirrors hseal hfrom
      (ReplayWindow.checkUnlocked_ok.mpr ⟨rfl, hsequence.1, hsequence.2, hseen, hwindow⟩)
    rw [hsends.data] at hopened
    exact ⟨_, decrypt_returns (s := ⟨receiver, log'⟩) hopens hopened⟩

end SessionState

/-! ## Completeness -/

/-- **Honest parties complete the handshake, and then decrypt whatever they encrypt.** -/
theorem honest_completeness (hverify : Verifies) (hagree : Agrees) (hopen : OpensSealed)
    (hseals : SealsMessages) {initiator responder : Identity}
    (hnames : initiator.name ≠ responder.name) (suite : AeadSuite) (supplementalSecret : Bytes)
    {initiatorEphemeral responderEphemeral : Crypto.ExchangeKey}
    (hephemeral : Crypto.exchangePublic initiatorEphemeral ≠
      Crypto.exchangePublic responderEphemeral) (s : Frame Unit Call) :
    ∃ a b t, (honestExchange initiator responder suite supplementalSecret initiatorEphemeral
        responderEphemeral).run s = (.ok (a, b), t) ∧
      (∃ rootKey, a = .new initiator.name responder.name suite rootKey
          (Crypto.exchangePublic initiatorEphemeral) (Crypto.exchangePublic responderEphemeral) ∧
        b = .new responder.name initiator.name suite rootKey
          (Crypto.exchangePublic responderEphemeral) (Crypto.exchangePublic initiatorEphemeral)) ∧
      ∀ sender receiver : SessionState,
        a.Continues sender ∧ b.Continues receiver ∨ b.Continues sender ∧ a.Continues receiver →
        0 ≤ sender.sendSequence ∧ sender.sendSequence ≤ maxMessageSequence →
        ∀ plaintext : Bytes, plaintext.length ≤ maxPlaintextBytes → ∀ log,
        ∃ packet t, (SessionState.encrypt (.bytes plaintext)).run ⟨sender, log⟩ =
            (.ok packet, t) ∧
          packet.length ≤ maxEnvelopeBytes ∧
          (∃ e, MessageEnvelope.fromBytes (.bytes packet) = .ok e) ∧
          (sender.sendSequence ∉ receiver.replayWindow.seen →
            receiver.replayWindow.highestSeen - receiver.replayWindow.windowSize <
              sender.sendSequence →
            ∀ log', ∃ u, (SessionState.decrypt (.bytes packet)).run ⟨receiver, log'⟩ =
              (.ok plaintext, u)) := by
  obtain ⟨rootKey, t, hrun⟩ := honestExchange_run hverify hagree hnames suite supplementalSecret
    hephemeral s
  refine ⟨_, _, t, hrun, ⟨rootKey, rfl, rfl⟩,
    fun sender receiver hsides hsequence plaintext hsize log => ?_⟩
  have hinitiator := initiator.name_valid.1
  have hresponder := responder.name_valid.1
  have hlength := Crypto.exchangePublic_length
  rcases hsides with ⟨hsender, hreceiver⟩ | ⟨hsender, hreceiver⟩
  · exact SessionState.encrypt_delivers hopen hseals
      (SessionState.Continues.mirrors hsender hreceiver ⟨rfl, rfl, rfl, rfl, rfl, rfl⟩)
      (hsender.ready ⟨hinitiator, hresponder, hnames, hlength _, hlength _⟩) hsequence hsize log
  · exact SessionState.encrypt_delivers hopen hseals
      (SessionState.Continues.mirrors hsender hreceiver ⟨rfl, rfl, rfl, rfl, rfl, rfl⟩)
      (hsender.ready ⟨hresponder, hinitiator, hnames.symm, hlength _, hlength _⟩) hsequence hsize
      log

end Honest

section Samples

open scoped Samples

def carolKey : FixedBytes 32 := ⟨List.replicate 32 8, List.length_replicate⟩

def daveKey : FixedBytes 32 := ⟨List.replicate 32 9, List.length_replicate⟩

theorem valid_carol : validateIdentityName (.str (lit "carol")) = .ok (lit "carol") := by
  decide +kernel

theorem valid_dave : validateIdentityName (.str (lit "dave")) = .ok (lit "dave") := by
  decide +kernel

def carol : Identity :=
  ⟨lit "carol", carolKey, carolKey, (validateIdentityName_ok.mp valid_carol).2⟩

def dave : Identity := ⟨lit "dave", daveKey, daveKey, (validateIdentityName_ok.mp valid_dave).2⟩

/-- Carol and Dave complete a handshake, and Dave decrypts what Carol encrypts first. -/
theorem honest_completeness_carol : ∃ a b t, (honestExchange carol dave .chacha20Poly1305 [7]
      carolKey daveKey).run ⟨(), []⟩ = (.ok (a, b), t) ∧
    ∃ packet u v, (SessionState.encrypt (.bytes [1, 2])).run ⟨a, []⟩ = (.ok packet, u) ∧
      (SessionState.decrypt (.bytes packet)).run ⟨b, []⟩ = (.ok [1, 2], v) := by
  have hverify : Verifies := fun _ _ => beq_self_eq_true _
  have hopen : OpensSealed := fun _ _ _ _ _ _ h => opened_sealed h
  have hagree : Agrees := by
    intro a b
    refine ⟨_, if_pos b.property, ?_⟩
    exact (agree_comm b.property a.property).trans (if_pos b.property)
  have hseals : SealsMessages := fun _ _ _ _ _ _ _ _ =>
    ⟨_, sealed_ok.mpr rfl⟩
  have hnames : carol.name ≠ dave.name := by decide +kernel
  have hkeys : Crypto.exchangePublic carolKey ≠ Crypto.exchangePublic daveKey := by decide +kernel
  obtain ⟨a, b, t, hrun, ⟨rootKey, ha, hb⟩, hmessages⟩ := honest_completeness hverify hagree
    hopen hseals hnames .chacha20Poly1305 [7] hkeys ⟨(), []⟩
  have hsequence : a.sendSequence = 0 := by rw [ha]; rfl
  have hwindow : b.replayWindow = ReplayWindow.default := by rw [hb]; rfl
  obtain ⟨packet, u, hencrypt, -, -, hdecrypt⟩ := hmessages a b
    (Or.inl ⟨.refl _, .refl _⟩) (by rw [hsequence]; decide) [1, 2] (by decide) []
  rw [hsequence, hwindow] at hdecrypt
  obtain ⟨v, hdecrypt⟩ := hdecrypt (by decide) (by decide) []
  exact ⟨a, b, t, hrun, packet, u, v, hencrypt, hdecrypt⟩

end Samples

end CypherSyntax
