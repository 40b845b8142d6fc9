import CypherSyntax.Kdf
import CypherSyntax.Replay
import CypherSyntax.Wire.Codec

/-!
# Sessions

`SessionState` of `src/cyphersyntax/session.py`: `_build_aead`, `encrypt` and `decrypt`, with their
exceptions and in the order of the source.

* A session is its record. A method takes the record and gives back the one it leaves, with the
  calls it has made of the cryptography package. `encrypt` moves `send_sequence` after the packet is
  written, and in no other place.
* The body that `encrypt` runs under `_send_lock` is one step here. Threads that call one session at
  a time of their own are in `Session/Concurrent.lean`.
* The operation that `decrypt` hands to the replay window does not touch the window, so the
  re-entrant lock plays no part. Operations that do are in `Replay/Reentry.lean`.
* The suite is one of the two members of `AeadSuite`, so the `ValueError` at the end of
  `_build_aead` is left out. The AEAD is a parameter, and no property of it is assumed here.

Results:
* `encrypt_runs`: `encrypt` raises before the AEAD is called, or with it, or returns a packet; it
  never raises once the AEAD has sealed.
* `decrypt_runs`: `decrypt` opens a packet for the session and records its sequence, or raises and
  changes nothing.
* `encrypt_returns`, `decrypt_returns`: they return when the AEAD does.
-/

namespace CypherSyntax

open Python Json

/-! ## Suites -/

inductive AeadSuite where
  | aesGcmSiv | chacha20Poly1305
  deriving DecidableEq

namespace AeadSuite

def value : AeadSuite → Str
  | .aesGcmSiv => lit "AES_GCM_SIV"
  | .chacha20Poly1305 => lit "CHACHA20_POLY1305"

/-- `AeadSuite(value)` -/
def ofValue (value : Str) : Except PyError AeadSuite :=
  if value = AeadSuite.aesGcmSiv.value then .ok .aesGcmSiv
  else if value = AeadSuite.chacha20Poly1305.value then .ok .chacha20Poly1305
  else .error (valueError "not a valid AeadSuite")

/-- `_build_aead` -/
def buildAead : AeadSuite → Aead
  | .aesGcmSiv => .aesGcmSiv
  | .chacha20Poly1305 => .chacha20Poly1305

theorem ofValue_ok {value : Str} {suite : AeadSuite} :
    ofValue value = .ok suite ↔ value = suite.value := by
  unfold ofValue
  by_cases ha : value = AeadSuite.aesGcmSiv.value
  · rw [if_pos ha, Except.ok.injEq, ha]
    cases suite with
    | aesGcmSiv => simp
    | chacha20Poly1305 => simp only [reduceCtorEq, false_iff]; decide
  · rw [if_neg ha]
    by_cases hc : value = AeadSuite.chacha20Poly1305.value
    · rw [if_pos hc, Except.ok.injEq, hc]
      cases suite with
      | aesGcmSiv => simp only [reduceCtorEq, false_iff]; decide
      | chacha20Poly1305 => simp
    · rw [if_neg hc]
      cases suite with
      | aesGcmSiv => simp [ha]
      | chacha20Poly1305 => simp [hc]

theorem value_inj {a b : AeadSuite} (h : a.value = b.value) : a = b :=
  Except.ok.inj ((ofValue_ok.mpr rfl).symm.trans (ofValue_ok.mpr h))

/-- The bytes of a suite name. -/
def bytes : AeadSuite → Bytes
  | .aesGcmSiv => ascii "AES_GCM_SIV"
  | .chacha20Poly1305 => ascii "CHACHA20_POLY1305"

theorem encodeUtf8_value (suite : AeadSuite) : encodeUtf8 suite.value = some suite.bytes := by
  cases suite <;> decide

theorem bytes_short (suite : AeadSuite) : Short suite.bytes := by
  unfold Short
  cases suite <;> decide

end AeadSuite

/-! ## The session -/

structure SessionState where
  localName : Str
  remoteName : Str
  suite : AeadSuite
  rootKey : Bytes
  localEphemeralPublicBytes : Bytes
  remoteEphemeralPublicBytes : Bytes
  sendSequence : Int
  replayWindow : ReplayWindow
  deriving DecidableEq

namespace SessionState

/-- `SessionState(...)` with the defaults of its last fields. -/
def new (localName remoteName : Str) (suite : AeadSuite) (rootKey localEphemeralPublicBytes
    remoteEphemeralPublicBytes : Bytes) : SessionState :=
  ⟨localName, remoteName, suite, rootKey, localEphemeralPublicBytes, remoteEphemeralPublicBytes,
    0, ReplayWindow.default⟩

section Methods

variable [Interpreter] [Crypto]

def encrypt : Value → Method ErrorClass SessionState Call Bytes
  | .bytes plaintext => do
    raiseIf (maxPlaintextBytes < plaintext.length)
      (valueError "plaintext exceeds the maximum message size" : PyError)
    let self ← Method.self
    raiseIf (self.sendSequence > maxMessageSequence)
      (.builtin .overflowError (lit "message sequence exhausted") : PyError)
    let sequence ← validateMessageSequence (.int self.sendSequence)
    let envelope : MessageEnvelope := ⟨.int protocolVersion, .str self.suite.value,
      .str self.localName, .str self.remoteName, .int sequence, .bytes []⟩
    let (key, nonce) ← deriveMessageKey self.rootKey (.int sequence) self.suite.value
      self.localEphemeralPublicBytes self.remoteEphemeralPublicBytes
    let associatedData ← envelope.associatedData
    let ciphertext ← CypherSyntax.encrypt self.suite.buildAead key nonce plaintext associatedData
    let packet ← { envelope with ciphertext := .bytes ciphertext }.toBytes
    Method.update fun s => { s with sendSequence := s.sendSequence + 1 }
    return packet
  | _ => liftM (Except.error (typeError "plaintext must be bytes") : Except PyError Bytes)

/-- `authenticate` in `decrypt`. -/
def authenticate {σ : Type} (self : SessionState) (envelope : MessageEnvelope) :
    Method ErrorClass σ Call Bytes := do
  let (key, nonce) ← deriveMessageKey self.rootKey envelope.sequence self.suite.value
    self.remoteEphemeralPublicBytes self.localEphemeralPublicBytes
  let associatedData ← envelope.associatedData
  match envelope.ciphertext with
  | .bytes ciphertext =>
    CypherSyntax.decrypt self.suite.buildAead key nonce ciphertext associatedData
  | _ => liftM (Except.error (typeError "data must be bytes") : Except PyError Bytes)

/-- `f"{version}"` of a version that `from_bytes` has validated. -/
def versionText : Value → Str
  | .int version => intText version
  | _ => []

def decrypt (blob : Value) : Method ErrorClass SessionState Call Bytes := do
  let envelope ← MessageEnvelope.fromBytes blob
  let self ← Method.self
  raiseIf (envelope.version.same (.int protocolVersion) = false)
    (.builtin .valueError (lit "unsupported envelope version: " ++ versionText envelope.version)
      : PyError)
  raiseIf (envelope.suite.same (.str self.suite.value) = false)
    (valueError "AEAD suite mismatch" : PyError)
  raiseIf (envelope.recipient.same (.str self.localName) = false)
    (valueError "message recipient mismatch" : PyError)
  raiseIf (envelope.sender.same (.str self.remoteName) = false)
    (valueError "message sender mismatch" : PyError)
  Method.zoom replayWindow (fun window s => { s with replayWindow := window })
    (ReplayWindow.authenticateAndRecord envelope.sequence (self.authenticate envelope))

end Methods

/-! ## Directions and metadata -/

/-- What the keys of sent messages are derived from. -/
def sendDirection (self : SessionState) : Direction :=
  ⟨self.rootKey, self.suite.bytes, self.localEphemeralPublicBytes,
    self.remoteEphemeralPublicBytes⟩

/-- What the keys of received messages are derived from. -/
def receiveDirection (self : SessionState) : Direction :=
  ⟨self.rootKey, self.suite.bytes, self.remoteEphemeralPublicBytes,
    self.localEphemeralPublicBytes⟩

/-- The metadata of a sent message. -/
def sendMetadata (self : SessionState) (sequence : Int) : Metadata :=
  ⟨protocolVersion, self.suite.value, self.localName, self.remoteName, sequence⟩

/-- The metadata of a received message. -/
def receiveMetadata (self : SessionState) (sequence : Int) : Metadata :=
  ⟨protocolVersion, self.suite.value, self.remoteName, self.localName, sequence⟩

/-- Two sessions with one another: what one sends, the other receives. -/
structure Mirrors (a b : SessionState) : Prop where
  rootKey : a.rootKey = b.rootKey
  suite : a.suite = b.suite
  localName : a.localName = b.remoteName
  remoteName : a.remoteName = b.localName
  localEphemeral : a.localEphemeralPublicBytes = b.remoteEphemeralPublicBytes
  remoteEphemeral : a.remoteEphemeralPublicBytes = b.localEphemeralPublicBytes

theorem Mirrors.symm {a b : SessionState} (h : a.Mirrors b) : b.Mirrors a :=
  ⟨h.rootKey.symm, h.suite.symm, h.remoteName.symm, h.localName.symm, h.remoteEphemeral.symm,
    h.localEphemeral.symm⟩

theorem Mirrors.direction {a b : SessionState} (h : a.Mirrors b) :
    a.sendDirection = b.receiveDirection := by
  unfold sendDirection receiveDirection
  rw [h.rootKey, h.suite, h.localEphemeral, h.remoteEphemeral]

theorem Mirrors.metadata {a b : SessionState} (h : a.Mirrors b) (sequence : Int) :
    a.sendMetadata sequence = b.receiveMetadata sequence := by
  unfold sendMetadata receiveMetadata
  rw [h.suite, h.localName, h.remoteName]

/-- The metadata of an envelope is read off its fields. -/
theorem eq_of_envelope {m l : Metadata} {c d : Bytes} {u v : Value}
    (h : { m.envelope c with ciphertext := u } = { l.envelope d with ciphertext := v }) :
    m = l := by
  cases m
  cases l
  simp only [Metadata.envelope, MessageEnvelope.mk.injEq, Value.int.injEq, Value.str.injEq] at h
  obtain ⟨rfl, rfl, rfl, rfl, rfl, -⟩ := h
  rfl

/-- The session after one more packet. -/
def advance (self : SessionState) : SessionState :=
  { self with sendSequence := self.sendSequence + 1 }

/-- The session after it has accepted a sequence. -/
def accept (self : SessionState) (sequence : Int) : SessionState :=
  { self with replayWindow := self.replayWindow.recordUnlocked sequence }

/-! ## Sessions over time -/

/-- The same session at another time. -/
def Continues (a b : SessionState) : Prop :=
  ∃ n w, b = { a with sendSequence := n, replayWindow := w }

namespace Continues

variable {a b c : SessionState}

theorem refl (a : SessionState) : a.Continues a := ⟨a.sendSequence, a.replayWindow, rfl⟩

theorem trans (h : a.Continues b) (h' : b.Continues c) : a.Continues c := by
  obtain ⟨_, _, rfl⟩ := h
  obtain ⟨n, w, rfl⟩ := h'
  exact ⟨n, w, rfl⟩

theorem advance (a : SessionState) : a.Continues a.advance :=
  ⟨a.sendSequence + 1, a.replayWindow, rfl⟩

theorem accept (a : SessionState) (n : Int) : a.Continues (a.accept n) :=
  ⟨a.sendSequence, a.replayWindow.recordUnlocked n, rfl⟩

theorem rootKey (h : a.Continues b) : b.rootKey = a.rootKey := by
  obtain ⟨_, _, rfl⟩ := h
  rfl

theorem suite (h : a.Continues b) : b.suite = a.suite := by
  obtain ⟨_, _, rfl⟩ := h
  rfl

theorem mirrors {a' b' : SessionState} (ha : a.Continues a') (hb : b.Continues b')
    (h : a.Mirrors b) : a'.Mirrors b' := by
  obtain ⟨_, _, rfl⟩ := ha
  obtain ⟨_, _, rfl⟩ := hb
  exact ⟨h.rootKey, h.suite, h.localName, h.remoteName, h.localEphemeral, h.remoteEphemeral⟩

theorem sendDirection (h : a.Continues b) : b.sendDirection = a.sendDirection := by
  obtain ⟨_, _, rfl⟩ := h
  rfl

theorem sendMetadata (h : a.Continues b) (n : Int) : b.sendMetadata n = a.sendMetadata n := by
  obtain ⟨_, _, rfl⟩ := h
  rfl

end Continues

/-! ## Sending -/

section Calls

variable [Crypto]

theorem messageCalls_silent {d : Direction} {n : Nat} : ∀ c ∈ messageCalls d n, c.Silent := by
  simp only [messageCalls, List.forall_mem_cons]
  exact ⟨trivial, trivial, fun _ h => absurd h List.not_mem_nil⟩

/-- What the AEAD seals for a plaintext of the right size has the right size. -/
theorem validCiphertext_of_encrypt {aead : Aead}
    {key nonce data associatedData ciphertext : Bytes} (hsize : data.length ≤ maxPlaintextBytes)
    (h : Crypto.encrypt aead key nonce data associatedData = .ok ciphertext) :
    ValidCiphertext ciphertext := by
  have hlen := Crypto.encrypt_length _ _ _ _ _ _ h
  unfold ValidCiphertext maxCiphertextBytes
  omega

end Calls

section Sending

variable [Interpreter] [Crypto]

/-- The AEAD call that a session makes for a plaintext. -/
structure Sends (session : SessionState) (plaintext : Bytes) (call : AeadCall) : Prop where
  size : plaintext.length ≤ maxPlaintextBytes
  sequence : 0 ≤ session.sendSequence ∧ session.sendSequence ≤ maxMessageSequence
  short : session.sendDirection.Short
  valid : (session.sendMetadata session.sendSequence).Valid
  aead : call.aead = session.suite.buildAead
  key : (call.key, call.nonce) = messageKey session.sendDirection session.sendSequence.toNat
  data : call.data = plaintext
  associatedData :
    (session.sendMetadata session.sendSequence).associatedData = .ok call.associatedData
  result : call.result = (Crypto.encrypt call.aead call.key call.nonce call.data
    call.associatedData).toOption

/-- The calls of one `encrypt` that reaches the AEAD. -/
def sendCalls (self : SessionState) (call : AeadCall) : List Call :=
  messageCalls self.sendDirection self.sendSequence.toNat ++ [.encrypted call]

/-- **What `encrypt` does.** Once the AEAD has sealed, the packet is returned. -/
theorem encrypt_runs (value : Value) (s : Frame SessionState Call) : Runs (encrypt value) s
    (fun packet t => ∃ plaintext call ciphertext, value = .bytes plaintext ∧
      s.self.Sends plaintext call ∧ call.result = some ciphertext ∧
      ((s.self.sendMetadata s.self.sendSequence).envelope ciphertext).toBytes = .ok packet ∧
      t = ⟨s.self.advance, s.log ++ s.self.sendCalls call⟩)
    fun _ t => t.self = s.self ∧ (Extends Call.Silent s.log t.log ∨ ∃ plaintext call,
      value = .bytes plaintext ∧ s.self.Sends plaintext call ∧ call.result = none ∧
      t.log = s.log ++ s.self.sendCalls call) := by
  have hsilent : s.self = s.self ∧ (Extends Call.Silent s.log s.log ∨ ∃ plaintext call,
      value = .bytes plaintext ∧ s.self.Sends plaintext call ∧ call.result = none ∧
      s.log = s.log ++ s.self.sendCalls call) := ⟨rfl, .inl (.refl _ _)⟩
  cases value with
  | bytes plaintext =>
    unfold encrypt
    refine .bind_lift (fun _ hsize => ?_) fun _ _ => hsilent
    refine .bind_run (Method.run_self s) (.bind_lift (fun _ _ => ?_) fun _ _ => hsilent)
    refine .bind_lift (fun n hn => ?_) fun _ _ => hsilent
    obtain ⟨hn, hbounds⟩ := validateMessageSequence_ok.mp hn
    obtain rfl := Value.int.inj hn
    refine .bind (Q := fun key t => s.self.sendDirection.Short ∧
      key = messageKey s.self.sendDirection s.self.sendSequence.toNat ∧
      t = ⟨s.self, s.log ++ messageCalls s.self.sendDirection s.self.sendSequence.toNat⟩)
      ((deriveMessageKey_runs _ _ _ _ _ s).mono ?_ fun _ t ht => ht ▸ hsilent) ?_
    · rintro key t ⟨n, suite, hn, -, hsuite, hshort, rfl, rfl⟩
      obtain rfl := Value.int.inj hn
      obtain rfl := Option.some.inj (s.self.suite.encodeUtf8_value.symm.trans hsuite)
      exact ⟨hshort, rfl, rfl⟩
    rintro key t ⟨hshort, rfl, rfl⟩
    refine .bind_lift (fun data hdata => ?_) fun _ _ =>
      ⟨rfl, .inl (.of_calls messageCalls_silent)⟩
    obtain ⟨m, hm, hvalid, hdata⟩ := associatedData_ok.mp hdata
    obtain rfl := eq_of_envelope (m := s.self.sendMetadata s.self.sendSequence) (c := []) hm
    have hsends : s.self.Sends plaintext ⟨s.self.suite.buildAead,
        (messageKey s.self.sendDirection s.self.sendSequence.toNat).1,
        (messageKey s.self.sendDirection s.self.sendSequence.toNat).2, plaintext, data,
        (Crypto.encrypt s.self.suite.buildAead
          (messageKey s.self.sendDirection s.self.sendSequence.toNat).1
          (messageKey s.self.sendDirection s.self.sendSequence.toNat).2 plaintext
          data).toOption⟩ :=
      ⟨not_lt.mp (raiseIf_ok.mp hsize), hbounds, hshort, hvalid, rfl, rfl, rfl, hdata, rfl⟩
    have hrun := encrypt_run s.self.suite.buildAead
      (messageKey s.self.sendDirection s.self.sendSequence.toNat).1
      (messageKey s.self.sendDirection s.self.sendSequence.toNat).2 plaintext data
      ⟨s.self, s.log ++ messageCalls s.self.sendDirection s.self.sendSequence.toNat⟩
    rw [List.append_assoc] at hrun
    cases hseal : Crypto.encrypt s.self.suite.buildAead
      (messageKey s.self.sendDirection s.self.sendSequence.toNat).1
      (messageKey s.self.sendDirection s.self.sendSequence.toNat).2 plaintext data with
    | error e =>
      rw [hseal] at hrun hsends
      exact .of_run_error (Method.run_bind_error hrun)
        ⟨rfl, .inr ⟨plaintext, _, rfl, hsends, rfl, rfl⟩⟩
    | ok ciphertext =>
      rw [hseal] at hrun hsends
      obtain ⟨packet, hpacket, -⟩ :=
        toBytes_valid hvalid (validCiphertext_of_encrypt hsends.size hseal)
      refine .bind_run hrun (.bind_lift (fun packet' hpacket' => ?_) fun e he => ?_)
      · exact .bind_run (Method.run_update _ _)
          (.pure ⟨plaintext, _, ciphertext, rfl, hsends, rfl, hpacket', rfl⟩)
      · -- the packet of a sealed plaintext fits every limit
        cases hpacket.symm.trans he
  | _ => exact hsilent

/-- A session whose metadata is valid returns a packet when the AEAD seals. -/
theorem encrypt_returns {s : Frame SessionState Call} {plaintext : Bytes} {call : AeadCall}
    (h : s.self.Sends plaintext call) {ciphertext : Bytes} (hseal : call.result = some ciphertext) :
    ∃ packet, ((s.self.sendMetadata s.self.sendSequence).envelope ciphertext).toBytes =
        .ok packet ∧
      (encrypt (.bytes plaintext)).run s =
        (.ok packet, ⟨s.self.advance, s.log ++ s.self.sendCalls call⟩) := by
  obtain ⟨aead, key, nonce, data, associatedData, result⟩ := call
  obtain ⟨hsize, hbounds, hshort, hvalid, haead, hkey, hdata, hassociated, hresult⟩ := h
  obtain rfl : aead = _ := haead
  obtain rfl : data = plaintext := hdata
  obtain rfl : result = some ciphertext := hseal
  have hok : Crypto.encrypt s.self.suite.buildAead key nonce data associatedData =
      .ok ciphertext := toOption_eq_some.mp hresult.symm
  obtain ⟨packet, hpacket, -⟩ := toBytes_valid hvalid (validCiphertext_of_encrypt hsize hok)
  have hassociated' := (associatedData_ok (e := ⟨.int protocolVersion, .str s.self.suite.value,
    .str s.self.localName, .str s.self.remoteName, .int s.self.sendSequence, .bytes []⟩)).mpr
      ⟨s.self.sendMetadata s.self.sendSequence, rfl, hvalid, hassociated⟩
  have hderive := deriveMessageKey_run hshort s.self.suite.encodeUtf8_value hbounds s
  rw [← hkey] at hderive
  have hrun := encrypt_run s.self.suite.buildAead key nonce data associatedData
    ⟨s.self, s.log ++ messageCalls s.self.sendDirection s.self.sendSequence.toNat⟩
  rw [hok, List.append_assoc] at hrun
  refine ⟨packet, hpacket, ?_⟩
  unfold encrypt
  rw [Method.run_bind_ok (Method.lift_ok.mpr ⟨raiseIf_neg (not_lt.mpr hsize), rfl⟩),
    Method.run_bind_ok (Method.run_self s),
    Method.run_bind_ok (Method.lift_ok.mpr ⟨raiseIf_neg (not_lt.mpr hbounds.2), rfl⟩),
    Method.run_bind_ok (Method.lift_ok.mpr ⟨validateMessageSequence_ok.mpr ⟨rfl, hbounds⟩, rfl⟩)]
  refine (Method.run_bind_ok hderive).trans ?_
  refine (Method.run_bind_ok (Method.lift_ok.mpr ⟨hassociated', rfl⟩)).trans ?_
  refine (Method.run_bind_ok hrun).trans ?_
  refine (Method.run_bind_ok (Method.lift_ok.mpr ⟨hpacket, rfl⟩)).trans ?_
  rfl

end Sending

/-! ## Receiving -/

section Receiving

variable [Interpreter] [Crypto]

/-- The AEAD call that opens a packet for a session. -/
structure Opens (session : SessionState) (blob : Value) (sequence : Int) (call : AeadCall) :
    Prop where
  packet : MessageEnvelope.fromBytes blob =
    .ok ((session.receiveMetadata sequence).envelope call.data)
  fresh : session.replayWindow.checkUnlocked (.int sequence) = .ok sequence
  short : session.receiveDirection.Short
  aead : call.aead = session.suite.buildAead
  key : (call.key, call.nonce) = messageKey session.receiveDirection sequence.toNat
  associatedData :
    (session.receiveMetadata sequence).associatedData = .ok call.associatedData
  result : call.result = (Crypto.decrypt call.aead call.key call.nonce call.data
    call.associatedData).toOption

/-- The calls of one `decrypt` that reaches the AEAD. -/
def receiveCalls (self : SessionState) (sequence : Int) (call : AeadCall) : List Call :=
  messageCalls self.receiveDirection sequence.toNat ++ [.decrypted call]

omit [Interpreter] in
theorem receiveCalls_silent (self : SessionState) (sequence : Int) (call : AeadCall) :
    ∀ c ∈ self.receiveCalls sequence call, c.Silent := by
  intro c hc
  rcases List.mem_append.mp hc with hc | hc
  · exact messageCalls_silent c hc
  · obtain rfl := List.mem_singleton.mp hc
    trivial

/-- What the operation of the replay window does. -/
theorem authenticate_runs {σ : Type} (self : SessionState) {n : Int} {ciphertext : Bytes}
    (s : Frame σ Call) :
    Runs (self.authenticate ((self.receiveMetadata n).envelope ciphertext)) s
      (fun plaintext t => ∃ call : AeadCall, self.receiveDirection.Short ∧
        call.data = ciphertext ∧ call.aead = self.suite.buildAead ∧
        (call.key, call.nonce) = messageKey self.receiveDirection n.toNat ∧
        (self.receiveMetadata n).associatedData = .ok call.associatedData ∧
        call.result = (Crypto.decrypt call.aead call.key call.nonce call.data
          call.associatedData).toOption ∧
        call.result = some plaintext ∧ t = ⟨s.self, s.log ++ self.receiveCalls n call⟩)
      fun _ t => t.self = s.self ∧ Extends Call.Silent s.log t.log := by
  have hsilent : s.self = s.self ∧ Extends Call.Silent s.log s.log := ⟨rfl, .refl _ _⟩
  unfold authenticate
  refine .bind (Q := fun key t => self.receiveDirection.Short ∧
    key = messageKey self.receiveDirection n.toNat ∧
    t = ⟨s.self, s.log ++ messageCalls self.receiveDirection n.toNat⟩)
    ((deriveMessageKey_runs _ _ _ _ _ s).mono ?_ fun _ t ht => ht ▸ hsilent) ?_
  · rintro key t ⟨n', suite, hn, -, hsuite, hshort, rfl, rfl⟩
    obtain rfl := Value.int.inj hn
    obtain rfl := Option.some.inj (self.suite.encodeUtf8_value.symm.trans hsuite)
    exact ⟨hshort, rfl, rfl⟩
  rintro key t ⟨hshort, rfl, rfl⟩
  refine .bind_lift (fun data hdata => ?_) fun _ _ => ⟨rfl, .of_calls messageCalls_silent⟩
  obtain ⟨m, hm, -, hdata⟩ := associatedData_ok.mp hdata
  obtain rfl := eq_of_envelope (m := self.receiveMetadata n) (c := []) hm
  have hrun := decrypt_run self.suite.buildAead
    (messageKey self.receiveDirection n.toNat).1
    (messageKey self.receiveDirection n.toNat).2 ciphertext data
    ⟨s.self, s.log ++ messageCalls self.receiveDirection n.toNat⟩
  rw [List.append_assoc] at hrun
  cases hopen : Crypto.decrypt self.suite.buildAead
    (messageKey self.receiveDirection n.toNat).1
    (messageKey self.receiveDirection n.toNat).2 ciphertext data with
  | error e =>
    rw [hopen] at hrun
    exact .of_run_error hrun ⟨rfl, .of_calls (receiveCalls_silent self n ⟨_, _, _, _, _, _⟩)⟩
  | ok plaintext =>
    rw [hopen] at hrun
    exact .of_run hrun ⟨⟨_, _, _, _, _, _⟩, hshort, rfl, rfl, rfl, hdata,
      (congrArg Except.toOption hopen).symm, rfl, rfl⟩

/-- **What `decrypt` does.** Whatever makes it raise, the session is as it was. -/
theorem decrypt_runs (blob : Value) (s : Frame SessionState Call) : Runs (decrypt blob) s
    (fun plaintext t => ∃ sequence call, s.self.Opens blob sequence call ∧
      call.result = some plaintext ∧
      t = ⟨s.self.accept sequence, s.log ++ s.self.receiveCalls sequence call⟩)
    fun _ t => t.self = s.self ∧ Extends Call.Silent s.log t.log := by
  have hsilent : s.self = s.self ∧ Extends Call.Silent s.log s.log := ⟨rfl, .refl _ _⟩
  unfold decrypt
  refine .bind_lift (fun e he => ?_) fun _ _ => hsilent
  obtain ⟨m, ciphertext, data, rfl, hvalid, -⟩ := toBytes_fromBytes he
  obtain ⟨rfl, -, -⟩ := validateComplete_ok.mp hvalid
  refine .bind_run (Method.run_self s) ?_
  refine .bind_lift (fun _ hversion => ?_) fun _ _ => hsilent
  refine .bind_lift (fun _ hsuite => ?_) fun _ _ => hsilent
  refine .bind_lift (fun _ hrecipient => ?_) fun _ _ => hsilent
  refine .bind_lift (fun _ hsender => ?_) fun _ _ => hsilent
  obtain ⟨version, suite, sender, recipient, sequence⟩ := m
  simp only [raiseIf_ok, Bool.not_eq_false, Metadata.envelope, Value.same, beq_iff_eq]
    at hversion hsuite hrecipient hsender
  obtain rfl := hversion
  obtain rfl := hsuite
  obtain rfl := hrecipient
  obtain rfl := hsender
  refine .zoom (ReplayWindow.authenticateAndRecord_runs (fun _ _ => hsilent) fun n hn => ?_)
  obtain ⟨h, -⟩ := ReplayWindow.checkUnlocked_ok.mp hn
  obtain rfl := Value.int.inj h
  refine (authenticate_runs s.self ⟨s.self.replayWindow, s.log⟩).mono ?_ ?_
  · rintro plaintext t ⟨call, hshort, rfl, haead, hkey, hdata, hresult, hplain, rfl⟩
    exact ⟨sequence, call, ⟨he, hn, hshort, haead, hkey, hdata, hresult⟩, hplain, rfl⟩
  · rintro _ t ⟨hself, hlog⟩
    exact ⟨by rw [hself], hlog⟩

/-- A session returns what the AEAD opens. -/
theorem decrypt_returns {s : Frame SessionState Call} {blob : Value} {n : Int} {call : AeadCall}
    (h : s.self.Opens blob n call) {plaintext : Bytes} (hopen : call.result = some plaintext) :
    (decrypt blob).run s =
      (.ok plaintext, ⟨s.self.accept n, s.log ++ s.self.receiveCalls n call⟩) := by
  obtain ⟨aead, key, nonce, data, associatedData, result⟩ := call
  obtain ⟨hpacket, hfresh, hshort, haead, hkey, hassociated, hresult⟩ := h
  obtain rfl : aead = _ := haead
  obtain rfl : result = some plaintext := hopen
  have hok : Crypto.decrypt s.self.suite.buildAead key nonce data associatedData =
      .ok plaintext := toOption_eq_some.mp hresult.symm
  obtain ⟨m, ciphertext, _, -, hvalid, -⟩ := toBytes_fromBytes hpacket
  obtain ⟨heq, hm, -⟩ := validateComplete_ok.mp hvalid
  obtain rfl := eq_of_envelope (m := s.self.receiveMetadata n) (c := []) (d := []) heq
  have hassociated' := associatedData_ok.mpr ⟨_, (rfl : (s.self.receiveMetadata n).envelope data =
    { (s.self.receiveMetadata n).envelope [] with ciphertext := .bytes data }), hm, hassociated⟩
  have hbounds : 0 ≤ n ∧ n ≤ maxMessageSequence := hm.sequence
  have hderive := deriveMessageKey_run hshort s.self.suite.encodeUtf8_value hbounds
    (⟨s.self.replayWindow, s.log⟩ : Frame ReplayWindow Call)
  rw [← hkey] at hderive
  have hrun := decrypt_run s.self.suite.buildAead key nonce data associatedData
    ⟨s.self.replayWindow, s.log ++ messageCalls s.self.receiveDirection n.toNat⟩
  rw [hok, List.append_assoc] at hrun
  have hauthenticate : (s.self.authenticate ((s.self.receiveMetadata n).envelope data)).run
      ⟨s.self.replayWindow, s.log⟩ = (.ok plaintext, ⟨s.self.replayWindow, s.log ++
        s.self.receiveCalls n ⟨s.self.suite.buildAead, key, nonce, data, associatedData,
          some plaintext⟩⟩) := by
    unfold authenticate
    refine (Method.run_bind_ok hderive).trans ?_
    exact (Method.run_bind_ok (Method.lift_ok.mpr ⟨hassociated', rfl⟩)).trans hrun
  have hwindow : (ReplayWindow.authenticateAndRecord (.int n)
      (s.self.authenticate ((s.self.receiveMetadata n).envelope data))).run
      ⟨s.self.replayWindow, s.log⟩ = (.ok plaintext, ⟨s.self.replayWindow.recordUnlocked n,
        s.log ++ s.self.receiveCalls n ⟨s.self.suite.buildAead, key, nonce, data, associatedData,
          some plaintext⟩⟩) := by
    rw [ReplayWindow.authenticateAndRecord_run]
    simp only [hfresh, hauthenticate]
  have hsame : ((s.self.receiveMetadata n).envelope data).version.same (.int protocolVersion) =
        true ∧ ((s.self.receiveMetadata n).envelope data).suite.same (.str s.self.suite.value) =
        true ∧ ((s.self.receiveMetadata n).envelope data).recipient.same (.str s.self.localName) =
        true ∧ ((s.self.receiveMetadata n).envelope data).sender.same (.str s.self.remoteName) =
        true := by
    simp [Metadata.envelope, receiveMetadata, Value.same]
  obtain ⟨hversion, hsuite, hrecipient, hsender⟩ := hsame
  unfold decrypt
  rw [Method.run_bind_ok (Method.lift_ok.mpr ⟨hpacket, rfl⟩),
    Method.run_bind_ok (Method.run_self s),
    Method.run_bind_ok (Method.lift_ok.mpr ⟨raiseIf_neg (by rw [hversion]; simp), rfl⟩),
    Method.run_bind_ok (Method.lift_ok.mpr ⟨raiseIf_neg (by rw [hsuite]; simp), rfl⟩),
    Method.run_bind_ok (Method.lift_ok.mpr ⟨raiseIf_neg (by rw [hrecipient]; simp), rfl⟩),
    Method.run_bind_ok (Method.lift_ok.mpr ⟨raiseIf_neg (by rw [hsender]; simp), rfl⟩)]
  exact Method.zoom_ok.mpr ⟨_, hwindow, rfl⟩

end Receiving

end SessionState

end CypherSyntax
