import CypherSyntax.Handshake.Codec
import CypherSyntax.System

/-!
# The system over bytes

What a party receives are bytes, of anyone: `from_bytes` makes a message of them or raises. What it
makes is written by `to_bytes`. So whatever holds of every run of the system holds of every run over
bytes.

Results:
* `answers_written`: every message that a call makes is written, and read back as it was.
* `bytes_refine`: a run over bytes is the run over the messages that they are read as.
-/

namespace CypherSyntax

open Python Json

variable [Interpreter] [Crypto]

/-! ## Calls -/

/-- A call of a party that has received bytes. -/
inductive ByteEvent where
  | initiator (localIdentity : Identity) (remoteName : Str) (remoteSigningPublicKey : Bytes)
    (suite : AeadSuite) (supplementalSecret : Bytes) (localEphemeral : Crypto.ExchangeKey)
  | responder (localIdentity : Identity) (remoteSigningPublicKey : Bytes) (offer : Value)
    (supplementalSecret : Bytes) (localEphemeral : Crypto.ExchangeKey)
  | completeInitiator (index : Nat) (response : Value)
  | completeResponder (index : Nat) (confirmation : Value)
  | encrypt (handle : Handle) (plaintext : Value)
  | decrypt (handle : Handle) (blob : Value)

/-- What a party sends, or keeps for itself. -/
inductive ByteAnswer where
  | offered (offer : Bytes)
  | responded (response : Bytes)
  | completed (confirmation : Bytes)
  | accepted
  | packet (blob : Bytes)
  | plaintext (data : Bytes)
  | absent

/-- The call with the message that `from_bytes` makes of the bytes. -/
def ByteEvent.read : ByteEvent → Except PyError Event
  | .initiator localIdentity remoteName remoteSigningPublicKey suite supplementalSecret
      localEphemeral =>
    .ok (.initiator localIdentity remoteName remoteSigningPublicKey suite supplementalSecret
      localEphemeral)
  | .responder localIdentity remoteSigningPublicKey offer supplementalSecret localEphemeral => do
    let offer ← HandshakeOffer.fromBytes offer
    return .responder localIdentity remoteSigningPublicKey offer supplementalSecret localEphemeral
  | .completeInitiator index response => do
    let response ← HandshakeResponse.fromBytes response
    return .completeInitiator index response
  | .completeResponder index confirmation => do
    let confirmation ← HandshakeConfirmation.fromBytes confirmation
    return .completeResponder index confirmation
  | .encrypt handle plaintext => .ok (.encrypt handle plaintext)
  | .decrypt handle blob => .ok (.decrypt handle blob)

/-- What the call returns, with the bytes that `to_bytes` makes of its message. -/
def Answer.write : Answer → Except PyError ByteAnswer
  | .offered pending => do return .offered (← pending.offer.toBytes)
  | .responded response _ => do return .responded (← response.toBytes)
  | .completed confirmation _ => do return .completed (← confirmation.toBytes)
  | .accepted _ => .ok .accepted
  | .packet blob => .ok (.packet blob)
  | .plaintext data => .ok (.plaintext data)
  | .absent => .ok .absent

namespace System

def performBytes (e : ByteEvent) : Method ErrorClass System Call ByteAnswer := do
  let event ← e.read
  let answer ← perform event
  answer.write

def stepBytes (s : Frame System Call) (e : ByteEvent) :
    Except PyError ByteAnswer × Frame System Call :=
  (performBytes e).run s

def inBytes (result : Except PyError Answer) : Except PyError ByteAnswer := result.bind Answer.write

/-- A call with a message, that answers in bytes. -/
def stepWritten (s : Frame System Call) (event : Event) :
    Except PyError ByteAnswer × Frame System Call :=
  (inBytes (step s event).1, (step s event).2)

/-! ## Messages -/

/-- The answer is written, and whoever reads its message has the message. -/
def Written : Answer → Prop
  | .offered pending => ∃ data, Answer.write (.offered pending) = .ok (.offered data) ∧
      HandshakeOffer.fromBytes (.bytes data) = .ok pending.offer
  | .responded response pending => ∃ data,
      Answer.write (.responded response pending) = .ok (.responded data) ∧
      HandshakeResponse.fromBytes (.bytes data) = .ok response
  | .completed confirmation session => ∃ data,
      Answer.write (.completed confirmation session) = .ok (.completed data) ∧
      HandshakeConfirmation.fromBytes (.bytes data) = .ok confirmation
  | answer => ∃ written, answer.write = .ok written

/-- **Every message that a call makes is written, and read back as it was.** -/
theorem answers_written (answer : Answer) : Written answer := by
  cases answer with
  | offered pending =>
    obtain ⟨data, hto, -, hfrom⟩ := offer_laws.fromBytes_toBytes pending.offer
    exact ⟨data, bind_eq_ok.mpr ⟨data, hto, rfl⟩, hfrom⟩
  | responded response _ =>
    obtain ⟨data, hto, -, hfrom⟩ := response_laws.fromBytes_toBytes response
    exact ⟨data, bind_eq_ok.mpr ⟨data, hto, rfl⟩, hfrom⟩
  | completed confirmation _ =>
    obtain ⟨data, hto, -, hfrom⟩ := confirmation_laws.fromBytes_toBytes confirmation
    exact ⟨data, bind_eq_ok.mpr ⟨data, hto, rfl⟩, hfrom⟩
  | accepted | packet | plaintext | absent => exact ⟨_, rfl⟩

/-- Bytes that are no message raise `HandshakeError`. -/
theorem read_ensures (e : ByteEvent) : Ensures (fun _ => True) IsHandshakeError e.read := by
  cases e with
  | initiator | encrypt | decrypt => exact trivial
  | responder _ _ offer _ _ =>
    exact (offer_laws.fromBytes_ensures offer).bind fun _ _ => trivial
  | completeInitiator _ response =>
    exact (response_laws.fromBytes_ensures response).bind fun _ _ => trivial
  | completeResponder _ confirmation =>
    exact (confirmation_laws.fromBytes_ensures confirmation).bind fun _ _ => trivial

theorem stepBytes_read {e : ByteEvent} {event : Event} (h : e.read = .ok event)
    (s : Frame System Call) :
    stepBytes s e = stepWritten s event := by
  unfold stepBytes performBytes stepWritten
  rw [Method.run_bind_ok (Method.lift_ok.mpr ⟨h, rfl⟩), Method.run_bind]
  unfold step
  rcases (perform event).run s with ⟨exc | answer, t⟩ <;> rfl

theorem stepBytes_unread {e : ByteEvent} {exc : PyError} (h : e.read = .error exc)
    (s : Frame System Call) : stepBytes s e = (.error exc, s) :=
  Method.run_bind_error (Method.lift_error.mpr ⟨h, rfl⟩)

/-! ## Runs -/

/-- The run over bytes is a run over messages. -/
structure RefinesMessages (es : List ByteEvent) : Prop where
  /-- Bytes that are read do what their message does. -/
  results : Machine.project (fun e => e.read.toOption) id (Machine.trace stepBytes start es) =
    (Machine.run step start (es.filterMap fun e => e.read.toOption)).1.map inBytes
  /-- Others raise. -/
  unread : ∀ p ∈ Machine.trace stepBytes start es, p.1.read.toOption = none →
    ∃ exc, p.2 = .error exc ∧ IsHandshakeError exc
  reached : (Machine.run stepBytes start es).2 =
    (Machine.run step start (es.filterMap fun e => e.read.toOption)).2
  /-- Every message that the run makes can be sent. -/
  written : ∀ answer, .ok answer ∈
    (Machine.run step start (es.filterMap fun e => e.read.toOption)).1 → Written answer

/-- **A run over bytes is the run over the messages that they are read as**: whatever bytes the
parties are given, they do what they do when they are given those messages and nothing else. -/
theorem bytes_refine (es : List ByteEvent) : RefinesMessages es := by
  have hkeep : ∀ (s t : Frame System Call) (e : ByteEvent), e.read.toOption = none → s = t →
      (stepBytes s e).2 = t := by
    rintro s _ e he rfl
    cases hread : e.read with
    | error exc => rw [stepBytes_unread hread]
    | ok event => simp [hread, Except.toOption] at he
  have hstep : ∀ (s t : Frame System Call) (e : ByteEvent) (event : Event),
      e.read.toOption = some event → s = t →
        id (stepBytes s e).1 = (stepWritten t event).1 ∧
          (stepBytes s e).2 = (stepWritten t event).2 := by
    rintro s _ e event he rfl
    rw [stepBytes_read (toOption_eq_some.mp he)]
    exact ⟨rfl, rfl⟩
  have hunread : ∀ (s : Frame System Call) (e : ByteEvent), e.read.toOption = none →
      ∃ exc, (stepBytes s e).1 = .error exc ∧ IsHandshakeError exc := by
    intro s e he
    cases hread : e.read with
    | error exc => exact ⟨exc, by rw [stepBytes_unread hread], (read_ensures e).of_error hread⟩
    | ok event => simp [hread, Except.toOption] at he
  have hwritten : ∀ s event, stepWritten s event = (inBytes (step s event).1, (step s event).2) :=
    fun _ _ => rfl
  obtain ⟨houts, hend⟩ := Machine.run_project hkeep hstep (rfl : start = start) es
  rw [Machine.run_map hwritten] at houts hend
  exact ⟨houts, Machine.trace_forall hunread start es, hend, fun answer _ => answers_written answer⟩

end System

end CypherSyntax
