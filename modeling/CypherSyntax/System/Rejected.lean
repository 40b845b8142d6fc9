import CypherSyntax.Session.Completion
import CypherSyntax.System

/-!
# Calls that raise

A call that raises leaves no trace: whatever an adversary makes a party do that ends in an
exception, all other calls return what they return without it.

Results:
* `perform_ignoresLog`: what has been computed before shows in no outcome.
* `rejected_invisible`: a run and the run without its calls that raised have the same results and
  end in the same system.
-/

namespace Python.Method

variable {κ σ ρ τ α : Type}

theorem IgnoresLog.zoomOption {get : σ → Option ρ} {set : ρ → σ → σ} {absent : α}
    {m : Method κ ρ τ α} (hm : m.IgnoresLog) :
    (Method.zoomOption get set absent m).IgnoresLog := by
  refine .bind .self fun s => ?_
  cases get s with
  | none => exact .pure _
  | some component => exact .zoom hm

end Python.Method

namespace CypherSyntax

open Python Json

variable [Interpreter] [Crypto] {σ : Type}

/-! ## Sessions -/

omit [Interpreter] in
theorem deriveMessageKey_ignoresLog (rootKey : Bytes) (sequence : Value) (suite : Str)
    (sender recipient : Bytes) : (deriveMessageKey rootKey sequence suite sender recipient :
      Method ErrorClass σ Call (Bytes × Bytes)).IgnoresLog := by
  have hexpand : ∀ secret length salt info,
      (hkdfExpand secret length salt info : Method ErrorClass σ Call Bytes).IgnoresLog :=
    fun _ _ _ _ => .bind (.record _) fun _ => .pure _
  exact .bind (.lift _) fun _ =>
    .bind (.bind (.lift _) fun _ => .bind (.lift _) fun _ => hexpand _ _ _ _) fun _ =>
    .bind (hexpand _ _ _ _) fun _ => .pure _

theorem SessionState.encrypt_ignoresLog (plaintext : Value) :
    (SessionState.encrypt plaintext).IgnoresLog := by
  cases plaintext with
  | bytes data =>
    exact .bind (.lift _) fun _ => .bind .self fun _ => .bind (.lift _) fun _ =>
      .bind (.lift _) fun _ => .bind (deriveMessageKey_ignoresLog _ _ _ _ _) fun _ =>
      .bind (.lift _) fun _ => .bind (.bind (.record _) fun _ => .lift _) fun _ =>
      .bind (.lift _) fun _ => .bind (.update _) fun _ => .pure _
  | _ => exact .lift _

theorem SessionState.authenticate_ignoresLog (self : SessionState) (envelope : MessageEnvelope) :
    (self.authenticate envelope : Method ErrorClass σ Call Bytes).IgnoresLog := by
  refine .bind (deriveMessageKey_ignoresLog _ _ _ _ _) fun _ => .bind (.lift _) fun _ => ?_
  cases envelope.ciphertext with
  | bytes ciphertext => exact .bind (.record _) fun _ => .lift _
  | _ => exact .lift _

theorem SessionState.decrypt_ignoresLog (blob : Value) :
    (SessionState.decrypt blob).IgnoresLog :=
  .bind (.lift _) fun _ => .bind .self fun self => .bind (.lift _) fun _ =>
    .bind (.lift _) fun _ => .bind (.lift _) fun _ => .bind (.lift _) fun _ =>
    .zoom (.bind .self fun _ => .bind (.lift _) fun _ =>
      .bind (self.authenticate_ignoresLog _) fun _ => .bind (.update _) fun _ => .pure _)

/-! ## Handshakes -/

theorem SessionFactory.initiator_ignoresLog (localIdentity : Identity) (remoteName : Str)
    (remoteSigningPublicKey : Bytes) (suite : AeadSuite) (supplementalSecret : Bytes)
    (localEphemeral : Crypto.ExchangeKey) :
    (SessionFactory.initiator localIdentity remoteName remoteSigningPublicKey suite
      supplementalSecret localEphemeral : Method ErrorClass σ Call _).IgnoresLog :=
  .bind (.bind (.record _) fun _ => .pure _) fun _ => .bind (.lift _) fun _ =>
    .bind (Identity.sign_ignoresLog _ _) fun _ => .bind (.lift _) fun _ => .pure _

theorem SessionFactory.responder_ignoresLog (localIdentity : Identity)
    (remoteSigningPublicKey : Bytes) (offer : HandshakeOffer) (supplementalSecret : Bytes)
    (localEphemeral : Crypto.ExchangeKey) :
    (SessionFactory.responder localIdentity remoteSigningPublicKey offer supplementalSecret
      localEphemeral : Method ErrorClass σ Call _).IgnoresLog :=
  .bind (.lift _) fun _ => .bind (.lift _) fun _ => .bind (.lift _) fun _ =>
    .bind (Identity.verifySignature_ignoresLog _ _ _) fun _ => .bind (.lift _) fun _ =>
    .bind (.bind (.record _) fun _ => .pure _) fun _ => .bind (.lift _) fun _ =>
    .bind (.lift _) fun _ => .bind (.lift _) fun _ =>
    .bind (deriveSessionRoot_ignoresLog _ _ _) fun _ =>
    .bind (deriveKeyConfirmation_ignoresLog _ _ _) fun _ => .bind (.lift _) fun _ =>
    .bind (.lift _) fun _ => .bind (Identity.sign_ignoresLog _ _) fun _ => .bind (.lift _) fun _ =>
    .pure _

namespace System

/-! ## Events -/

/-- What has been computed before shows in no outcome. -/
theorem perform_ignoresLog (e : Event) : (perform e).IgnoresLog := by
  cases e with
  | initiator localIdentity remoteName remoteSigningPublicKey suite supplementalSecret
      localEphemeral =>
    exact .bind (SessionFactory.initiator_ignoresLog _ _ _ _ _ _) fun _ =>
      .bind (.update _) fun _ => .pure _
  | responder localIdentity remoteSigningPublicKey offer supplementalSecret localEphemeral =>
    exact .bind (SessionFactory.responder_ignoresLog _ _ _ _ _) fun _ =>
      .bind (.update _) fun _ => .pure _
  | completeInitiator index response =>
    exact .zoomOption (.bind (.zoom (InitiatorHandshake.complete_ignoresLog response)) fun _ =>
      .bind (.update _) fun _ => .pure _)
  | completeResponder index confirmation =>
    exact .zoomOption (.bind (.zoom (ResponderHandshake.complete_ignoresLog confirmation)) fun _ =>
      .bind (.update _) fun _ => .pure _)
  | encrypt handle plaintext =>
    exact .zoomOption (.bind (SessionState.encrypt_ignoresLog plaintext) fun _ => .pure _)
  | decrypt handle blob =>
    exact .zoomOption (.bind (SessionState.decrypt_ignoresLog blob) fun _ => .pure _)

/-- A call that raises changes neither a handshake nor a session. -/
theorem step_raised {s : Frame System Call} {e : Event} (h : (step s e).1.isOk = false) :
    (step s e).2.self = s.self := by
  have hdoes := step_does s e
  generalize step s e = done at h hdoes ⊢
  obtain ⟨result, t⟩ := done
  cases hdoes with
  | rejected _ hself => exact hself
  | unsealed => rfl
  | _ => cases h

/-- The calls of a run that have not raised. -/
def accepted (es : List Event) : List Event :=
  ((Machine.trace step start es).filter fun p => p.2.isOk).map Prod.fst

/-- **Calls that raise leave no trace**: without them, all other calls return the same, and the
system ends as it does with them. -/
theorem rejected_invisible (es : List Event) :
    (Machine.run step start (accepted es)).1 =
        (Machine.run step start es).1.filter Except.isOk ∧
      (reached (accepted es)).self = (reached es).self := by
  have hstep : ∀ (s t : Frame System Call) (e : Event), s.self = t.self →
      (step s e).1 = (step t e).1 ∧ (step s e).2.self = (step t e).2.self := by
    rintro ⟨system, log⟩ ⟨_, log'⟩ e rfl
    exact perform_ignoresLog e system log log'
  have hskip : ∀ (s t : Frame System Call) (e : Event), s.self = t.self →
      (step s e).1.isOk = false → (step s e).2.self = t.self :=
    fun _ _ _ hself hraised => (step_raised hraised).trans hself
  obtain ⟨houts, hend⟩ := Machine.run_skip (R := fun s t : Frame System Call => s.self = t.self)
    hstep hskip (rfl : start.self = start.self) es
  exact ⟨houts, hend.symm⟩

end System

end CypherSyntax
