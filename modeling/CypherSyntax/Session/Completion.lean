import CypherSyntax.Machine
import CypherSyntax.Session.Handshake

/-!
# Completing once

A pending handshake may be given any number of messages. Those that it rejects leave it as it was;
the first that a fresh copy of it accepts completes it, as it would complete the copy; every message
after that raises.

Results:
* `Completable.run`: what a list of messages does to a pending object.
* `handshake_completes_once`: this for both pending handshakes.
-/

namespace CypherSyntax

open Python Json

/-! ## Pending objects -/

section Pending

variable {σ μ ρ τ : Type} {complete : μ → Method ErrorClass σ τ ρ} {completed : σ → Bool}
  {already : PyError}

/-- What `complete` does to a fresh copy of the object. -/
def freshly (complete : μ → Method ErrorClass σ τ ρ) (pending : σ) (message : μ) :
    Except PyError ρ := ((complete message).run ⟨pending, []⟩).1

/-- Whether a fresh copy of the object rejects the message. -/
def rejects (complete : μ → Method ErrorClass σ τ ρ) (pending : σ) (message : μ) : Bool :=
  match freshly complete pending message with
  | .ok _ => false
  | .error _ => true

/-- One message. -/
def completeStep (complete : μ → Method ErrorClass σ τ ρ) (s : Frame σ τ) (message : μ) :
    Except PyError ρ × Frame σ τ := (complete message).run s

/-- An object that can be completed once. -/
structure Completable (complete : μ → Method ErrorClass σ τ ρ) (completed : σ → Bool)
    (already : PyError) : Prop where
  ignoresLog : ∀ message, (complete message).IgnoresLog
  rejected : ∀ message s e t, (complete message).run s = (.error e, t) → t.self = s.self
  accepted : ∀ message s a t, (complete message).run s = (.ok a, t) → completed t.self = true
  spent : ∀ message s, completed s.self = true → (complete message).run s = (.error already, s)

namespace Completable

/-- Messages that are rejected leave the object as it was. -/
theorem run_rejected (h : Completable complete completed already) {pending : σ}
    {messages : List μ} (hrejects : ∀ m ∈ messages, rejects complete pending m = true)
    (log : List τ) : ∃ log', Machine.run (completeStep complete) ⟨pending, log⟩ messages =
      (messages.map (freshly complete pending), ⟨pending, log'⟩) := by
  induction messages generalizing log with
  | nil => exact ⟨log, rfl⟩
  | cons m messages ih =>
    obtain ⟨hm, hmessages⟩ := List.forall_mem_cons.mp hrejects
    obtain ⟨hout, -⟩ := h.ignoresLog m pending log []
    rcases hrun : (complete m).run ⟨pending, log⟩ with ⟨r, ⟨object, log'⟩⟩
    rw [hrun] at hout
    have hfresh : freshly complete pending m = r := hout.symm
    unfold rejects at hm
    rw [hfresh] at hm
    cases r with
    | ok a => cases hm
    | error e =>
      obtain rfl : object = pending := h.rejected m _ e _ hrun
      obtain ⟨log'', ih⟩ := ih hmessages log'
      refine ⟨log'', ?_⟩
      have hstep : completeStep complete ⟨object, log⟩ m = (.error e, ⟨object, log'⟩) := hrun
      rw [Machine.run_cons, hstep, ih, List.map_cons, hfresh]

/-- An object that has completed refuses every message. -/
theorem run_spent (h : Completable complete completed already) {s : Frame σ τ}
    (hcompleted : completed s.self = true) (messages : List μ) :
    Machine.run (completeStep complete) s messages =
      (messages.map fun _ => .error already, s) := by
  induction messages with
  | nil => rfl
  | cons m messages ih =>
    have hstep : completeStep complete s m = (.error already, s) := h.spent m s hcompleted
    rw [Machine.run_cons, hstep, ih, List.map_cons]

/-- The first message that a fresh copy accepts completes the object. -/
theorem run_accepted (h : Completable complete completed already) {pending : σ} {message : μ}
    (haccepts : rejects complete pending message = false) (log : List τ) :
    ∃ t, completeStep complete ⟨pending, log⟩ message = (freshly complete pending message, t) ∧
      completed t.self = true := by
  rcases hrun : (complete message).run ⟨pending, []⟩ with ⟨r, t⟩
  have hfresh : freshly complete pending message = r := congrArg Prod.fst hrun
  unfold rejects at haccepts
  rw [hfresh] at haccepts ⊢
  cases r with
  | error e => cases haccepts
  | ok a =>
    obtain ⟨log', hrun'⟩ := (h.ignoresLog message).run_ok hrun log
    exact ⟨⟨t.self, log'⟩, hrun', h.accepted message _ a t hrun⟩

end Completable

/-- The object takes the messages that come before the first acceptable one without a change, that
one as a fresh copy would, and none after it. -/
def CompletesOnce (complete : μ → Method ErrorClass σ τ ρ) (completed : σ → Bool)
    (already : PyError) : Prop :=
  ∀ pending, completed pending = false → ∀ log messages,
    let rest := messages.dropWhile (rejects complete pending)
    ∃ s, Machine.run (completeStep complete) ⟨pending, log⟩ messages =
        ((messages.takeWhile (rejects complete pending)).map (freshly complete pending) ++
          (rest.take 1).map (freshly complete pending) ++
          (rest.drop 1).map (fun _ => .error already), s) ∧
      (rest = [] → s.self = pending) ∧
      (rest ≠ [] → completed s.self = true ∧
        ∀ message, completeStep complete s message = (.error already, s))

/-- **An object that can be completed once completes once**, whatever it is given before and
after. -/
theorem Completable.once (h : Completable complete completed already) :
    CompletesOnce complete completed already := by
  intro pending _ log messages rest
  have hrejected : ∀ m ∈ messages.takeWhile (rejects complete pending),
      rejects complete pending m = true := List.all_eq_true.mp List.all_takeWhile
  obtain ⟨log', hbefore⟩ := h.run_rejected hrejected log
  have hmessages : messages = messages.takeWhile (rejects complete pending) ++ rest :=
    (List.takeWhile_append_dropWhile).symm
  cases hrest : rest with
  | nil =>
    refine ⟨⟨pending, log'⟩, ?_, fun _ => rfl, fun hne => absurd rfl hne⟩
    rw [hrest, List.append_nil] at hmessages
    simp only [List.take_nil, List.drop_nil, List.map_nil, List.append_nil]
    rw [← hmessages] at hbefore ⊢
    exact hbefore
  | cons m later =>
    have haccepts : rejects complete pending m = false := by
      have hhead := List.head?_dropWhile_not (rejects complete pending) messages
      rw [show messages.dropWhile (rejects complete pending) = m :: later from hrest] at hhead
      simpa using hhead
    obtain ⟨t, hstep, hcompleted⟩ := h.run_accepted haccepts log'
    refine ⟨t, ?_, fun hnil => absurd hnil (List.cons_ne_nil m later),
      fun _ => ⟨hcompleted, fun message => h.spent message t hcompleted⟩⟩
    have hrun : Machine.run (completeStep complete) ⟨pending, log⟩ messages =
        Machine.run (completeStep complete) ⟨pending, log⟩
          (messages.takeWhile (rejects complete pending) ++ m :: later) := by
      rw [← hrest, ← hmessages]
    rw [hrun, Machine.run_append, hbefore, Machine.run_cons, hstep, h.run_spent hcompleted]
    simp

end Pending

/-! ## Both handshakes -/

section Handshakes

variable [Crypto] {σ : Type}

theorem Identity.verifySignature_ignoresLog (data signature publicKey : Bytes) :
    (Identity.verifySignature data signature publicKey :
      Method ErrorClass σ Call Unit).IgnoresLog :=
  .bind (.lift _) fun _ => .record _

theorem deriveSessionRoot_ignoresLog (shared hash supplemental : Bytes) :
    (deriveSessionRoot shared hash supplemental : Method ErrorClass σ Call Bytes).IgnoresLog :=
  .bind (.record _) fun _ => .pure _

theorem deriveKeyConfirmation_ignoresLog (root hash : Bytes) (role : Str) :
    (deriveKeyConfirmation root hash role : Method ErrorClass σ Call Bytes).IgnoresLog :=
  .bind (.lift _) fun _ => .bind (.lift _) fun _ => .bind (.record _) fun _ => .pure _

variable [Interpreter]

theorem Identity.sign_ignoresLog (identity : Identity) (data : Bytes) :
    (identity.sign data : Method ErrorClass σ Call Bytes).IgnoresLog :=
  .bind (.record _) fun _ => .pure _

theorem InitiatorHandshake.complete_ignoresLog (response : HandshakeResponse) :
    (InitiatorHandshake.complete response).IgnoresLog := by
  refine .bind .self fun self => ?_
  cases hkey : self.ephemeralPrivateKey with
  | none => exact .lift _
  | some privateKey =>
    exact .bind (.lift _) fun _ => .bind (.lift _) fun _ => .bind (.lift _) fun _ =>
      .bind (Identity.verifySignature_ignoresLog _ _ _) fun _ => .bind (.lift _) fun _ =>
      .bind (.lift _) fun _ => .bind (.lift _) fun _ =>
      .bind (deriveSessionRoot_ignoresLog _ _ _) fun _ =>
      .bind (deriveKeyConfirmation_ignoresLog _ _ _) fun _ => .bind (.lift _) fun _ =>
      .bind (deriveKeyConfirmation_ignoresLog _ _ _) fun _ => .bind (.lift _) fun _ =>
      .bind (.lift _) fun _ => .bind (Identity.sign_ignoresLog _ _) fun _ =>
      .bind (.lift _) fun _ => .bind (.update _) fun _ => .pure _

theorem ResponderHandshake.complete_ignoresLog (confirmation : HandshakeConfirmation) :
    (ResponderHandshake.complete confirmation).IgnoresLog := by
  refine .bind .self fun self => ?_
  cases hroot : self.rootKey with
  | none => exact .lift _
  | some rootKey =>
    exact .bind (.lift _) fun _ => .bind (.lift _) fun _ =>
      .bind (Identity.verifySignature_ignoresLog _ _ _) fun _ => .bind (.lift _) fun _ =>
      .bind (deriveKeyConfirmation_ignoresLog _ _ _) fun _ => .bind (.lift _) fun _ =>
      .bind (.update _) fun _ => .pure _

/-- `RuntimeError("... handshake has already been completed")` -/
def alreadyCompleted (role : String) : PyError :=
  .builtin .runtimeError (lit (role ++ " handshake has already been completed"))

theorem InitiatorHandshake.completable : Completable InitiatorHandshake.complete
    InitiatorHandshake.completed (alreadyCompleted "initiator") where
  ignoresLog := InitiatorHandshake.complete_ignoresLog
  rejected response s _ _ hrun := ((InitiatorHandshake.complete_runs response s).of_error hrun).1
  accepted response s _ _ hrun := by
    obtain ⟨_, _, _, -, -, -, -, rfl⟩ := (InitiatorHandshake.complete_runs response s).of_ok hrun
    rfl
  spent response s hcompleted := by
    unfold InitiatorHandshake.complete
    rw [Method.run_bind_ok (Method.run_self s), Option.isNone_iff_eq_none.mp hcompleted]
    rfl

theorem ResponderHandshake.completable : Completable ResponderHandshake.complete
    ResponderHandshake.completed (alreadyCompleted "responder") where
  ignoresLog := ResponderHandshake.complete_ignoresLog
  rejected confirmation s _ _ hrun :=
    ((ResponderHandshake.complete_runs confirmation s).of_error hrun).1
  accepted confirmation s _ _ hrun := by
    obtain ⟨_, -, -, -, rfl⟩ := (ResponderHandshake.complete_runs confirmation s).of_ok hrun
    rfl
  spent confirmation s hcompleted := by
    unfold ResponderHandshake.complete
    rw [Method.run_bind_ok (Method.run_self s), Option.isNone_iff_eq_none.mp hcompleted]
    rfl

/-- **A pending handshake completes once**, whatever it is given before and after. -/
theorem handshake_completes_once :
    CompletesOnce InitiatorHandshake.complete InitiatorHandshake.completed
      (alreadyCompleted "initiator") ∧
    CompletesOnce ResponderHandshake.complete ResponderHandshake.completed
      (alreadyCompleted "responder") :=
  ⟨InitiatorHandshake.completable.once, ResponderHandshake.completable.once⟩

end Handshakes

end CypherSyntax
