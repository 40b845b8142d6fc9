import CypherSyntax.Instances
import CypherSyntax.Session.Counter
import CypherSyntax.Threads

/-!
# Threads that share a session

`encrypt` and `decrypt` of one session, called by any threads. Under its lock, the code is cut into
its accesses of `send_sequence`, or of the window's `seen` and `highest_seen`; the rest of a session
never changes.

Results:
* `encryptTask_run`, `decryptTask_run`: uninterrupted, the code does what the methods do.
* `concurrent_serial`: whatever their schedule, the calls do what they do one after another.
* `concurrent_counts`: calls of `encrypt` never use a number twice and never lose one.
* `concurrent_replays`: calls of `decrypt` open a sequence once.
-/

namespace Python.Method

variable {κ τ α β : Type}

theorem bind_assoc {σ γ : Type} (m : Method κ σ τ α) (f : α → Method κ σ τ β)
    (g : β → Method κ σ τ γ) (s : Frame σ τ) :
    ((m >>= f) >>= g).run s = (m >>= fun a => f a >>= g).run s := by
  simp only [run_bind]
  rcases m.run s with ⟨e | a, t⟩ <;> rfl

theorem run_bind_congr {σ : Type} {m : Method κ σ τ α} {f g : α → Method κ σ τ β}
    {s : Frame σ τ} (h : ∀ a t, (f a).run t = (g a).run t) : (m >>= f).run s = (m >>= g).run s := by
  simp only [run_bind]
  rcases m.run s with ⟨e | a, t⟩
  · rfl
  · exact h a t

/-! ## Methods that use no object -/

/-- A method of every object whose outcome depends on no object and no log. -/
def Local (m : ∀ σ, Method κ σ τ α) (result : Except (Exc κ) α) : Prop :=
  ∀ σ (s : Frame σ τ), ((m σ).run s).1 = result ∧ ((m σ).run s).2.self = s.self

namespace Local

variable {m : ∀ σ, Method κ σ τ α} {f : ∀ σ, α → Method κ σ τ β} {a : α} {e : Exc κ}
  {result : Except (Exc κ) β}

theorem lift (x : Except (Exc κ) α) : Local (fun σ => (liftM x : Method κ σ τ α)) x :=
  fun _ _ => ⟨rfl, rfl⟩

theorem bind_ok (hm : Local m (.ok a)) (hf : Local (fun σ => f σ a) result) :
    Local (fun σ => m σ >>= f σ) result := by
  intro σ s
  obtain ⟨hout, hself⟩ := hm σ s
  rw [run_bind]
  rcases hrun : (m σ).run s with ⟨r, t⟩
  rw [hrun] at hout hself
  obtain rfl : r = .ok a := hout
  obtain ⟨hout', hself'⟩ := hf σ t
  exact ⟨hout', hself'.trans hself⟩

theorem bind_error (hm : Local m (.error e)) : Local (fun σ => m σ >>= f σ) (.error e) := by
  intro σ s
  obtain ⟨hout, hself⟩ := hm σ s
  rw [run_bind]
  rcases hrun : (m σ).run s with ⟨r, t⟩
  rw [hrun] at hout hself
  obtain rfl : r = .error e := hout
  exact ⟨rfl, hself⟩

theorem bind (hm : ∃ r, Local m r) (hf : ∀ a, ∃ r, Local (fun σ => f σ a) r) :
    ∃ r, Local (fun σ => m σ >>= f σ) r := by
  obtain ⟨r, hm⟩ := hm
  cases r with
  | error e => exact ⟨_, bind_error hm⟩
  | ok a =>
    obtain ⟨r, hf⟩ := hf a
    exact ⟨r, bind_ok hm hf⟩

/-- The outcome, computed on no object. -/
theorem outcome (h : ∃ r, Local m r) : Local m ((m Unit).run ⟨(), []⟩).1 := by
  obtain ⟨r, hm⟩ := h
  rw [(hm Unit ⟨(), []⟩).1]
  exact hm

end Local

end Python.Method

namespace CypherSyntax

open Python Json Threads

section Concurrent

variable [Interpreter] [Crypto]

/-! ## The locks -/

/-- `_send_lock` of a session, and the lock of its window. -/
inductive SessionLock where
  | send
  | window
  deriving DecidableEq

/-- What the lock protects. -/
abbrev SessionLock.Cell : SessionLock → Type
  | .send => Int
  | .window => ReplayWindow

/-! ## The code under the locks -/

namespace SessionState

/-- `encrypt` between its last read of the counter and its write. -/
def sealPacket (self : SessionState) (plaintext : Bytes) (sequence : Int) (σ : Type) :
    Method ErrorClass σ Call Bytes := do
  let envelope : MessageEnvelope := ⟨.int protocolVersion, .str self.suite.value,
    .str self.localName, .str self.remoteName, .int sequence, .bytes []⟩
  let (key, nonce) ← deriveMessageKey self.rootKey (.int sequence) self.suite.value
    self.localEphemeralPublicBytes self.remoteEphemeralPublicBytes
  let associatedData ← envelope.associatedData
  let ciphertext ← CypherSyntax.encrypt self.suite.buildAead key nonce plaintext associatedData
  { envelope with ciphertext := .bytes ciphertext }.toBytes

/-- `encrypt` under `_send_lock`. -/
def encryptBody (self : SessionState) (plaintext : Bytes) : Body Int (Except PyError Bytes) :=
  .read fun n =>
  if n > maxMessageSequence then
    .done (.error (.builtin .overflowError (lit "message sequence exhausted")))
  else .read fun n =>
  match validateMessageSequence (.int n) with
  | .error e => .done (.error e)
  | .ok _ => .read fun sequence =>
    match ((self.sealPacket plaintext sequence Unit).run ⟨(), []⟩).1 with
    | .error e => .done (.error e)
    | .ok packet => .read fun n => .modify (fun _ => n + 1) (.done (.ok packet))

def encryptTask (self : SessionState) : Value → Task Int (Except PyError Bytes)
  | .bytes plaintext =>
    if maxPlaintextBytes < plaintext.length then
      .returns (.error (valueError "plaintext exceeds the maximum message size"))
    else .locks (self.encryptBody plaintext)
  | _ => .returns (.error (typeError "plaintext must be bytes"))

/-- `decrypt` before it takes the lock of the window. -/
def openEnvelope (self : SessionState) (blob : Value) : Except PyError MessageEnvelope := do
  let envelope ← MessageEnvelope.fromBytes blob
  raiseIf (envelope.version.same (.int protocolVersion) = false)
    (.builtin .valueError (lit "unsupported envelope version: " ++ versionText envelope.version)
      : PyError)
  raiseIf (envelope.suite.same (.str self.suite.value) = false)
    (valueError "AEAD suite mismatch" : PyError)
  raiseIf (envelope.recipient.same (.str self.localName) = false)
    (valueError "message recipient mismatch" : PyError)
  raiseIf (envelope.sender.same (.str self.remoteName) = false)
    (valueError "message sender mismatch" : PyError)
  return envelope

end SessionState

/-- `authenticate_and_record` under the lock of the window, with the outcome of its operation. -/
def ReplayWindow.authenticateBody {α : Type} (sequence : Value) (operation : Except PyError α) :
    Body ReplayWindow (Except PyError α) :=
  -- `_check_unlocked`
  match validateMessageSequence sequence with
  | .error e => .done (.error e)
  | .ok number => .read fun window =>
    if number ∈ window.seen then .done (.error
      (replayDetectedError (lit "replayed sequence number: " ++ intText number)))
    else .read fun window =>
    if number ≤ window.highestSeen - window.windowSize then .done (.error
      (replayDetectedError (lit "stale sequence number outside replay window: " ++ intText number)))
    else match operation with
    | .error e => .done (.error e)
    | .ok result =>
      -- `_record_unlocked`
      let forget : Body ReplayWindow (Except PyError α) := .read fun window =>
        let floor := window.highestSeen - window.windowSize
        .read fun window =>
        .modify ({ · with seen := window.seen.filter (· > floor) }) (.done (.ok result))
      .modify (fun window => { window with seen := insert number window.seen }) <|
        .read fun window =>
        if number > window.highestSeen then .modify ({ · with highestSeen := number }) forget
        else forget

namespace SessionState

def decryptTask (self : SessionState) (blob : Value) : Task ReplayWindow (Except PyError Bytes) :=
  match self.openEnvelope blob with
  | .error e => .returns (.error e)
  | .ok envelope => .locks (ReplayWindow.authenticateBody envelope.sequence
      ((self.authenticate envelope : Method ErrorClass Unit Call Bytes).run ⟨(), []⟩).1)

/-! ## Calls -/

/-- What the locks protect. -/
def cells (self : SessionState) : ∀ k : SessionLock, k.Cell
  | .send => self.sendSequence
  | .window => self.replayWindow

def withCells (self : SessionState) (cells : ∀ k : SessionLock, k.Cell) : SessionState :=
  { self with sendSequence := cells .send, replayWindow := cells .window }

end SessionState

inductive SessionCall where
  | encrypt (plaintext : Value)
  | decrypt (blob : Value)

namespace SessionCall

def method : SessionCall → Method ErrorClass SessionState Call Bytes
  | .encrypt plaintext => SessionState.encrypt plaintext
  | .decrypt blob => SessionState.decrypt blob

def lock : SessionCall → SessionLock
  | .encrypt _ => .send
  | .decrypt _ => .window

def task (session : SessionState) : (call : SessionCall) → Task call.lock.Cell (Except PyError Bytes)
  | .encrypt plaintext => session.encryptTask plaintext
  | .decrypt blob => session.decryptTask blob

/-- The call as a method of the session: what it returns, and the session after it. -/
def serve (session : SessionState) (call : SessionCall) : Except PyError Bytes × SessionState :=
  ((call.method.run ⟨session, []⟩).1, (call.method.run ⟨session, []⟩).2.self)

end SessionCall

/-! ## The code does what the methods do -/

namespace SessionState

omit [Interpreter] in
theorem deriveMessageKey_local (rootKey : Bytes) (sequence : Value) (suiteName : Str)
    (sender recipient : Bytes) : ∃ result, Method.Local (fun σ =>
      (deriveMessageKey rootKey sequence suiteName sender recipient :
        Method ErrorClass σ Call (Bytes × Bytes))) result := by
  have hexpand : ∀ input, ∃ result, Method.Local (fun σ =>
      (hkdf input : Method ErrorClass σ Call Bytes)) result :=
    fun input => ⟨.ok (Crypto.hkdf input), fun _ _ => ⟨rfl, rfl⟩⟩
  refine Method.Local.bind ⟨_, .lift _⟩ fun n => Method.Local.bind ?_ fun secret => ?_
  · exact Method.Local.bind ⟨_, .lift _⟩ fun _ => Method.Local.bind ⟨_, .lift _⟩ fun _ => hexpand _
  · exact Method.Local.bind (hexpand _) fun _ => ⟨_, fun _ _ => ⟨rfl, rfl⟩⟩

theorem sealPacket_local (self : SessionState) (plaintext : Bytes) (sequence : Int) :
    Method.Local (self.sealPacket plaintext sequence)
      ((self.sealPacket plaintext sequence Unit).run ⟨(), []⟩).1 := by
  refine Method.Local.outcome (Method.Local.bind (deriveMessageKey_local _ _ _ _ _) fun key => ?_)
  refine Method.Local.bind ⟨_, .lift _⟩ fun associatedData => ?_
  exact Method.Local.bind ⟨_, fun _ s => ⟨rfl, rfl⟩⟩ fun _ => ⟨_, .lift _⟩

/-- `encrypt` seals the packet, and then writes the counter. -/
theorem encrypt_eq (plaintext : Bytes) (s : Frame SessionState Call) :
    (encrypt (.bytes plaintext)).run s = (do
      raiseIf (maxPlaintextBytes < plaintext.length)
        (valueError "plaintext exceeds the maximum message size" : PyError)
      let self ← Method.self
      raiseIf (self.sendSequence > maxMessageSequence)
        (.builtin .overflowError (lit "message sequence exhausted") : PyError)
      let sequence ← validateMessageSequence (.int self.sendSequence)
      let packet ← self.sealPacket plaintext sequence SessionState
      Method.update fun s => { s with sendSequence := s.sendSequence + 1 }
      return packet : Method ErrorClass SessionState Call Bytes).run s := by
  unfold encrypt
  refine Method.run_bind_congr fun _ t => Method.run_bind_congr fun self t =>
    Method.run_bind_congr fun _ t => Method.run_bind_congr fun sequence t => ?_
  unfold sealPacket
  rw [Method.bind_assoc]
  refine Method.run_bind_congr fun key t => ?_
  rw [Method.bind_assoc]
  refine Method.run_bind_congr fun associatedData t => ?_
  rw [Method.bind_assoc]

/-- **Uninterrupted, the code of `encrypt` does what the method does.** -/
theorem encryptTask_run (plaintext : Value) (s : Frame SessionState Call) :
    ((encrypt plaintext).run s).1 = ((s.self.encryptTask plaintext).run s.self.sendSequence).1 ∧
      ((encrypt plaintext).run s).2.self = { s.self with
        sendSequence := ((s.self.encryptTask plaintext).run s.self.sendSequence).2 } := by
  cases plaintext with
  | bytes plaintext =>
    rw [encrypt_eq]
    by_cases hsize : maxPlaintextBytes < plaintext.length
    · rw [show s.self.encryptTask (.bytes plaintext) = _ from if_pos hsize,
        Method.run_bind_error (Method.lift_error.mpr ⟨raiseIf_error.mpr ⟨hsize, rfl⟩, rfl⟩)]
      exact ⟨rfl, rfl⟩
    rw [show s.self.encryptTask (.bytes plaintext) = _ from if_neg hsize,
      Method.run_bind_ok (Method.lift_ok.mpr ⟨raiseIf_neg hsize, rfl⟩),
      Method.run_bind_ok (Method.run_self _)]
    unfold encryptBody Task.run
    simp only [Body.run_read]
    by_cases hmax : s.self.sendSequence > maxMessageSequence
    · rw [if_pos hmax,
        Method.run_bind_error (Method.lift_error.mpr ⟨raiseIf_error.mpr ⟨hmax, rfl⟩, rfl⟩)]
      exact ⟨rfl, rfl⟩
    rw [if_neg hmax, Method.run_bind_ok (Method.lift_ok.mpr ⟨raiseIf_neg hmax, rfl⟩),
      Body.run_read]
    cases hvalid : validateMessageSequence (.int s.self.sendSequence) with
    | error e =>
      rw [Method.run_bind_error (Method.lift_error.mpr ⟨rfl, rfl⟩)]
      exact ⟨rfl, rfl⟩
    | ok sequence =>
      obtain ⟨hsequence, -⟩ := validateMessageSequence_ok.mp hvalid
      obtain rfl := Value.int.inj hsequence
      obtain ⟨hout, hself⟩ :=
        s.self.sealPacket_local plaintext s.self.sendSequence SessionState s
      rw [Method.run_bind_ok (Method.lift_ok.mpr ⟨rfl, rfl⟩)]
      simp only [Body.run_read, Method.run_bind]
      rw [← hout]
      rcases hrun : (s.self.sealPacket plaintext s.self.sendSequence SessionState).run s with
        ⟨e | packet, t⟩
      · rw [hrun] at hself
        exact ⟨rfl, hself⟩
      · rw [hrun] at hself
        refine ⟨rfl, ?_⟩
        show { t.self with sendSequence := t.self.sendSequence + 1 } = _
        rw [show t.self = s.self from hself]
        rfl
  | _ => exact ⟨rfl, rfl⟩

/-- `decrypt` opens the envelope, and then calls the window. -/
theorem decrypt_eq (blob : Value) (s : Frame SessionState Call) : (decrypt blob).run s =
    match s.self.openEnvelope blob with
    | .error e => (.error e, s)
    | .ok envelope => (Method.zoom replayWindow (fun window s => { s with replayWindow := window })
        (ReplayWindow.authenticateAndRecord envelope.sequence (s.self.authenticate envelope))).run s := by
  unfold decrypt openEnvelope
  cases MessageEnvelope.fromBytes blob with
  | error e => rfl
  | ok envelope =>
    simp only [ok_bind, Method.run_bind, Method.run_lift, Method.run_self]
    cases raiseIf (envelope.version.same (.int protocolVersion) = false) (.builtin .valueError
      (lit "unsupported envelope version: " ++ versionText envelope.version) : PyError) with
    | error e => rfl
    | ok _ =>
      cases raiseIf (envelope.suite.same (.str s.self.suite.value) = false)
        (valueError "AEAD suite mismatch" : PyError) with
      | error e => rfl
      | ok _ =>
        cases raiseIf (envelope.recipient.same (.str s.self.localName) = false)
          (valueError "message recipient mismatch" : PyError) with
        | error e => rfl
        | ok _ =>
          cases raiseIf (envelope.sender.same (.str s.self.remoteName) = false)
            (valueError "message sender mismatch" : PyError) with
          | error e => rfl
          | ok _ => rfl

theorem authenticate_local (self : SessionState) (envelope : MessageEnvelope) :
    Method.Local (fun σ => (self.authenticate envelope : Method ErrorClass σ Call Bytes))
      ((self.authenticate envelope : Method ErrorClass Unit Call Bytes).run ⟨(), []⟩).1 := by
  refine Method.Local.outcome (Method.Local.bind (deriveMessageKey_local _ _ _ _ _) fun key => ?_)
  refine Method.Local.bind ⟨_, .lift _⟩ fun associatedData => ?_
  cases envelope.ciphertext with
  | bytes ciphertext => exact ⟨_, fun _ _ => ⟨rfl, rfl⟩⟩
  | _ => exact ⟨_, .lift _⟩

end SessionState

omit [Interpreter] [Crypto] in
/-- **Uninterrupted, the code of the window does what its methods do.** -/
theorem ReplayWindow.authenticateBody_run {α : Type} (sequence : Value)
    (operation : Except PyError α) (window : ReplayWindow) :
    (authenticateBody sequence operation).run window = match window.checkUnlocked sequence with
      | .error e => (.error e, window)
      | .ok n => match operation with
        | .error e => (.error e, window)
        | .ok result => (.ok result, window.recordUnlocked n) := by
  unfold authenticateBody checkUnlocked
  cases validateMessageSequence sequence with
  | error e => rfl
  | ok n =>
    simp only [ok_bind, Body.run_read]
    by_cases hseen : n ∈ window.seen
    · rw [if_pos hseen, show raiseIf (n ∈ window.seen) _ = _ from if_pos hseen]
      rfl
    rw [if_neg hseen, raiseIf_neg hseen, ok_bind, Body.run_read]
    by_cases hfloor : n ≤ window.highestSeen - window.windowSize
    · rw [if_pos hfloor, show raiseIf (n ≤ _) _ = _ from if_pos hfloor]
      rfl
    rw [if_neg hfloor, raiseIf_neg hfloor, ok_bind]
    cases operation with
    | error e => rfl
    | ok result =>
      show _ = (Except.ok result, window.recordUnlocked n)
      unfold recordUnlocked
      simp only [Body.run_modify, Body.run_read]
      by_cases htop : n > window.highestSeen
      · simp only [if_pos htop, Body.run_modify, Body.run_read, Body.run_done]
      · simp only [if_neg htop, Body.run_modify, Body.run_read, Body.run_done]

namespace SessionState

/-- **Uninterrupted, the code of `decrypt` does what the method does.** -/
theorem decryptTask_run (blob : Value) (s : Frame SessionState Call) :
    ((decrypt blob).run s).1 = ((s.self.decryptTask blob).run s.self.replayWindow).1 ∧
      ((decrypt blob).run s).2.self = { s.self with
        replayWindow := ((s.self.decryptTask blob).run s.self.replayWindow).2 } := by
  rw [decrypt_eq]
  unfold decryptTask
  cases s.self.openEnvelope blob with
  | error e => exact ⟨rfl, rfl⟩
  | ok envelope =>
    simp only [Task.run, ReplayWindow.authenticateBody_run, Method.run_zoom,
      ReplayWindow.authenticateAndRecord_run]
    obtain ⟨hout, hself⟩ :=
      s.self.authenticate_local envelope ReplayWindow ⟨s.self.replayWindow, s.log⟩
    cases s.self.replayWindow.checkUnlocked envelope.sequence with
    | error e => exact ⟨rfl, rfl⟩
    | ok n =>
      rw [← hout]
      rcases hrun : (s.self.authenticate envelope).run (⟨s.self.replayWindow, s.log⟩ :
        Frame ReplayWindow Call) with ⟨e | plaintext, t⟩
      · rw [hrun] at hself
        exact ⟨rfl, congrArg (fun window => { s.self with replayWindow := window }) hself⟩
      · rw [hrun] at hself
        exact ⟨rfl, congrArg (fun window : ReplayWindow =>
          { s.self with replayWindow := window.recordUnlocked n }) hself⟩

end SessionState

/-- **Uninterrupted, a call does what its method does.** -/
theorem SessionCall.task_run (session : SessionState) (cells : ∀ k : SessionLock, k.Cell)
    (call : SessionCall) :
    ((call.task session).run (cells call.lock)).1 = (call.serve (session.withCells cells)).1 ∧
      session.withCells (Function.update cells call.lock
        ((call.task session).run (cells call.lock)).2) =
          (call.serve (session.withCells cells)).2 := by
  cases call with
  | encrypt plaintext =>
    obtain ⟨hout, hself⟩ :=
      SessionState.encryptTask_run plaintext ⟨session.withCells cells, []⟩
    exact ⟨hout.symm, hself.symm⟩
  | decrypt blob =>
    obtain ⟨hout, hself⟩ :=
      SessionState.decryptTask_run blob ⟨session.withCells cells, []⟩
    exact ⟨hout.symm, hself.symm⟩

/-! ## Any calls -/

section Calls

variable {ι : Type} (session : SessionState) (calls : ι → SessionCall)

/-- The lock that each call takes. -/
abbrev locks (i : ι) : SessionLock := (calls i).lock

/-- The calls as code under the locks of the session. -/
def tasks (i : ι) : Task (SessionLock.Cell (locks calls i)) (Except PyError Bytes) :=
  (calls i).task session

/-- The calls as methods of the session, one after another. -/
def serveStep (current : SessionState) (i : ι) : Except PyError Bytes × SessionState :=
  (calls i).serve current

/-- The code and the methods do the same, one after another. -/
theorem perform_simulates (order : List ι) :
    outcomes (tasks session calls) session.cells order =
        Machine.trace (serveStep calls) session order ∧
      session.withCells
          (after (tasks session calls) session.cells order) =
        (Machine.run (serveStep calls) session order).2 := by
  have hstep : ∀ cells current i, session.withCells cells = current →
      (perform (tasks session calls) cells i).1 = (serveStep calls current i).1 ∧
        session.withCells (perform (tasks session calls) cells i).2 =
          (serveStep calls current i).2 := by
    rintro cells _ i rfl
    exact SessionCall.task_run session cells (calls i)
  obtain ⟨houts, hend⟩ := Machine.run_simulation
    (R := fun cells current => session.withCells cells = current) hstep
    (rfl : session.withCells session.cells = session) order
  exact ⟨congrArg (List.zip order) houts, hend⟩

variable [DecidableEq ι]

/-- The session and its calls after the steps of a schedule. -/
abbrev scheduled (schedule : List ι) :
    Config SessionLock.Cell (locks calls) (Except PyError Bytes) :=
  (start (tasks session calls) session.cells).run schedule

/-- The calls that share a session do what they do one after another, and none waits forever. -/
structure Linearizes (c : Config SessionLock.Cell (locks calls) (Except PyError Bytes)) : Prop where
  once : c.order.Nodup
  results : ∀ i result, c.status i = .finished result →
    (i, result) ∈ Machine.trace (serveStep calls) session c.order
  session : (∀ k, c.holder k = none) →
    session.withCells c.cells = (Machine.run (serveStep calls) session c.order).2
  /-- A call that has finished comes before every call that starts later. -/
  real_time : ∀ later, c.order <+: (c.run later).order
  ends : ∀ i, ∃ later result, (c.run later).status i = .finished result

/-- **Threads that share a session wait for one another**: whatever their schedule, the calls do
what they do one after another, in an order in which a call that has finished comes before every
call that starts later; and every call can be brought to its end. -/
theorem concurrent_serial (schedule : List ι) :
    Linearizes session calls (scheduled session calls schedule) := by
  have hserial : Serial (tasks session calls) session.cells (scheduled session calls schedule) :=
    serial_run _ _ schedule
  obtain ⟨houtcomes, hafter⟩ :=
    perform_simulates session calls (scheduled session calls schedule).order
  refine ⟨hserial.nodup, fun i result h => ?_, fun hfree => ?_,
    (scheduled session calls schedule).order_run, Config.exists_finished hserial⟩
  · rw [← houtcomes]
    exact hserial.finished i result h
  · rw [← hafter]
    exact congrArg session.withCells (funext fun k => hserial.free k (hfree k))

/-! ## Numbers -/

omit [DecidableEq ι] in
theorem serve_encrypt (current : SessionState) (plaintext : Value) :
    (∃ packet, (SessionCall.serve current (.encrypt plaintext)).1 = .ok packet ∧
      (SessionCall.serve current (.encrypt plaintext)).2 = current.advance ∧
      Carries packet current.sendSequence) ∨
    ∃ e, (SessionCall.serve current (.encrypt plaintext)).1 = .error e ∧
      (SessionCall.serve current (.encrypt plaintext)).2 = current := by
  rcases SessionState.step_counts ⟨current, []⟩ plaintext with
    ⟨packet, hout, hself, hcarries, -⟩ | ⟨e, hout, hself, -⟩
  · exact Or.inl ⟨packet, hout, hself, hcarries⟩
  · exact Or.inr ⟨e, hout, hself⟩

omit [DecidableEq ι] in
theorem serve_decrypt (current : SessionState) (blob : Value) :
    (∃ plaintext envelope n, (SessionCall.serve current (.decrypt blob)).1 = .ok plaintext ∧
      MessageEnvelope.fromBytes blob = .ok envelope ∧ envelope.sequence = .int n ∧
      current.replayWindow.checkUnlocked (.int n) = .ok n ∧
      (SessionCall.serve current (.decrypt blob)).2 = current.accept n) ∨
    ∃ e, (SessionCall.serve current (.decrypt blob)).1 = .error e ∧
      (SessionCall.serve current (.decrypt blob)).2 = current := by
  have hruns := SessionState.decrypt_runs blob ⟨current, []⟩
  unfold SessionCall.serve SessionCall.method
  simp only
  rcases hrun : (SessionState.decrypt blob).run ⟨current, []⟩ with ⟨e | plaintext, t⟩
  · exact Or.inr ⟨e, rfl, (hruns.of_error hrun).1⟩
  · obtain ⟨n, call, hopens, -, rfl⟩ := hruns.of_ok hrun
    exact Or.inl ⟨plaintext, _, n, rfl, hopens.packet, rfl, hopens.fresh, rfl⟩

/-- The packet that a call has returned, if it is one of `encrypt`. -/
def sentPacket : ι × Except PyError Bytes → Option (ι × Bytes)
  | (i, .ok packet) =>
    match calls i with
    | .encrypt _ => some (i, packet)
    | .decrypt _ => none
  | (_, .error _) => none

/-- The packets of the calls, in their order. -/
def sentPackets (order : List ι) : List (ι × Bytes) :=
  (Machine.trace (serveStep calls) session order).filterMap (sentPacket calls)

section Packets

omit [DecidableEq ι]
variable {calls} {i : ι}

omit [Interpreter] [Crypto] in
theorem sentPacket_encrypt {plaintext : Value} (h : calls i = .encrypt plaintext) (packet : Bytes) :
    sentPacket calls (i, .ok packet) = some (i, packet) := by
  simp only [sentPacket, h]

omit [Interpreter] [Crypto] in
theorem sentPacket_decrypt {blob : Value} (h : calls i = .decrypt blob)
    (result : Except PyError Bytes) : sentPacket calls (i, result) = none := by
  cases result <;> simp only [sentPacket, h]

variable (calls)

theorem sentPackets_concat (order : List ι) (i : ι) : sentPackets session calls (order ++ [i]) =
    sentPackets session calls order ++ (sentPacket calls
      (i, (serveStep calls (Machine.run (serveStep calls) session order).2 i).1)).toList := by
  unfold sentPackets
  rw [Machine.trace_concat, List.filterMap_append]
  cases h : sentPacket calls
    (i, (serveStep calls (Machine.run (serveStep calls) session order).2 i).1) <;> simp [h]

/-- The packets are numbered from the counter on. -/
theorem sentPackets_numbered (order : List ι) :
    (Machine.run (serveStep calls) session order).2.sendSequence =
        session.sendSequence + (sentPackets session calls order).length ∧
      ∀ (k : Nat) i packet, (sentPackets session calls order)[k]? = some (i, packet) →
        Carries packet (session.sendSequence + k) := by
  induction order using List.reverseRecOn with
  | nil => exact ⟨(add_zero _).symm, fun k i packet h => by cases h⟩
  | append_singleton order i ih =>
    obtain ⟨hcount, hnumbers⟩ := ih
    rw [Machine.run_concat, sentPackets_concat]
    generalize (Machine.run (serveStep calls) session order).2 = current at hcount ⊢
    have hquiet : (serveStep calls current i).2.sendSequence = current.sendSequence →
        sentPacket calls (i, (serveStep calls current i).1) = none →
        (serveStep calls current i).2.sendSequence = session.sendSequence +
          (sentPackets session calls order ++
            (sentPacket calls (i, (serveStep calls current i).1)).toList).length ∧
        ∀ (k : Nat) j packet, (sentPackets session calls order ++
            (sentPacket calls (i, (serveStep calls current i).1)).toList)[k]? = some (j, packet) →
          Carries packet (session.sendSequence + k) := by
      intro hself hnone
      rw [hself, hnone, Option.toList_none, List.append_nil]
      exact ⟨hcount, hnumbers⟩
    cases hcall : calls i with
    | encrypt plaintext =>
      have hstep : serveStep calls current i = SessionCall.serve current (.encrypt plaintext) :=
        congrArg _ hcall
      rw [hstep] at hquiet ⊢
      rcases serve_encrypt current plaintext with ⟨packet, hout, hself, hcarries⟩ | ⟨e, hout, hself⟩
      · rw [hout, hself, sentPacket_encrypt hcall, Option.toList_some, List.length_append,
          List.length_singleton]
        refine ⟨?_, fun k j other hk => ?_⟩
        · show current.sendSequence + 1 = _
          rw [hcount, Nat.cast_add, Nat.cast_one, add_assoc]
        · rw [List.getElem?_append] at hk
          by_cases hlt : k < (sentPackets session calls order).length
          · rw [if_pos hlt] at hk
            exact hnumbers k j other hk
          · rw [if_neg hlt, List.getElem?_singleton] at hk
            by_cases hzero : k - (sentPackets session calls order).length = 0
            · rw [if_pos hzero] at hk
              obtain ⟨-, rfl⟩ := Prod.mk.inj (Option.some.inj hk)
              rw [show k = (sentPackets session calls order).length by omega, ← hcount]
              exact hcarries
            · rw [if_neg hzero] at hk
              cases hk
      · exact hquiet (congrArg SessionState.sendSequence hself) (by rw [hout]; rfl)
    | decrypt blob =>
      have hstep : serveStep calls current i = SessionCall.serve current (.decrypt blob) :=
        congrArg _ hcall
      rw [hstep] at hquiet ⊢
      refine hquiet ?_ (sentPacket_decrypt hcall _)
      rcases serve_decrypt current blob with ⟨_, _, n, -, -, -, -, hself⟩ | ⟨e, -, hself⟩
      · rw [hself]
        rfl
      · rw [hself]

end Packets

omit [Interpreter] [Crypto] [DecidableEq ι] in
/-- The packets are of different calls. -/
theorem sentPacket_calls (results : List (ι × Except PyError Bytes)) :
    ((results.filterMap (sentPacket calls)).map Prod.fst).Sublist (results.map Prod.fst) := by
  induction results with
  | nil => exact List.Sublist.slnil
  | cons result results ih =>
    obtain ⟨i, outcome⟩ := result
    cases hsent : sentPacket calls (i, outcome) with
    | none =>
      rw [List.filterMap_cons_none hsent]
      exact ih.cons i
    | some sent =>
      have hcall : sent.1 = i := by
        cases outcome with
        | error e => cases hsent
        | ok packet =>
          cases hcall : calls i with
          | encrypt plaintext =>
            rw [sentPacket_encrypt hcall] at hsent
            exact (congrArg Prod.fst (Option.some.inj hsent)).symm
          | decrypt blob =>
            rw [sentPacket_decrypt hcall] at hsent
            cases hsent
      rw [List.filterMap_cons_some hsent, List.map_cons, List.map_cons, hcall]
      exact ih.cons_cons i

/-- The packets that the calls of `encrypt` return are numbered from the counter on, in the order
of the calls, and the counter counts them. -/
structure CountsPackets (c : Config SessionLock.Cell (locks calls) (Except PyError Bytes)) :
    Prop where
  once : ((sentPackets session calls c.order).map Prod.fst).Nodup
  numbered : ∀ (k : Nat) i packet, (sentPackets session calls c.order)[k]? = some (i, packet) →
    Carries packet (session.sendSequence + k)
  returned : ∀ i plaintext packet, calls i = .encrypt plaintext →
    c.status i = .finished (.ok packet) → (i, packet) ∈ sentPackets session calls c.order
  counter : c.holder .send = none →
    c.cells .send = session.sendSequence + (sentPackets session calls c.order).length

/-- **Concurrent calls of `encrypt` never use a number twice and never lose one.** -/
theorem concurrent_counts (schedule : List ι) :
    CountsPackets session calls (scheduled session calls schedule) := by
  have hserial : Serial (tasks session calls) session.cells (scheduled session calls schedule) :=
    serial_run _ _ schedule
  generalize scheduled session calls schedule = c at hserial ⊢
  obtain ⟨houtcomes, hafter⟩ := perform_simulates session calls c.order
  obtain ⟨hcount, hnumbers⟩ := sentPackets_numbered session calls c.order
  refine ⟨?_, hnumbers, fun i plaintext packet hcall hfinished => ?_, fun hfree => ?_⟩
  · have hsub := sentPacket_calls calls (Machine.trace (serveStep calls) session c.order)
    rw [Machine.trace_fst] at hsub
    exact hsub.nodup hserial.nodup
  · refine List.mem_filterMap.mpr ⟨(i, .ok packet), ?_, sentPacket_encrypt hcall packet⟩
    rw [← houtcomes]
    exact hserial.finished i _ hfinished
  · rw [← hcount, ← hafter]
    exact hserial.free _ hfree

/-! ## Replays -/

omit [Interpreter] [Crypto] [DecidableEq ι] in
/-- The window refuses a sequence. -/
def ReplayWindow.Refuses (window : ReplayWindow) (n : Int) : Prop :=
  n ∈ window.seen ∨ n ≤ window.highestSeen - window.windowSize

omit [Interpreter] [Crypto] [DecidableEq ι] in
/-- What a window refuses it refuses for ever. -/
theorem ReplayWindow.Refuses.record {window : ReplayWindow} {n : Int} (m : Int)
    (h : n = m ∨ window.Refuses n) : (window.recordUnlocked m).Refuses n := by
  unfold Refuses
  rw [recordUnlocked_highestSeen, recordUnlocked_seen, recordUnlocked_windowSize,
    Finset.mem_filter, Finset.mem_insert]
  by_cases hfloor : max m window.highestSeen - window.windowSize < n
  · rcases h with rfl | hseen | hstale
    · exact Or.inl ⟨Or.inl rfl, hfloor⟩
    · exact Or.inl ⟨Or.inr hseen, hfloor⟩
    · have := le_max_right m window.highestSeen
      omega
  · exact Or.inr (not_lt.mp hfloor)

/-- The sequence of a packet that a call has opened. -/
def Opened (result : ι × Except PyError Bytes) (n : Int) : Prop :=
  ∃ blob envelope plaintext, calls result.1 = .decrypt blob ∧ result.2 = .ok plaintext ∧
    MessageEnvelope.fromBytes blob = .ok envelope ∧ envelope.sequence = .int n

/-- Not both calls have opened a sequence. -/
def Apart (result result' : ι × Except PyError Bytes) : Prop :=
  ∀ n, Opened calls result n → ¬ Opened calls result' n

instance : Std.Symm (Apart calls) := ⟨fun _ _ h n hy hx => h n hx hy⟩

omit [DecidableEq ι] in
/-- What has been opened is refused, and was not opened before. -/
theorem opened_once (order : List ι) :
    (∀ result ∈ Machine.trace (serveStep calls) session order, ∀ n, Opened calls result n →
      (Machine.run (serveStep calls) session order).2.replayWindow.Refuses n) ∧
    (Machine.trace (serveStep calls) session order).Pairwise (Apart calls) := by
  induction order using List.reverseRecOn with
  | nil => exact ⟨fun _ h => absurd h List.not_mem_nil, List.Pairwise.nil⟩
  | append_singleton order i ih =>
    obtain ⟨hrefused, hpairs⟩ := ih
    rw [Machine.run_concat, Machine.trace_concat, List.pairwise_append]
    generalize (Machine.run (serveStep calls) session order).2 = current at hrefused ⊢
    -- a call that opens nothing
    have hquiet (hnever : ∀ n, ¬ Opened calls (i, (serveStep calls current i).1) n)
        (hwindow : (serveStep calls current i).2.replayWindow = current.replayWindow) :
        (∀ result ∈ Machine.trace (serveStep calls) session order ++
          [(i, (serveStep calls current i).1)], ∀ n, Opened calls result n →
            (serveStep calls current i).2.replayWindow.Refuses n) ∧
        (Machine.trace (serveStep calls) session order).Pairwise (Apart calls) ∧
        [(i, (serveStep calls current i).1)].Pairwise (Apart calls) ∧
        ∀ earlier ∈ Machine.trace (serveStep calls) session order,
          ∀ later ∈ [(i, (serveStep calls current i).1)], Apart calls earlier later := by
      refine ⟨fun result hresult n hopened => ?_, hpairs, List.pairwise_singleton _ _,
        fun earlier _ later hlater n _ => List.mem_singleton.mp hlater ▸ hnever n⟩
      rw [hwindow]
      rcases List.mem_append.mp hresult with hresult | hresult
      · exact hrefused result hresult n hopened
      · rw [List.mem_singleton.mp hresult] at hopened
        exact absurd hopened (hnever n)
    cases hcall : calls i with
    | encrypt plaintext =>
      refine hquiet ?_ ?_
      · rintro n ⟨blob, _, _, hdecrypt, -⟩
        cases hcall.symm.trans hdecrypt
      rw [show serveStep calls current i = SessionCall.serve current (.encrypt plaintext) from
        congrArg _ hcall]
      rcases serve_encrypt current plaintext with ⟨_, -, hself, -⟩ | ⟨_, -, hself⟩
      · rw [hself]
        rfl
      · rw [hself]
    | decrypt blob =>
      have hstep : serveStep calls current i = SessionCall.serve current (.decrypt blob) :=
        congrArg _ hcall
      rcases serve_decrypt current blob with
        ⟨plaintext, envelope, m, -, henvelope, hsequence, hfresh, hself⟩ | ⟨e, hout, hself⟩
      · have hnew : ∀ n, Opened calls (i, (serveStep calls current i).1) n → n = m := by
          rintro n ⟨blob', envelope', _, hcall', -, henvelope', hsequence'⟩
          obtain rfl := SessionCall.decrypt.inj (hcall.symm.trans hcall')
          obtain rfl := Except.ok.inj (henvelope.symm.trans henvelope')
          exact Value.int.inj (hsequence'.symm.trans hsequence)
        obtain ⟨-, -, -, hseen, hfloor⟩ := ReplayWindow.checkUnlocked_ok.mp hfresh
        refine ⟨fun result hresult n hopened => ?_, hpairs, List.pairwise_singleton _ _,
          fun earlier hearlier later hlater n hopened hagain => ?_⟩
        · rw [hstep, hself]
          refine ReplayWindow.Refuses.record m ?_
          rcases List.mem_append.mp hresult with hresult | hresult
          · exact Or.inr (hrefused result hresult n hopened)
          · rw [List.mem_singleton.mp hresult] at hopened
            exact Or.inl (hnew n hopened)
        · rw [List.mem_singleton.mp hlater] at hagain
          obtain rfl := hnew n hagain
          rcases hrefused earlier hearlier n hopened with hmem | hstale
          · exact hseen hmem
          · omega
      · refine hquiet ?_ ?_
        · rintro n ⟨_, _, _, -, hok, -⟩
          rw [hstep, hout] at hok
          cases hok
        · rw [hstep, hself]

/-- **Concurrent calls of `decrypt` open a sequence once**: of calls that were given packets with
one sequence, such as one packet that was delivered many times, at most one returns. -/
theorem concurrent_replays (schedule : List ι) {i j : ι} (hne : i ≠ j) {blob blob' : Value}
    {envelope envelope' : MessageEnvelope} (hi : calls i = .decrypt blob)
    (hj : calls j = .decrypt blob') (hblob : MessageEnvelope.fromBytes blob = .ok envelope)
    (hblob' : MessageEnvelope.fromBytes blob' = .ok envelope')
    (hsequence : envelope.sequence = envelope'.sequence) {plaintext : Bytes}
    (hfinished : (scheduled session calls schedule).status i = .finished (.ok plaintext)) :
    ∀ plaintext', (scheduled session calls schedule).status j ≠ .finished (.ok plaintext') := by
  intro plaintext' hagain
  have hserial : Serial (tasks session calls) session.cells (scheduled session calls schedule) :=
    serial_run _ _ schedule
  obtain ⟨houtcomes, -⟩ := perform_simulates session calls (scheduled session calls schedule).order
  obtain ⟨-, hpairs⟩ := opened_once session calls (scheduled session calls schedule).order
  rw [← houtcomes] at hpairs
  obtain ⟨m, _, _, -, hvalid, -⟩ := toBytes_fromBytes hblob
  obtain ⟨rfl, -, -⟩ := validateComplete_ok.mp hvalid
  refine hpairs.forall (hserial.finished i _ hfinished) (hserial.finished j _ hagain)
    (fun heq => hne (congrArg Prod.fst heq)) m.sequence ?_ ?_
  · exact ⟨blob, _, plaintext, hi, rfl, hblob, rfl⟩
  · exact ⟨blob', envelope', plaintext', hj, rfl, hblob', hsequence.symm⟩

end Calls

end Concurrent

/-! ## A packet that is delivered twice -/

section Samples

open scoped Samples

def sendingSession : SessionState :=
  .new (lit "alice") (lit "bob") .aesGcmSiv (List.replicate 32 1) (List.replicate 32 2)
    (List.replicate 32 3)

def receivingSession : SessionState :=
  .new (lit "bob") (lit "alice") .aesGcmSiv (List.replicate 32 1) (List.replicate 32 3)
    (List.replicate 32 2)

def sharedPacket : Value :=
  .bytes (((SessionCall.serve sendingSession (.encrypt (.bytes [1]))).1.toOption).getD [])

/-- Two calls, whose steps alternate. -/
def alternating : List Bool := (List.range 24).map (· % 2 = 0)

def deliveries (_ : Bool) : SessionCall := .decrypt sharedPacket

/-- What a call has returned. -/
def returned? : Status ReplayWindow (Except PyError Bytes) → Option Bytes
  | .finished (.ok plaintext) => some plaintext
  | _ => none

theorem returned?_eq {status : Status ReplayWindow (Except PyError Bytes)} {plaintext : Bytes}
    (h : returned? status = some plaintext) : status = .finished (.ok plaintext) := by
  unfold returned? at h
  split at h
  · rw [Option.some.inj h]
  · cases h

theorem run_alternating :
    returned? ((scheduled receivingSession deliveries alternating).status true) = some [1] ∧
      (MessageEnvelope.fromBytes sharedPacket).toOption.isSome = true := by
  decide +kernel

/-- One of the two calls has returned, and the other one has not. -/
theorem concurrent_replays_alternating :
    (scheduled receivingSession deliveries alternating).status true = .finished (.ok [1]) ∧
    ∀ plaintext, (scheduled receivingSession deliveries alternating).status false ≠
      .finished (.ok plaintext) := by
  obtain ⟨hreturned, hparsed⟩ := run_alternating
  obtain ⟨envelope, henvelope⟩ := Option.isSome_iff_exists.mp hparsed
  have hblob := toOption_eq_some.mp henvelope
  have hfinished := returned?_eq hreturned
  exact ⟨hfinished, concurrent_replays receivingSession deliveries alternating (by decide) rfl rfl
    hblob hblob rfl hfinished⟩

end Samples

end CypherSyntax
