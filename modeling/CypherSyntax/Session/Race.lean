import CypherSyntax.Session.Completion
import CypherSyntax.Threads.Unlocked

/-!
# Threads that complete one handshake

`complete` takes no lock. It reads the key of the pending handshake at its start and clears it at
its end, and changes nothing else. So a handshake that completes once when its calls follow one
another may complete more than once when they overlap.

Results:
* `Completable.unlocked`: which calls of an object that can be completed once return.
* `handshake_completes_unlocked`: this for both pending handshakes; and all that a responder's
  calls return is one session.
-/

namespace CypherSyntax

open Python Json Threads

/-! ## Pending objects -/

section Pending

variable {σ μ ρ τ κ : Type} {complete : μ → Method ErrorClass σ τ ρ} {completed : σ → Bool}
  {already : PyError} {key : σ → Option κ} {withKey : σ → Option κ → σ}
  {body : σ → μ → Body (Option κ) (Except PyError ρ)}

/-- The calls that share an object return as they do alone, except those that start after one of
them that could return has finished. -/
structure CompletesUnlocked (complete : μ → Method ErrorClass σ τ ρ) (completed : σ → Bool)
    (key : σ → Option κ) (withKey : σ → Option κ → σ)
    (body : σ → μ → Body (Option κ) (Except PyError ρ)) : Prop where
  /-- Uninterrupted, the code does what the method does. -/
  alone : ∀ pending log message,
    ((complete message).run ⟨pending, log⟩).1 = ((body pending message).run (key pending)).1 ∧
    ((complete message).run ⟨pending, log⟩).2.self =
      withKey pending ((body pending message).run (key pending)).2
  returned : ∀ pending, completed pending = false →
    ∀ (ι : Type) [DecidableEq ι] (messages : ι → μ) (schedule : List ι) (i : ι) (result : ρ),
      (Shared.run ⟨key pending, fun j => body pending (messages j)⟩ schedule).code i =
          .done (.ok result) ↔
        freshly complete pending (messages i) = .ok result ∧ 2 ≤ schedule.count i ∧
          ∀ j, rejects complete pending (messages j) = false → (before schedule i).count j < 2

theorem isOk_freshly (complete : μ → Method ErrorClass σ τ ρ) (pending : σ) (message : μ) :
    (freshly complete pending message).isOk = true ↔
      rejects complete pending message = false := by
  unfold rejects
  cases freshly complete pending message <;> simp [Except.isOk, Except.toBool]

/-- **What an object does whose calls take no lock**: its code reads the key, and clears it. -/
theorem Completable.unlocked (h : Completable complete completed already)
    (hkey : ∀ pending, withKey pending (key pending) = pending)
    (hcompleted : ∀ pending, completed (withKey pending none) = true)
    (hclears : ∀ message s a t, (complete message).run s = (.ok a, t) →
      t.self = withKey s.self none)
    (hbody : ∀ pending message, body pending message =
      attempt none fun key => freshly complete (withKey pending key) message) :
    CompletesUnlocked complete completed key withKey body where
  alone pending log message := by
    rw [hbody, attempt_run, hkey]
    obtain ⟨hout, -⟩ := h.ignoresLog message pending log []
    rcases hrun : (complete message).run ⟨pending, log⟩ with ⟨r, t⟩
    rw [hrun] at hout
    have hfresh : freshly complete pending message = r := hout.symm
    rw [hfresh]
    cases r with
    | error e =>
      refine ⟨rfl, (h.rejected message _ e t hrun).trans ?_⟩
      exact (hkey pending).symm
    | ok a => exact ⟨rfl, hclears message _ a t hrun⟩
  returned := by
    intro pending _ ι _ messages schedule i result
    have hspent : ∀ j, (freshly complete (withKey pending none) (messages j)).isOk = false := by
      intro j
      unfold freshly
      rw [h.spent _ _ (hcompleted pending)]
      rfl
    simp only [hbody]
    rw [returned_iff hspent, hkey]
    refine and_congr_right fun _ => and_congr_right fun _ => ?_
    unfold Spent
    simp only [hkey, isOk_freshly, not_exists, not_and, not_le]

end Pending

/-! ## Both handshakes -/

section Handshakes

variable [Interpreter] [Crypto]

namespace InitiatorHandshake

def withKey (self : InitiatorHandshake) (key : Option Crypto.ExchangeKey) : InitiatorHandshake :=
  { self with ephemeralPrivateKey := key }

/-- `complete`, cut into its accesses of `_ephemeral_private_key`. -/
def completeBody (self : InitiatorHandshake) (response : HandshakeResponse) :
    Body (Option Crypto.ExchangeKey) (Except PyError (HandshakeConfirmation × SessionState)) :=
  .read fun key =>
  match key with
  | none => .done (.error (.builtin .runtimeError
      (lit "initiator handshake has already been completed")))
  | some privateKey =>
    match (((self.withKey key).completeWith privateKey response).run ⟨self.withKey key, []⟩).1 with
    | .error e => .done (.error e)
    | .ok result => .modify (fun _ => none) (.done (.ok result))

theorem completeBody_eq (self : InitiatorHandshake) (response : HandshakeResponse) :
    self.completeBody response =
      attempt none fun key => freshly complete (self.withKey key) response := by
  unfold completeBody attempt
  congr 1
  funext key
  cases key with
  | none => rfl
  | some privateKey =>
    show (match freshly complete (self.withKey (some privateKey)) response with
      | .error e => Body.done (.error e)
      | .ok result => .modify (fun _ => none) (.done (.ok result))) =
        settle none (freshly complete (self.withKey (some privateKey)) response)
    cases freshly complete (self.withKey (some privateKey)) response <;> rfl

theorem unlocked : CompletesUnlocked complete completed ephemeralPrivateKey withKey completeBody :=
  completable.unlocked (fun _ => rfl) (fun _ => rfl)
    (fun response s _ _ hrun => by
      obtain ⟨_, _, _, -, -, -, -, rfl⟩ := (complete_runs response s).of_ok hrun
      rfl)
    completeBody_eq

end InitiatorHandshake

namespace ResponderHandshake

def withKey (self : ResponderHandshake) (key : Option Bytes) : ResponderHandshake :=
  { self with rootKey := key }

/-- `complete`, cut into its accesses of `_root_key`. -/
def completeBody (self : ResponderHandshake) (confirmation : HandshakeConfirmation) :
    Body (Option Bytes) (Except PyError SessionState) :=
  .read fun key =>
  match key with
  | none => .done (.error (.builtin .runtimeError
      (lit "responder handshake has already been completed")))
  | some rootKey =>
    match (((self.withKey key).completeWith rootKey confirmation).run ⟨self.withKey key, []⟩).1 with
    | .error e => .done (.error e)
    | .ok session => .modify (fun _ => none) (.done (.ok session))

theorem completeBody_eq (self : ResponderHandshake) (confirmation : HandshakeConfirmation) :
    self.completeBody confirmation =
      attempt none fun key => freshly complete (self.withKey key) confirmation := by
  unfold completeBody attempt
  congr 1
  funext key
  cases key with
  | none => rfl
  | some rootKey =>
    show (match freshly complete (self.withKey (some rootKey)) confirmation with
      | .error e => Body.done (.error e)
      | .ok session => .modify (fun _ => none) (.done (.ok session))) =
        settle none (freshly complete (self.withKey (some rootKey)) confirmation)
    cases freshly complete (self.withKey (some rootKey)) confirmation <;> rfl

theorem unlocked : CompletesUnlocked complete completed rootKey withKey completeBody :=
  completable.unlocked (fun _ => rfl) (fun _ => rfl)
    (fun confirmation s _ _ hrun => by
      obtain ⟨_, -, -, -, rfl⟩ := (complete_runs confirmation s).of_ok hrun
      rfl)
    completeBody_eq

/-- Whatever confirmation it accepts, a responder returns one session. -/
theorem freshly_unique {pending : ResponderHandshake}
    {confirmation confirmation' : HandshakeConfirmation} {session session' : SessionState}
    (h : freshly complete pending confirmation = .ok session)
    (h' : freshly complete pending confirmation' = .ok session') :
    session = session' ∧ session.sendSequence = 0 := by
  have hsession : ∀ {confirmation : HandshakeConfirmation} {session : SessionState},
      freshly complete pending confirmation = .ok session →
        ∃ rootKey, pending.rootKey = some rootKey ∧ session = pending.session rootKey := by
    intro confirmation session h
    rcases hrun : (complete confirmation).run ⟨pending, []⟩ with ⟨r, t⟩
    obtain rfl : r = .ok session := (congrArg Prod.fst hrun).symm.trans h
    obtain ⟨rootKey, hroot, -, hsession, -⟩ :=
      (complete_runs confirmation ⟨pending, []⟩).of_ok hrun
    exact ⟨rootKey, hroot, hsession⟩
  obtain ⟨rootKey, hroot, rfl⟩ := hsession h
  obtain ⟨rootKey', hroot', rfl⟩ := hsession h'
  obtain rfl := Option.some.inj (hroot.symm.trans hroot')
  exact ⟨rfl, rfl⟩

end ResponderHandshake

/-- **Threads that complete one handshake**: a call returns if it would return alone and no call
that would had finished when it started, so calls that overlap may all return. All that the calls
of a responder return is one session, with its counter at its start. -/
theorem handshake_completes_unlocked :
    CompletesUnlocked InitiatorHandshake.complete InitiatorHandshake.completed
      InitiatorHandshake.ephemeralPrivateKey InitiatorHandshake.withKey
      InitiatorHandshake.completeBody ∧
    CompletesUnlocked ResponderHandshake.complete ResponderHandshake.completed
      ResponderHandshake.rootKey ResponderHandshake.withKey ResponderHandshake.completeBody ∧
    ∀ (ι : Type) [DecidableEq ι] (pending : ResponderHandshake)
      (confirmations : ι → HandshakeConfirmation) (schedule : List ι) (i j : ι)
      (session session' : SessionState), pending.completed = false →
      (Shared.run ⟨pending.rootKey, fun k => pending.completeBody (confirmations k)⟩
        schedule).code i = .done (.ok session) →
      (Shared.run ⟨pending.rootKey, fun k => pending.completeBody (confirmations k)⟩
        schedule).code j = .done (.ok session') →
      session = session' ∧ session.sendSequence = 0 := by
  refine ⟨InitiatorHandshake.unlocked, ResponderHandshake.unlocked, ?_⟩
  intro ι _ pending confirmations schedule i j session session' hpending hi hj
  have hreturned := ResponderHandshake.unlocked.returned pending hpending ι confirmations schedule
  obtain ⟨hsession, -⟩ := (hreturned i session).mp hi
  obtain ⟨hsession', -⟩ := (hreturned j session').mp hj
  exact ResponderHandshake.freshly_unique hsession hsession'

end Handshakes

end CypherSyntax
