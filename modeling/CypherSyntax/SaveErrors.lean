import CypherSyntax.Identity.Directory

/-!
# What a save raises

A write converts the `OSError` of its calls to `PersistenceError`, a save of a store converts that
to `StoreError`, and a save of an identity converts that to `IdentityError`. Three things pass
through all three layers.

* The symbolic-link test stands before the `try` statement, and the close of the descriptor in its
  `finally` clause. Their `OSError` is not converted.
* A path that Python cannot encode raises `ValueError`, which no layer catches: `mkdir` does at such
  a directory, and `mkstemp` at such a name.

The conditions are on the calls and the paths, whatever the destination is. Which paths can be
encoded is a parameter (`Os.encodes`).

Results:
* `atomicWriteBytes_raises`, `store_raises`, `identity_raises`: what each layer raises.
* `raised_converted_iff`: only the errors of the layer leave it, if and only if the paths are
  encoded as far as the write gets and neither of the two calls fails.
-/

namespace CypherSyntax

open Python Json

/-- Something that is not converted is raised: the directory or the name of the file is not encoded,
the symbolic-link test fails, or the close of a descriptor that `fdopen` has not taken over. -/
def Os.leaks (os : Os) : Bool :=
  !os.encodes os.parent || !os.fails .mkdir && (!os.encodes os.destination ||
    (os.fails .isSymlink ||
      !os.symlink && !os.fails .mkstemp && os.fails .fdopen && os.fails .close))

def isBuiltin : PyError → Bool
  | .builtin _ _ => true
  | .user _ _ => false

theorem isBuiltin_of_isOsError {e : PyError} (h : isOsError e = true) : isBuiltin e = true := by
  cases e with
  | builtin => rfl
  | user => cases h

/-! ## The descriptor -/

section Write

variable {τ : Type} {os : Os}

theorem isBuiltin_exception (call : OsCall) : isBuiltin (os.exception call) = true := by
  unfold Os.exception
  split <;> rfl

theorem isOsError_exception (call : OsCall) :
    isOsError (os.exception call) = !os.unencoded call := by
  unfold Os.exception
  cases os.unencoded call <;> rfl

/-- A part of the write that keeps the descriptor taken over, and raises `OSError` only. -/
def KeepsClosed (m : Method ErrorClass Target τ Unit) : Prop :=
  ∀ s, s.self.descriptor = false → Runs m s (fun _ t => t.self.descriptor = false)
    fun e t => isOsError e = true ∧ t.self.descriptor = false

namespace KeepsClosed

variable {m m' : Method ErrorClass Target τ Unit}

theorem osCall {call : OsCall} {effect : Target → Target} (hcall : os.unencoded call = false)
    (heffect : ∀ target, (effect target).descriptor = target.descriptor) :
    KeepsClosed (CypherSyntax.osCall os call effect : Method ErrorClass Target τ Unit) := by
  intro s hs
  refine (osCall_runs' hcall effect s).mono ?_ ?_
  · rintro _ _ ⟨-, rfl⟩
    exact (heffect _).trans hs
  · rintro e _ ⟨-, he, rfl⟩
    exact ⟨he, hs⟩

theorem update {f : Target → Target} (hf : ∀ target, (f target).descriptor = target.descriptor) :
    KeepsClosed (Method.update f : Method ErrorClass Target τ Unit) :=
  fun _ hs => .update ((hf _).trans hs)

theorem ignoring {call : OsCall} (hcall : os.unencoded call = false) :
    KeepsClosed (ignoringOsError (CypherSyntax.osCall os call id) :
      Method ErrorClass Target τ Unit) := by
  intro s hs
  refine (ignoringOsError_runs hcall id s).mono ?_ fun _ _ h => h
  rintro _ _ rfl
  rw [id, ite_self]
  exact hs

theorem bind (hm : KeepsClosed m) (hm' : KeepsClosed m') : KeepsClosed (m >>= fun _ => m') :=
  fun s hs => (hm s hs).bind fun _ t ht => hm' t ht

theorem tryFinally (hm : KeepsClosed m) (hm' : KeepsClosed m') :
    KeepsClosed (Method.tryFinally m m') := by
  intro s hs
  refine .tryFinally ((hm s hs).mono (fun _ t ht => hm' t ht) fun e t ht => ?_)
  exact (hm' t ht.2).mono (fun _ _ h => ⟨ht.1, h⟩) fun _ _ h => h

end KeepsClosed

theorem keepsClosed_syncDirectory :
    KeepsClosed (syncDirectory os : Method ErrorClass Target τ Unit) := by
  intro s hs
  refine (syncDirectory_runs s).mono ?_ ?_
  · rintro _ _ ⟨-, rfl⟩
    exact hs
  · rintro e _ ⟨-, he, rfl⟩
    exact ⟨he, hs⟩

theorem keepsClosed_writeHandle (data : Bytes) :
    KeepsClosed (writeHandle os data : Method ErrorClass Target τ Unit) := by
  intro s hs
  refine (writeHandle_runs data s).mono ?_ ?_
  · rintro _ _ ⟨-, rfl⟩
    exact hs
  · rintro e _ ⟨-, he, -, rfl⟩
    exact ⟨he, hs⟩

/-- The body of the write leaves a descriptor behind exactly when `fdopen` fails to take it over,
and raises `OSError` where the name of the file is encoded. -/
theorem writeAndReplace_descriptor (data : Bytes) {s : Frame Target τ}
    (hs : s.self.descriptor = false) : Runs (writeAndReplace os data) s
      (fun _ t => os.unencoded .mkstemp = false ∧ os.fails .fdopen = false ∧
        t.self.descriptor = false)
      fun e t => isBuiltin e = true ∧ isOsError e = !os.unencoded .mkstemp ∧
        t.self.descriptor = (!os.raises .mkstemp && os.fails .fdopen) := by
  unfold writeAndReplace
  refine .bind' (osCall_runs os .mkstemp _ s) (fun _ t ht => ?_) fun e t ht => ?_
  swap
  · obtain ⟨hraises, rfl, rfl⟩ := ht
    exact ⟨isBuiltin_exception _, isOsError_exception _, by rw [hs, hraises]; rfl⟩
  obtain ⟨hmkstemp, rfl⟩ := ht
  have hencoded : os.unencoded .mkstemp = false := Os.encoded hmkstemp (by decide)
  refine .bind (ignoringOsError_runs rfl id _) fun _ t ht => ?_
  rw [id, ite_self] at ht
  subst ht
  refine .bind' (osCall_runs' rfl _ _) (fun _ t ht => ?_) fun e t ht => ?_
  swap
  · obtain ⟨hfail, he, rfl⟩ := ht
    exact ⟨isBuiltin_of_isOsError he, by rw [he, hencoded]; rfl, by rw [hmkstemp, hfail]; rfl⟩
  obtain ⟨hfdopen, rfl⟩ := ht
  have hrest : KeepsClosed (τ := τ) (do
      Method.tryFinally
        (do
          writeHandle os data
          osCall os .flush id
          osCall os .fsync id)
        (osCall os .closeHandle id)
      osCall os .replace fun s => { s with destination := s.temporary, temporary := none }
      Method.update fun s => { s with temporaryPath := false }
      ignoringOsError (osCall os .chmod id)
      syncDirectory os) :=
    .bind (.tryFinally (.bind (keepsClosed_writeHandle data) (.bind (.osCall rfl fun _ => rfl)
      (.osCall rfl fun _ => rfl))) (.osCall rfl fun _ => rfl)) (.bind (.osCall rfl fun _ => rfl)
      (.bind (.update fun _ => rfl) (.bind (.ignoring rfl) keepsClosed_syncDirectory)))
  refine (hrest _ rfl).mono (fun _ t ht => ⟨hencoded, hfdopen, ht⟩) fun e t ht => ?_
  refine ⟨isBuiltin_of_isOsError ht.1, by rw [ht.1, hencoded]; rfl, ?_⟩
  rw [ht.2, hfdopen, Bool.and_false]

variable (os) in
/-- The clean-up raises exactly when it has a descriptor to close and that fails. -/
theorem cleanUp_raises (s : Frame Target τ) : Runs (cleanUp os) s
    (fun _ _ => (s.self.descriptor && os.fails .close) = false)
    fun e _ => isOsError e = true ∧ (s.self.descriptor && os.fails .close) = true := by
  have hunlink : ∀ t : Frame Target τ, Runs (unlinkTemporary os) t
      (fun _ _ => True) fun _ _ => False := fun t =>
    (unlinkTemporary_runs t).mono (fun _ _ _ => trivial) fun _ _ h => h
  unfold cleanUp
  refine .bind_run (Method.run_self s) (.ite (fun hopen => ?_) fun hopen => ?_)
  · rw [hopen, Bool.true_and]
    refine .bind' (osCall_runs' rfl _ s) (fun _ t ⟨hclose, _⟩ => ?_)
      fun e t ⟨hfail, he, _⟩ => ⟨he, hfail⟩
    exact (hunlink t).mono (fun _ _ _ => hclose) fun _ _ h => h.elim
  · rw [Bool.not_eq_true] at hopen
    rw [hopen, Bool.false_and]
    exact (hunlink s).mono (fun _ _ _ => rfl) fun _ _ h => h.elim

/-! ## The three layers -/

/-- A directory that is not encoded passes through, and an `OSError` is converted. -/
theorem mkdir_raises {exc : PyError} (hexc : isPersistenceError exc = true) (s : Frame Target τ) :
    Runs (Method.convert isOsError exc (osCall os .mkdir id)) s
      (fun _ t => os.encodes os.parent = true ∧ os.fails .mkdir = false ∧ t = s)
      fun e _ => if !os.encodes os.parent then isBuiltin e = true
        else os.fails .mkdir = true ∧ isPersistenceError e = true := by
  refine .convert ((osCall_runs os .mkdir id s).mono ?_ ?_)
  · rintro _ _ ⟨hok, rfl⟩
    rw [Os.raises_mkdir, Bool.or_eq_false_iff, Bool.not_eq_false'] at hok
    exact ⟨hok.1, hok.2, rfl⟩
  · rintro _ _ ⟨hraised, rfl, -⟩
    rw [Os.raises_mkdir] at hraised
    rw [isOsError_exception, Os.unencoded]
    cases hparent : os.encodes os.parent with
    | false => exact isBuiltin_exception _
    | true =>
      rw [hparent] at hraised
      exact ⟨hraised, hexc⟩

/-- **What a write raises**: `PersistenceError`, or what it does not convert. -/
theorem atomicWriteBytes_raises (data : Bytes) {s : Frame Target τ}
    (hs : s.self.descriptor = false) : Runs (atomicWriteBytes os (.bytes data)) s
      (fun _ _ => os.leaks = false)
      fun e _ => if os.leaks then isBuiltin e = true else isPersistenceError e = true := by
  unfold atomicWriteBytes Os.leaks
  refine .bind' (mkdir_raises rfl s) (fun _ t ht => ?_) fun e t ht => ?_
  swap
  · cases hparent : os.encodes os.parent with
    | false =>
      rw [hparent] at ht
      exact ht
    | true =>
      rw [hparent] at ht
      rw [ht.1]
      exact ht.2
  obtain ⟨hparent, hmkdir, rfl⟩ := ht
  rw [hparent, hmkdir]
  refine .bind' (isSymlink_runs _) (fun _ t ht => ?_) fun e t ht => ?_
  swap
  · obtain ⟨hraises, he, -⟩ := ht
    rw [Os.raises_isSymlink, Bool.and_eq_true] at hraises
    rw [hraises.1, hraises.2]
    exact isBuiltin_of_isOsError he
  obtain ⟨htest, rfl, rfl⟩ := ht
  rw [Os.raises_isSymlink] at htest
  unfold Os.isLink
  cases hdestination : os.encodes os.destination with
  | false =>
    -- the test answers no, and `mkstemp` cannot name its file
    have hunencoded : os.unencoded .mkstemp = true := by rw [Os.unencoded, hdestination]; rfl
    refine .bind_lift (fun _ _ => ?_) fun e hraise => absurd (raiseIf_error.mp hraise).1 (by simp)
    refine .tryFinally (.convert ((writeAndReplace_descriptor data hs).mono ?_ ?_))
    · rintro _ t ⟨hencoded, -⟩
      cases hunencoded.symm.trans hencoded
    · rintro e t ⟨he, hos, hdescriptor⟩
      rw [hunencoded] at hos
      rw [Os.raises_mkstemp, hdestination] at hdescriptor
      refine (cleanUp_raises os t).mono ?_ ?_
      · rintro _ _ -
        rw [hos]
        exact he
      · rintro _ _ ⟨-, hclean⟩
        rw [hdescriptor] at hclean
        cases hclean
  | true =>
    have hencoded : os.unencoded .mkstemp = false := by rw [Os.unencoded, hdestination]; rfl
    rw [hdestination, Bool.true_and] at htest
    rw [htest]
    refine .bind_lift (fun _ hok => ?_) fun e hraise => ?_
    swap
    · obtain ⟨hsymlink, rfl⟩ := raiseIf_error.mp hraise
      rw [Bool.true_and] at hsymlink
      rw [hsymlink]
      rfl
    have hfile : os.symlink = false := Bool.not_eq_true _ ▸ raiseIf_ok.mp hok
    rw [hfile]
    refine .tryFinally (.convert ((writeAndReplace_descriptor data hs).mono ?_ ?_))
    · rintro _ t ⟨-, hfdopen, hclosed⟩
      rw [hfdopen]
      refine (cleanUp_raises os t).mono (fun _ _ _ => by simp) ?_
      rintro e _ ⟨-, hraised⟩
      rw [hclosed] at hraised
      cases hraised
    · rintro e t ⟨-, hos, hdescriptor⟩
      rw [hencoded] at hos
      rw [Os.raises_mkstemp, hdestination] at hdescriptor
      have hcleanUp := cleanUp_raises os t
      rw [hdescriptor] at hcleanUp
      refine hcleanUp.mono ?_ ?_
      · rintro _ _ hclean
        rw [Bool.not_true, Bool.false_or] at hclean
        rw [hos]
        simp [hclean, persistenceError, isPersistenceError]
      · rintro e' _ ⟨he', hclean⟩
        rw [Bool.not_true, Bool.false_or] at hclean
        simp [hclean, isBuiltin_of_isOsError he']

end Write

/-- A built-in exception is caught by none of the layers. -/
theorem not_caught_of_isBuiltin {e : PyError} (h : isBuiltin e = true) :
    isPersistenceError e = false ∧ isStoreErrorClass e = false ∧ ¬ Identity.IsIdentityError e := by
  cases e with
  | builtin => exact ⟨rfl, rfl, nofun⟩
  | user => cases h

/-- What raises errors of a class, or lets a built-in exception through, raises errors of the class
only if and only if nothing is let through. -/
theorem raises_only_iff {σ α : Type} {m : Method ErrorClass σ Call α} {s : Frame σ Call}
    {os : Os} {P : PyError → Prop} (hP : ∀ e, isBuiltin e = true → ¬ P e)
    (h : Runs m s (fun _ _ => os.leaks = false)
      fun e _ => if os.leaks then isBuiltin e = true else P e) :
    (∀ e t, m.run s = (.error e, t) → P e) ↔ os.leaks = false := by
  rcases hrun : m.run s with ⟨e | a, t⟩
  · have hraised := h.of_error hrun
    constructor
    · intro honly
      by_contra hleaks
      rw [if_pos (Bool.not_eq_false _ ▸ hleaks)] at hraised
      exact hP e hraised (honly e t rfl)
    · rintro hleaks e' t' h'
      obtain ⟨he, -⟩ := Prod.mk.inj h'
      rw [hleaks, if_neg Bool.false_ne_true] at hraised
      exact Except.error.inj he ▸ hraised
  · refine iff_of_true (fun e' t' h' => ?_) (h.of_ok hrun)
    cases (Prod.mk.inj h').1

section Save

variable [Interpreter] [Crypto] {os : Os} {store : EncryptedStore}
  {salt : FixedBytes storeSaltBytes} {nonce : FixedBytes storeNonceBytes}

omit [Crypto] in
/-- The text of a dictionary is not empty. -/
theorem encodeObject_ne_nil {obj : Value} {plaintext : Bytes}
    (h : encodeObject obj = .ok plaintext) : plaintext ≠ [] := by
  rintro rfl
  obtain ⟨items, text, rfl, -, htext, hencode, -⟩ := encodeObject_ok.mp h
  obtain rfl : text = [] := encodeUtf8_inj hencode rfl
  unfold dumps at htext
  obtain ⟨sorted, -, htext⟩ := bind_eq_ok.mp htext
  obtain ⟨texts, -, htext⟩ := bind_eq_ok.mp htext
  cases htext

variable (store salt nonce) in
/-- The AEAD seals every text of a dictionary. -/
theorem seals_of_encodeObject (hscrypt : ∀ passphrase salt,
      (Crypto.scrypt passphrase salt).length = 32) (hseals : EncryptedStore.SealsData)
    {obj : Value} {plaintext : Bytes} (hencode : encodeObject obj = .ok plaintext) :
    ∃ ciphertext, Crypto.encrypt .aesGcmSiv (Crypto.scrypt store.passphrase salt) nonce plaintext
      storeAssociatedData = .ok ciphertext := by
  obtain ⟨-, -, -, -, -, -, hmax⟩ := encodeObject_ok.mp hencode
  refine hseals _ _ _ _ (hscrypt _ _) nonce.property (encodeObject_ne_nil hencode) ?_
  exact lt_of_le_of_lt hmax (by decide)

/-- **What a save of a store raises**: `StoreError`, or what the write does not convert. -/
theorem store_raises {obj : Value} {plaintext ciphertext : Bytes}
    (hencode : encodeObject obj = .ok plaintext)
    (hseal : Crypto.encrypt .aesGcmSiv (Crypto.scrypt store.passphrase salt) nonce plaintext
      storeAssociatedData = .ok ciphertext) {s : Frame Target Call}
    (hs : s.self.descriptor = false) : Runs (store.save os obj salt nonce) s
      (fun _ _ => os.leaks = false)
      fun e _ => if os.leaks then isBuiltin e = true else isStoreErrorClass e = true := by
  have hkey : store.deriveKey salt = .ok (Crypto.scrypt store.passphrase salt) :=
    EncryptedStore.deriveKey_ok.mpr ⟨salt.property, rfl⟩
  have hrun := encrypt_run .aesGcmSiv (Crypto.scrypt store.passphrase salt) nonce.val plaintext
    storeAssociatedData s
  rw [hseal] at hrun
  unfold EncryptedStore.save
  refine .bind_run (Method.lift_ok.mpr ⟨hencode, rfl⟩)
    (.bind_run (Method.lift_ok.mpr ⟨hkey, rfl⟩) (.bind_run hrun (.convert ?_)))
  refine Runs.mono (atomicWriteBytes_raises _ ?_) (fun _ _ h => h) fun e _ he => ?_
  · exact hs
  by_cases hleaks : os.leaks = true
  · rw [if_pos hleaks] at he ⊢
    rw [(not_caught_of_isBuiltin he).1]
    exact he
  · rw [if_neg hleaks] at he ⊢
    rw [he]
    rfl

variable [PrivateBytes]

/-- **What a save of an identity raises**: `IdentityError`, or what the write does not
convert. -/
theorem identity_raises (hscrypt : ∀ passphrase salt,
      (Crypto.scrypt passphrase salt).length = 32) (hseals : EncryptedStore.SealsData)
    (self : Identity) (s : Frame Files Call) :
    Runs (self.save os (.bytes store.passphrase) salt nonce) s (fun _ _ => os.leaks = false)
      fun e _ => if os.leaks then isBuiltin e = true else Identity.IsIdentityError e := by
  obtain ⟨plaintext, hencode, -⟩ := self.encodeObject_storagePayload
  obtain ⟨ciphertext, hseal⟩ := seals_of_encodeObject store salt nonce hscrypt hseals hencode
  have hvalid : validatePassphrase (.bytes store.passphrase) = .ok store.passphrase :=
    validatePassphrase_ok.mpr ⟨rfl, store.passphrase_valid⟩
  unfold Identity.save
  refine .bind_run (Method.lift_ok.mpr ⟨hvalid, rfl⟩)
    (.bind_run (Method.lift_ok.mpr ⟨Identity.storagePath_ok self.name_valid, rfl⟩)
      (.convert (.bind_run
        (Method.lift_ok.mpr ⟨EncryptedStore.new_ok store.passphrase_valid, rfl⟩) (.zoom ?_))))
  refine (store_raises hencode hseal rfl).mono (fun _ _ h => h) fun e _ he => ?_
  by_cases hleaks : os.leaks = true
  · rw [if_pos hleaks] at he ⊢
    rw [(not_caught_of_isBuiltin he).2.1]
    exact he
  · rw [if_neg hleaks] at he ⊢
    rw [he]
    exact Identity.isIdentityError _

/-- **Only `PersistenceError` leaves a write, only `StoreError` a save of a dictionary that is
encoded, and only `IdentityError` a save of an identity, if and only if nothing is raised that a
write does not convert.** -/
theorem raised_converted_iff (hscrypt : ∀ passphrase salt,
      (Crypto.scrypt passphrase salt).length = 32) (hseals : EncryptedStore.SealsData) (os : Os)
    (previous : Option Bytes) (data : Bytes) (log : List Call) (store : EncryptedStore)
    {obj : Value} {plaintext : Bytes} (hencode : encodeObject obj = .ok plaintext)
    (salt : FixedBytes storeSaltBytes) (nonce : FixedBytes storeNonceBytes) (self : Identity)
    (files : Files) :
    ((∀ e t, (atomicWriteBytes os (.bytes data)).run ⟨Target.of previous, log⟩ = (.error e, t) →
      isPersistenceError e = true) ↔ os.leaks = false) ∧
    ((∀ e t, (store.save os obj salt nonce).run ⟨Target.of previous, log⟩ = (.error e, t) →
      isStoreErrorClass e = true) ↔ os.leaks = false) ∧
    ((∀ e t, (self.save os (.bytes store.passphrase) salt nonce).run ⟨files, log⟩ =
      (.error e, t) → Identity.IsIdentityError e) ↔ os.leaks = false) := by
  obtain ⟨ciphertext, hseal⟩ := seals_of_encodeObject store salt nonce hscrypt hseals hencode
  refine ⟨raises_only_iff (fun e he => ?_) (atomicWriteBytes_raises data rfl),
    raises_only_iff (fun e he => ?_) (store_raises hencode hseal rfl),
    raises_only_iff (fun e he => ?_) (identity_raises hscrypt hseals self _)⟩
  · rw [(not_caught_of_isBuiltin he).1]
    exact Bool.false_ne_true
  · rw [(not_caught_of_isBuiltin he).2.1]
    exact Bool.false_ne_true
  · exact (not_caught_of_isBuiltin he).2.2

end Save

/-! ## A test that fails, and a replacement that fails -/

/-- **A write that raises an `OSError`**: the symbolic-link test is outside of the `try`. -/
theorem raised_converted_not : ∃ e t, (atomicWriteBytes (posixOs [.isSymlink]) (.bytes [2])).run
    (⟨Target.of (some [1]), []⟩ : Frame Target Call) = (.error e, t) ∧
    isPersistenceError e = false ∧ isOsError e = true :=
  ⟨_, _, rfl, rfl, rfl⟩

section Samples

open scoped Samples Identity.SampleKeys

theorem valid_grace : validateIdentityName (.str (lit "grace")) = .ok (lit "grace") := by
  decide +kernel

def grace : Identity :=
  ⟨lit "grace", ⟨List.replicate 32 5, List.length_replicate⟩,
    ⟨List.replicate 32 6, List.length_replicate⟩, (validateIdentityName_ok.mp valid_grace).2⟩

/-- A system that the library is given a directory with the name `"\x00"` on. -/
def nulOs : Os := { posixOs [] with parent := [0], destination := 0 :: lit "/state.bin" }

/-- A save whose replacement fails raises `IdentityError`, and one into a directory whose name is
not encoded raises something else. -/
theorem raised_converted_iff_replace :
    (∃ e t, (grace.save (posixOs [.replace]) (.bytes EncryptedStore.sampleStore.passphrase)
      EncryptedStore.sampleSalt EncryptedStore.sampleNonce).run ⟨fun _ => none, []⟩ =
        (.error e, t) ∧ Identity.IsIdentityError e) ∧
    ∃ e t, (grace.save nulOs (.bytes EncryptedStore.sampleStore.passphrase)
      EncryptedStore.sampleSalt EncryptedStore.sampleNonce).run ⟨fun _ => none, []⟩ =
        (.error e, t) ∧ ¬ Identity.IsIdentityError e := by
  have hscrypt : ∀ passphrase salt, (Crypto.scrypt passphrase salt).length = 32 :=
    fun _ _ => digest_length _ _
  have hseals : EncryptedStore.SealsData := fun _ _ _ _ _ _ hne _ =>
    ⟨_, sealed_ok.mpr rfl⟩
  have hencode : encodeObject (.dict []) = .ok (ascii "\x7b\x7d") := by decide +kernel
  have hraised := fun os : Os => raised_converted_iff hscrypt hseals os none [] []
    EncryptedStore.sampleStore hencode EncryptedStore.sampleSalt EncryptedStore.sampleNonce
    grace fun _ => none
  constructor
  · have hleaks : (posixOs [.replace]).leaks = false := by decide
    have hsave : ((grace.save (posixOs [.replace])
      (.bytes EncryptedStore.sampleStore.passphrase) EncryptedStore.sampleSalt
      EncryptedStore.sampleNonce).run ⟨fun _ => none, []⟩).1.toOption = none := by decide +kernel
    rcases hrun : (grace.save (posixOs [.replace]) (.bytes EncryptedStore.sampleStore.passphrase)
      EncryptedStore.sampleSalt EncryptedStore.sampleNonce).run ⟨fun _ => none, []⟩ with ⟨e | _, t⟩
    · exact ⟨e, t, rfl, (hraised _).2.2.mpr hleaks e t hrun⟩
    · rw [hrun] at hsave
      cases hsave
  · have hleaks : nulOs.leaks ≠ false := by decide
    have hraises := mt (hraised nulOs).2.2.mp hleaks
    push Not at hraises
    exact hraises

end Samples

end CypherSyntax
