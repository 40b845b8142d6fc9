import CypherSyntax.Identity.Directory

/-!
# Saves that raise

A caller reads an exception of a save as "not saved". That is so except in one place: the directory
is synced after the destination has been replaced, and a directory that cannot be opened, synced or
closed raises all the same. The file is then the new one.

Results:
* `raised_keeps_iff`: a write, a save of a store and a save of an identity that raise leave the file
  as it was if and only if they do not fail in that place.
* `raised_keeps_not`: a write that raises after it has replaced the file.
-/

namespace CypherSyntax

open Python Json

/-- The destination is replaced by other data, and then the directory is not synced. -/
def Os.LateFailure (os : Os) (previous : Option Bytes) (data : Bytes) : Prop :=
  os.replaces = true ∧ os.syncFails = true ∧ previous ≠ some data

/-- A call that returns leaves the data, and a call that raises leaves the file as it was. -/
def Keeps {α : Type} (previous : Option Bytes) (data : Bytes)
    (run : Except PyError α × Frame Target Call) : Prop :=
  match run.1 with
  | .ok _ => run.2.self.destination = some data
  | .error _ => run.2.self.destination = previous

section Failure

variable {os : Os} {data : Bytes} {previous : Option Bytes} {log : List Call}

/-- A write keeps the file or has replaced it, and which of the two it is. -/
theorem write_keeps_iff : Keeps previous data
    ((atomicWriteBytes os (.bytes data)).run ⟨Target.of previous, log⟩) ↔
      ¬ os.LateFailure previous data := by
  have h : Runs (atomicWriteBytes os (.bytes data))
      (⟨Target.of previous, log⟩ : Frame Target Call) _ _ := atomicWriteBytes_runs data _
  unfold Keeps Os.LateFailure
  rcases hrun : (atomicWriteBytes os (.bytes data)).run
    (⟨Target.of previous, log⟩ : Frame Target Call) with ⟨e | u, t⟩
  · obtain ⟨-, ⟨hreplaces, hsync, hdata⟩ | ⟨hreplaces, hkept⟩⟩ := h.of_error hrun
    · simp only [hdata, hreplaces, hsync, true_and, not_not]
      exact eq_comm
    · exact iff_of_true hkept fun hlate => Bool.false_ne_true (hreplaces.symm.trans hlate.1)
  · obtain ⟨-, -, hsync, hdata⟩ := h.of_ok hrun
    exact iff_of_true hdata fun hlate => Bool.false_ne_true (hsync.symm.trans hlate.2.1)

variable [Interpreter] [Crypto] {store : EncryptedStore} {obj : Value}
  {salt : FixedBytes storeSaltBytes} {nonce : FixedBytes storeNonceBytes}

variable (log) in
/-- A save of a store that raises keeps the file, unless the write of its file fails late. -/
theorem store_keeps_iff :
    (∀ e t, (store.save os obj salt nonce).run ⟨Target.of previous, log⟩ = (.error e, t) →
      t.self.destination = previous) ↔
    ∀ file, store.fileOf obj salt nonce = .ok file → ¬ os.LateFailure previous file := by
  have h := store.save_runs os obj salt nonce ⟨Target.of previous, log⟩
  rcases hrun : (store.save os obj salt nonce).run ⟨Target.of previous, log⟩ with ⟨e | u, t⟩
  · obtain ⟨-, ⟨file, ⟨hfile, hreplaces⟩, hsync, hdata⟩ | ⟨hnone, hkept⟩⟩ := h.of_error hrun
    · constructor
      · intro hkeeps file' hfile' hlate
        obtain rfl := Except.ok.inj (hfile.symm.trans hfile')
        exact hlate.2.2 ((hkeeps e t rfl).symm.trans hdata)
      · intro hcond e' t' h'
        obtain ⟨-, rfl⟩ := Prod.mk.inj h'
        by_contra hne
        exact hcond file hfile ⟨hreplaces, hsync, fun heq => hne (hdata.trans heq.symm)⟩
    · refine iff_of_true (fun e' t' h' => ?_) fun file hfile hlate => hnone file ⟨hfile, hlate.1⟩
      obtain ⟨-, rfl⟩ := Prod.mk.inj h'
      exact hkept
  · obtain ⟨-, file, ⟨hfile, -⟩, hsync, -⟩ := h.of_ok hrun
    refine iff_of_true (fun e t h' => ?_) fun file' _ hlate => ?_
    · cases (Prod.mk.inj h').1
    · exact Bool.false_ne_true (hsync.symm.trans hlate.2.1)

/-- A load looks at the file only. -/
theorem store_load_congr {reader : EncryptedStore} {s t : Frame Target Call}
    (h : s.self.destination = t.self.destination) :
    ((reader.load os).run s).1 = ((reader.load os).run t).1 := by
  by_cases hread : os.raises .read = true
  · rw [EncryptedStore.load_unread (Or.inl hread), EncryptedStore.load_unread (Or.inl hread)]
  · rw [Bool.not_eq_true] at hread
    cases hfile : s.self.destination with
    | none =>
      rw [EncryptedStore.load_unread (Or.inr hfile),
        EncryptedStore.load_unread (Or.inr (h.symm.trans hfile))]
    | some blob =>
      rw [EncryptedStore.load_run hread hfile,
        EncryptedStore.load_run hread (h.symm.trans hfile)]

variable [PrivateBytes] {self : Identity} {files : Files}

/-- A save of an identity that raises keeps the directory, unless the write of its file fails
late. -/
theorem identity_keeps_iff :
    (∀ e t, (self.save os (.bytes store.passphrase) salt nonce).run ⟨files, log⟩ = (.error e, t) →
      t.self = files) ↔
    ∀ file, store.fileOf self.storagePayload salt nonce = .ok file →
      ¬ os.LateFailure (files (Identity.pathOf self.name)) file := by
  rw [← store_keeps_iff log]
  rcases hrun : (store.save os self.storagePayload salt nonce).run
    ⟨Target.of (files (Identity.pathOf self.name)), log⟩ with ⟨e | u, t⟩
  · have hsave := self.save_run (s := ⟨files, log⟩) hrun
    constructor
    · rintro hkeeps _ _ h
      obtain ⟨-, rfl⟩ := Prod.mk.inj h
      have hself : Function.update files (Identity.pathOf self.name) t.self.destination = files :=
        hkeeps _ _ hsave
      rw [← hself, Function.update_self]
    · intro hkeeps e' t' h'
      have hkept : t.self.destination = files (Identity.pathOf self.name) := hkeeps e t rfl
      rw [hsave, hkept, Function.update_eq_self] at h'
      rw [← (Prod.mk.inj h').2]
  · have hsave := self.save_run (s := ⟨files, log⟩) hrun
    refine iff_of_true (fun e t h => ?_) fun e t h => ?_
    · rw [hsave] at h
      cases (Prod.mk.inj h).1
    · cases (Prod.mk.inj h).1

omit [PrivateBytes] in
theorem store_load_ignoresLog (reader : EncryptedStore) : (reader.load os).IgnoresLog := by
  have hread : (readBytes os : Method ErrorClass Target Call Bytes).IgnoresLog :=
    .bind (.lift _) fun _ => .bind .self fun target => by
      cases target.destination with
      | some blob => exact .pure _
      | none => exact .lift _
  have hopen : ∀ key nonce data associatedData,
      (decrypt .aesGcmSiv key nonce data associatedData :
        Method ErrorClass Target Call Bytes).IgnoresLog :=
    fun _ _ _ _ => .bind (.record _) fun _ => .lift _
  exact .bind (.convert hread) fun _ => .bind (.lift _) fun _ => .bind (.lift _) fun _ =>
    .bind (.convert (hopen _ _ _ _)) fun _ => .bind (.lift _) fun _ => .lift _

/-- A load of an identity looks at the files only. -/
theorem identity_load_ignoresLog (name passphrase : Value) :
    (Identity.load name os passphrase).IgnoresLog := by
  unfold Identity.load
  exact .bind (.lift _) fun _ => .bind (.lift _) fun _ => .bind (.lift _) fun _ =>
    .bind (.convert (.bind (.lift _) fun store => .zoom (store_load_ignoresLog store))) fun _ =>
      .lift _

/-- **A call that raises leaves the stored file as it was if and only if it does not fail late**:
for a write, for a save of a store and for a save of an identity. A file that is as it was is
loaded as before. -/
theorem raised_keeps_iff (os : Os) (previous : Option Bytes) (data : Bytes) (log : List Call)
    (store : EncryptedStore) (obj : Value) (salt : FixedBytes storeSaltBytes)
    (nonce : FixedBytes storeNonceBytes) (self : Identity) (files : Files) :
    (Keeps previous data ((atomicWriteBytes os (.bytes data)).run ⟨Target.of previous, log⟩) ↔
      ¬ os.LateFailure previous data) ∧
    ((∀ e t, (store.save os obj salt nonce).run ⟨Target.of previous, log⟩ = (.error e, t) →
      t.self.destination = previous) ↔
      ∀ file, store.fileOf obj salt nonce = .ok file → ¬ os.LateFailure previous file) ∧
    ((∀ e t, (self.save os (.bytes store.passphrase) salt nonce).run ⟨files, log⟩ =
      (.error e, t) → t.self = files) ↔
      ∀ file, store.fileOf self.storagePayload salt nonce = .ok file →
        ¬ os.LateFailure (files (Identity.pathOf self.name)) file) ∧
    (∀ (reader : EncryptedStore) (os' : Os) (t : Frame Target Call),
      t.self.destination = previous →
      ((reader.load os').run t).1 = ((reader.load os').run ⟨Target.of previous, log⟩).1) ∧
    ∀ (name passphrase : Value) (os' : Os) (t : Frame Files Call), t.self = files →
      ((Identity.load name os' passphrase).run t).1 =
        ((Identity.load name os' passphrase).run ⟨files, log⟩).1 := by
  refine ⟨write_keeps_iff, store_keeps_iff log, identity_keeps_iff, fun reader os' t h => ?_,
    fun name passphrase os' t h => ?_⟩
  · exact store_load_congr h
  · obtain ⟨object, calls⟩ := t
    obtain rfl : object = files := h
    exact (identity_load_ignoresLog name passphrase object calls log).1

end Failure

/-! ## A directory that cannot be opened -/

/-- **A write that raises after it has replaced the file.** -/
theorem raised_keeps_not : ∃ e t, (atomicWriteBytes (posixOs [.openDirectory]) (.bytes [2])).run
    (⟨Target.of (some [1]), []⟩ : Frame Target Call) = (.error e, t) ∧
    t.self.destination = some [2] ∧ t.self.destination ≠ some [1] :=
  ⟨_, _, rfl, rfl, by decide⟩

end CypherSyntax
