import CypherSyntax.Protocol

/-!
# Durable local files

`src/cyphersyntax/persistence.py`: `validate_passphrase`, `_sync_directory` and
`atomic_write_bytes`, call by call and in the order of the source.

* A write works on its destination and its temporary file (`Target`), and on the two local
  variables its clean-up looks at. The name that `mkstemp` chooses and the mode of the file are left
  out: no branch depends on them.
* `Os` is a parameter: which calls raise `OSError`, and which paths Python can encode. A path with
  a NUL, or on POSIX with a surrogate that stands for no byte, raises `ValueError` (of which
  `UnicodeEncodeError` is one) before the operating system is reached.
* `os.replace` has its effect or none. A failing write through the handle may leave part of the data
  in the temporary file.
* Out of scope: other writers and crashes (`Persistence/Steps.lean`), `MemoryError`, and directories
  as objects.

Results:
* `validatePassphrase_ok`: the passphrases that are accepted.
* `atomicWriteBytes_ok`: a write that returns leaves exactly its data at the destination, whatever
  calls have failed.
* `atomicWriteBytes_run`: a write that no call fails returns.
-/

namespace CypherSyntax

open Python

/-! ## Passphrases -/

def minPassphraseBytes : Nat := 16

def maxPassphraseBytes : Nat := 1024

def validatePassphrase : Value → Except PyError Bytes
  | .bytes passphrase => do
    raiseIf (passphrase.length < minPassphraseBytes)
      (.builtin .valueError (lit "passphrase must contain at least " ++
        natText minPassphraseBytes ++ lit " bytes"))
    raiseIf (maxPassphraseBytes < passphrase.length)
      (.builtin .valueError (lit "passphrase must contain at most " ++
        natText maxPassphraseBytes ++ lit " bytes"))
    return passphrase
  | _ => .error (typeError "passphrase must be bytes")

theorem validatePassphrase_ok {value : Value} {passphrase : Bytes} :
    validatePassphrase value = .ok passphrase ↔ value = .bytes passphrase ∧
      minPassphraseBytes ≤ passphrase.length ∧ passphrase.length ≤ maxPassphraseBytes := by
  unfold validatePassphrase
  split
  · simp only [bind_eq_ok, raiseIf_ok, pure_eq_ok, not_lt]
    constructor
    · rintro ⟨-, hlo, -, hhi, rfl⟩
      exact ⟨rfl, hlo, hhi⟩
    · rintro ⟨h, hlo, hhi⟩
      cases h
      exact ⟨(), hlo, (), hhi, rfl⟩
  · rename_i hne
    constructor
    · intro h
      cases h
    · rintro ⟨rfl, -⟩
      exact absurd rfl (hne passphrase)

/-! ## The operating system -/

/-- The calls of the operating system that a write and a read make. -/
inductive OsCall where
  | mkdir | isSymlink | mkstemp | fchmod | fdopen | write | flush | fsync | closeHandle | replace
  | chmod | openDirectory | fsyncDirectory | closeDirectory | close | unlink | read
  deriving DecidableEq

/-- What the operating system does at a path. -/
structure Os where
  /-- The calls that raise `OSError`. -/
  fails : OsCall → Bool
  /-- `os.name == "nt"` -/
  windows : Bool
  /-- Whether the destination is a symbolic link. -/
  symlink : Bool
  /-- How many bytes a failing write has written. -/
  written : Nat
  /-- The paths that Python encodes for the operating system. -/
  encodes : Str → Bool
  destination : Str
  parent : Str

namespace Os

/-- A call that is the first one to be given its path, where that path is not encoded. `mkstemp`
names a file after the destination, in a directory that `mkdir` has been given. -/
def unencoded (os : Os) : OsCall → Bool
  | .mkdir => !os.encodes os.parent
  | .isSymlink | .mkstemp | .read => !os.encodes os.destination
  | _ => false

/-- Whether a call raises. The symbolic-link test answers no at a path that is not encoded. -/
def raises (os : Os) (call : OsCall) : Bool :=
  if os.unencoded call then call != .isSymlink else os.fails call

theorem raises_mkdir (os : Os) :
    os.raises .mkdir = (!os.encodes os.parent || os.fails .mkdir) := by
  cases h : os.encodes os.parent <;> simp [raises, unencoded, h]

theorem raises_isSymlink (os : Os) :
    os.raises .isSymlink = (os.encodes os.destination && os.fails .isSymlink) := by
  cases h : os.encodes os.destination <;> simp [raises, unencoded, h]

theorem raises_mkstemp (os : Os) :
    os.raises .mkstemp = (!os.encodes os.destination || os.fails .mkstemp) := by
  cases h : os.encodes os.destination <;> simp [raises, unencoded, h]

/-- A call that does not raise has its path encoded. -/
theorem encoded {os : Os} {call : OsCall} (h : os.raises call = false) (hcall : call ≠ .isSymlink) :
    os.unencoded call = false := by
  unfold raises at h
  cases hunencoded : os.unencoded call with
  | false => rfl
  | true =>
    rw [hunencoded, if_pos rfl, bne_eq_false_iff_eq] at h
    exact absurd h hcall

/-- What a call raises. -/
def exception (os : Os) (call : OsCall) : PyError :=
  if os.unencoded call then .builtin .valueError [] else .builtin .osError []

/-- What the symbolic-link test answers. -/
def isLink (os : Os) : Bool := os.encodes os.destination && os.symlink

/-- No call fails, the paths are encoded, and the destination is no symbolic link. -/
structure Quiet (os : Os) : Prop where
  fails : ∀ call, os.fails call = false
  parent : os.encodes os.parent = true
  destination : os.encodes os.destination = true
  symlink : os.symlink = false

theorem Quiet.raises {os : Os} (h : os.Quiet) (call : OsCall) : os.raises call = false := by
  cases call <;> simp [Os.raises, unencoded, h.fails, h.parent, h.destination]

theorem Quiet.isLink {os : Os} (h : os.Quiet) : os.isLink = false := by
  rw [Os.isLink, h.symlink, Bool.and_false]

end Os

/-- `os.fsencode` on a POSIX system with UTF-8 names, where some surrogates stand for bytes, and
the check for a NUL. -/
def encodesPosix (path : Str) : Bool :=
  path.all fun c => c.val != 0 && (!isSurrogate c || (0xDC80 ≤ c.val && c.val ≤ 0xDCFF))

/-- A POSIX system on which some calls fail, at a file of the working directory. -/
def posixOs (failing : List OsCall) : Os :=
  ⟨failing.contains, false, false, 0, encodesPosix, lit "state.bin", lit "."⟩

theorem posixOs_quiet : (posixOs []).Quiet where
  fails _ := rfl
  parent := by decide
  destination := by decide
  symlink := rfl

/-- The files of a write, and its local variables. -/
structure Target where
  destination : Option Bytes
  temporary : Option Bytes
  /-- `descriptor >= 0` -/
  descriptor : Bool
  /-- `temporary_path is not None` -/
  temporaryPath : Bool

/-- Files before any write has started. -/
def Target.of (destination : Option Bytes) : Target := ⟨destination, none, false, false⟩

section Write

variable {τ : Type} (os : Os)

def persistenceError (message : Str) : PyError := .user .persistenceError message

/-- One call, with its effect when it does not raise. -/
def osCall (call : OsCall) (effect : Target → Target) : Method ErrorClass Target τ Unit := do
  raiseIf (os.raises call) (os.exception call)
  Method.update effect

/-- `destination.is_symlink()` -/
def isSymlink : Method ErrorClass Target τ Bool := do
  osCall os .isSymlink id
  return os.isLink

/-- `except OSError: pass` -/
def ignoringOsError (m : Method ErrorClass Target τ Unit) : Method ErrorClass Target τ Unit :=
  Method.tryExcept m fun
    | .builtin .osError _ => pure ()
    | e => liftM (Except.error e : Except PyError Unit)

def isOsError : PyError → Bool
  | .builtin .osError _ => true
  | _ => false

/-- `_sync_directory` -/
def syncDirectory : Method ErrorClass Target τ Unit := do
  if os.windows then return
  osCall os .openDirectory id
  Method.tryFinally (osCall os .fsyncDirectory id) (osCall os .closeDirectory id)

/-- `handle.write(data)`: a failing write may have written part of the data. -/
def writeHandle (data : Bytes) : Method ErrorClass Target τ Unit := do
  if os.fails .write then
    Method.update fun s => { s with temporary := some (data.take os.written) }
  osCall os .write fun s => { s with temporary := some data }

/-- The body of the `try` statement of `atomic_write_bytes`. -/
def writeAndReplace (data : Bytes) : Method ErrorClass Target τ Unit := do
  osCall os .mkstemp fun s =>
    { s with temporary := some [], descriptor := true, temporaryPath := true }
  ignoringOsError (osCall os .fchmod id)
  osCall os .fdopen fun s => { s with descriptor := false }
  Method.tryFinally
    (do
      writeHandle os data
      osCall os .flush id
      osCall os .fsync id)
    (osCall os .closeHandle id)
  osCall os .replace fun s => { s with destination := s.temporary, temporary := none }
  Method.update fun s => { s with temporaryPath := false }
  ignoringOsError (osCall os .chmod id)
  syncDirectory os

/-- `if temporary_path is not None: ...` in the clean-up. -/
def unlinkTemporary : Method ErrorClass Target τ Unit := do
  if (← Method.self).temporaryPath then
    ignoringOsError (osCall os .unlink fun s => { s with temporary := none })

/-- The `finally` clause of `atomic_write_bytes`. -/
def cleanUp : Method ErrorClass Target τ Unit := do
  if (← Method.self).descriptor then
    osCall os .close fun s => { s with descriptor := false }
  unlinkTemporary os

def atomicWriteBytes : Value → Method ErrorClass Target τ Unit
  | .bytes data => do
    Method.convert isOsError
      (persistenceError (lit "failed to create persistence directory: " ++ os.parent))
      (osCall os .mkdir id)
    raiseIf (← isSymlink os)
      (persistenceError (lit "refusing to replace a symbolic-link destination"))
    Method.tryFinally
      (Method.convert isOsError
        (persistenceError (lit "failed to atomically write persistence file: " ++ os.destination))
        (writeAndReplace os data))
      (cleanUp os)
  | _ => liftM (Except.error (typeError "atomic write data must be bytes") : Except PyError Unit)

/-! ## A write that returns -/

variable {os}

theorem osCall_ok {call : OsCall} {effect : Target → Target} {u : Unit} {s t : Frame Target τ} :
    (osCall os call effect).run s = (.ok u, t) ↔
      os.raises call = false ∧ t = ⟨effect s.self, s.log⟩ := by
  unfold osCall
  rw [Method.bind_ok]
  simp only [Method.lift_ok, raiseIf_ok, Method.update_ok, Bool.not_eq_true]
  constructor
  · rintro ⟨-, u, ⟨h, rfl⟩, rfl⟩
    exact ⟨h, rfl⟩
  · rintro ⟨h, rfl⟩
    exact ⟨(), s, ⟨h, rfl⟩, rfl⟩

theorem osCall_error {call : OsCall} {effect : Target → Target} (h : os.raises call = true)
    (s : Frame Target τ) : (osCall os call effect).run s = (.error (os.exception call), s) :=
  Method.run_bind_error (Method.lift_error.mpr ⟨raiseIf_error.mpr ⟨h, rfl⟩, rfl⟩)

theorem isSymlink_ok {b : Bool} {s t : Frame Target τ} :
    (isSymlink os).run s = (.ok b, t) ↔
      os.raises .isSymlink = false ∧ os.isLink = b ∧ t = s := by
  unfold isSymlink
  rw [Method.bind_ok]
  simp only [osCall_ok, Method.pure_ok, id]
  constructor
  · rintro ⟨-, _, ⟨h, rfl⟩, rfl, rfl⟩
    exact ⟨h, rfl, rfl⟩
  · rintro ⟨h, rfl, rfl⟩
    exact ⟨(), t, ⟨h, rfl⟩, rfl, rfl⟩

/-- A call that is given no path of its own raises `OSError` when it fails. -/
theorem raises_of_encoded {call : OsCall} (h : os.unencoded call = false) :
    os.raises call = os.fails call ∧ os.exception call = .builtin .osError [] := by
  unfold Os.raises Os.exception
  rw [h]
  exact ⟨rfl, rfl⟩

/-- A call whose failure is ignored returns, with its effect or without. -/
theorem ignoringOsError_run {call : OsCall} {effect : Target → Target}
    (hcall : os.unencoded call = false) (s : Frame Target τ) :
    (ignoringOsError (osCall os call effect)).run s =
      (.ok (), ⟨if os.fails call then s.self else effect s.self, s.log⟩) := by
  obtain ⟨hraises, hexception⟩ := raises_of_encoded hcall
  unfold ignoringOsError Method.tryExcept
  by_cases h : os.fails call = true
  · rw [if_pos h]
    simp only [osCall_error (hraises.trans h), hexception]
    rfl
  · rw [if_neg h]
    have hok : os.raises call = false := hraises.trans (Bool.not_eq_true _ ▸ h)
    have hrun : (osCall os call effect).run s = (.ok (), ⟨effect s.self, s.log⟩) :=
      osCall_ok.mpr ⟨hok, rfl⟩
    simp only [hrun]

theorem syncDirectory_ok {u : Unit} {s t : Frame Target τ}
    (h : (syncDirectory os).run s = (.ok u, t)) : t = s := by
  unfold syncDirectory at h
  split at h
  · exact (Method.pure_ok.mp h).2.symm
  · simp only [Method.bind_ok, Method.tryFinally_ok, osCall_ok, id] at h
    obtain ⟨-, v, ⟨-, rfl⟩, w, ⟨-, rfl⟩, -, rfl⟩ := h
    rfl

theorem writeHandle_ok {data : Bytes} {u : Unit} {s t : Frame Target τ}
    (h : (writeHandle os data).run s = (.ok u, t)) :
    t = ⟨{ s.self with temporary := some data }, s.log⟩ := by
  unfold writeHandle at h
  split at h
  · rename_i hfail
    simp only [Method.bind_ok, osCall_ok] at h
    obtain ⟨-, -, -, hok, -⟩ := h
    cases hfail.symm.trans ((raises_of_encoded rfl).1.symm.trans hok)
  · exact (osCall_ok.mp h).2

/-- The data is in the temporary file before it replaces the destination. -/
theorem writeAndReplace_ok {data : Bytes} {u : Unit} {s t : Frame Target τ}
    (h : (writeAndReplace os data).run s = (.ok u, t)) :
    t.self.destination = some data ∧ t.log = s.log := by
  unfold writeAndReplace at h
  simp only [Method.bind_ok, osCall_ok, Method.tryFinally_ok, Method.update_ok] at h
  obtain ⟨-, s₁, ⟨-, rfl⟩, _, s₂, h₂, -, s₃, ⟨-, rfl⟩, -, s₄,
    ⟨s₅, ⟨_, s₆, hw, -, s₇, ⟨-, rfl⟩, -, rfl⟩, -, rfl⟩, -, s₈, ⟨-, rfl⟩, -, s₉, rfl, _, s₁₀,
    h₁₀, hsync⟩ := h
  rw [ignoringOsError_run rfl] at h₂ h₁₀
  simp only [id, ite_self] at h₂ h₁₀
  obtain rfl := (Prod.mk.inj h₂).2
  obtain rfl := (Prod.mk.inj h₁₀).2
  obtain rfl := writeHandle_ok hw
  rw [syncDirectory_ok hsync]
  exact ⟨rfl, rfl⟩

theorem unlinkTemporary_ok {u : Unit} {s t : Frame Target τ}
    (h : (unlinkTemporary os).run s = (.ok u, t)) :
    t.self.destination = s.self.destination ∧ t.log = s.log := by
  unfold unlinkTemporary at h
  rw [Method.run_bind_ok (Method.run_self s)] at h
  by_cases hpath : s.self.temporaryPath = true
  · rw [if_pos hpath, ignoringOsError_run rfl] at h
    obtain rfl := (Prod.mk.inj h).2
    split <;> exact ⟨rfl, rfl⟩
  · rw [if_neg hpath] at h
    obtain rfl := (Method.pure_ok.mp h).2
    exact ⟨rfl, rfl⟩

theorem cleanUp_ok {u : Unit} {s t : Frame Target τ} (h : (cleanUp os).run s = (.ok u, t)) :
    t.self.destination = s.self.destination ∧ t.log = s.log := by
  unfold cleanUp at h
  rw [Method.run_bind_ok (Method.run_self s)] at h
  by_cases hopen : s.self.descriptor = true
  · rw [if_pos hopen] at h
    obtain ⟨_, v, hclose, hrest⟩ := Method.bind_ok.mp h
    obtain ⟨-, rfl⟩ := osCall_ok.mp hclose
    obtain ⟨hkeep, hlog⟩ := unlinkTemporary_ok hrest
    exact ⟨hkeep, hlog⟩
  · rw [if_neg hopen] at h
    exact unlinkTemporary_ok h

/-- **A write that returns has left its data at the destination.** -/
theorem atomicWriteBytes_ok {data : Value} {u : Unit} {s t : Frame Target τ}
    (h : (atomicWriteBytes os data).run s = (.ok u, t)) :
    ∃ written, data = .bytes written ∧ t.self.destination = some written ∧ t.log = s.log := by
  cases data with
  | bytes written =>
    obtain ⟨_, s₁, hmkdir, h⟩ := Method.bind_ok.mp h
    obtain ⟨-, rfl⟩ := osCall_ok.mp (Method.convert_ok.mp hmkdir)
    obtain ⟨_, s₂, hsymlink, h⟩ := Method.bind_ok.mp h
    obtain ⟨-, -, rfl⟩ := isSymlink_ok.mp hsymlink
    obtain ⟨_, s₃, hraise, h⟩ := Method.bind_ok.mp h
    obtain ⟨-, rfl⟩ := Method.lift_ok.mp hraise
    obtain ⟨s₄, hwrite, hclean⟩ := Method.tryFinally_ok.mp h
    obtain ⟨hdata, hlog⟩ := writeAndReplace_ok (Method.convert_ok.mp hwrite)
    obtain ⟨hkeep, hlog'⟩ := cleanUp_ok hclean
    exact ⟨written, rfl, hkeep.trans hdata, hlog'.trans hlog⟩
  | _ => cases (Method.lift_ok.mp h).1

/-! ## A write that nothing fails -/

/-- A call that does not raise has its effect. -/
theorem osCall_run {call : OsCall} {effect : Target → Target} (h : os.raises call = false)
    (s : Frame Target τ) : (osCall os call effect).run s = (.ok (), ⟨effect s.self, s.log⟩) :=
  osCall_ok.mpr ⟨h, rfl⟩

theorem syncDirectory_run (h : os.Quiet) (s : Frame Target τ) :
    (syncDirectory os).run s = (.ok (), s) := by
  unfold syncDirectory
  by_cases hw : os.windows = true
  · rw [if_pos hw]
    rfl
  · rw [if_neg hw, Method.run_bind_ok (osCall_run (h.raises _) s)]
    exact Method.tryFinally_ok.mpr ⟨_, osCall_run (h.raises _) _, osCall_run (h.raises _) _⟩

theorem writeAndReplace_run (h : os.Quiet) (data : Bytes) (s : Frame Target τ) :
    (writeAndReplace os data).run s = (.ok (), ⟨⟨some data, none, false, false⟩, s.log⟩) := by
  have hwrite : ∀ u : Frame Target τ, (writeHandle os data).run u =
      (.ok (), ⟨{ u.self with temporary := some data }, u.log⟩) := by
    intro u
    unfold writeHandle
    rw [h.fails .write, if_neg Bool.false_ne_true]
    exact osCall_run (h.raises _) u
  unfold writeAndReplace
  rw [Method.run_bind_ok (osCall_run (h.raises _) _),
    Method.run_bind_ok (ignoringOsError_run rfl _), Method.run_bind_ok (osCall_run (h.raises _) _),
    Method.run_bind_ok (Method.tryFinally_ok.mpr ⟨_, (Method.run_bind_ok (hwrite _)).trans
      ((Method.run_bind_ok (osCall_run (h.raises _) _)).trans (osCall_run (h.raises _) _)),
      osCall_run (h.raises _) _⟩),
    Method.run_bind_ok (osCall_run (h.raises _) _), Method.run_bind_ok (Method.run_update _ _),
    Method.run_bind_ok (ignoringOsError_run rfl _), syncDirectory_run h]
  simp only [h.fails, id, Bool.false_eq_true, if_false]

/-- **A write that no call fails returns.** -/
theorem atomicWriteBytes_run (h : os.Quiet) (data : Bytes) (s : Frame Target τ) :
    (atomicWriteBytes os (.bytes data)).run s = (.ok (), ⟨Target.of (some data), s.log⟩) := by
  unfold atomicWriteBytes
  rw [Method.run_bind_ok (Method.convert_ok.mpr (osCall_run (h.raises _) s)),
    Method.run_bind_ok (isSymlink_ok.mpr ⟨h.raises _, h.isLink, rfl⟩),
    Method.run_bind_ok (Method.lift_ok.mpr ⟨raiseIf_neg Bool.false_ne_true, rfl⟩)]
  refine Method.tryFinally_ok.mpr ⟨_, Method.convert_ok.mpr (writeAndReplace_run h data _), ?_⟩
  rfl

end Write

/-! ## Several files -/

/-- What is at each path. -/
abbrev Files := Str → Option Bytes

/-- Runs a method on the file at a path. Its temporary file and its local variables are its own. -/
def atPath {τ α : Type} (path : Str) (m : Method ErrorClass Target τ α) :
    Method ErrorClass Files τ α :=
  Method.zoom (fun files => Target.of (files path))
    (fun target files => Function.update files path target.destination) m

theorem atPath_run {τ α : Type} {path : Str} {m : Method ErrorClass Target τ α}
    {s : Frame Files τ} {t : Frame Target τ} {result : Except PyError α}
    (h : m.run ⟨Target.of (s.self path), s.log⟩ = (result, t)) : (atPath path m).run s =
      (result, ⟨Function.update s.self path t.self.destination, t.log⟩) := by
  unfold atPath
  rw [Method.run_zoom, h]

end CypherSyntax
