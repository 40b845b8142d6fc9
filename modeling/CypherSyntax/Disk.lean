import Mathlib.Data.List.Infix
import Mathlib.Logic.Function.Basic

/-!
# File systems that crash

A file system is seen live, through its directory entries and the contents of its files, and after
a crash. An entry that has changed since its directory was synced may come back with any value it
had since, and a file that has been written since it was synced with any contents. Entries come
back independently of one another, so a directory may be lost with what is in it. Paths are lists
of names from the root. Names and contents are arbitrary types.

Files have numbers and directories have none: an entry says that a directory is there, not which
one. So a rename moves one entry and not a tree, and one directory replacing another is out of
scope. Links are entries like others; no operation follows them, and a path whose parents are links
stands for the one they lead to.

Results:
* `crash_durable`: what is durable survives a crash.
* `durableDirectory_iff`: a directory survives every crash exactly when its entry is durable.
* `exists_crash`: a crash may leave any one of the values of an entry.
* `spares_untouched`: what is durable stays so until an effect replaces it or writes to it.
-/

namespace FileSystem

variable {ν β : Type}

/-- What a directory entry names. A file is known by its number. -/
inductive Node where
  | directory | link | file (id : Nat)
  deriving DecidableEq

/-- A file, and whether it was synced since it was last written. -/
structure StoredFile (β : Type) where
  content : β
  synced : Bool

/-- A directory entry, and the earlier values that a crash may bring back. -/
structure Slot where
  live : Option Node
  stale : List (Option Node)

namespace Slot

def set (slot : Slot) (node : Option Node) : Slot := ⟨node, slot.live :: slot.stale⟩

def settle (slot : Slot) : Slot := ⟨slot.live, []⟩

/-- What a crash may leave of the entry. -/
def May (slot : Slot) (node : Option Node) : Prop := node = slot.live ∨ node ∈ slot.stale

theorem may_live (slot : Slot) : slot.May slot.live := Or.inl rfl

theorem may_set {slot : Slot} {node other : Option Node} :
    (slot.set node).May other ↔ other = node ∨ slot.May other := by
  unfold May set
  rw [List.mem_cons]

theorem may_settle {slot : Slot} {node : Option Node} :
    slot.settle.May node ↔ node = slot.live := by
  unfold May settle
  simp

end Slot

/-- A file system. -/
structure Disk (ν β : Type) where
  slots : List ν → Slot
  files : Nat → StoredFile β
  /-- The number of the next file. -/
  next : Nat
  numbered : ∀ path id, (slots path).May (some (.file id)) → id < next

/-- An operation that changes a file system. -/
inductive Effect (ν β : Type) where
  | nothing
  /-- Creates a directory and those it is in, as far as they are missing. -/
  | mkdirs (path : List ν)
  | create (path : List ν) (content : β)
  | write (id : Nat) (content : β)
  | fsync (id : Nat)
  | rename (source target : List ν)
  | fsyncDirectory (path : List ν)
  | unlink (path : List ν)

namespace Disk

variable {disk : Disk ν β} {path p : List ν} {node : Option Node} {id : Nat}

theorem live_lt (h : (disk.slots p).live = some (.file id)) : id < disk.next :=
  disk.numbered p id (Or.inl h.symm)

/-! ## Operations -/

section Apply

variable [DecidableEq ν]

/-- Changes one entry. -/
def enter (disk : Disk ν β) (path : List ν) (node : Option Node)
    (hnode : ∀ id, node = some (.file id) → id < disk.next) : Disk ν β :=
  { disk with
    slots := Function.update disk.slots path ((disk.slots path).set node)
    numbered := by
      intro p id hmay
      by_cases h : p = path
      · subst h
        rw [Function.update_self, Slot.may_set] at hmay
        exact hmay.elim (fun e => hnode id e.symm) (disk.numbered p id)
      · rw [Function.update_of_ne h] at hmay
        exact disk.numbered p id hmay }

/-- Gives the next number to a file. -/
def addFile (disk : Disk ν β) (file : StoredFile β) : Disk ν β :=
  { disk with
    files := Function.update disk.files disk.next file
    next := disk.next + 1
    numbered := fun p id hmay => Nat.lt_succ_of_lt (disk.numbered p id hmay) }

def setFile (disk : Disk ν β) (id : Nat) (file : StoredFile β) : Disk ν β :=
  { disk with files := Function.update disk.files id file }

def mkdirs (disk : Disk ν β) (path : List ν) : Disk ν β :=
  { disk with
    slots := fun p => if p <+: path ∧ p ≠ [] ∧ (disk.slots p).live = none then
      (disk.slots p).set (some .directory) else disk.slots p
    numbered := by
      intro p id hmay
      split at hmay
      · rw [Slot.may_set] at hmay
        exact disk.numbered p id (hmay.resolve_left (by simp))
      · exact disk.numbered p id hmay }

def fsyncDirectory (disk : Disk ν β) (path : List ν) : Disk ν β :=
  { disk with
    slots := fun p => if p ≠ [] ∧ p.dropLast = path then (disk.slots p).settle else disk.slots p
    numbered := by
      intro p id hmay
      split at hmay
      · exact disk.numbered p id (Or.inl (Slot.may_settle.mp hmay))
      · exact disk.numbered p id hmay }

def remove (disk : Disk ν β) (path : List ν) : Disk ν β :=
  disk.enter path none fun _ h => nomatch h

def rename (disk : Disk ν β) (source target : List ν) : Disk ν β :=
  if source = target then disk
  else (disk.enter target (disk.slots source).live fun _ => live_lt).remove source

def create (disk : Disk ν β) (path : List ν) (content : β) : Disk ν β :=
  (disk.addFile ⟨content, false⟩).enter path (some (.file disk.next)) fun _ h => by
    cases h
    exact Nat.lt_succ_self _

def apply (disk : Disk ν β) : Effect ν β → Disk ν β
  | .nothing => disk
  | .mkdirs path => disk.mkdirs path
  | .create path content => disk.create path content
  | .write id content => disk.setFile id ⟨content, false⟩
  | .fsync id => disk.setFile id ⟨(disk.files id).content, true⟩
  | .rename source target => disk.rename source target
  | .fsyncDirectory path => disk.fsyncDirectory path
  | .unlink path => disk.remove path

/-! ### Entries -/

theorem slots_enter (hnode : ∀ id, node = some (.file id) → id < disk.next) :
    (disk.enter path node hnode).slots p =
      if p = path then (disk.slots path).set node else disk.slots p := by
  show Function.update disk.slots path _ p = _
  by_cases h : p = path
  · subst h
    rw [Function.update_self, if_pos rfl]
  · rw [Function.update_of_ne h, if_neg h]

theorem slots_mkdirs : (disk.apply (.mkdirs path)).slots p =
    if p <+: path ∧ p ≠ [] ∧ (disk.slots p).live = none then
      (disk.slots p).set (some .directory) else disk.slots p := rfl

theorem slots_create (content : β) : (disk.apply (.create path content)).slots p =
    if p = path then (disk.slots path).set (some (.file disk.next)) else disk.slots p := by
  show (Disk.create _ _ _).slots p = _
  rw [create, slots_enter]
  rfl

theorem slots_rename {target : List ν} (h : path ≠ target) :
    (disk.apply (.rename path target)).slots p =
      if p = path then (disk.slots path).set none
      else if p = target then (disk.slots target).set (disk.slots path).live
      else disk.slots p := by
  show (Disk.rename _ _ _).slots p = _
  rw [rename, if_neg h, remove, slots_enter, slots_enter, slots_enter, if_neg h]

theorem slots_fsyncDirectory : (disk.apply (.fsyncDirectory path)).slots p =
    if p ≠ [] ∧ p.dropLast = path then (disk.slots p).settle else disk.slots p := rfl

theorem slots_unlink : (disk.apply (.unlink path)).slots p =
    if p = path then (disk.slots path).set none else disk.slots p := by
  show (Disk.remove _ _).slots p = _
  rw [remove, slots_enter]

theorem apply_rename_same {target : List ν} (h : path = target) :
    disk.apply (.rename path target) = disk :=
  if_pos h

/-- Directories are created where nothing is. -/
theorem slots_mkdirs_of_some (h : (disk.slots p).live ≠ none) :
    (disk.apply (.mkdirs path)).slots p = disk.slots p := by
  rw [slots_mkdirs]
  exact if_neg fun hmissing => h hmissing.2.2

theorem live_mkdirs_file : ((disk.apply (.mkdirs path)).slots p).live = some (.file id) ↔
    (disk.slots p).live = some (.file id) := by
  by_cases h : (disk.slots p).live = none
  · rw [slots_mkdirs, h]
    by_cases hmissing : p <+: path ∧ p ≠ [] ∧ (none : Option Node) = none
    · rw [if_pos hmissing]
      simp [Slot.set]
    · rw [if_neg hmissing, h]
  · rw [slots_mkdirs_of_some h]

@[simp] theorem live_fsyncDirectory :
    ((disk.apply (.fsyncDirectory path)).slots p).live = (disk.slots p).live := by
  rw [slots_fsyncDirectory]
  split <;> rfl

/-- Syncing a directory only takes away what a crash may leave. -/
theorem may_fsyncDirectory (h : ((disk.apply (.fsyncDirectory path)).slots p).May node) :
    (disk.slots p).May node := by
  rw [slots_fsyncDirectory] at h
  split at h
  · rw [Slot.may_settle.mp h]
    exact Slot.may_live _
  · exact h

/-! ### Files -/

@[simp] theorem files_mkdirs : (disk.apply (.mkdirs path)).files = disk.files := rfl

@[simp] theorem files_create (content : β) : (disk.apply (.create path content)).files =
    Function.update disk.files disk.next ⟨content, false⟩ := rfl

@[simp] theorem files_write (content : β) : (disk.apply (.write id content)).files =
    Function.update disk.files id ⟨content, false⟩ := rfl

@[simp] theorem files_fsync : (disk.apply (.fsync id)).files =
    Function.update disk.files id ⟨(disk.files id).content, true⟩ := rfl

@[simp] theorem files_rename {target : List ν} :
    (disk.apply (.rename path target)).files = disk.files := by
  show (Disk.rename _ _ _).files = _
  unfold rename
  split <;> rfl

@[simp] theorem files_fsyncDirectory :
    (disk.apply (.fsyncDirectory path)).files = disk.files := rfl

@[simp] theorem next_rename {target : List ν} :
    (disk.apply (.rename path target)).next = disk.next := by
  show (Disk.rename _ _ _).next = _
  unfold rename
  split <;> rfl

@[simp] theorem files_unlink : (disk.apply (.unlink path)).files = disk.files := rfl

end Apply

/-! ## Crashes -/

/-- What is at a path after a crash. -/
inductive Entry (β : Type) where
  | directory | link | file (content : β)
  deriving DecidableEq

/-- What is at the path, live. -/
def read (disk : Disk ν β) (path : List ν) : Option (Entry β) :=
  (disk.slots path).live.map fun
    | .directory => .directory
    | .link => .link
    | .file id => .file (disk.files id).content

/-- What a crash may leave at an entry that names the node. -/
def Leaves (disk : Disk ν β) : Option Node → Option (Entry β) → Prop
  | none, entry => entry = none
  | some .directory, entry => entry = some .directory
  | some .link, entry => entry = some .link
  | some (.file id), entry => ∃ content, entry = some (.file content) ∧
      ((disk.files id).synced = true → content = (disk.files id).content)

/-- What is on the file system after a crash. -/
def Crash (disk : Disk ν β) (image : List ν → Option (Entry β)) : Prop :=
  ∀ path, ∃ node, (disk.slots path).May node ∧ disk.Leaves node (image path)

/-- Nothing of the entry is lost in a crash. -/
def Durable (disk : Disk ν β) (path : List ν) : Prop :=
  (∀ node, (disk.slots path).May node → node = (disk.slots path).live) ∧
    ∀ id, (disk.slots path).live = some (.file id) → (disk.files id).synced = true

/-- A directory whose entry is durable. -/
def DurableDirectory (disk : Disk ν β) (path : List ν) : Prop :=
  ∀ node, (disk.slots path).May node → node = some .directory

theorem DurableDirectory.durable {disk : Disk ν β} {path : List ν}
    (h : disk.DurableDirectory path) : disk.Durable path := by
  have hlive := h _ (Slot.may_live _)
  refine ⟨fun node hmay => (h node hmay).trans hlive.symm, fun id hid => ?_⟩
  rw [hlive] at hid
  cases hid

/-- What a crash leaves of a node whose file is synced is what is read from it. -/
theorem leaves_synced {disk : Disk ν β} {node : Option Node} {entry : Option (Entry β)}
    (hsynced : ∀ id, node = some (.file id) → (disk.files id).synced = true)
    (h : disk.Leaves node entry) : entry = node.map fun
      | .directory => .directory
      | .link => .link
      | .file id => .file (disk.files id).content := by
  match node, h with
  | none, h => exact h
  | some .directory, h => exact h
  | some .link, h => exact h
  | some (.file id), ⟨content, hentry, hcontent⟩ =>
    rw [hentry, hcontent (hsynced id rfl)]
    rfl

/-- **What is durable survives a crash.** -/
theorem crash_durable {disk : Disk ν β} {path : List ν} (h : disk.Durable path)
    {image : List ν → Option (Entry β)} (hcrash : disk.Crash image) :
    image path = disk.read path := by
  obtain ⟨node, hmay, hleaves⟩ := hcrash path
  rw [h.1 node hmay] at hleaves
  exact leaves_synced h.2 hleaves

theorem exists_leaves (disk : Disk ν β) (node : Option Node) :
    ∃ entry, disk.Leaves node entry :=
  match node with
  | none => ⟨_, rfl⟩
  | some .directory => ⟨_, rfl⟩
  | some .link => ⟨_, rfl⟩
  | some (.file id) => ⟨_, (disk.files id).content, rfl, fun _ => rfl⟩

/-- A crash can leave any one of the values of an entry, whatever it leaves elsewhere. -/
theorem exists_crash [DecidableEq ν] {disk : Disk ν β} {path : List ν} {node : Option Node}
    {entry : Option (Entry β)} (hmay : (disk.slots path).May node)
    (hleaves : disk.Leaves node entry) :
    ∃ image, disk.Crash image ∧ image path = entry := by
  choose leave hleave using disk.exists_leaves
  refine ⟨Function.update (fun p => leave (disk.slots p).live) path entry, fun p => ?_, ?_⟩
  · by_cases h : p = path
    · subst h
      rw [Function.update_self]
      exact ⟨node, hmay, hleaves⟩
    · rw [Function.update_of_ne h]
      exact ⟨_, Slot.may_live _, hleave _⟩
  · exact Function.update_self ..

/-- A crash leaves a directory of what names one. -/
theorem leaves_directory {disk : Disk ν β} {node : Option Node} {entry : Option (Entry β)}
    (h : disk.Leaves node entry) : entry = some .directory ↔ node = some .directory := by
  match node, h with
  | none, h => simp [show entry = none from h]
  | some .directory, h => simp [show entry = some .directory from h]
  | some .link, h => simp [show entry = some .link from h]
  | some (.file id), ⟨content, hentry, _⟩ => simp [hentry]

/-- **A directory is durable exactly when it is there after every crash.** -/
theorem durableDirectory_iff [DecidableEq ν] {disk : Disk ν β} {path : List ν} :
    disk.DurableDirectory path ↔
      ∀ image, disk.Crash image → image path = some .directory := by
  constructor
  · intro h image hcrash
    obtain ⟨node, hmay, hleaves⟩ := hcrash path
    exact (leaves_directory hleaves).mpr (h node hmay)
  · intro h node hmay
    obtain ⟨entry, hleaves⟩ := disk.exists_leaves node
    obtain ⟨image, hcrash, hentry⟩ := exists_crash hmay hleaves
    exact (leaves_directory hleaves).mp (hentry ▸ h image hcrash)

/-! ### Paths -/

/-- A directory is there, and so are those that it is in. -/
def Reachable (image : List ν → Option (Entry β)) (directory : List ν) : Prop :=
  ∀ p, p ≠ [] → p <+: directory → image p = some .directory

instance [DecidableEq ν] [DecidableEq β] (image : List ν → Option (Entry β))
    (directory : List ν) : Decidable (Reachable image directory) :=
  decidable_of_iff (∀ p ∈ directory.inits, p ≠ [] → image p = some .directory) <| by
    simp only [List.mem_inits]
    exact forall_congr' fun _ => forall_comm

/-- What a path leads to, from the root. -/
def find [DecidableEq ν] [DecidableEq β] (image : List ν → Option (Entry β)) (path : List ν) :
    Option (Entry β) :=
  if Reachable image path.dropLast then image path else none

theorem find_reachable [DecidableEq ν] [DecidableEq β] {image : List ν → Option (Entry β)}
    {path : List ν} (h : Reachable image path.dropLast) : find image path = image path :=
  if_pos h

theorem find_unreachable [DecidableEq ν] [DecidableEq β] {image : List ν → Option (Entry β)}
    {path : List ν} (h : ¬ Reachable image path.dropLast) : find image path = none :=
  if_neg h

/-- A crash that can leave the directories may do so, whatever it leaves elsewhere. -/
theorem Crash.reachable [DecidableEq ν] {disk : Disk ν β} {image : List ν → Option (Entry β)}
    (h : disk.Crash image) {directory : List ν}
    (hmay : ∀ p, p ≠ [] → p <+: directory → (disk.slots p).May (some .directory)) :
    ∃ other, disk.Crash other ∧ Reachable other directory ∧
      ∀ p, ¬ p <+: directory → other p = image p := by
  refine ⟨fun p => if p ≠ [] ∧ p <+: directory then some .directory else image p, fun p => ?_,
    fun p hp habove => if_pos ⟨hp, habove⟩, fun p hp => if_neg fun habove => hp habove.2⟩
  by_cases hp : p ≠ [] ∧ p <+: directory
  · exact ⟨some .directory, hmay p hp.1 hp.2, if_pos hp⟩
  · obtain ⟨node, hnode, hleaves⟩ := h p
    refine ⟨node, hnode, ?_⟩
    show disk.Leaves node (if p ≠ [] ∧ p <+: directory then _ else image p)
    rwa [if_neg hp]

/-! ### What is read -/

/-- What a crash leaves of a node depends on its file only. -/
theorem leaves_congr {disk disk' : Disk ν β} {node : Option Node} {entry : Option (Entry β)}
    (hfiles : ∀ id, node = some (.file id) → disk'.files id = disk.files id)
    (h : disk'.Leaves node entry) : disk.Leaves node entry := by
  match node, h with
  | none, h => exact h
  | some .directory, h => exact h
  | some .link, h => exact h
  | some (.file id), ⟨content, hentry, hcontent⟩ =>
    rw [hfiles id rfl] at hcontent
    exact ⟨content, hentry, hcontent⟩

theorem read_congr {disk disk' : Disk ν β} {path : List ν}
    (hlive : (disk'.slots path).live = (disk.slots path).live)
    (hfiles : ∀ id, (disk.slots path).live = some (.file id) → disk'.files id = disk.files id) :
    disk'.read path = disk.read path := by
  unfold read
  rw [hlive]
  cases h : (disk.slots path).live with
  | none => rfl
  | some node =>
    cases node with
    | file id =>
      show some (Entry.file (disk'.files id).content) = some (.file (disk.files id).content)
      rw [hfiles id h]
    | _ => rfl

theorem read_file {disk : Disk ν β} {path : List ν} {id : Nat}
    (h : (disk.slots path).live = some (.file id)) :
    disk.read path = some (.file (disk.files id).content) := by
  unfold read
  rw [h]
  rfl

/-- What is read is the content of a file. -/
theorem exists_live {disk : Disk ν β} {path : List ν} {content : β}
    (h : disk.read path = some (.file content)) :
    ∃ id, (disk.slots path).live = some (.file id) ∧ (disk.files id).content = content := by
  unfold read at h
  cases hlive : (disk.slots path).live with
  | none =>
    rw [hlive] at h
    cases h
  | some node =>
    rw [hlive] at h
    cases node with
    | file id =>
      cases h
      exact ⟨id, rfl, rfl⟩
    | _ => cases h

/-! ## What is left alone -/

/-- An entry and its file are as they were, also to a crash. -/
structure Untouched (disk disk' : Disk ν β) (path : List ν) : Prop where
  live : (disk'.slots path).live = (disk.slots path).live
  may : ∀ node, (disk'.slots path).May node → (disk.slots path).May node
  file : ∀ id, (disk.slots path).live = some (.file id) → disk'.files id = disk.files id

namespace Untouched

variable {disk disk' disk'' : Disk ν β} {path : List ν}

theorem refl (disk : Disk ν β) (path : List ν) : disk.Untouched disk path :=
  ⟨rfl, fun _ h => h, fun _ _ => rfl⟩

theorem trans (h : disk.Untouched disk' path) (h' : disk'.Untouched disk'' path) :
    disk.Untouched disk'' path where
  live := h'.live.trans h.live
  may node hmay := h.may node (h'.may node hmay)
  file id hid := (h'.file id (h.live.trans hid)).trans (h.file id hid)

theorem durable (h : disk.Untouched disk' path) (hdurable : disk.Durable path) :
    disk'.Durable path where
  left node hmay := (hdurable.1 node (h.may node hmay)).trans h.live.symm
  right id hid := by
    rw [h.live] at hid
    rw [h.file id hid]
    exact hdurable.2 id hid

theorem read (h : disk.Untouched disk' path) : disk'.read path = disk.read path :=
  read_congr h.live h.file

end Untouched

/-- An effect that does not replace an entry, nor write to its file. -/
def Spares (disk : Disk ν β) (path : List ν) : Effect ν β → Prop
  | .create p _ => p ≠ path
  | .write id _ => (disk.slots path).live ≠ some (.file id)
  | .rename source target => source ≠ path ∧ target ≠ path
  | .unlink p => p ≠ path
  | _ => True

variable [DecidableEq ν] {disk : Disk ν β} {path : List ν} {effect : Effect ν β}

/-- What is durable is not touched by an effect that spares it. -/
theorem Spares.untouched (h : disk.Spares path effect) (hlive : (disk.slots path).live ≠ none)
    (hdurable : disk.Durable path) : disk.Untouched (disk.apply effect) path := by
  cases effect with
  | nothing => exact .refl disk path
  | mkdirs p =>
    have hslot : (disk.apply (.mkdirs p)).slots path = disk.slots path :=
      slots_mkdirs_of_some hlive
    exact ⟨congrArg Slot.live hslot, fun _ hmay => hslot ▸ hmay, fun _ _ => rfl⟩
  | create p content =>
    have hslot : (disk.apply (.create p content)).slots path = disk.slots path := by
      rw [slots_create, if_neg (Ne.symm h)]
    refine ⟨congrArg Slot.live hslot, fun _ hmay => hslot ▸ hmay, fun id hid => ?_⟩
    rw [files_create, Function.update_of_ne (Nat.ne_of_lt (live_lt hid))]
  | write id content =>
    refine ⟨rfl, fun _ hmay => hmay, fun other hother => ?_⟩
    rw [files_write, Function.update_of_ne]
    rintro rfl
    exact h hother
  | fsync id =>
    refine ⟨rfl, fun _ hmay => hmay, fun other hother => ?_⟩
    rw [files_fsync]
    by_cases hid : other = id
    · subst hid
      rw [Function.update_self, ← hdurable.2 other hother]
    · rw [Function.update_of_ne hid]
  | rename source target =>
    have hslot : (disk.apply (.rename source target)).slots path = disk.slots path := by
      by_cases hsame : source = target
      · rw [apply_rename_same hsame]
      · rw [slots_rename hsame, if_neg (Ne.symm h.1), if_neg (Ne.symm h.2)]
    exact ⟨congrArg Slot.live hslot, fun _ hmay => hslot ▸ hmay, fun _ _ => by rw [files_rename]⟩
  | fsyncDirectory p =>
    exact ⟨live_fsyncDirectory, fun _ hmay => may_fsyncDirectory hmay, fun _ _ => rfl⟩
  | unlink p =>
    have hslot : (disk.apply (.unlink p)).slots path = disk.slots path := by
      rw [slots_unlink, if_neg (Ne.symm h)]
    exact ⟨congrArg Slot.live hslot, fun _ hmay => hslot ▸ hmay, fun _ _ => rfl⟩

/-- What is durable stays so under any effects that spare it. -/
theorem spares_untouched (hlive : (disk.slots path).live ≠ none) (hdurable : disk.Durable path)
    (effects : List (Effect ν β)) (h : ∀ effect ∈ effects, disk.Spares path effect) :
    disk.Untouched (effects.foldl apply disk) path := by
  induction effects generalizing disk with
  | nil => exact .refl disk path
  | cons effect effects ih =>
    have hfirst := (h effect List.mem_cons_self).untouched hlive hdurable
    refine hfirst.trans (ih (hfirst.live ▸ hlive) (hfirst.durable hdurable) fun later hlater => ?_)
    have hspares := h later (List.mem_cons_of_mem _ hlater)
    -- whether an effect spares an entry depends on the disk by the live entry only
    cases later with
    | write id content =>
      unfold Spares at hspares ⊢
      rwa [hfirst.live]
    | _ => exact hspares

end Disk

end FileSystem
