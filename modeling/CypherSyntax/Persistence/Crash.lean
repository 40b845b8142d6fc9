import CypherSyntax.Machine
import CypherSyntax.Persistence.Steps

/-!
# Concurrent writes and crashes

Any number of writes to one destination, whose calls interleave in any order, on a file system that
may crash after any of them.

Results:
* `Consistent`: the invariant of the writes under way.
* `atomicWrites_consistent`: the destination holds what it did, or all of the data of one of the
  writes, before a crash and after it. No write touches a file that is not its own.
-/

namespace CypherSyntax

open Python FileSystem

/-! ## The effects of a move -/

namespace Move

variable {destination : Destination} {data : Bytes} {disk : Disk Str Bytes}
  {writer writer' : Writer} {effect : Effect Str Bytes}

theorem quiet_files (h : Quiet destination effect) : (disk.apply effect).files = disk.files := by
  cases effect <;> first | rfl | exact h.elim

theorem quiet_next (h : Quiet destination effect) : (disk.apply effect).next = disk.next := by
  cases effect <;> first | rfl | exact h.elim

theorem quiet_slots {p : List Str} {node : Node} (h : Quiet destination effect)
    (hlive : (disk.slots p).live = some node) : (disk.apply effect).slots p = disk.slots p ∨
      (disk.apply effect).slots p = (disk.slots p).settle := by
  cases effect with
  | nothing => exact Or.inl rfl
  | mkdirs path => exact Or.inl (Disk.slots_mkdirs_of_some (by simp [hlive]))
  | fsyncDirectory path =>
    rw [Disk.slots_fsyncDirectory]
    split
    · exact Or.inr rfl
    · exact Or.inl rfl
  | _ => exact h.elim

theorem quiet_live {p : List Str} {node : Node} (h : Quiet destination effect)
    (hlive : (disk.slots p).live = some node) :
    ((disk.apply effect).slots p).live = some node := by
  rcases quiet_slots h hlive with hslot | hslot <;> rwa [hslot]

theorem quiet_live_file {p : List Str} {id : Nat} (h : Quiet destination effect)
    (hlive : ((disk.apply effect).slots p).live = some (.file id)) :
    (disk.slots p).live = some (.file id) := by
  cases effect with
  | nothing => exact hlive
  | mkdirs path => rwa [Disk.live_mkdirs_file] at hlive
  | fsyncDirectory path => rwa [Disk.live_fsyncDirectory] at hlive
  | _ => exact h.elim

/-- A write keeps the files of others, and its own from the replacement on. -/
theorem files_kept (h : Move destination data disk writer writer' effect) {id : Nat}
    (hid : id < disk.next) (hown : writer.file = some id → writer.temporaryPath = none) :
    (disk.apply effect).files id = disk.files id := by
  cases h with
  | quiet file path sent unclean ready quiet => rw [quiet_files quiet]
  | create random file sent free =>
    rw [Disk.files_create, Function.update_of_ne hid.ne]
  | write id' sent file held =>
    rw [Disk.files_write, Function.update_of_ne]
    rintro rfl
    rw [hown file] at held
    cases held
  | fsync id' file held sent =>
    rw [Disk.files_fsync, Function.update_of_ne]
    rintro rfl
    rw [hown file] at held
    cases held
  | rename => rw [Disk.files_rename]
  | unlink => rw [Disk.files_unlink]
  | abandon => rfl

theorem next_le (h : Move destination data disk writer writer' effect) :
    disk.next ≤ (disk.apply effect).next := by
  cases h with
  | quiet file path sent unclean ready quiet => exact (quiet_next quiet).ge
  | create => exact Nat.le_succ _
  | rename => rw [Disk.next_rename]
  | _ => exact le_rfl

/-- The file of a write is its own for good. -/
theorem file_of (h : Move destination data disk writer writer' effect) :
    writer'.file = writer.file ∨ writer.file = none ∧ writer'.file = some disk.next ∧
      (disk.apply effect).next = disk.next + 1 := by
  cases h with
  | quiet file => exact Or.inl file
  | create random file => exact Or.inr ⟨file, rfl, rfl⟩
  | write id sent file held file' => exact Or.inl file'
  | _ => exact Or.inl rfl

/-- A write that has no temporary file any more gets no other. -/
theorem released (h : Move destination data disk writer writer' effect) {id : Nat}
    (hfile : writer.file = some id) (hpath : writer.temporaryPath = none) :
    writer'.file = some id ∧ writer'.temporaryPath = none := by
  cases h with
  | quiet file path => exact ⟨file.trans hfile, path.trans hpath⟩
  | create random file =>
    rw [file] at hfile
    cases hfile
  | write id' sent file held =>
    rw [hpath] at held
    cases held
  | fsync => exact ⟨hfile, hpath⟩
  | _ => exact ⟨hfile, rfl⟩

/-- The temporary file is where the write has put it, with what the handle has passed on. -/
def Placed (destination : Destination) (data : Bytes) (disk : Disk Str Bytes) (writer : Writer) :
    Prop :=
  ∀ id path, writer.file = some id → writer.temporaryPath = some path →
    (∃ random, path = destination.temporary random) ∧
      (disk.slots path).live = some (.file id) ∧
      (disk.files id).content = data.take writer.sent

theorem Placed.ne_path (h : Placed destination data disk writer) {id : Nat} {path : List Str}
    (hfile : writer.file = some id) (hpath : writer.temporaryPath = some path) :
    path ≠ destination.path := by
  obtain ⟨random, rfl⟩ := (h id path hfile hpath).1
  exact Destination.temporary_ne_path random

/-- A write keeps every entry but the destination and its own. -/
theorem slots_kept (h : Move destination data disk writer writer' effect)
    (hplaced : Placed destination data disk writer) {p : List Str} {node : Node}
    (hp : p ≠ destination.path) (hlive : (disk.slots p).live = some node)
    (hother : ∀ id, node = .file id → writer.file ≠ some id) :
    (disk.apply effect).slots p = disk.slots p ∨
      (disk.apply effect).slots p = (disk.slots p).settle := by
  have hne : ∀ id path, writer.file = some id → writer.temporaryPath = some path → p ≠ path := by
    rintro id path hfile hpath rfl
    rw [(hplaced id p hfile hpath).2.1] at hlive
    exact hother id (Option.some.inj hlive).symm hfile
  cases h with
  | quiet file path sent unclean ready quiet => exact quiet_slots quiet hlive
  | create random file sent free =>
    rw [Disk.slots_create, if_neg]
    · exact Or.inl rfl
    · rintro rfl
      rw [free] at hlive
      cases hlive
  | rename id path file held ready =>
    rw [Disk.slots_rename (hplaced.ne_path file held), if_neg (hne id path file held), if_neg hp]
    exact Or.inl rfl
  | unlink id path raised file held =>
    rw [Disk.slots_unlink, if_neg (hne id path file held)]
    exact Or.inl rfl
  | _ => exact Or.inl rfl

theorem live_kept (h : Move destination data disk writer writer' effect)
    (hplaced : Placed destination data disk writer) {p : List Str} {node : Node}
    (hp : p ≠ destination.path) (hlive : (disk.slots p).live = some node)
    (hother : ∀ id, node = .file id → writer.file ≠ some id) :
    ((disk.apply effect).slots p).live = some node := by
  rcases h.slots_kept hplaced hp hlive hother with hslot | hslot <;> rwa [hslot]

/-- A write does not touch what is at a path but the destination and its own. -/
theorem untouched (h : Move destination data disk writer writer' effect)
    (hplaced : Placed destination data disk writer) {p : List Str} (hp : p ≠ destination.path)
    (hlive : (disk.slots p).live ≠ none)
    (hother : ∀ id, (disk.slots p).live = some (.file id) → writer.file ≠ some id) :
    disk.Untouched (disk.apply effect) p := by
  obtain ⟨node, hnode⟩ := Option.ne_none_iff_exists'.mp hlive
  have hother' : ∀ id, node = .file id → writer.file ≠ some id := by
    rintro id rfl
    exact hother id hnode
  refine ⟨?_, fun other hmay => ?_, fun id hid => ?_⟩
  · rw [h.live_kept hplaced hp hnode hother', hnode]
  · rcases h.slots_kept hplaced hp hnode hother' with hslot | hslot
    · rwa [hslot] at hmay
    · rw [hslot, Slot.may_settle] at hmay
      exact Or.inl hmay
  · exact h.files_kept (Disk.live_lt hid) fun hown => absurd hown (hother id hid)

/-- Where a file is after a move: where it was, at the destination, or where it was created. -/
theorem live_of (h : Move destination data disk writer writer' effect)
    (hplaced : Placed destination data disk writer) {p : List Str} {id : Nat}
    (hlive : ((disk.apply effect).slots p).live = some (.file id)) :
    (disk.slots p).live = some (.file id) ∨ p = destination.path ∨
      writer'.file = some id ∧ writer'.temporaryPath = some p := by
  cases h with
  | quiet file path sent unclean ready quiet => exact Or.inl (quiet_live_file quiet hlive)
  | create random file sent free =>
    rw [Disk.slots_create] at hlive
    split at hlive
    · rename_i hp
      cases hlive
      exact Or.inr (Or.inr ⟨rfl, congrArg some hp.symm⟩)
    · exact Or.inl hlive
  | rename id' path file held ready =>
    rw [Disk.slots_rename (hplaced.ne_path file held)] at hlive
    split at hlive
    · cases hlive
    · split at hlive
      · rename_i hp
        exact Or.inr (Or.inl hp)
      · exact Or.inl hlive
  | unlink id' path raised file held =>
    rw [Disk.slots_unlink] at hlive
    split at hlive
    · cases hlive
    · exact Or.inl hlive
  | _ => exact Or.inl hlive

/-- What a move replaces the destination by. -/
def Replaces (disk : Disk Str Bytes) (effect : Effect Str Bytes) (writer writer' : Writer)
    (node : Option Node) : Prop :=
  ∃ id, node = some (.file id) ∧ writer.file = some id ∧ writer.Ready ∧
    writer'.file = some id ∧ writer'.temporaryPath = none ∧
    (disk.apply effect).files = disk.files

theorem slots_destination (h : Move destination data disk writer writer' effect)
    (hplaced : Placed destination data disk writer) :
    (disk.apply effect).slots destination.path = disk.slots destination.path ∨
    (disk.apply effect).slots destination.path = (disk.slots destination.path).settle ∨
    ∃ node, Replaces disk effect writer writer' node ∧
      (disk.apply effect).slots destination.path = (disk.slots destination.path).set node := by
  cases h with
  | quiet file path sent unclean ready quiet =>
    cases effect with
    | nothing => exact Or.inl rfl
    | mkdirs path =>
      have habove : ¬destination.path <+: path := fun h =>
        (Destination.above_ne (h.trans quiet)).1 rfl
      rw [Disk.slots_mkdirs, if_neg fun h => habove h.1]
      exact Or.inl rfl
    | fsyncDirectory path =>
      rw [Disk.slots_fsyncDirectory]
      split
      · exact Or.inr (Or.inl rfl)
      · exact Or.inl rfl
    | _ => exact quiet.elim
  | create random file sent free =>
    rw [Disk.slots_create, if_neg (Destination.temporary_ne_path random).symm]
    exact Or.inl rfl
  | rename id path file held ready =>
    have hne := hplaced.ne_path file held
    rw [Disk.slots_rename hne, if_neg hne.symm, if_pos rfl, (hplaced id path file held).2.1]
    exact Or.inr (Or.inr ⟨_, ⟨id, rfl, file, ready, file, rfl, Disk.files_rename⟩, rfl⟩)
  | unlink id path raised file held =>
    rw [Disk.slots_unlink, if_neg (hplaced.ne_path file held).symm]
    exact Or.inl rfl
  | _ => exact Or.inl rfl

theorem may_destination (h : Move destination data disk writer writer' effect)
    (hplaced : Placed destination data disk writer) {node : Option Node}
    (hmay : ((disk.apply effect).slots destination.path).May node) :
    (disk.slots destination.path).May node ∨ Replaces disk effect writer writer' node := by
  rcases h.slots_destination hplaced with hslot | hslot | ⟨node', hreplaces, hslot⟩
  · rw [hslot] at hmay
    exact Or.inl hmay
  · rw [hslot, Slot.may_settle] at hmay
    exact Or.inl (Or.inl hmay)
  · rw [hslot, Slot.may_set] at hmay
    rcases hmay with rfl | hmay
    · exact Or.inr hreplaces
    · exact Or.inl hmay

theorem live_destination (h : Move destination data disk writer writer' effect)
    (hplaced : Placed destination data disk writer) :
    ((disk.apply effect).slots destination.path).live = (disk.slots destination.path).live ∨
      Replaces disk effect writer writer' ((disk.apply effect).slots destination.path).live := by
  rcases h.slots_destination hplaced with hslot | hslot | ⟨node, hreplaces, hslot⟩
  · exact Or.inl (congrArg Slot.live hslot)
  · rw [hslot]
    exact Or.inl rfl
  · rw [hslot]
    exact Or.inr hreplaces

/-- A write keeps its own temporary file in place. -/
theorem placed (h : Move destination data disk writer writer' effect)
    (hplaced : Placed destination data disk writer) :
    Placed destination data (disk.apply effect) writer' := by
  intro id path hfile hpath
  cases h with
  | quiet file path' sent unclean ready quiet =>
    rw [file] at hfile
    rw [path'] at hpath
    obtain ⟨htemporary, hlive, hcontent⟩ := hplaced id path hfile hpath
    refine ⟨htemporary, quiet_live quiet hlive, ?_⟩
    rw [quiet_files quiet, sent]
    exact hcontent
  | create random file sent free =>
    cases hfile
    cases hpath
    refine ⟨⟨random, rfl⟩, ?_, ?_⟩
    · rw [Disk.slots_create, if_pos rfl]
      rfl
    · rw [Disk.files_create, Function.update_self]
      show [] = data.take writer.sent
      rw [sent, List.take_zero]
  | write id' sent file held file' path' sent' unclean ready =>
    rw [file'] at hfile
    rw [path'] at hpath
    cases Option.some.inj (file.symm.trans hfile)
    obtain ⟨htemporary, hlive, -⟩ := hplaced _ path hfile hpath
    refine ⟨htemporary, hlive, ?_⟩
    rw [Disk.files_write, Function.update_self, sent']
  | fsync id' file held sent =>
    cases Option.some.inj (file.symm.trans hfile)
    obtain ⟨htemporary, hlive, hcontent⟩ := hplaced _ path hfile hpath
    refine ⟨htemporary, hlive, ?_⟩
    rw [Disk.files_fsync, Function.update_self]
    exact hcontent
  | _ => cases hpath

/-- The data is synced before the replacement. -/
theorem ready (h : Move destination data disk writer writer' effect)
    (hplaced : Placed destination data disk writer)
    (hready : writer.Ready → ∀ id, writer.file = some id → disk.files id = ⟨data, true⟩) :
    writer'.Ready → ∀ id, writer'.file = some id → (disk.apply effect).files id = ⟨data, true⟩ := by
  intro hready' id hfile
  cases h with
  | quiet file path sent unclean ready quiet =>
    rw [quiet_files quiet]
    exact hready (ready hready') id (file ▸ hfile)
  | write id' sent file held file' path sent' unclean ready => exact absurd hready' ready
  | fsync id' file held sent =>
    obtain ⟨path, hpath⟩ := Option.isSome_iff_exists.mp held
    cases Option.some.inj (file.symm.trans hfile)
    obtain ⟨-, -, hcontent⟩ := hplaced _ path hfile hpath
    rw [Disk.files_fsync, Function.update_self, hcontent, sent, List.take_length]
  | _ => rcases hready' with hready' | hready' <;> cases hready'

/-- A write that gives up its temporary file has removed it, replaced the destination by it, or
failed to remove it. -/
theorem only (h : Move destination data disk writer writer' effect)
    (hplaced : Placed destination data disk writer)
    (honly : ∀ id p, writer.file = some id → (disk.slots p).live = some (.file id) →
      writer.temporaryPath = some p ∨ p = destination.path ∨ writer.unclean = true) :
    ∀ id p, writer'.file = some id → ((disk.apply effect).slots p).live = some (.file id) →
      writer'.temporaryPath = some p ∨ p = destination.path ∨ writer'.unclean = true := by
  intro id p hfile hlive
  -- an entry other than the temporary path kept its file
  have hbefore : ∀ path, writer.temporaryPath = some path → writer.file = some id → p ≠ path →
      (disk.slots p).live = some (.file id) → p = destination.path ∨ writer.unclean = true := by
    intro path hpath hfile hne hlive
    rcases honly id p hfile hlive with hp | hp
    · rw [hpath] at hp
      exact absurd (Option.some.inj hp).symm hne
    · exact hp
  cases h with
  | quiet file path sent unclean ready quiet =>
    rw [path, unclean]
    exact honly id p (file ▸ hfile) (quiet_live_file quiet hlive)
  | create random file sent free =>
    cases hfile
    rw [Disk.slots_create] at hlive
    split at hlive
    · rename_i hp
      exact Or.inl (congrArg some hp.symm)
    · exact absurd (Disk.live_lt hlive) (lt_irrefl _)
  | write id' sent file held file' path sent' unclean ready =>
    rw [path, unclean]
    exact honly id p (file' ▸ hfile) hlive
  | fsync id' file held sent => exact honly id p hfile hlive
  | rename id' path file held ready =>
    rw [Disk.slots_rename (hplaced.ne_path file held)] at hlive
    split at hlive
    · cases hlive
    · rename_i hne
      split at hlive
      · rename_i hp
        exact Or.inr (Or.inl hp)
      · exact Or.inr (hbefore path held hfile hne hlive)
  | unlink id' path raised file held =>
    rw [Disk.slots_unlink] at hlive
    split at hlive
    · cases hlive
    · rename_i hne
      exact Or.inr (hbefore path held hfile hne hlive)
  | abandon => exact Or.inr (Or.inr rfl)

end Move

/-! ## Writes that interleave -/

/-- A file system, and the writes to one destination that are under way. -/
structure World (ι : Type) where
  disk : Disk Str Bytes
  writers : ι → Writer

namespace World

variable {ι : Type}

def start (disk : Disk Str Bytes) : World ι := ⟨disk, fun _ => .start⟩

/-- One of the writes makes a call. -/
def step [DecidableEq ι] (destination : Destination) (data : ι → Bytes) (world : World ι)
    (turn : ι × OsAnswer) : Effect Str Bytes × World ι :=
  let (writer, effect) :=
    advance destination (data turn.1) world.disk (world.writers turn.1) turn.2
  (effect, ⟨world.disk.apply effect, Function.update world.writers turn.1 writer⟩)

/-- The node is the file of a write that has replaced the destination, with all of its data. -/
def Replaced (data : ι → Bytes) (world : World ι) (node : Option Node) : Prop :=
  ∃ i id, node = some (.file id) ∧ (world.writers i).file = some id ∧
    (world.writers i).temporaryPath = none ∧ world.disk.files id = ⟨data i, true⟩

/-- **The invariant of the writes**, given the file system they have started on. -/
structure Consistent (destination : Destination) (data : ι → Bytes) (before : Disk Str Bytes)
    (world : World ι) : Prop where
  shape : ∀ i, (world.writers i).Shape (data i)
  next_le : before.next ≤ world.disk.next
  numbered : ∀ i id, (world.writers i).file = some id → before.next ≤ id ∧ id < world.disk.next
  distinct : ∀ i j id, (world.writers i).file = some id → (world.writers j).file = some id → i = j
  kept : ∀ id, id < before.next → world.disk.files id = before.files id
  placed : ∀ i, Move.Placed destination (data i) world.disk (world.writers i)
  only : ∀ i id p, (world.writers i).file = some id →
    (world.disk.slots p).live = some (.file id) → (world.writers i).temporaryPath = some p ∨
      p = destination.path ∨ (world.writers i).unclean = true
  ready : ∀ i, (world.writers i).Ready →
    ∀ id, (world.writers i).file = some id → world.disk.files id = ⟨data i, true⟩
  may : ∀ node, (world.disk.slots destination.path).May node →
    (before.slots destination.path).May node ∨ world.Replaced data node
  live : (world.disk.slots destination.path).live = (before.slots destination.path).live ∨
    world.Replaced data (world.disk.slots destination.path).live

variable {destination : Destination} {data : ι → Bytes} {before : Disk Str Bytes} {world : World ι}

theorem start_consistent (disk : Disk Str Bytes) :
    Consistent destination data disk (start disk : World ι) where
  shape i := Writer.start_shape (data i)
  next_le := le_rfl
  numbered _ _ h := nomatch h
  distinct _ _ _ h := nomatch h
  kept _ _ := rfl
  placed _ _ _ h := nomatch h
  only _ _ _ h := nomatch h
  ready _ _ _ h := nomatch h
  may _ h := Or.inl h
  live := Or.inl rfl

/-- The world after a move of one of the writes. -/
def after [DecidableEq ι] (world : World ι) (i : ι) (writer : Writer)
    (effect : Effect Str Bytes) : World ι :=
  ⟨world.disk.apply effect, Function.update world.writers i writer⟩

section After

variable [DecidableEq ι] {i : ι} {writer : Writer} {effect : Effect Str Bytes}

@[simp] theorem after_writers_self : (world.after i writer effect).writers i = writer :=
  Function.update_self ..

@[simp] theorem after_writers_other {j : ι} (hne : j ≠ i) :
    (world.after i writer effect).writers j = world.writers j :=
  Function.update_of_ne hne ..

/-- What holds of the write that has moved, and of the others as they were, holds of all. -/
theorem forall_after (P : ι → Writer → Prop) (hself : P i writer)
    (hother : ∀ j, j ≠ i → P j (world.writers j)) :
    ∀ j, P j ((world.after i writer effect).writers j) := by
  intro j
  by_cases hj : j = i
  · subst hj
    rwa [after_writers_self]
  · rw [after_writers_other hj]
    exact hother j hj

end After

namespace Consistent

section Move

variable {i : ι} {writer : Writer} {effect : Effect Str Bytes}
  (h : Consistent destination data before world)
  (hmove : Move destination (data i) world.disk (world.writers i) writer effect)

include h hmove

/-- The file of another write is kept. -/
theorem files_other {j : ι} (hne : j ≠ i) {id : Nat} (hfile : (world.writers j).file = some id) :
    (world.disk.apply effect).files id = world.disk.files id :=
  hmove.files_kept (h.numbered j id hfile).2 fun hown => absurd (h.distinct j i id hfile hown) hne

theorem distinct_other {j : ι} (hne : j ≠ i) {id : Nat}
    (hfile : (world.writers j).file = some id) : writer.file ≠ some id := by
  intro hown
  rcases hmove.file_of with hsame | ⟨-, hnew, -⟩
  · exact hne (h.distinct j i id hfile (hsame ▸ hown))
  · cases hnew.symm.trans hown
    exact lt_irrefl _ (h.numbered j _ hfile).2

theorem numbered_move {id : Nat} (hfile : writer.file = some id) :
    before.next ≤ id ∧ id < (world.disk.apply effect).next := by
  rcases hmove.file_of with hsame | ⟨-, hnew, hnext⟩
  · obtain ⟨hlo, hhi⟩ := h.numbered i id (hsame ▸ hfile)
    exact ⟨hlo, hhi.trans_le hmove.next_le⟩
  · cases hnew.symm.trans hfile
    exact ⟨h.next_le, hnext ▸ Nat.lt_succ_self _⟩

theorem placed_other {j : ι} (hne : j ≠ i) :
    Move.Placed destination (data j) (world.disk.apply effect) (world.writers j) := by
  intro id path hfile hpath
  obtain ⟨htemporary, hlive, hcontent⟩ := h.placed j id path hfile hpath
  refine ⟨htemporary, ?_, ?_⟩
  · refine hmove.live_kept (h.placed i) ((h.placed j).ne_path hfile hpath) hlive ?_
    rintro _ ⟨⟩ hown
    exact hne (h.distinct j i id hfile hown)
  · rw [h.files_other hmove hne hfile]
    exact hcontent

theorem only_other {j : ι} (hne : j ≠ i) {id : Nat} {p : List Str}
    (hfile : (world.writers j).file = some id)
    (hlive : ((world.disk.apply effect).slots p).live = some (.file id)) :
    (world.writers j).temporaryPath = some p ∨ p = destination.path ∨
      (world.writers j).unclean = true := by
  rcases hmove.live_of (h.placed i) hlive with hlive | hp | ⟨hown, -⟩
  · exact h.only j id p hfile hlive
  · exact Or.inr (Or.inl hp)
  · exact absurd hown (h.distinct_other hmove hne hfile)

variable [DecidableEq ι]

/-- A write that has replaced the destination keeps its data. -/
theorem replaced_kept {node : Option Node} (hnode : world.Replaced data node) :
    (world.after i writer effect).Replaced data node := by
  obtain ⟨j, id, rfl, hfile, hpath, hdata⟩ := hnode
  have hkept : (world.disk.apply effect).files id = ⟨data j, true⟩ := by
    rw [hmove.files_kept (h.numbered j id hfile).2, hdata]
    intro hown
    exact h.distinct j i id hfile hown ▸ hpath
  refine ⟨j, id, rfl, ?_⟩
  by_cases hj : j = i
  · subst hj
    obtain ⟨hfile', hpath'⟩ := hmove.released hfile hpath
    rw [after_writers_self]
    exact ⟨hfile', hpath', hkept⟩
  · rw [after_writers_other hj]
    exact ⟨hfile, hpath, hkept⟩

omit hmove in
theorem replaced_of_replaces {node : Option Node}
    (hnode : Move.Replaces world.disk effect (world.writers i) writer node) :
    (world.after i writer effect).Replaced data node := by
  obtain ⟨id, rfl, hfile, hready, hfile', hpath', hfiles⟩ := hnode
  refine ⟨i, id, rfl, ?_⟩
  rw [after_writers_self]
  refine ⟨hfile', hpath', ?_⟩
  show (world.disk.apply effect).files id = _
  rw [hfiles, h.ready i hready id hfile]

/-- **A move of one of the writes keeps the invariant.** -/
theorem move (hshape : writer.Shape (data i)) :
    Consistent destination data before (world.after i writer effect) where
  shape := forall_after (fun j w => w.Shape (data j)) hshape fun j _ => h.shape j
  next_le := h.next_le.trans hmove.next_le
  numbered := by
    refine forall_after (fun _ w => ∀ id, w.file = some id →
      before.next ≤ id ∧ id < (world.disk.apply effect).next) ?_ fun j _ id hfile => ?_
    · exact fun id hfile => h.numbered_move hmove hfile
    · obtain ⟨hlo, hhi⟩ := h.numbered j id hfile
      exact ⟨hlo, hhi.trans_le hmove.next_le⟩
  distinct j k id hj hk := by
    by_cases hji : j = i
    · by_cases hki : k = i
      · exact hji.trans hki.symm
      · rw [hji, after_writers_self] at hj
        rw [after_writers_other hki] at hk
        exact absurd hj (h.distinct_other hmove hki hk)
    · rw [after_writers_other hji] at hj
      by_cases hki : k = i
      · rw [hki, after_writers_self] at hk
        exact absurd hk (h.distinct_other hmove hji hj)
      · rw [after_writers_other hki] at hk
        exact h.distinct j k id hj hk
  kept id hid := by
    have hfiles : (world.disk.apply effect).files id = world.disk.files id :=
      hmove.files_kept (hid.trans_le h.next_le) fun hown =>
        absurd (h.numbered i id hown).1 (Nat.not_le.mpr hid)
    exact hfiles.trans (h.kept id hid)
  placed := forall_after (fun j w => Move.Placed destination (data j) (world.disk.apply effect) w)
    (hmove.placed (h.placed i)) fun j hj => h.placed_other hmove hj
  only := by
    refine forall_after (fun _ w => ∀ id p, w.file = some id →
      ((world.disk.apply effect).slots p).live = some (.file id) → w.temporaryPath = some p ∨
        p = destination.path ∨ w.unclean = true) (hmove.only (h.placed i) (h.only i)) ?_
    exact fun j hj id p hfile hlive => h.only_other hmove hj hfile hlive
  ready := by
    refine forall_after (fun j w => w.Ready → ∀ id, w.file = some id →
      (world.disk.apply effect).files id = ⟨data j, true⟩)
      (hmove.ready (h.placed i) (h.ready i)) fun j hj hready id hfile => ?_
    exact (h.files_other hmove hj hfile).trans (h.ready j hready id hfile)
  may node hmay := by
    rcases hmove.may_destination (h.placed i) hmay with hmay | hreplaces
    · exact (h.may node hmay).imp id (h.replaced_kept hmove)
    · exact Or.inr (h.replaced_of_replaces hreplaces)
  live := by
    rcases hmove.live_destination (h.placed i) with hlive | hreplaces
    · have hsame : ((world.after i writer effect).disk.slots destination.path).live =
        (world.disk.slots destination.path).live := hlive
      rw [hsame]
      exact h.live.imp id (h.replaced_kept hmove)
    · exact Or.inr (h.replaced_of_replaces hreplaces)

end Move

/-! ### What the invariant says -/

variable (h : Consistent destination data before world)

include h

theorem read_destination : world.disk.read destination.path = before.read destination.path ∨
    ∃ i, world.disk.read destination.path = some (.file (data i)) := by
  rcases h.live with hlive | ⟨i, id, hlive, -, -, hdata⟩
  · exact Or.inl (Disk.read_congr hlive fun id hid => h.kept id (Disk.live_lt hid))
  · exact Or.inr ⟨i, by rw [Disk.read_file hlive, hdata]⟩

theorem crash_destination {image : List Str → Option (Disk.Entry Bytes)}
    (hcrash : world.disk.Crash image) :
    (∃ earlier, before.Crash earlier ∧ image destination.path = earlier destination.path) ∨
      ∃ i, image destination.path = some (.file (data i)) := by
  obtain ⟨node, hmay, hleaves⟩ := hcrash destination.path
  rcases h.may node hmay with hmay | ⟨i, id, rfl, -, -, hdata⟩
  · have hleaves' : before.Leaves node (image destination.path) := by
      refine Disk.leaves_congr (fun id hid => h.kept id ?_) hleaves
      exact before.numbered destination.path id (hid ▸ hmay)
    obtain ⟨earlier, hearlier, hsame⟩ := Disk.exists_crash hmay hleaves'
    exact Or.inl ⟨earlier, hearlier, hsame.symm⟩
  · obtain ⟨content, hentry, hcontent⟩ := hleaves
    rw [hdata] at hcontent
    exact Or.inr ⟨i, by rw [hentry, hcontent rfl]⟩

end Consistent

variable [DecidableEq ι]

theorem step_consistent (h : Consistent destination data before world) (turn : ι × OsAnswer) :
    Consistent destination data before (world.step destination data turn).2 := by
  obtain ⟨hmove, hshape⟩ := advance_move destination world.disk (h.shape turn.1) turn.2
  exact h.move hmove hshape

theorem run_consistent (disk : Disk Str Bytes) (turns : List (ι × OsAnswer)) :
    Consistent destination data disk
      (Machine.run (step destination data) (start disk) turns).2 :=
  Machine.run_invariant (I := Consistent destination data disk)
    (fun _ turn h => step_consistent h turn) (start_consistent disk) turns

end World

/-- **Concurrent writes and a crash leave the destination whole.** Whatever writes to one
destination have done so far, it holds what it did, or all of the data of one of them. After a crash
it holds what a crash could have left of it before they started, or all of the data of one of them.
Each has a file of its own. No call touches an entry or a file but the destination and the write's
own file, and a write that has exited has left that file nowhere but at the destination, unless its
clean-up failed. -/
theorem atomicWrites_consistent {ι : Type} [DecidableEq ι] (destination : Destination)
    (data : ι → Bytes) (disk : Disk Str Bytes) (turns : List (ι × OsAnswer)) :
    let world := (Machine.run (World.step destination data) (World.start disk) turns).2
    (world.disk.read destination.path = disk.read destination.path ∨
      ∃ i, world.disk.read destination.path = some (.file (data i))) ∧
    (∀ image, world.disk.Crash image →
      (∃ i, image destination.path = some (.file (data i))) ∨
      (∃ earlier, disk.Crash earlier ∧ image destination.path = earlier destination.path) ∧
        (disk.Durable destination.path →
          image destination.path = disk.read destination.path)) ∧
    (∀ i id, (world.writers i).file = some id → disk.next ≤ id ∧
      ∀ j, (world.writers j).file = some id → j = i) ∧
    (∀ i answer p, p ≠ destination.path → (world.disk.slots p).live ≠ none →
      (∀ id, (world.disk.slots p).live = some (.file id) → (world.writers i).file ≠ some id) →
      world.disk.Untouched (world.step destination data (i, answer)).2.disk p) ∧
    ∀ i raised, (world.writers i).line = .exited raised → (world.writers i).unclean = false →
      ∀ id p, (world.writers i).file = some id → p ≠ destination.path →
        (world.disk.slots p).live ≠ some (.file id) := by
  intro world
  have h : World.Consistent destination data disk world := World.run_consistent disk turns
  refine ⟨h.read_destination, fun image hcrash => ?_, fun i id hfile => ?_,
    fun i answer p hp hlive hother => ?_, fun i raised hline hclean id p hfile hp hlive => ?_⟩
  · rcases h.crash_destination hcrash with ⟨earlier, hearlier, hsame⟩ | hdata
    · refine Or.inr ⟨⟨earlier, hearlier, hsame⟩, fun hdurable => ?_⟩
      rw [hsame, Disk.crash_durable hdurable hearlier]
    · exact Or.inl hdata
  · exact ⟨(h.numbered i id hfile).1, fun j hj => h.distinct j i id hj hfile⟩
  · exact (advance_move destination world.disk (h.shape i) answer).1.untouched (h.placed i)
      hp hlive hother
  · rcases h.only i id p hfile hlive with hpath | hpath | hunclean
    · have hshape := h.shape i
      rw [Writer.Shape, hline] at hshape
      rw [hshape.1] at hpath
      cases hpath
    · exact hp hpath
    · rw [hclean] at hunclean
      cases hunclean

end CypherSyntax
