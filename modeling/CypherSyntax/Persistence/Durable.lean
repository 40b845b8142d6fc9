import CypherSyntax.Persistence.Crash

/-!
# Writes that return

What is left of a call of `atomic_write_bytes` (persistence.py) that has returned on POSIX when the
file system crashes later. The call syncs its file, and then the directory that the file is in
(`_sync_directory`). It does not sync the directories above that one, although `parent.mkdir` may
have created them.

Results:
* `run_landed`: a write that has returned on POSIX has made its entry durable.
* `World.run_above`: the directories above it are as durable as they were, whoever writes.
* `World.crash_found`: what a crash leaves to be found was there before, or is the data of a write.
* `returned_durable_iff`: the data survives exactly when these directories were there, durably,
  before the call.
-/

namespace CypherSyntax

open Python FileSystem

variable {destination : Destination} {data : Bytes} {disk : Disk Str Bytes} {writer : Writer}

/-! ## The destination -/

/-- The data is at the destination, in a file that is synced. -/
def Lands (destination : Destination) (data : Bytes) (disk : Disk Str Bytes) : Prop :=
  ∃ id, (disk.slots destination.path).live = some (.file id) ∧ disk.files id = ⟨data, true⟩

/-- What a write that may still return has reached. -/
def Landed (destination : Destination) (data : Bytes) (disk : Disk Str Bytes) (writer : Writer) :
    Prop :=
  match writer.line with
  | .chmod | .openDirectory | .fsyncDirectory => Lands destination data disk
  | .closeDirectory false | .exited false =>
    Lands destination data disk ∧ disk.Durable destination.path
  | .close false | .unlink false => False
  | _ => True

theorem landed_cleanUp (hheld : writer.Holds) :
    Landed destination data disk (writer.cleanUp true) := by
  rcases Writer.cleanUp_held hheld true with ⟨-, h⟩ | ⟨-, h⟩
  all_goals
    rw [h]
    exact trivial

/-- Replacing the destination lands the data that is synced. -/
theorem lands_rename {id : Nat} {path : List Str} (hne : path ≠ destination.path)
    (hlive : (disk.slots path).live = some (.file id)) (hdata : disk.files id = ⟨data, true⟩) :
    Lands destination data (disk.apply (.rename path destination.path)) := by
  refine ⟨id, ?_, ?_⟩
  · rw [Disk.slots_rename hne, if_neg hne.symm, if_pos rfl]
    exact hlive
  · rw [Disk.files_rename, hdata]

/-- Syncing the directory of the destination makes its entry durable. -/
theorem lands_fsyncDirectory (h : Lands destination data disk) :
    Lands destination data (disk.apply (.fsyncDirectory destination.parent)) ∧
      (disk.apply (.fsyncDirectory destination.parent)).Durable destination.path := by
  obtain ⟨id, hlive, hdata⟩ := h
  have hslot : (disk.apply (.fsyncDirectory destination.parent)).slots destination.path =
      (disk.slots destination.path).settle := by
    rw [Disk.slots_fsyncDirectory,
      if_pos ⟨Destination.path_ne_nil, Destination.path_dropLast⟩]
  refine ⟨⟨id, by rw [hslot]; exact hlive, hdata⟩, fun node hmay => ?_, fun other hother => ?_⟩
  · rw [hslot] at hmay ⊢
    exact Slot.may_settle.mp hmay
  · rw [hslot] at hother
    cases hlive.symm.trans hother
    rw [Disk.files_fsyncDirectory, hdata]

/-- Every call keeps what the write has reached. -/
theorem advance_landed (hposix : destination.windows = false) (hshape : writer.Shape data)
    (hplaced : Move.Placed destination data disk writer)
    (hready : writer.Ready → ∀ id, writer.file = some id → disk.files id = ⟨data, true⟩)
    (h : Landed destination data disk writer) (answer : OsAnswer) :
    Landed destination data (disk.apply (advance destination data disk writer answer).2)
      (advance destination data disk writer answer).1 := by
  unfold advance
  unfold Writer.Shape at hshape
  unfold Landed at h
  cases hline : writer.line with
  | mkdir =>
    dsimp only
    split
    · exact trivial
    · split <;> exact trivial
  | isSymlink =>
    dsimp only
    split <;> exact trivial
  | mkstemp =>
    simp only [hline] at hshape ⊢
    split
    · rw [Writer.cleanUp_free hshape.2.1 hshape.2.2.1]
      exact trivial
    · split
      · unfold Landed
        rw [hline]
        exact trivial
      · exact trivial
  | fchmod =>
    dsimp only
    exact trivial
  | fdopen =>
    simp only [hline] at hshape ⊢
    split
    · exact landed_cleanUp hshape.1
    · exact trivial
  | write =>
    simp only [hline] at hshape ⊢
    split
    · rw [send_stays hshape.1, hline]
      exact trivial
    · split <;> exact trivial
  | flush =>
    simp only [hline] at hshape ⊢
    split
    · rw [send_stays hshape.1, hline]
      exact trivial
    · split <;> exact trivial
  | fsync =>
    dsimp only
    split <;> exact trivial
  | closeHandle raised =>
    simp only [hline] at hshape ⊢
    have hheld : writer.Holds := by
      cases raised
      · exact hshape.1
      · exact hshape.1
    split
    · rw [send_stays hheld, hline]
      exact trivial
    · split
      · refine landed_cleanUp ?_
        rw [Writer.send_held data hheld]
        exact hheld
      · exact trivial
  | replace =>
    simp only [hline] at hshape ⊢
    obtain ⟨id, hid⟩ := Option.isSome_iff_exists.mp hshape.1.1
    obtain ⟨path, hpath⟩ := Option.isSome_iff_exists.mp hshape.1.2
    rw [hpath]
    simp only
    split
    · exact landed_cleanUp hshape.1
    · exact lands_rename (hplaced.ne_path hid hpath) (hplaced id path hid hpath).2.1
        (hready (Or.inr hline) id hid)
  | chmod =>
    simp only [hline] at h ⊢
    rw [if_neg (by rw [hposix]; exact Bool.false_ne_true)]
    exact h
  | openDirectory =>
    simp only [hline] at hshape h ⊢
    split
    · rw [Writer.cleanUp_free hshape.2.1 hshape.2.2]
      exact trivial
    · exact h
  | fsyncDirectory =>
    simp only [hline] at h ⊢
    split
    · exact trivial
    · exact lands_fsyncDirectory h
  | closeDirectory raised =>
    simp only [hline] at hshape h ⊢
    rw [Writer.cleanUp_free hshape.2.1 hshape.2.2]
    cases hraised : (answer.fails || raised) with
    | true => exact trivial
    | false =>
      obtain ⟨-, rfl⟩ := Bool.or_eq_false_iff.mp hraised
      exact h
  | close raised =>
    simp only [hline] at hshape h ⊢
    cases raised with
    | true =>
      split
      · exact trivial
      · rw [Writer.unlinkTemporary, if_pos hshape.1.2]
        exact trivial
    | false => exact h.elim
  | unlink raised =>
    simp only [hline] at h ⊢
    cases raised with
    | true => split <;> exact trivial
    | false => exact h.elim
  | exited raised =>
    simp only [hline] at h ⊢
    unfold Landed
    rw [hline]
    exact h

/-! ## The directories above -/

/-- A call changes a directory above the destination only where it creates it. -/
theorem Move.slots_above {writer' : Writer} {effect : Effect Str Bytes}
    (h : Move destination data disk writer writer' effect)
    (hplaced : Placed destination data disk writer) {p : List Str} (hp : p ≠ [])
    (habove : p <+: destination.parent) : (disk.apply effect).slots p = disk.slots p ∨
      (disk.slots p).live = none ∧
        (disk.apply effect).slots p = (disk.slots p).set (some .directory) := by
  obtain ⟨hpath, htemporary⟩ := Destination.above_ne habove
  cases h with
  | quiet file path sent unclean ready quiet =>
    cases effect with
    | nothing => exact Or.inl rfl
    | mkdirs path =>
      rw [Disk.slots_mkdirs]
      split
      · rename_i hmissing
        exact Or.inr ⟨hmissing.2.2, rfl⟩
      · exact Or.inl rfl
    | fsyncDirectory path =>
      rw [Disk.slots_fsyncDirectory, if_neg]
      · exact Or.inl rfl
      · -- the directory of an entry above the destination is above the parent
        rintro ⟨-, hdirectory⟩
        have hlength := habove.length_le
        have hshorter := congrArg List.length (hdirectory.trans quiet)
        rw [List.length_dropLast] at hshorter
        have hpos := List.length_pos_of_ne_nil hp
        omega
    | _ => exact quiet.elim
  | create random file sent free =>
    rw [Disk.slots_create, if_neg (htemporary random)]
    exact Or.inl rfl
  | rename id path file held ready =>
    obtain ⟨random, rfl⟩ := (hplaced id path file held).1
    rw [Disk.slots_rename (hplaced.ne_path file held), if_neg (htemporary random), if_neg hpath]
    exact Or.inl rfl
  | unlink id path raised file held =>
    obtain ⟨random, rfl⟩ := (hplaced id path file held).1
    rw [Disk.slots_unlink, if_neg (htemporary random)]
    exact Or.inl rfl
  | _ => exact Or.inl rfl

/-- How the directories above the destination compare to what they were. -/
structure Above (destination : Destination) (before disk : Disk Str Bytes) (p : List Str) :
    Prop where
  /-- What a crash could leave, it still can. -/
  may : ∀ node, (before.slots p).May node → (disk.slots p).May node
  /-- What was there is as it was. -/
  kept : (before.slots p).live ≠ none → disk.slots p = before.slots p

theorem Above.move {before : Disk Str Bytes} {p : List Str} {writer' : Writer}
    {effect : Effect Str Bytes} (h : Above destination before disk p)
    (hmove : Move destination data disk writer writer' effect)
    (hplaced : Move.Placed destination data disk writer) (hp : p ≠ [])
    (habove : p <+: destination.parent) : Above destination before (disk.apply effect) p := by
  rcases hmove.slots_above hplaced hp habove with hslot | ⟨hnone, hslot⟩
  · refine ⟨fun node hmay => ?_, fun hlive => ?_⟩
    · rw [hslot]
      exact h.may node hmay
    · rw [hslot]
      exact h.kept hlive
  · refine ⟨fun node hmay => ?_, fun hlive => ?_⟩
    · rw [hslot]
      exact Slot.may_set.mpr (Or.inr (h.may node hmay))
    · rw [h.kept hlive] at hnone
      exact absurd hnone hlive

theorem Above.durableDirectory_iff {before : Disk Str Bytes} {p : List Str}
    (h : Above destination before disk p) :
    disk.DurableDirectory p ↔ before.DurableDirectory p := by
  constructor
  · exact fun hdurable node hmay => hdurable node (h.may node hmay)
  · intro hdurable
    have hlive : (before.slots p).live = some .directory := hdurable _ (Slot.may_live _)
    have hslot := h.kept (by simp [hlive])
    exact fun node hmay => hdurable node (hslot ▸ hmay)

/-- The directories above the destination are there, and no crash takes them away. -/
def DurablyInside (destination : Destination) (disk : Disk Str Bytes) : Prop :=
  ∀ p, p ≠ [] → p <+: destination.parent → disk.DurableDirectory p

theorem durablyInside_iff : DurablyInside destination disk ↔
    ∀ image, disk.Crash image → Disk.Reachable image destination.parent :=
  ⟨fun h _ hcrash p hp habove => Disk.durableDirectory_iff.mp (h p hp habove) _ hcrash,
    fun h p hp habove => Disk.durableDirectory_iff.mpr fun image hcrash =>
      h image hcrash p hp habove⟩

/-! ### What is found -/

/-- What a crash may leave at the destination lies in directories that it may leave. -/
def Rooted (destination : Destination) (disk : Disk Str Bytes) : Prop :=
  ∀ node, (disk.slots destination.path).May (some node) →
    ∀ p, p ≠ [] → p <+: destination.parent → (disk.slots p).May (some .directory)

section Found

variable {image : List Str → Option (Disk.Entry Bytes)}

theorem find_destination (h : Disk.Reachable image destination.parent) :
    Disk.find image destination.path = image destination.path := by
  rw [← Destination.path_dropLast] at h
  exact Disk.find_reachable h

theorem find_destination_lost (h : ¬ Disk.Reachable image destination.parent) :
    Disk.find image destination.path = none := by
  rw [← Destination.path_dropLast] at h
  exact Disk.find_unreachable h

/-- What a crash may leave at the destination, it may leave to be found. -/
theorem Rooted.found (hrooted : Rooted destination disk) (hcrash : disk.Crash image) :
    ∃ other, disk.Crash other ∧
      Disk.find other destination.path = image destination.path := by
  cases hentry : image destination.path with
  | none =>
    refine ⟨image, hcrash, ?_⟩
    by_cases hreachable : Disk.Reachable image destination.parent
    · rw [find_destination hreachable, hentry]
    · exact find_destination_lost hreachable
  | some entry =>
    obtain ⟨node, hmay, hleaves⟩ := hcrash destination.path
    cases node with
    | none => cases hentry.symm.trans hleaves
    | some node =>
      -- the entry is left together with its directories
      obtain ⟨other, hother, hthere, helsewhere⟩ := hcrash.reachable (hrooted node hmay)
      refine ⟨other, hother, ?_⟩
      rw [find_destination hthere, helsewhere _ fun h => (Destination.above_ne h).1 rfl, hentry]

end Found

namespace World

variable {ι : Type} [DecidableEq ι] {writes : ι → Bytes} {before : Disk Str Bytes} {old : World ι}

/-- The directories above the destination are as they were, whoever writes. -/
theorem run_above (hold : Consistent destination writes before old)
    (turns : List (ι × OsAnswer)) {p : List Str} (hp : p ≠ []) (habove : p <+: destination.parent) :
    Above destination old.disk (Machine.run (step destination writes) old turns).2.disk p := by
  refine (Machine.run_invariant (I := fun world => Consistent destination writes before world ∧
    Above destination old.disk world.disk p) (fun world turn ⟨hworld, h⟩ => ?_)
    ⟨hold, fun _ hmay => hmay, fun _ => rfl⟩ turns).2
  have hmove := (advance_move destination world.disk (hworld.shape turn.1) turn.2).1
  exact ⟨step_consistent hworld turn, h.move hmove (hworld.placed turn.1) hp habove⟩

/-- **No write makes the directories above the destination durable**, and none takes them away. -/
theorem run_inside (hold : Consistent destination writes before old)
    (turns : List (ι × OsAnswer)) :
    DurablyInside destination (Machine.run (step destination writes) old turns).2.disk ↔
      DurablyInside destination old.disk :=
  forall_congr' fun _ => forall_congr' fun hp => forall_congr' fun habove =>
    (run_above hold turns hp habove).durableDirectory_iff

/-- Directories that a crash takes away could be taken away before the writes. -/
theorem crash_lost (hold : Consistent destination writes before old)
    (turns : List (ι × OsAnswer)) {image : List Str → Option (Disk.Entry Bytes)}
    (hcrash : (Machine.run (step destination writes) old turns).2.disk.Crash image)
    (hlost : ¬ Disk.Reachable image destination.parent) :
    ∃ earlier, old.disk.Crash earlier ∧ ¬ Disk.Reachable earlier destination.parent := by
  have hinside : ¬ DurablyInside destination old.disk := fun h =>
    hlost (durablyInside_iff.mp ((run_inside hold turns).mpr h) image hcrash)
  rw [durablyInside_iff] at hinside
  push Not at hinside
  exact hinside

/-- **What a crash leaves to be found**: what it could have left before the writes, or the data of
one of them. -/
theorem crash_found (hrooted : Rooted destination disk) (turns : List (ι × OsAnswer))
    {image : List Str → Option (Disk.Entry Bytes)}
    (hcrash : (Machine.run (step destination writes) (start disk) turns).2.disk.Crash image) :
    (∃ earlier, disk.Crash earlier ∧
      Disk.find image destination.path = Disk.find earlier destination.path) ∨
    ∃ k, Disk.find image destination.path = some (.file (writes k)) := by
  by_cases hreachable : Disk.Reachable image destination.parent
  · rw [find_destination hreachable]
    rcases (run_consistent disk turns).crash_destination hcrash with ⟨before, hbefore, hsame⟩ | hk
    · obtain ⟨earlier, hearlier, hfound⟩ := hrooted.found hbefore
      exact Or.inl ⟨earlier, hearlier, hsame.trans hfound.symm⟩
    · exact Or.inr hk
  · obtain ⟨earlier, hearlier, hlost⟩ := crash_lost (start_consistent disk) turns hcrash hreachable
    rw [find_destination_lost hreachable]
    exact Or.inl ⟨earlier, hearlier, (find_destination_lost hlost).symm⟩

end World

/-! ## A write by itself -/

/-- What the operating system answers to a single write. -/
def World.runAlone (destination : Destination) (data : Bytes) (disk : Disk Str Bytes)
    (answers : List OsAnswer) : World Unit :=
  (Machine.run (World.step destination fun _ => data) (World.start disk)
    (answers.map fun answer => ((), answer))).2

/-- What holds of a single write at any time. -/
structure Alone (destination : Destination) (data : Bytes) (before : Disk Str Bytes)
    (world : World Unit) : Prop where
  consistent : World.Consistent destination (fun _ => data) before world
  landed : destination.windows = false → Landed destination data world.disk (world.writers ())

theorem run_alone (destination : Destination) (data : Bytes) (before : Disk Str Bytes)
    (answers : List OsAnswer) :
    Alone destination data before (World.runAlone destination data before answers) := by
  refine Machine.run_invariant (I := Alone destination data before) (fun world turn h => ?_)
    ⟨World.start_consistent before, fun _ => trivial⟩ _
  refine ⟨World.step_consistent h.consistent turn, fun hposix => ?_⟩
  have hlanded := advance_landed hposix (h.consistent.shape ()) (h.consistent.placed ())
    (h.consistent.ready ()) (h.landed hposix) turn.2
  show Landed destination data _ (Function.update world.writers () _ ())
  rwa [Function.update_self]

/-- **A write that has returned on POSIX has made its entry durable.** -/
theorem run_landed (hposix : destination.windows = false) {answers : List OsAnswer}
    (hreturned : ((World.runAlone destination data disk answers).writers ()).line =
      .exited false) :
    Lands destination data (World.runAlone destination data disk answers).disk ∧
      (World.runAlone destination data disk answers).disk.Durable destination.path := by
  have h := (run_alone destination data disk answers).landed hposix
  unfold Landed at h
  rw [hreturned] at h
  exact h

/-! ## What survives -/

/-- A crash at any later time leaves the data at the destination, and the directories that lead
there from the root, as long as nothing replaces them. -/
def Survives (destination : Destination) (data : Bytes) (disk : Disk Str Bytes) : Prop :=
  ∀ (later : List (Effect Str Bytes)) (image : List Str → Option (Disk.Entry Bytes)),
    (∀ effect ∈ later, ∀ p, p ≠ [] → p <+: destination.path → disk.Spares p effect) →
    (later.foldl Disk.apply disk).Crash image →
      image destination.path = some (.file data) ∧ Disk.Reachable image destination.parent

theorem survives_of_durable {answers : List OsAnswer} (hposix : destination.windows = false)
    (hreturned : ((World.runAlone destination data disk answers).writers ()).line =
      .exited false) (h : DurablyInside destination disk) :
    Survives destination data (World.runAlone destination data disk answers).disk := by
  obtain ⟨⟨id, hlive, hdata⟩, hdurable⟩ := run_landed hposix hreturned
  have hinside : DurablyInside destination (World.runAlone destination data disk answers).disk :=
    (World.run_inside (World.start_consistent disk) _).mpr h
  intro later image hspares hcrash
  constructor
  · have htouched := Disk.spares_untouched (by simp [hlive]) hdurable later fun effect heffect =>
      hspares effect heffect _ Destination.path_ne_nil List.prefix_rfl
    rw [Disk.crash_durable (htouched.durable hdurable) hcrash, htouched.read,
      Disk.read_file hlive, hdata]
  · intro p hp habove
    have hthere := hinside p hp habove _ (Slot.may_live _)
    have hkept := (hinside p hp habove).durable
    have htouched := Disk.spares_untouched (by simp [hthere]) hkept later fun effect heffect =>
      hspares effect heffect p hp (habove.trans (List.prefix_append _ _))
    rw [Disk.crash_durable (htouched.durable hkept) hcrash, htouched.read, Disk.read, hthere]
    rfl

theorem durable_of_survives {answers : List OsAnswer}
    (h : Survives destination data (World.runAlone destination data disk answers).disk) :
    DurablyInside destination disk := by
  have hinside : DurablyInside destination (World.runAlone destination data disk answers).disk :=
    durablyInside_iff.mpr fun image hcrash =>
      (h [] image (fun _ hmem => absurd hmem List.not_mem_nil) hcrash).2
  exact (World.run_inside (World.start_consistent disk) _).mp hinside

/-- **What a write that has returned leaves survives any later crash if and only if the directories
above the destination were there, durably, before the call.** -/
theorem returned_durable_iff (hposix : destination.windows = false) {answers : List OsAnswer}
    (hreturned : ((World.runAlone destination data disk answers).writers ()).line =
      .exited false) :
    Survives destination data (World.runAlone destination data disk answers).disk ↔
      DurablyInside destination disk :=
  ⟨durable_of_survives, survives_of_durable hposix hreturned⟩

/-- A file system with nothing on it but one directory and those above it. -/
def directoryDisk (path : List Str) : Disk Str Bytes where
  slots p := if p <+: path then ⟨some .directory, []⟩ else ⟨none, []⟩
  files _ := ⟨[], true⟩
  next := 0
  numbered p id hmay := by
    rcases hmay with hmay | hmay
    · split at hmay <;> cases hmay
    · split at hmay <;> cases hmay

/-- Fourteen calls, none of which fails. -/
def quietAnswers : List OsAnswer := List.replicate 14 ⟨false, false, 0, lit "q7zk3w_x"⟩

theorem inside_directoryDisk (directory : List Str) (name : Str) (windows : Bool) :
    DurablyInside ⟨directory, name, windows⟩ (directoryDisk directory) := by
  intro p _ habove node hmay
  have hslot : (directoryDisk directory).slots p = ⟨some .directory, []⟩ := if_pos habove
  rw [hslot] at hmay
  exact hmay.resolve_right List.not_mem_nil

theorem rooted_directoryDisk (directory : List Str) (name : Str) (windows : Bool) :
    Rooted ⟨directory, name, windows⟩ (directoryDisk directory) := by
  intro node hmay
  have hslot : (directoryDisk directory).slots (Destination.path ⟨directory, name, windows⟩) =
      ⟨none, []⟩ := if_neg fun h => by simpa [Destination.path] using h.length_le
  rw [hslot] at hmay
  rcases hmay with hmay | hmay
  · cases hmay
  · cases hmay

theorem not_inside_directoryDisk (name : Str) (windows : Bool) :
    ¬ DurablyInside ⟨[lit "new"], name, windows⟩ (directoryDisk []) := by
  intro h
  have hmissing : ((directoryDisk []).slots [lit "new"]).live = none :=
    congrArg Slot.live (if_neg (by simp))
  have hdirectory := h [lit "new"] (by simp) List.prefix_rfl _ (Slot.may_live _)
  rw [hmissing] at hdirectory
  cases hdirectory

/-- A write into a directory that was there survives, and one into a directory that it creates does
not. -/
theorem returned_durable_iff_inside :
    Survives ⟨[lit "keys"], lit "state.bin", false⟩ [1]
        (World.runAlone ⟨[lit "keys"], lit "state.bin", false⟩ [1] (directoryDisk [lit "keys"])
          quietAnswers).disk ∧
      ¬ Survives ⟨[lit "new"], lit "state.bin", false⟩ [1]
        (World.runAlone ⟨[lit "new"], lit "state.bin", false⟩ [1] (directoryDisk [])
          quietAnswers).disk :=
  ⟨(returned_durable_iff rfl (by decide +kernel)).mpr (inside_directoryDisk _ _ _),
    fun h => not_inside_directoryDisk _ _ ((returned_durable_iff rfl (by decide +kernel)).mp h)⟩

/-- A directory that the write creates is lost with the file in it. -/
theorem returned_durable_not : ¬∀ (destination : Destination) (data : Bytes)
    (disk : Disk Str Bytes) (answers : List OsAnswer), destination.windows = false →
      ((World.runAlone destination data disk answers).writers ()).line = .exited false →
      Survives destination data (World.runAlone destination data disk answers).disk := by
  intro h
  have hsurvives := h ⟨[lit "new"], lit "state.bin", false⟩ [1] (directoryDisk []) quietAnswers rfl
    (by decide +kernel)
  exact not_inside_directoryDisk _ _ (durable_of_survives hsurvives)

end CypherSyntax
