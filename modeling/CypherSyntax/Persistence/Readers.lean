import CypherSyntax.Persistence.Order
import CypherSyntax.Register

/-!
# Reads while writes are under way

`Path.read_bytes` on the destination of any number of writes, call by call: it opens the file and
reads until nothing is left, and the writes go on in between. A read keeps the file that it has
opened, wherever the name leads by then.

Results:
* `advance_taken`: a write that has got past `os.replace` has made it.
* `step_linear`: a call of any write or read keeps the order in which they take effect.
* `reads_linearizable`: the destination is a register. Writes and reads take effect one after
  another, each between its first call and its last one, and a read whose calls do not fail returns
  whatever the others do.
-/

namespace CypherSyntax

open Python FileSystem Register

/-- A call of `read_bytes` that is under way. -/
inductive Reader where
  | start
  /-- The file is open, and some of it is read. -/
  | reading (id : Nat) (buffer : Bytes)
  | returned (data : Bytes)
  | raised
  deriving DecidableEq

/-- What the operating system does in a call of a read. -/
structure ReadAnswer where
  /-- The call raises `OSError`. -/
  fails : Bool
  /-- A call that reads gets at most this many bytes and one. -/
  length : Nat
  /-- The file that a symbolic link leads to. -/
  target : Option Nat

/-- One call of the operating system. -/
def Reader.advance (path : List Str) (disk : Disk Str Bytes) (reader : Reader)
    (answer : ReadAnswer) : Reader :=
  match reader with
  | .start =>
    if answer.fails then .raised
    else match (disk.slots path).live with
      | some (.file id) => .reading id []
      | some .link => (answer.target.map fun id => Reader.reading id []).getD .raised
      | _ => .raised
  | .reading id buffer =>
    let chunk := ((disk.files id).content.drop buffer.length).take (answer.length + 1)
    if answer.fails then .raised
    else if chunk = [] then .returned buffer
    else .reading id (buffer ++ chunk)
  | reader => reader

/-- What a call of an open read does that does not fail. -/
theorem Reader.advance_reading (path : List Str) {disk : Disk Str Bytes} {id : Nat} {buffer : Bytes}
    {answer : ReadAnswer} (hbuffer : buffer <+: (disk.files id).content)
    (hfails : answer.fails = false) :
    (Reader.reading id buffer).advance path disk answer = .returned (disk.files id).content ∨
      ∃ more, (Reader.reading id buffer).advance path disk answer = .reading id more ∧
        more <+: (disk.files id).content ∧ buffer.length < more.length := by
  obtain ⟨rest, hrest⟩ := hbuffer
  have hdrop : (disk.files id).content.drop buffer.length = rest := by
    rw [← hrest, List.drop_left]
  unfold Reader.advance
  simp only [hdrop, hfails, Bool.false_eq_true, if_false]
  cases rest with
  | nil =>
    rw [List.append_nil] at hrest
    exact Or.inl (by rw [List.take_nil, if_pos rfl, hrest])
  | cons byte rest =>
    rw [List.take_succ_cons, if_neg (List.cons_ne_nil _ _)]
    refine Or.inr ⟨_, rfl, ?_, ?_⟩
    · rw [← hrest, List.prefix_append_right_inj, List.cons_prefix_cons]
      exact ⟨rfl, List.take_prefix _ _⟩
    · rw [List.length_append, List.length_cons]
      omega

theorem Reader.advance_fails {path : List Str} {disk : Disk Str Bytes} {id : Nat} {buffer : Bytes}
    {answer : ReadAnswer} (hfails : answer.fails = true) :
    (Reader.reading id buffer).advance path disk answer = .raised := by
  unfold Reader.advance
  simp only [hfails, if_true]

/-! ## Writes and reads -/

/-- The writes to the destination and the reads of it. -/
structure Users (ι κ : Type) where
  world : World ι
  readers : κ → Reader

/-- Which write or read makes a call, and what the operating system does. -/
inductive Turn (ι κ : Type) where
  | write (i : ι) (answer : OsAnswer)
  | read (j : κ) (answer : ReadAnswer)

/-- The turns of one read. -/
def Turn.reads {ι κ : Type} [DecidableEq κ] (j : κ) : Turn ι κ → Bool
  | .read k _ => k = j
  | .write _ _ => false

namespace Users

variable {ι κ : Type}

def start (disk : Disk Str Bytes) : Users ι κ := ⟨.start disk, fun _ => .start⟩

/-- A write takes effect when it renames its file. -/
def written (i : ι) : Effect Str Bytes → Option (Access ι κ)
  | .rename _ _ => some (.write i)
  | _ => none

/-- A read takes effect when it opens the destination. -/
def opened (j : κ) : Reader → Reader → Option (Access ι κ)
  | .start, .reading _ _ => some (.read j)
  | _, _ => none

section Step

variable [DecidableEq ι] [DecidableEq κ] (destination : Destination) (data : ι → Bytes)

def step (users : Users ι κ) : Turn ι κ → Option (Access ι κ) × Users ι κ
  | .write i answer =>
    let (effect, world) := users.world.step destination data (i, answer)
    (written i effect, { users with world })
  | .read j answer =>
    let reader := (users.readers j).advance destination.path users.world.disk answer
    (opened j (users.readers j) reader,
      { users with readers := Function.update users.readers j reader })

/-- The state that the turns lead to. -/
def reached (users : Users ι κ) (turns : List (Turn ι κ)) : Users ι κ :=
  (Machine.run (step destination data) users turns).2

/-- The accesses that the turns make, in the order in which they take effect. -/
def history (users : Users ι κ) (turns : List (Turn ι κ)) : List (Access ι κ) :=
  (Machine.run (step destination data) users turns).1.reduceOption

end Step

end Users

/-! ## What a write has done -/

/-- The lines that a write gets to by `os.replace` only. -/
def Line.Taken : Line → Prop
  | .chmod | .openDirectory | .fsyncDirectory | .closeDirectory false | .close false
  | .unlink false | .exited false => True
  | _ => False

section Taken

open Writer

variable {destination : Destination} {data : Bytes} {disk : Disk Str Bytes} {writer : Writer}

theorem not_taken_cleanUp (writer : Writer) : ¬ (writer.cleanUp true).line.Taken := by
  unfold Writer.cleanUp Writer.unlinkTemporary
  split
  · exact id
  · split <;> exact id

theorem taken_cleanUp {raised : Bool} (h : (writer.cleanUp raised).line.Taken) :
    raised = false := by
  cases raised with
  | true => exact absurd h (not_taken_cleanUp writer)
  | false => rfl

theorem send_line (writer : Writer) (data : Bytes) (sent : Nat) :
    (writer.send data sent).1.line = writer.line := by
  unfold Writer.send
  split
  · split <;> rfl
  · rfl

/-- **A write that has got past `os.replace` has made it**, now or before. -/
theorem advance_taken {answer : OsAnswer}
    (h : (advance destination data disk writer answer).1.line.Taken) :
    writer.line.Taken ∨ ∃ path, writer.temporaryPath = some path ∧
      (advance destination data disk writer answer).2 = .rename path destination.path := by
  unfold advance at h ⊢
  cases hline : writer.line with
  | mkdir =>
    simp only [hline] at h
    split at h
    · exact h.elim
    · split at h <;> exact h.elim
  | isSymlink =>
    simp only [hline] at h
    split at h <;> exact h.elim
  | mkstemp =>
    simp only [hline] at h
    split at h
    · exact absurd h (not_taken_cleanUp writer)
    · split at h
      · rw [hline] at h
        exact h.elim
      · exact h.elim
  | fchmod =>
    simp only [hline] at h
    exact h.elim
  | fdopen =>
    simp only [hline] at h
    split at h
    · exact absurd h (not_taken_cleanUp writer)
    · exact h.elim
  | write =>
    simp only [hline] at h
    split at h
    · rw [send_line, hline] at h
      exact h.elim
    · split at h <;> exact h.elim
  | flush =>
    simp only [hline] at h
    split at h
    · rw [send_line, hline] at h
      exact h.elim
    · split at h <;> exact h.elim
  | fsync =>
    simp only [hline] at h
    split at h <;> exact h.elim
  | closeHandle raised =>
    simp only [hline] at h
    split at h
    · rw [send_line, hline] at h
      exact h.elim
    · split at h
      · exact absurd h (not_taken_cleanUp _)
      · exact h.elim
  | replace =>
    simp only [hline] at h ⊢
    cases hpath : writer.temporaryPath with
    | none =>
      simp only [hpath] at h
      exact absurd h (not_taken_cleanUp writer)
    | some path =>
      simp only [hpath] at h ⊢
      split at h
      · exact absurd h (not_taken_cleanUp writer)
      · rename_i hgo
        rw [if_neg hgo]
        exact Or.inr ⟨path, rfl, rfl⟩
  | chmod => exact Or.inl trivial
  | openDirectory => exact Or.inl trivial
  | fsyncDirectory => exact Or.inl trivial
  | closeDirectory raised =>
    simp only [hline] at h
    obtain ⟨-, rfl⟩ := Bool.or_eq_false_iff.mp (taken_cleanUp h)
    exact Or.inl trivial
  | close raised =>
    simp only [hline] at h
    split at h
    · exact h.elim
    · cases raised with
      | true =>
        unfold Writer.unlinkTemporary at h
        split at h <;> exact h.elim
      | false => exact Or.inl trivial
  | unlink raised =>
    cases raised with
    | true =>
      simp only [hline] at h
      split at h <;> exact h.elim
    | false => exact Or.inl trivial
  | exited raised =>
    simp only [hline] at h
    exact Or.inl h

end Taken

/-- A move that is no renaming leaves the destination alone. -/
theorem Move.live_of_not_rename {destination : Destination} {data : Bytes} {disk : Disk Str Bytes}
    {writer writer' : Writer} {effect : Effect Str Bytes}
    (h : Move destination data disk writer writer' effect)
    (hplaced : Placed destination data disk writer)
    (hrename : ∀ source target, effect ≠ .rename source target) :
    ((disk.apply effect).slots destination.path).live = (disk.slots destination.path).live := by
  cases h with
  | quiet file path sent unclean ready quiet =>
    cases effect with
    | mkdirs path =>
      have habove : ¬ destination.path <+: path := fun h =>
        (Destination.above_ne (h.trans quiet)).1 rfl
      rw [Disk.slots_mkdirs, if_neg fun h => habove h.1]
    | fsyncDirectory path => exact Disk.live_fsyncDirectory
    | nothing => rfl
    | _ => exact quiet.elim
  | create random file sent free =>
    rw [Disk.slots_create, if_neg (Destination.temporary_ne_path random).symm]
  | rename id path file held ready => exact absurd rfl (hrename path destination.path)
  | unlink id path raised file held =>
    rw [Disk.slots_unlink, if_neg (hplaced.ne_path file held).symm]
  | _ => rfl

namespace World.Consistent

variable {ι : Type} {destination : Destination} {data : ι → Bytes} {before : Disk Str Bytes}
  {world : World ι} {i : ι} {writer : Writer} {effect : Effect Str Bytes} {id : Nat}

/-- The file is not written any more. -/
def Settled (data : ι → Bytes) (before : Disk Str Bytes) (world : World ι) (id : Nat) : Prop :=
  id < before.next ∨ world.Replaced data (some (.file id))

/-- The destination leads to a file that is not written any more. -/
theorem settled_live (h : Consistent destination data before world)
    (hlive : (world.disk.slots destination.path).live = some (.file id)) :
    Settled data before world id := by
  rcases h.live with hsame | hreplaced
  · exact Or.inl (Disk.live_lt (hsame.symm.trans hlive))
  · exact Or.inr (hlive ▸ hreplaced)

variable (h : Consistent destination data before world)
  (hmove : Move destination (data i) world.disk (world.writers i) writer effect)

include h hmove

theorem settled_files (hid : Settled data before world id) :
    (world.disk.apply effect).files id = world.disk.files id := by
  rcases hid with hid | ⟨j, _, hnode, hfile, hpath, -⟩
  · refine hmove.files_kept (hid.trans_le h.next_le) fun hown => ?_
    exact absurd (h.numbered i id hown).1 (Nat.not_le.mpr hid)
  · cases hnode
    refine hmove.files_kept (h.numbered j id hfile).2 fun hown => ?_
    exact h.distinct j i id hfile hown ▸ hpath

theorem settled_after [DecidableEq ι] (hid : Settled data before world id) :
    Settled data before (world.after i writer effect) id :=
  hid.imp_right (h.replaced_kept hmove)

theorem read_of_not_rename (hrename : ∀ source target, effect ≠ .rename source target) :
    (world.disk.apply effect).read destination.path = world.disk.read destination.path :=
  Disk.read_congr (hmove.live_of_not_rename (h.placed i) hrename) fun _ hlive =>
    h.settled_files hmove (h.settled_live hlive)

end World.Consistent

/-! ## The order of the accesses -/

namespace Users

variable {ι κ : Type}

/-- The read answers what the destination holds at its place in the order. -/
abbrev Sees (destination : Destination) (data : ι → Bytes) (before : Disk Str Bytes)
    (accesses : List (Access ι κ)) (j : κ) (blob : Bytes) : Prop :=
  Answers (before.read destination.path) (fun i => some (.file (data i))) accesses j
    (some (.file blob))

/-- **The order in which writes and reads take effect.** -/
structure Linearizes (destination : Destination) (data : ι → Bytes) (before : Disk Str Bytes)
    (users : Users ι κ) (accesses : List (Access ι κ)) : Prop where
  nodup : accesses.Nodup
  /-- The destination holds what the last of the writes wrote. -/
  content : users.world.disk.read destination.path =
    value (before.read destination.path) (fun i => some (.file (data i))) accesses
  unstarted : ∀ i, (users.world.writers i).line = .mkdir → .write i ∉ accesses
  written : ∀ i, (users.world.writers i).line = .exited false → .write i ∈ accesses
  unread : ∀ j, users.readers j = .start → .read j ∉ accesses
  answered : ∀ j blob, users.readers j = .returned blob →
    Sees destination data before accesses j blob

/-- What a read has reached: the file that it reads is not written any more. -/
structure Reads (destination : Destination) (data : ι → Bytes) (before : Disk Str Bytes)
    (world : World ι) (accesses : List (Access ι κ)) (j : κ) (id : Nat) (buffer : Bytes) :
    Prop where
  settled : World.Consistent.Settled data before world id
  buffered : buffer <+: (world.disk.files id).content
  sees : Sees destination data before accesses j (world.disk.files id).content

/-- The invariant of the writes and reads, with the order of those that have taken effect. -/
structure Linear (destination : Destination) (data : ι → Bytes) (before : Disk Str Bytes)
    (users : Users ι κ) (accesses : List (Access ι κ)) : Prop where
  consistent : World.Consistent destination data before users.world
  nodup : accesses.Nodup
  content : users.world.disk.read destination.path =
    value (before.read destination.path) (fun i => some (.file (data i))) accesses
  taken : ∀ i, (users.world.writers i).line.Taken → .write i ∈ accesses
  released : ∀ i, .write i ∈ accesses →
    (users.world.writers i).file.isSome ∧ (users.world.writers i).temporaryPath = none
  unread : ∀ j, users.readers j = .start → .read j ∉ accesses
  reading : ∀ j id buffer, users.readers j = .reading id buffer →
    Reads destination data before users.world accesses j id buffer
  answered : ∀ j blob, users.readers j = .returned blob →
    Sees destination data before accesses j blob

variable {destination : Destination} {data : ι → Bytes} {before : Disk Str Bytes}
  {users : Users ι κ} {accesses : List (Access ι κ)}

theorem start_linear (disk : Disk Str Bytes) :
    Linear destination data disk (start disk : Users ι κ) [] where
  consistent := World.start_consistent disk
  nodup := List.nodup_nil
  content := rfl
  taken _ h := h.elim
  released _ h := nomatch h
  unread _ _ h := nomatch h
  reading _ _ _ h := nomatch h
  answered _ _ h := nomatch h

theorem Linear.linearizes (h : Linear destination data before users accesses) :
    Linearizes destination data before users accesses where
  nodup := h.nodup
  content := h.content
  unstarted i hline hmem := by
    have hshape := h.consistent.shape i
    rw [Writer.Shape, hline] at hshape
    obtain ⟨hfile, -⟩ := h.released i hmem
    rw [hshape.1] at hfile
    cases hfile
  written i hline := h.taken i (by rw [hline]; exact trivial)
  unread := h.unread
  answered := h.answered

/-- Later accesses and calls of writes do not touch what a read has reached. -/
theorem Reads.write [DecidableEq ι] {world : World ι} {i : ι} {writer : Writer}
    {effect : Effect Str Bytes} {j : κ} {id : Nat} {buffer : Bytes}
    (h : World.Consistent destination data before world)
    (hmove : Move destination (data i) world.disk (world.writers i) writer effect)
    (hreads : Reads destination data before world accesses j id buffer)
    (later : List (Access ι κ)) :
    Reads destination data before (world.after i writer effect) (accesses ++ later) j id
      buffer := by
  have hfiles : (world.after i writer effect).disk.files id = world.disk.files id :=
    h.settled_files hmove hreads.settled
  refine ⟨h.settled_after hmove hreads.settled, ?_, ?_⟩
  · rw [hfiles]
    exact hreads.buffered
  · rw [hfiles]
    exact hreads.sees.mono later

section Step

variable [DecidableEq ι]

/-- A move of a write that is no renaming takes no effect. -/
theorem Linear.move (h : Linear destination data before users accesses) {i : ι} {writer : Writer}
    {effect : Effect Str Bytes}
    (hmove : Move destination (data i) users.world.disk (users.world.writers i) writer effect)
    (hshape : writer.Shape (data i)) (hrename : ∀ source target, effect ≠ .rename source target)
    (htaken : writer.line.Taken → (users.world.writers i).line.Taken) :
    Linear destination data before { users with world := users.world.after i writer effect }
      accesses where
  consistent := h.consistent.move hmove hshape
  nodup := h.nodup
  content := (h.consistent.read_of_not_rename hmove hrename).trans h.content
  taken := World.forall_after (fun k w => w.line.Taken → .write k ∈ accesses)
    (fun hline => h.taken i (htaken hline)) fun k _ => h.taken k
  released := by
    refine World.forall_after (fun k w => .write k ∈ accesses → w.file.isSome ∧
      w.temporaryPath = none) (fun hmem => ?_) fun k _ => h.released k
    obtain ⟨hfile, hpath⟩ := h.released i hmem
    obtain ⟨id, hid⟩ := Option.isSome_iff_exists.mp hfile
    obtain ⟨hfile', hpath'⟩ := hmove.released hid hpath
    exact ⟨hfile' ▸ rfl, hpath'⟩
  unread := h.unread
  reading j id buffer hj := by
    have hreads := (h.reading j id buffer hj).write h.consistent hmove []
    rwa [List.append_nil] at hreads
  answered := h.answered

/-- Renaming to the destination is where a write takes effect. -/
theorem Linear.rename (h : Linear destination data before users accesses) {i : ι} {writer : Writer}
    {path : List Str} (hpath : (users.world.writers i).temporaryPath = some path)
    (hmove : Move destination (data i) users.world.disk (users.world.writers i) writer
      (.rename path destination.path)) (hshape : writer.Shape (data i)) :
    Linear destination data before
      { users with world := users.world.after i writer (.rename path destination.path) }
      (accesses ++ [.write i]) := by
  have hfirst : .write i ∉ accesses := by
    intro hmem
    rw [(h.released i hmem).2] at hpath
    cases hpath
  obtain ⟨id, hlive, hfile, hready, hfile', hpath', hfiles⟩ :=
    hmove.replaces_rename (h.consistent.placed i)
  have hdata := h.consistent.ready i hready id hfile
  refine ⟨h.consistent.move hmove hshape, ?_, ?_, ?_, ?_, ?_, ?_, ?_⟩
  · rw [← List.concat_eq_append]
    exact h.nodup.concat hfirst
  · rw [value_write]
    show (users.world.disk.apply _).read destination.path = _
    rw [Disk.read_file hlive, hfiles, hdata]
  · refine World.forall_after (fun k w => w.line.Taken → .write k ∈ accesses ++ [.write i])
      (fun _ => List.mem_append_right _ List.mem_cons_self) fun k _ hline => ?_
    exact List.mem_append_left _ (h.taken k hline)
  · refine World.forall_after (fun k w => .write k ∈ accesses ++ [.write i] → w.file.isSome ∧
      w.temporaryPath = none) (fun _ => ⟨hfile' ▸ rfl, hpath'⟩) fun k hk hmem => ?_
    rcases List.mem_append.mp hmem with hmem | hmem
    · exact h.released k hmem
    · cases List.mem_singleton.mp hmem
      exact absurd rfl hk
  · intro j hj hmem
    rcases List.mem_append.mp hmem with hmem | hmem
    · exact h.unread j hj hmem
    · cases List.mem_singleton.mp hmem
  · exact fun j id buffer hj => (h.reading j id buffer hj).write h.consistent hmove _
  · exact fun j blob hj => (h.answered j blob hj).mono _

variable [DecidableEq κ]

/-- A call of a write keeps the order, or is the next in it. -/
theorem Linear.write (h : Linear destination data before users accesses) (i : ι)
    (answer : OsAnswer) :
    Linear destination data before (step destination data users (.write i answer)).2
      (accesses ++ (step destination data users (.write i answer)).1.toList) := by
  obtain ⟨hmove, hshape⟩ := advance_move destination users.world.disk (h.consistent.shape i) answer
  have htaken : (advance destination (data i) users.world.disk (users.world.writers i)
        answer).1.line.Taken → (users.world.writers i).line.Taken ∨
      ∃ path, (users.world.writers i).temporaryPath = some path ∧
        (advance destination (data i) users.world.disk (users.world.writers i) answer).2 =
          .rename path destination.path :=
    advance_taken
  have hstep : step destination data users (.write i answer) =
      (written i (advance destination (data i) users.world.disk (users.world.writers i) answer).2,
        ⟨users.world.after i
          (advance destination (data i) users.world.disk (users.world.writers i) answer).1
          (advance destination (data i) users.world.disk (users.world.writers i) answer).2,
          users.readers⟩) := rfl
  rw [hstep]
  generalize advance destination (data i) users.world.disk (users.world.writers i) answer = next
    at hmove hshape htaken
  obtain ⟨writer, effect⟩ := next
  by_cases hrename : ∃ source target, effect = .rename source target
  · obtain ⟨source, target, rfl⟩ := hrename
    obtain ⟨hpath, rfl⟩ : (users.world.writers i).temporaryPath = some source ∧
        target = destination.path := by
      cases hmove with
      | quiet file path sent unclean ready quiet => exact quiet.elim
      | rename id path file held ready => exact ⟨held, rfl⟩
    exact h.rename hpath hmove hshape
  · have hnone : (written i effect : Option (Access ι κ)) = none := by
      cases effect with
      | rename source target => exact absurd ⟨source, target, rfl⟩ hrename
      | _ => rfl
    show Linear destination data before _ (accesses ++ (written i effect).toList)
    rw [hnone, Option.toList_none, List.append_nil]
    refine h.move hmove hshape (fun source target e => hrename ⟨source, target, e⟩) fun hline => ?_
    rcases htaken hline with hbefore | ⟨path, -, heffect⟩
    · exact hbefore
    · exact absurd ⟨_, _, heffect⟩ hrename

/-- What holds of the read that has made a call, and of the others as they were, holds of all. -/
theorem forall_readers {readers : κ → Reader} {j : κ} (reader : Reader) (P : κ → Reader → Prop)
    (hself : P j reader) (hother : ∀ k, k ≠ j → P k (readers k)) :
    ∀ k, P k (Function.update readers j reader k) := by
  intro k
  by_cases hk : k = j
  · subst hk
    rwa [Function.update_self]
  · rw [Function.update_of_ne hk]
    exact hother k hk

omit [DecidableEq ι] in
/-- A read that has been opened, or has ended, makes a call. -/
theorem Linear.goOn (h : Linear destination data before users accesses) {j : κ} {reader : Reader}
    (hstart : reader ≠ .start)
    (hreading : ∀ id buffer, reader = .reading id buffer →
      Reads destination data before users.world accesses j id buffer)
    (hanswered : ∀ blob, reader = .returned blob → Sees destination data before accesses j blob) :
    Linear destination data before
      { users with readers := Function.update users.readers j reader } accesses where
  consistent := h.consistent
  nodup := h.nodup
  content := h.content
  taken := h.taken
  released := h.released
  unread := forall_readers reader (fun k r => r = .start → .read k ∉ accesses)
    (fun hr => absurd hr hstart) fun k _ => h.unread k
  reading := forall_readers reader (fun k r => ∀ id buffer, r = .reading id buffer →
    Reads destination data before users.world accesses k id buffer) hreading fun k _ => h.reading k
  answered := forall_readers reader (fun k r => ∀ blob, r = .returned blob →
    Sees destination data before accesses k blob) hanswered fun k _ => h.answered k

omit [DecidableEq ι] in
/-- A call of a read that does not open the destination takes no effect. -/
theorem Linear.stays (h : Linear destination data before users accesses) {j : κ} {reader : Reader}
    {access : Option (Access ι κ)} (hnone : access = none) (hstart : reader ≠ .start)
    (hreading : ∀ id buffer, reader = .reading id buffer →
      Reads destination data before users.world accesses j id buffer)
    (hanswered : ∀ blob, reader = .returned blob → Sees destination data before accesses j blob) :
    Linear destination data before ⟨users.world, Function.update users.readers j reader⟩
      (accesses ++ access.toList) := by
  rw [hnone, Option.toList_none, List.append_nil]
  exact h.goOn hstart hreading hanswered

omit [DecidableEq ι] in
/-- Opening the destination is where a read takes effect. -/
theorem Linear.opens (h : Linear destination data before users accesses) {j : κ} {id : Nat}
    (hstart : users.readers j = .start)
    (hlive : (users.world.disk.slots destination.path).live = some (.file id)) :
    Linear destination data before
      { users with readers := Function.update users.readers j (.reading id []) }
      (accesses ++ [.read j]) := by
  have hfirst := h.unread j hstart
  have hsees : Sees destination data before (accesses ++ [.read j]) j
      (users.world.disk.files id).content := by
    unfold Sees
    rw [← Disk.read_file hlive, h.content]
    exact answers_concat accesses j
  refine ⟨h.consistent, ?_, ?_, ?_, ?_, ?_, ?_, ?_⟩
  · rw [← List.concat_eq_append]
    exact h.nodup.concat hfirst
  · rw [value_read]
    exact h.content
  · exact fun i hline => List.mem_append_left _ (h.taken i hline)
  · intro i hmem
    rcases List.mem_append.mp hmem with hmem | hmem
    · exact h.released i hmem
    · cases List.mem_singleton.mp hmem
  · refine forall_readers (.reading id []) (fun k r => r = .start → .read k ∉ accesses ++ [.read j])
      (fun hr => by cases hr) fun k hk hr hmem => ?_
    rcases List.mem_append.mp hmem with hmem | hmem
    · exact h.unread k hr hmem
    · cases List.mem_singleton.mp hmem
      exact hk rfl
  · refine forall_readers (.reading id []) (fun k r => ∀ id buffer, r = .reading id buffer →
      Reads destination data before users.world (accesses ++ [.read j]) k id buffer) ?_
      fun k _ id buffer hk => ?_
    · rintro id buffer ⟨⟩
      exact ⟨h.consistent.settled_live hlive, List.nil_prefix, hsees⟩
    · obtain ⟨hsettled, hbuffered, hk⟩ := h.reading k id buffer hk
      exact ⟨hsettled, hbuffered, hk.mono _⟩
  · exact forall_readers (.reading id []) (fun k r => ∀ blob, r = .returned blob →
      Sees destination data before (accesses ++ [.read j]) k blob) (fun blob hr => by cases hr)
      fun k _ blob hk => (h.answered k blob hk).mono _

end Step

section Run

variable [DecidableEq ι] [DecidableEq κ]

/-- A call of a read keeps the order, or is the next in it. -/
theorem Linear.read (hlink : (before.slots destination.path).live ≠ some .link)
    (h : Linear destination data before users accesses) (j : κ) (answer : ReadAnswer) :
    Linear destination data before (step destination data users (.read j answer)).2
      (accesses ++ (step destination data users (.read j answer)).1.toList) := by
  have hstep : step destination data users (.read j answer) =
      (opened j (users.readers j)
          ((users.readers j).advance destination.path users.world.disk answer),
        ⟨users.world, Function.update users.readers j
          ((users.readers j).advance destination.path users.world.disk answer)⟩) := rfl
  rw [hstep]
  cases hj : users.readers j with
  | start =>
    unfold Reader.advance
    dsimp only
    by_cases hfails : answer.fails = true
    · rw [if_pos hfails]
      exact h.stays rfl nofun nofun nofun
    · rw [if_neg hfails]
      cases hlive : (users.world.disk.slots destination.path).live with
      | none => exact h.stays rfl nofun nofun nofun
      | some node =>
        cases node with
        | directory => exact h.stays rfl nofun nofun nofun
        | link =>
          rcases h.consistent.live with hsame | ⟨_, _, hreplaced, -⟩
          · exact absurd (hsame.symm.trans hlive) hlink
          · cases hlive.symm.trans hreplaced
        | file id => exact h.opens hj hlive
  | reading id buffer =>
    obtain ⟨hsettled, hbuffered, hsees⟩ := h.reading j id buffer hj
    cases hfails : answer.fails with
    | true =>
      rw [Reader.advance_fails hfails]
      exact h.stays rfl nofun nofun nofun
    | false =>
      rcases Reader.advance_reading destination.path hbuffered hfails with
        hend | ⟨more, hmore, hprefix, -⟩
      · rw [hend]
        refine h.stays rfl nofun nofun ?_
        rintro _ ⟨⟩
        exact hsees
      · rw [hmore]
        refine h.stays rfl nofun ?_ nofun
        rintro _ _ ⟨⟩
        exact ⟨hsettled, hprefix, hsees⟩
  | returned blob =>
    refine h.stays rfl nofun nofun ?_
    rintro _ ⟨⟩
    exact h.answered j blob hj
  | raised =>
    exact h.stays rfl nofun nofun nofun

/-- **A call of any write or read keeps the order.** -/
theorem step_linear (hlink : (before.slots destination.path).live ≠ some .link)
    (h : Linear destination data before users accesses) (turn : Turn ι κ) :
    Linear destination data before (step destination data users turn).2
      (accesses ++ (step destination data users turn).1.toList) :=
  match turn with
  | .write i answer => h.write i answer
  | .read j answer => h.read hlink j answer

theorem run_linear (hlink : (before.slots destination.path).live ≠ some .link)
    (h : Linear destination data before users accesses) (turns : List (Turn ι κ)) :
    Linear destination data before (reached destination data users turns)
      (accesses ++ history destination data users turns) :=
  Machine.run_collects (I := Linear destination data before)
    (fun _ _ turn h => step_linear hlink h turn) h turns

/-! ### Reads end -/

/-- The turns of others leave a read as it is. -/
theorem step_readers {j : κ} {turn : Turn ι κ} (hturn : turn.reads j = false) :
    (step destination data users turn).2.readers j = users.readers j := by
  cases turn with
  | write i answer => rfl
  | read k answer =>
    have hne : j ≠ k := fun e => of_decide_eq_false hturn e.symm
    exact Function.update_of_ne hne ..

omit [DecidableEq ι] in
theorem reads_eq_true {j : κ} {turn : Turn ι κ} (hturn : turn.reads j = true) :
    ∃ answer, turn = .read j answer := by
  cases turn with
  | write i answer => cases hturn
  | read k answer =>
    obtain rfl := of_decide_eq_true hturn
    exact ⟨answer, rfl⟩

/-- The turn of a read moves the read. -/
theorem step_read (j : κ) (answer : ReadAnswer) :
    (step destination data users (.read j answer)).2.readers j =
      (users.readers j).advance destination.path users.world.disk answer :=
  Function.update_self ..

/-- An open read keeps its file. -/
theorem step_files (h : Linear destination data before users accesses) {j : κ} {id : Nat}
    {buffer : Bytes} (hj : users.readers j = .reading id buffer) (turn : Turn ι κ) :
    (step destination data users turn).2.world.disk.files id = users.world.disk.files id := by
  cases turn with
  | write i answer =>
    have hmove := (advance_move destination users.world.disk (h.consistent.shape i) answer).1
    exact h.consistent.settled_files hmove (h.reading j id buffer hj).settled
  | read k answer => rfl

theorem reached_returned {j : κ} {blob : Bytes} (hj : users.readers j = .returned blob)
    (turns : List (Turn ι κ)) :
    (reached destination data users turns).readers j = .returned blob := by
  refine Machine.run_invariant (I := fun users : Users ι κ => users.readers j = .returned blob)
    (fun users turn h => ?_) hj turns
  cases hturn : turn.reads j with
  | false => exact (step_readers hturn).trans h
  | true =>
    obtain ⟨answer, rfl⟩ := reads_eq_true hturn
    rw [step_read, h]
    rfl

/-- **An open read returns**, whatever the others do, once it has had calls for all of its file. -/
theorem reading_ends (hlink : (before.slots destination.path).live ≠ some .link) {j : κ} {id : Nat}
    {turns : List (Turn ι κ)} (hfails : ∀ answer, .read j answer ∈ turns → answer.fails = false)
    {users : Users ι κ} {accesses : List (Access ι κ)} {buffer : Bytes}
    (h : Linear destination data before users accesses)
    (hj : users.readers j = .reading id buffer)
    (hcount : (users.world.disk.files id).content.length <
      buffer.length + turns.countP (Turn.reads j)) :
    ∃ blob, (reached destination data users turns).readers j = .returned blob := by
  have hbuffered := (h.reading j id buffer hj).buffered
  induction turns generalizing users accesses buffer with
  | nil => exact absurd hcount (Nat.not_lt.mpr hbuffered.length_le)
  | cons turn turns ih =>
    have hrest : ∀ answer, .read j answer ∈ turns → answer.fails = false :=
      fun answer hmem => hfails answer (List.mem_cons_of_mem _ hmem)
    have hnext := step_linear hlink h turn
    have hlength : ((step destination data users turn).2.world.disk.files id).content.length =
        (users.world.disk.files id).content.length := by
      rw [step_files h hj turn]
    cases hturn : turn.reads j with
    | false =>
      have hj' : (step destination data users turn).2.readers j = .reading id buffer :=
        (step_readers hturn).trans hj
      rw [List.countP_cons_of_neg (by rw [hturn]; exact Bool.false_ne_true)] at hcount
      exact ih hrest hnext hj' (hlength ▸ hcount) (hnext.reading j id buffer hj').buffered
    | true =>
      rw [List.countP_cons_of_pos hturn] at hcount
      obtain ⟨answer, rfl⟩ := reads_eq_true hturn
      rcases Reader.advance_reading destination.path hbuffered
        (hfails answer List.mem_cons_self) with hend | ⟨more, hmore, -, hlonger⟩
      · have hj' : (step destination data users (.read j answer)).2.readers j =
            .returned (users.world.disk.files id).content := by
          rw [step_read, hj]
          exact hend
        exact ⟨_, reached_returned hj' turns⟩
      · have hj' : (step destination data users (.read j answer)).2.readers j =
            .reading id more := by
          rw [step_read, hj]
          exact hmore
        refine ih hrest hnext hj' (hlength ▸ ?_) (hnext.reading j id more hj').buffered
        omega

omit [DecidableEq ι] [DecidableEq κ] in
theorem held_cases (data : ι → Bytes) (content : Bytes) (accesses : List (Access ι κ)) :
    value (some (Disk.Entry.file content)) (fun i => some (.file (data i))) accesses =
        some (.file content) ∨
      ∃ i, value (some (Disk.Entry.file content)) (fun i => some (.file (data i))) accesses =
        some (.file (data i)) :=
  (value_cases accesses).imp_right fun ⟨i, _, hvalue⟩ => ⟨i, hvalue⟩

/-- What the destination holds is a file that is not longer than this. -/
def HoldsFile (destination : Destination) (users : Users ι κ) (n : Nat) : Prop :=
  ∃ content, users.world.disk.read destination.path = some (.file content) ∧ content.length ≤ n

theorem step_holdsFile (hlink : (before.slots destination.path).live ≠ some .link)
    (h : Linear destination data before users accesses) {n : Nat}
    (hheld : users.HoldsFile destination n) (hdata : ∀ i, (data i).length ≤ n)
    (turn : Turn ι κ) : (step destination data users turn).2.HoldsFile destination n := by
  obtain ⟨content, hread, hlength⟩ := hheld
  have hnext := (step_linear hlink h turn).content
  rw [value_append, ← h.content, hread] at hnext
  unfold HoldsFile
  rw [hnext]
  rcases held_cases data content (step destination data users turn).1.toList with
    hsame | ⟨i, hvalue⟩
  · exact ⟨content, hsame, hlength⟩
  · exact ⟨data i, hvalue, hdata i⟩

/-- **A read of a file returns**, whatever the others do. -/
theorem read_ends (hlink : (before.slots destination.path).live ≠ some .link) {j : κ} {n : Nat}
    (hdata : ∀ i, (data i).length ≤ n) {turns : List (Turn ι κ)}
    (hfails : ∀ answer, .read j answer ∈ turns → answer.fails = false)
    (hcount : n + 2 ≤ turns.countP (Turn.reads j))
    {users : Users ι κ} {accesses : List (Access ι κ)}
    (h : Linear destination data before users accesses) (hj : users.readers j = .start)
    (hheld : users.HoldsFile destination n) :
    ∃ blob, (reached destination data users turns).readers j = .returned blob := by
  induction turns generalizing users accesses with
  | nil => exact absurd hcount (by simp)
  | cons turn turns ih =>
    have hrest : ∀ answer, .read j answer ∈ turns → answer.fails = false :=
      fun answer hmem => hfails answer (List.mem_cons_of_mem _ hmem)
    have hnext := step_linear hlink h turn
    cases hturn : turn.reads j with
    | false =>
      have hj' : (step destination data users turn).2.readers j = .start :=
        (step_readers hturn).trans hj
      rw [List.countP_cons_of_neg (by rw [hturn]; exact Bool.false_ne_true)] at hcount
      exact ih hrest hcount hnext hj' (step_holdsFile hlink h hheld hdata turn)
    | true =>
      rw [List.countP_cons_of_pos hturn] at hcount
      obtain ⟨answer, rfl⟩ := reads_eq_true hturn
      obtain ⟨content, hread, hlength⟩ := hheld
      obtain ⟨id, hlive, hcontent⟩ := Disk.exists_live hread
      have hj' : (step destination data users (.read j answer)).2.readers j = .reading id [] := by
        rw [step_read, hj]
        unfold Reader.advance
        simp only [hfails answer List.mem_cons_self, Bool.false_eq_true, if_false, hlive]
      refine reading_ends hlink hrest hnext hj' ?_
      show (users.world.disk.files id).content.length < _
      rw [hcontent, List.length_nil]
      omega

/-- **The destination of writes is a register.** Writes and reads take effect in one order, each
between its first call and its last one: all that have returned are in it, and none that has not
begun. The destination holds what the last of the writes wrote, and each read returns what was held
at its place. A read of a file returns after as many calls as the file may have bytes, and two,
whatever the others do. -/
theorem reads_linearizable (data : ι → Bytes)
    (hlink : (before.slots destination.path).live ≠ some .link) (earlier later : List (Turn ι κ)) :
    let old := reached destination data (start before) earlier
    let users := reached destination data old later
    let accesses := history destination data (start before) earlier
    Linearizes destination data before old accesses ∧
      Linearizes destination data before users (accesses ++ history destination data old later) ∧
      ∀ j n, old.readers j = .start → old.HoldsFile destination n →
        (∀ i, (data i).length ≤ n) → (∀ answer, .read j answer ∈ later → answer.fails = false) →
        n + 2 ≤ later.countP (Turn.reads j) → ∃ blob, users.readers j = .returned blob := by
  intro old users accesses
  have hold : Linear destination data before old accesses :=
    run_linear hlink (start_linear before) earlier
  refine ⟨hold.linearizes, (run_linear hlink hold later).linearizes, ?_⟩
  exact fun j n hj hheld hdata hfails hcount => read_ends hlink hdata hfails hcount hold hj hheld

end Run

end Users

/-! ## A read that a write overtakes -/

def firstWrites : List (Turn Bool Unit) :=
  (quietTurns false).map fun turn => .write turn.1 turn.2

/-- The destination is opened, replaced, and then read. -/
def overtakenTurns : List (Turn Bool Unit) :=
  .read () ⟨false, 0, none⟩ :: ((quietTurns true).map fun turn => .write turn.1 turn.2) ++
    [.read () ⟨false, 7, none⟩, .read () ⟨false, 7, none⟩]

def firstUsers : Users Bool Unit :=
  .reached sampleDestination sampleData (.start (directoryDisk [lit "keys"])) firstWrites

def overtakenUsers : Users Bool Unit :=
  firstUsers.reached sampleDestination sampleData overtakenTurns

theorem run_overtaken :
    Users.history sampleDestination sampleData (.start (directoryDisk [lit "keys"])) firstWrites =
        [.write false] ∧
      firstUsers.history sampleDestination sampleData overtakenTurns = [.read (), .write true] ∧
      overtakenUsers.readers () = .returned [1] := by
  decide +kernel

/-- The read returns what it has opened, while the destination holds the second write by then. -/
theorem reads_linearizable_overtaken :
    ((directoryDisk [lit "keys"]).slots sampleDestination.path).live ≠ some .link ∧
      overtakenUsers.readers () = .returned [1] ∧
      overtakenUsers.world.disk.read sampleDestination.path = some (.file [2]) := by
  obtain ⟨hfirst, hlater, hreturned⟩ := run_overtaken
  have hlink : ((directoryDisk [lit "keys"]).slots sampleDestination.path).live ≠ some .link := by
    decide +kernel
  obtain ⟨-, h, -⟩ := Users.reads_linearizable sampleData hlink firstWrites overtakenTurns
  refine ⟨hlink, hreturned, ?_⟩
  have hcontent := h.content
  rw [hfirst] at hcontent
  exact hcontent.trans (congrArg _ (congrArg _ hlater))

end CypherSyntax
