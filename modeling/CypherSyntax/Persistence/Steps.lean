import CypherSyntax.Disk
import CypherSyntax.Persistence

/-!
# A write, call by call

`atomic_write_bytes` of `src/cyphersyntax/persistence.py` as it works on a file system that others
may change between any two of its calls. An answer says what the operating system does in the next
call: whether it raises `OSError`, how far a write has come, and which name `mkstemp` tries. A write
through a handle may take several answers. The data has passed its type check, and the path is one
that is encoded.

Results:
* `advance_move`: all that one call can do to the file system, and the local variables that the
  clean-up finds.
-/

namespace CypherSyntax

open Python FileSystem

/-- Where a write goes. Symbolic links above the destination are taken as followed. -/
structure Destination where
  parent : List Str
  name : Str
  /-- `os.name == "nt"` -/
  windows : Bool

namespace Destination

def path (destination : Destination) : List Str := destination.parent ++ [destination.name]

/-- The path that `mkstemp` makes of random letters. -/
def temporary (destination : Destination) (random : Str) : List Str :=
  destination.parent ++ [lit "." ++ destination.name ++ lit "." ++ random ++ lit ".tmp"]

variable {destination : Destination} {p : List Str}

theorem temporary_ne_path (random : Str) : destination.temporary random ≠ destination.path := by
  unfold temporary path
  intro h
  have hname := congrArg List.length (List.head_eq_of_cons_eq (List.append_cancel_left h))
  simp [lit] at hname
  omega

theorem path_dropLast : destination.path.dropLast = destination.parent := by
  simp [path]

theorem path_ne_nil : destination.path ≠ [] := by
  simp [path]

/-- What is above the destination is neither the destination nor a temporary file. -/
theorem above_ne (h : p <+: destination.parent) :
    p ≠ destination.path ∧ ∀ random, p ≠ destination.temporary random := by
  have hlength := h.length_le
  constructor
  · rintro rfl
    simp [path] at hlength
  · rintro random rfl
    simp [temporary] at hlength

end Destination

/-! ## The local variables -/

/-- The call that a write makes next. -/
inductive Line where
  | mkdir | isSymlink | mkstemp | fchmod | fdopen | write | flush | fsync
  /-- The end of the `with` statement, reached by an exception or not. -/
  | closeHandle (raised : Bool)
  | replace | chmod | openDirectory | fsyncDirectory
  | closeDirectory (raised : Bool)
  | close (raised : Bool)
  | unlink (raised : Bool)
  | exited (raised : Bool)
  deriving DecidableEq

/-- A call of `atomic_write_bytes` that is under way. -/
structure Writer where
  line : Line
  /-- `descriptor >= 0` -/
  descriptor : Bool
  temporaryPath : Option (List Str)
  /-- The file that `mkstemp` has created, to which the descriptor and the handle refer. -/
  file : Option Nat
  /-- How many bytes the handle has passed on. Those after them are in its buffer. -/
  sent : Nat
  /-- Whether a close or an unlink of the clean-up has failed. -/
  unclean : Bool

/-- What the operating system does in a call. -/
structure OsAnswer where
  /-- The call raises `OSError`. -/
  fails : Bool
  /-- The call is not over. -/
  more : Bool
  /-- How many bytes are written so far, or directories created. -/
  written : Nat
  /-- The random part of a name. -/
  random : Str

namespace Writer

def start : Writer := ⟨.mkdir, false, none, none, 0, false⟩

def goto (writer : Writer) (line : Line) : Writer := { writer with line }

/-- The local variables are gone. -/
def exit (writer : Writer) (raised : Bool) : Writer :=
  { writer with line := .exited raised, descriptor := false, temporaryPath := none }

/-- `if temporary_path is not None: ...` in the clean-up. -/
def unlinkTemporary (writer : Writer) (raised : Bool) : Writer :=
  if writer.temporaryPath.isSome then writer.goto (.unlink raised) else writer.exit raised

/-- The `finally` clause. -/
def cleanUp (writer : Writer) (raised : Bool) : Writer :=
  if writer.descriptor then writer.goto (.close raised) else writer.unlinkTemporary raised

/-- The handle passes on the data up to a length. -/
def send (writer : Writer) (data : Bytes) (sent : Nat) : Writer × Effect Str Bytes :=
  match writer.file with
  | some id =>
    if writer.sent < sent then ({ writer with sent }, .write id (data.take sent))
    else (writer, .nothing)
  | none => (writer, .nothing)

end Writer

/-! ## A call -/

section Advance

variable (destination : Destination) (data : Bytes) (disk : Disk Str Bytes)

/-- Nothing but directories is where directories are to be created. -/
def creatable (path : List Str) : Bool :=
  path.inits.all fun p =>
    p = [] ∨ (disk.slots p).live = none ∨ (disk.slots p).live = some .directory

/-- One call of the operating system, or a part of one. -/
def advance (writer : Writer) (answer : OsAnswer) : Writer × Effect Str Bytes :=
  let sent := min answer.written data.length
  match writer.line with
  | .mkdir =>
    if !creatable disk destination.parent then (writer.exit true, .nothing)
    else if answer.fails then (writer.exit true, .mkdirs (destination.parent.take answer.written))
    else (writer.goto .isSymlink, .mkdirs destination.parent)
  | .isSymlink =>
    if answer.fails ∨ (disk.slots destination.path).live = some .link then
      (writer.exit true, .nothing)
    else (writer.goto .mkstemp, .nothing)
  | .mkstemp =>
    let path := destination.temporary answer.random
    if answer.fails then (writer.cleanUp true, .nothing)
    -- a name that is taken is given up for another one
    else if (disk.slots path).live ≠ none then (writer, .nothing)
    else ({ writer with line := .fchmod, descriptor := true, temporaryPath := some path,
                        file := some disk.next }, .create path [])
  | .fchmod => (writer.goto .fdopen, .nothing)
  | .fdopen =>
    if answer.fails then (writer.cleanUp true, .nothing)
    else ({ writer with line := .write, descriptor := false }, .nothing)
  | .write =>
    let (writer, effect) := writer.send data sent
    if answer.more then (writer, effect)
    else if answer.fails then (writer.goto (.closeHandle true), effect)
    else (writer.goto .flush, effect)
  | .flush =>
    if answer.more then writer.send data sent
    else if answer.fails then
      let (writer, effect) := writer.send data sent
      (writer.goto (.closeHandle true), effect)
    else
      let (writer, effect) := writer.send data data.length
      (writer.goto .fsync, effect)
  | .fsync =>
    if answer.fails then (writer.goto (.closeHandle true), .nothing)
    else (writer.goto (.closeHandle false),
      (writer.file.map Effect.fsync).getD .nothing)
  | .closeHandle raised =>
    let (writer, effect) := writer.send data sent
    if answer.more then (writer, effect)
    else if answer.fails || raised then (writer.cleanUp true, effect)
    else (writer.goto .replace, effect)
  | .replace =>
    match writer.temporaryPath with
    | none => (writer.cleanUp true, .nothing)
    | some path =>
      if answer.fails ∨ (disk.slots path).live = none ∨
          (disk.slots destination.path).live = some .directory then
        (writer.cleanUp true, .nothing)
      else ({ writer with line := .chmod, temporaryPath := none }, .rename path destination.path)
  | .chmod =>
    if destination.windows then (writer.cleanUp false, .nothing)
    else (writer.goto .openDirectory, .nothing)
  | .openDirectory =>
    if answer.fails then (writer.cleanUp true, .nothing)
    else (writer.goto .fsyncDirectory, .nothing)
  | .fsyncDirectory =>
    if answer.fails then (writer.goto (.closeDirectory true), .nothing)
    else (writer.goto (.closeDirectory false), .fsyncDirectory destination.parent)
  | .closeDirectory raised =>
    (writer.cleanUp (answer.fails || raised), .nothing)
  | .close raised =>
    if answer.fails then ({ writer.exit true with unclean := true }, .nothing)
    else ({ writer with descriptor := false }.unlinkTemporary raised, .nothing)
  | .unlink raised =>
    if answer.fails then ({ writer.exit raised with unclean := true }, .nothing)
    else (writer.exit raised, (writer.temporaryPath.map Effect.unlink).getD .nothing)
  | .exited _ => (writer, .nothing)

end Advance

/-! ## What a call does -/

namespace Writer

/-- The data is synced, and only the replacement is missing. -/
def Ready (writer : Writer) : Prop := writer.line = .closeHandle false ∨ writer.line = .replace

/-- There is a temporary file to clean up. -/
def Holds (writer : Writer) : Prop := writer.file.isSome ∧ writer.temporaryPath.isSome

/-- What the local variables are at each call. -/
def Shape (data : Bytes) (writer : Writer) : Prop :=
  match writer.line with
  | .mkdir | .isSymlink | .mkstemp => writer.file = none ∧ writer.temporaryPath = none ∧
      writer.descriptor = false ∧ writer.sent = 0
  | .fchmod | .fdopen | .close _ =>
    writer.Holds ∧ writer.descriptor = true ∧ writer.sent ≤ data.length
  | .write | .flush | .closeHandle true | .unlink _ =>
    writer.Holds ∧ writer.descriptor = false ∧ writer.sent ≤ data.length
  | .fsync | .closeHandle false | .replace =>
    writer.Holds ∧ writer.descriptor = false ∧ writer.sent = data.length
  | .chmod | .openDirectory | .fsyncDirectory | .closeDirectory _ =>
    writer.file.isSome ∧ writer.temporaryPath = none ∧ writer.descriptor = false
  | .exited _ => writer.temporaryPath = none ∧ writer.descriptor = false

theorem start_shape (data : Bytes) : start.Shape data := ⟨rfl, rfl, rfl, rfl⟩

theorem cleanUp_free {writer : Writer} (hpath : writer.temporaryPath = none)
    (hdescriptor : writer.descriptor = false) (raised : Bool) :
    writer.cleanUp raised = writer.exit raised := by
  rw [cleanUp, hdescriptor, if_neg Bool.false_ne_true, unlinkTemporary, hpath]
  rfl

/-- With a temporary file at hand, the clean-up closes a descriptor or goes on to the file. -/
theorem cleanUp_held {writer : Writer} (hheld : writer.Holds) (raised : Bool) :
    writer.descriptor = true ∧ writer.cleanUp raised = writer.goto (.close raised) ∨
      writer.descriptor = false ∧ writer.cleanUp raised = writer.goto (.unlink raised) := by
  unfold cleanUp unlinkTemporary
  cases h : writer.descriptor with
  | true => exact Or.inl ⟨rfl, rfl⟩
  | false => exact Or.inr ⟨rfl, by rw [if_neg Bool.false_ne_true, if_pos hheld.2]⟩

theorem send_some {data : Bytes} {writer : Writer} {id : Nat} (hid : writer.file = some id)
    (sent : Nat) : writer.send data sent =
      if writer.sent < sent then ({ writer with sent }, .write id (data.take sent))
      else (writer, .nothing) := by
  unfold send
  rw [hid]

theorem send_held (data : Bytes) {writer : Writer} (hheld : writer.Holds) (sent : Nat) :
    (writer.send data sent).1 = { writer with sent := max writer.sent sent } := by
  obtain ⟨id, hid⟩ := Option.isSome_iff_exists.mp hheld.1
  rw [send_some hid]
  by_cases hmore : writer.sent < sent
  · rw [if_pos hmore, max_eq_right hmore.le]
  · rw [if_neg hmore, max_eq_left (Nat.le_of_not_lt hmore)]

/-- An empty buffer has nothing to pass on. -/
theorem send_empty {data : Bytes} {writer : Writer} {sent : Nat} (h : sent ≤ writer.sent) :
    writer.send data sent = (writer, .nothing) := by
  unfold send
  split
  · exact if_neg (Nat.not_lt.mpr h)
  · rfl

end Writer

/-- The effects of the calls that concern no file. -/
def Quiet (destination : Destination) : Effect Str Bytes → Prop
  | .nothing => True
  | .mkdirs path => path <+: destination.parent
  | .fsyncDirectory path => path = destination.parent
  | _ => False

/-- **What a call can do**: the writer after it, and its effect on the file system. -/
inductive Move (destination : Destination) (data : Bytes) (disk : Disk Str Bytes)
    (writer : Writer) : Writer → Effect Str Bytes → Prop
  | quiet {writer' : Writer} {effect : Effect Str Bytes} (file : writer'.file = writer.file)
      (path : writer'.temporaryPath = writer.temporaryPath) (sent : writer'.sent = writer.sent)
      (unclean : writer'.unclean = writer.unclean) (ready : writer'.Ready → writer.Ready)
      (quiet : Quiet destination effect) :
      Move destination data disk writer writer' effect
  | create (random : Str) (file : writer.file = none) (sent : writer.sent = 0)
      (free : (disk.slots (destination.temporary random)).live = none) :
      Move destination data disk writer
        { writer with line := .fchmod, descriptor := true, file := some disk.next,
                      temporaryPath := some (destination.temporary random) }
        (.create (destination.temporary random) [])
  | write {writer' : Writer} (id sent : Nat) (file : writer.file = some id)
      (held : writer.temporaryPath.isSome) (file' : writer'.file = writer.file)
      (path : writer'.temporaryPath = writer.temporaryPath) (sent' : writer'.sent = sent)
      (unclean : writer'.unclean = writer.unclean) (ready : ¬writer'.Ready) :
      Move destination data disk writer writer' (.write id (data.take sent))
  | fsync (id : Nat) (file : writer.file = some id) (held : writer.temporaryPath.isSome)
      (sent : writer.sent = data.length) :
      Move destination data disk writer (writer.goto (.closeHandle false)) (.fsync id)
  | rename (id : Nat) (path : List Str) (file : writer.file = some id)
      (held : writer.temporaryPath = some path) (ready : writer.Ready) :
      Move destination data disk writer { writer with line := .chmod, temporaryPath := none }
        (.rename path destination.path)
  | unlink (id : Nat) (path : List Str) (raised : Bool) (file : writer.file = some id)
      (held : writer.temporaryPath = some path) :
      Move destination data disk writer (writer.exit raised) (.unlink path)
  | abandon (raised : Bool) (held : writer.Holds) :
      Move destination data disk writer { writer.exit raised with unclean := true } .nothing

section Moves

open Writer

variable {destination : Destination} {data : Bytes} {disk : Disk Str Bytes} {writer : Writer}

theorem Move.goto {effect : Effect Str Bytes} (line : Line)
    (hready : (writer.goto line).Ready → writer.Ready) (heffect : Quiet destination effect) :
    Move destination data disk writer (writer.goto line) effect :=
  .quiet rfl rfl rfl rfl hready heffect

/-- A writer with nothing to clean up leaves. -/
theorem Move.exit {effect : Effect Str Bytes} (raised : Bool)
    (hpath : writer.temporaryPath = none) (heffect : Quiet destination effect) :
    Move destination data disk writer (writer.exit raised) effect :=
  .quiet rfl hpath.symm rfl rfl (fun h => by rcases h with h | h <;> cases h) heffect

/-- What the handle passes on is a write to the writer's file, or nothing. -/
theorem Move.send {writer' : Writer} (sent : Nat) (hheld : writer.Holds)
    (hfile : writer'.file = writer.file) (hpath : writer'.temporaryPath = writer.temporaryPath)
    (hsent : writer'.sent = (writer.send data sent).1.sent)
    (hunclean : writer'.unclean = writer.unclean) (hready : ¬writer'.Ready) :
    Move destination data disk writer writer' (writer.send data sent).2 := by
  obtain ⟨id, hid⟩ := Option.isSome_iff_exists.mp hheld.1
  rw [send_some hid] at hsent ⊢
  by_cases hmore : writer.sent < sent
  · rw [if_pos hmore] at hsent ⊢
    exact .write id sent hid hheld.2 hfile hpath hsent hunclean hready
  · rw [if_neg hmore] at hsent ⊢
    exact .quiet hfile hpath hsent hunclean (fun h => absurd h hready) trivial

/-- The clean-up keeps the temporary file at hand. -/
theorem cleanUp_keeps (hheld : writer.Holds) (raised : Bool) :
    (writer.cleanUp raised).file = writer.file ∧
      (writer.cleanUp raised).temporaryPath = writer.temporaryPath ∧
      (writer.cleanUp raised).sent = writer.sent ∧
      (writer.cleanUp raised).unclean = writer.unclean ∧ ¬(writer.cleanUp raised).Ready := by
  rcases cleanUp_held hheld raised with ⟨-, h⟩ | ⟨-, h⟩
  all_goals
    rw [h]
    refine ⟨rfl, rfl, rfl, rfl, fun hready => ?_⟩
    rcases hready with hready | hready <;> cases hready

theorem cleanUp_shape (hheld : writer.Holds) (hsent : writer.sent ≤ data.length) (raised : Bool) :
    (writer.cleanUp raised).Shape data := by
  rcases cleanUp_held hheld raised with ⟨hdescriptor, h⟩ | ⟨hdescriptor, h⟩
  all_goals
    rw [h]
    exact ⟨hheld, hdescriptor, hsent⟩

theorem Move.cleanUp (hheld : writer.Holds) (raised : Bool) :
    Move destination data disk writer (writer.cleanUp raised) .nothing := by
  obtain ⟨hfile, hpath, hsent, hunclean, hready⟩ := cleanUp_keeps hheld raised
  exact .quiet hfile hpath hsent hunclean (fun h => absurd h hready) trivial

theorem not_ready_goto {line : Line} (h : line ≠ .closeHandle false) (h' : line ≠ .replace) :
    ¬(writer.goto line).Ready := by
  rintro (hready | hready)
  · exact h hready
  · exact h' hready

/-- A writer goes on to a call that is neither the last close nor the replacement. -/
theorem Move.goOn {effect : Effect Str Bytes} {line : Line} (h : line ≠ .closeHandle false)
    (h' : line ≠ .replace) (heffect : Quiet destination effect) :
    Move destination data disk writer (writer.goto line) effect :=
  .goto line (fun hready => absurd hready (not_ready_goto h h')) heffect

variable (destination disk) in
/-- The handle is used until the data is written, or until something raises. -/
theorem send_goto (line : Line) (hheld : writer.Holds) (hdescriptor : writer.descriptor = false)
    (hsent : writer.sent ≤ data.length) (hline : line = .write ∨ line = .flush ∨
      line = .closeHandle true) (answer : OsAnswer) :
    Move destination data disk writer
        ((writer.send data (min answer.written data.length)).1.goto line)
        (writer.send data (min answer.written data.length)).2 ∧
      ((writer.send data (min answer.written data.length)).1.goto line).Shape data := by
  have hsend := send_held data hheld (min answer.written data.length)
  constructor
  · refine .send _ hheld ?_ ?_ rfl ?_ ?_
    · rw [hsend]
      rfl
    · rw [hsend]
      rfl
    · rw [hsend]
      rfl
    · rcases hline with rfl | rfl | rfl <;> exact not_ready_goto nofun nofun
  · rw [hsend]
    have hshape : writer.Holds ∧ writer.descriptor = false ∧
        max writer.sent (min answer.written data.length) ≤ data.length :=
      ⟨hheld, hdescriptor, max_le hsent (min_le_right _ _)⟩
    rcases hline with rfl | rfl | rfl <;> exact hshape

/-- A handle that is not done stays where it is. -/
theorem send_stays (hheld : writer.Holds) (sent : Nat) :
    (writer.send data sent).1 = (writer.send data sent).1.goto writer.line := by
  rw [send_held data hheld]
  rfl

variable (destination disk) in
/-- Every call makes one of the moves, and leaves the local variables as the next call has them. -/
theorem advance_move (h : writer.Shape data) (answer : OsAnswer) :
    Move destination data disk writer (advance destination data disk writer answer).1
        (advance destination data disk writer answer).2 ∧
      (advance destination data disk writer answer).1.Shape data := by
  unfold advance
  unfold Shape at h
  cases hline : writer.line with
  | mkdir =>
    simp only [hline] at h ⊢
    by_cases hcreatable : (!creatable disk destination.parent) = true
    · rw [if_pos hcreatable]
      exact ⟨.exit true h.2.1 trivial, rfl, rfl⟩
    · rw [if_neg hcreatable]
      split
      · exact ⟨.exit true h.2.1 (List.take_prefix _ _), rfl, rfl⟩
      · exact ⟨.goOn nofun nofun List.prefix_rfl, h⟩
  | isSymlink =>
    simp only [hline] at h ⊢
    split
    · exact ⟨.exit true h.2.1 trivial, rfl, rfl⟩
    · exact ⟨.goOn nofun nofun trivial, h⟩
  | mkstemp =>
    simp only [hline] at h ⊢
    split
    · rw [cleanUp_free h.2.1 h.2.2.1]
      exact ⟨.exit true h.2.1 trivial, rfl, rfl⟩
    · split
      · refine ⟨.quiet rfl rfl rfl rfl id trivial, ?_⟩
        rw [Shape, hline]
        exact h
      · rename_i hfree
        exact ⟨.create _ h.1 h.2.2.2 (not_not.mp hfree), ⟨rfl, rfl⟩, rfl, h.2.2.2 ▸ Nat.zero_le _⟩
  | fchmod =>
    simp only [hline] at h ⊢
    exact ⟨.goOn nofun nofun trivial, h⟩
  | fdopen =>
    simp only [hline] at h ⊢
    split
    · exact ⟨.cleanUp h.1 true, cleanUp_shape h.1 h.2.2 true⟩
    · refine ⟨.quiet rfl rfl rfl rfl (fun hready => ?_) trivial, h.1, rfl, h.2.2⟩
      rcases hready with hready | hready <;> cases hready
  | write =>
    simp only [hline] at h ⊢
    have hgo := fun line hwhere =>
      send_goto destination disk line h.1 h.2.1 h.2.2 hwhere answer
    split
    · rw [send_stays h.1, hline]
      exact hgo .write (Or.inl rfl)
    · split
      · exact hgo (.closeHandle true) (Or.inr (Or.inr rfl))
      · exact hgo .flush (Or.inr (Or.inl rfl))
  | flush =>
    simp only [hline] at h ⊢
    have hgo := fun line hwhere =>
      send_goto destination disk line h.1 h.2.1 h.2.2 hwhere answer
    split
    · rw [send_stays h.1, hline]
      exact hgo .flush (Or.inr (Or.inl rfl))
    · split
      · exact hgo (.closeHandle true) (Or.inr (Or.inr rfl))
      · have hsend := send_held data h.1 data.length
        refine ⟨.send _ h.1 ?_ ?_ rfl ?_ (not_ready_goto nofun nofun), ?_⟩
        · rw [hsend]
          rfl
        · rw [hsend]
          rfl
        · rw [hsend]
          rfl
        · rw [hsend]
          exact ⟨h.1, h.2.1, max_eq_right h.2.2⟩
  | fsync =>
    simp only [hline] at h ⊢
    obtain ⟨id, hid⟩ := Option.isSome_iff_exists.mp h.1.1
    split
    · exact ⟨.goOn nofun nofun trivial, h.1, h.2.1, h.2.2.le⟩
    · rw [hid]
      exact ⟨.fsync id hid h.1.2 h.2.2, h⟩
  | closeHandle raised =>
    simp only [hline] at h ⊢
    cases raised with
    | true =>
      have hgo := send_goto destination disk (.closeHandle true) h.1 h.2.1 h.2.2
        (Or.inr (Or.inr rfl)) answer
      have hsend := send_held data h.1 (min answer.written data.length)
      rw [Bool.or_true, if_pos rfl]
      split
      · rw [send_stays h.1, hline]
        exact hgo
      · have hheld : (writer.send data (min answer.written data.length)).1.Holds := by
          rw [hsend]
          exact h.1
        obtain ⟨hfile, hpath, hsent, hunclean, hready⟩ := cleanUp_keeps hheld true
        refine ⟨.send _ h.1 ?_ ?_ hsent ?_ hready, cleanUp_shape hheld ?_ true⟩
        · rw [hfile, hsend]
        · rw [hpath, hsend]
        · rw [hunclean, hsend]
        · rw [hsend]
          exact max_le h.2.2 (min_le_right _ _)
    | false =>
      -- the flush has left nothing in the buffer
      rw [send_empty (h.2.2.symm ▸ min_le_right _ _), Bool.or_false]
      split
      · refine ⟨.quiet rfl rfl rfl rfl id trivial, ?_⟩
        rw [Shape, hline]
        exact h
      · split
        · exact ⟨.cleanUp h.1 true, cleanUp_shape h.1 h.2.2.le true⟩
        · exact ⟨.goto _ (fun _ => Or.inl hline) trivial, h⟩
  | replace =>
    simp only [hline] at h ⊢
    obtain ⟨id, hid⟩ := Option.isSome_iff_exists.mp h.1.1
    obtain ⟨path, hpath⟩ := Option.isSome_iff_exists.mp h.1.2
    rw [hpath]
    simp only
    split
    · exact ⟨.cleanUp h.1 true, cleanUp_shape h.1 h.2.2.le true⟩
    · exact ⟨.rename id path hid hpath (Or.inr hline), h.1.1, rfl, h.2.1⟩
  | chmod =>
    simp only [hline] at h ⊢
    split
    · rw [cleanUp_free h.2.1 h.2.2]
      exact ⟨.exit false h.2.1 trivial, rfl, rfl⟩
    · exact ⟨.goOn nofun nofun trivial, h⟩
  | openDirectory =>
    simp only [hline] at h ⊢
    split
    · rw [cleanUp_free h.2.1 h.2.2]
      exact ⟨.exit true h.2.1 trivial, rfl, rfl⟩
    · exact ⟨.goOn nofun nofun trivial, h⟩
  | fsyncDirectory =>
    simp only [hline] at h ⊢
    split
    · exact ⟨.goOn nofun nofun trivial, h⟩
    · exact ⟨.goOn nofun nofun rfl, h⟩
  | closeDirectory raised =>
    simp only [hline] at h ⊢
    rw [cleanUp_free h.2.1 h.2.2]
    exact ⟨.exit _ h.2.1 trivial, rfl, rfl⟩
  | close raised =>
    simp only [hline] at h ⊢
    split
    · exact ⟨.abandon true h.1, rfl, rfl⟩
    · rw [Writer.unlinkTemporary, if_pos h.1.2]
      refine ⟨.quiet rfl rfl rfl rfl (fun hready => ?_) trivial, h.1, rfl, h.2.2⟩
      rcases hready with hready | hready <;> cases hready
  | unlink raised =>
    simp only [hline] at h ⊢
    obtain ⟨id, hid⟩ := Option.isSome_iff_exists.mp h.1.1
    obtain ⟨path, hpath⟩ := Option.isSome_iff_exists.mp h.1.2
    split
    · exact ⟨.abandon raised h.1, rfl, rfl⟩
    · rw [hpath]
      exact ⟨.unlink id path raised hid hpath, rfl, rfl⟩
  | exited raised =>
    simp only [hline] at h ⊢
    refine ⟨.quiet rfl rfl rfl rfl id trivial, ?_⟩
    rw [Shape, hline]
    exact h

end Moves

end CypherSyntax
