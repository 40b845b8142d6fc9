import CypherSyntax.Persistence.Durable

/-!
# Writes that follow one another

Any number of calls of `atomic_write_bytes` (persistence.py) with one destination on POSIX, call by
call of the operating system, and a crash. Once a write has returned, no crash brings back what was
there before it started: neither what a write had left that ended by then, nor what the destination
held at first. The directories above the destination are no part of that: no write syncs them, and
they survive exactly when they were durable already.

Results:
* `advance_follows`: which call leads to which, on the way to a write that returns.
* `step_supersedes`: a call of any of the writes keeps what one of them has reached.
* `returned_supersedes`: after a write that has returned, the destination holds the data of a write
  that did not end before it started, live and after every crash, and it can be reached after every
  crash exactly when its directories were durable when that write started.
-/

namespace CypherSyntax

open Python FileSystem

variable {destination : Destination} {data : Bytes} {disk : Disk Str Bytes} {writer : Writer}

/-! ## Calls on the way -/

/-- How a write gets to the call that it makes next, if it is on the way to return. -/
def Follows (destination : Destination) (writer : Writer) (next : Writer × Effect Str Bytes) :
    Prop :=
  match next.1.line with
  | .chmod => ∃ path, writer.temporaryPath = some path ∧
      next.2 = .rename path destination.path
  | .openDirectory => writer.line = .chmod
  | .fsyncDirectory => writer.line = .openDirectory
  | .closeDirectory false =>
    writer.line = .fsyncDirectory ∧ next.2 = .fsyncDirectory destination.parent
  | .exited false => writer.line = .closeDirectory false ∨ writer.line = .exited false
  | .close false | .unlink false => False
  | _ => True

theorem follows_cleanUp (hheld : writer.Holds) (old : Writer) (effect : Effect Str Bytes) :
    Follows destination old (writer.cleanUp true, effect) := by
  rcases Writer.cleanUp_held hheld true with ⟨-, h⟩ | ⟨-, h⟩
  all_goals
    rw [h]
    exact trivial

/-- **Every call of a write on POSIX** leads on, or to its clean-up. -/
theorem advance_follows (hposix : destination.windows = false) (hshape : writer.Shape data)
    (hclose : writer.line ≠ .close false) (hunlink : writer.line ≠ .unlink false)
    (answer : OsAnswer) :
    Follows destination writer (advance destination data disk writer answer) := by
  unfold advance
  unfold Writer.Shape at hshape
  cases hline : writer.line with
  | mkdir =>
    dsimp only
    split
    · exact trivial
    · split <;> exact trivial
  | isSymlink =>
    dsimp only
    split <;> exact trivial
  | mkstemp =>
    simp only [hline] at hshape ⊢
    split
    · rw [Writer.cleanUp_free hshape.2.1 hshape.2.2.1]
      exact trivial
    · split
      · unfold Follows
        rw [hline]
        exact trivial
      · exact trivial
  | fchmod =>
    dsimp only
    exact trivial
  | fdopen =>
    simp only [hline] at hshape ⊢
    split
    · exact follows_cleanUp hshape.1 _ _
    · exact trivial
  | write =>
    simp only [hline] at hshape ⊢
    split
    · rw [send_stays hshape.1, hline]
      exact trivial
    · split <;> exact trivial
  | flush =>
    simp only [hline] at hshape ⊢
    split
    · unfold Follows
      rw [send_stays hshape.1, hline]
      exact trivial
    · split <;> exact trivial
  | fsync =>
    dsimp only
    split <;> exact trivial
  | closeHandle raised =>
    simp only [hline] at hshape ⊢
    have hheld : writer.Holds := by
      cases raised
      · exact hshape.1
      · exact hshape.1
    split
    · rw [send_stays hheld, hline]
      exact trivial
    · split
      · refine follows_cleanUp ?_ _ _
        rw [Writer.send_held data hheld]
        exact hheld
      · exact trivial
  | replace =>
    simp only [hline] at hshape ⊢
    obtain ⟨path, hpath⟩ := Option.isSome_iff_exists.mp hshape.1.2
    rw [hpath]
    simp only
    split
    · exact follows_cleanUp hshape.1 _ _
    · exact ⟨path, hpath, rfl⟩
  | chmod =>
    dsimp only
    rw [if_neg (by rw [hposix]; exact Bool.false_ne_true)]
    exact hline
  | openDirectory =>
    simp only [hline] at hshape ⊢
    split
    · rw [Writer.cleanUp_free hshape.2.1 hshape.2.2]
      exact trivial
    · exact hline
  | fsyncDirectory =>
    dsimp only
    split
    · exact trivial
    · exact ⟨hline, rfl⟩
  | closeDirectory raised =>
    simp only [hline] at hshape ⊢
    rw [Writer.cleanUp_free hshape.2.1 hshape.2.2]
    cases hraised : (answer.fails || raised) with
    | true => exact trivial
    | false =>
      obtain ⟨-, rfl⟩ := Bool.or_eq_false_iff.mp hraised
      exact Or.inl hline
  | close raised =>
    simp only [hline] at hshape ⊢
    cases raised with
    | true =>
      split
      · exact trivial
      · rw [Writer.unlinkTemporary, if_pos hshape.1.2]
        exact trivial
    | false => exact absurd hline hclose
  | unlink raised =>
    dsimp only
    cases raised with
    | true => split <;> exact trivial
    | false => exact absurd hline hunlink
  | exited raised =>
    dsimp only
    unfold Follows
    rw [hline]
    cases raised with
    | true => exact trivial
    | false => exact Or.inr rfl

/-- A write that has ended makes no call. -/
theorem advance_exited {raised : Bool} (h : writer.line = .exited raised) (answer : OsAnswer) :
    (advance destination data disk writer answer).1 = writer := by
  unfold advance
  rw [h]

/-- Renaming to the destination replaces it by the file of the write. -/
theorem Move.replaces_rename {writer' : Writer} {path : List Str}
    (h : Move destination data disk writer writer' (.rename path destination.path))
    (hplaced : Placed destination data disk writer) :
    Replaces disk (.rename path destination.path) writer writer'
      ((disk.apply (.rename path destination.path)).slots destination.path).live := by
  cases h with
  | quiet file path sent unclean ready quiet => exact quiet.elim
  | rename id path file held ready =>
    have hne := hplaced.ne_path file held
    rw [Disk.slots_rename hne, if_neg hne.symm, if_pos rfl]
    exact ⟨id, (hplaced id path file held).2.1, file, ready, file, rfl, Disk.files_rename⟩

/-! ## What a write leaves behind -/

namespace World

variable {ι : Type} {data : ι → Bytes} {before : Disk Str Bytes} {old world : World ι}

/-- A write had ended. -/
def Ended (old : World ι) (k : ι) : Prop := ∃ raised, (old.writers k).line = .exited raised

/-- The node is the file of a write that has replaced the destination, and that had not ended. -/
def ReplacedSince (data : ι → Bytes) (old world : World ι) (node : Option Node) : Prop :=
  ∃ k id, ¬ old.Ended k ∧ node = some (.file id) ∧ (world.writers k).file = some id ∧
    (world.writers k).temporaryPath = none ∧ world.disk.files id = ⟨data k, true⟩

/-- What a write that may still return has reached: nothing older is live once it has replaced the
destination, and nothing older is left once the directory is synced. -/
def Passed (data : ι → Bytes) (destination : Destination) (old world : World ι)
    (writer : Writer) : Prop :=
  match writer.line with
  | .chmod | .openDirectory | .fsyncDirectory =>
    ReplacedSince data old world (world.disk.slots destination.path).live
  | .closeDirectory false | .exited false =>
    ∀ node, (world.disk.slots destination.path).May node → ReplacedSince data old world node
  | .close false | .unlink false => False
  | _ => True

/-- What holds of the writes since the time of `old`, when one of them had not started. -/
structure Supersedes (destination : Destination) (data : ι → Bytes) (before : Disk Str Bytes)
    (old : World ι) (i : ι) (world : World ι) : Prop where
  consistent : Consistent destination data before world
  ended : ∀ k, old.Ended k → world.writers k = old.writers k
  passed : Passed data destination old world (world.writers i)

variable [DecidableEq ι] {i k : ι} {writer : Writer} {effect : Effect Str Bytes}

/-- A write that has replaced the destination keeps its data. -/
theorem ReplacedSince.keep (h : Consistent destination data before world)
    (hmove : Move destination (data k) world.disk (world.writers k) writer effect)
    {node : Option Node} (hnode : ReplacedSince data old world node) :
    ReplacedSince data old (world.after k writer effect) node := by
  obtain ⟨j, id, hj, rfl, hfile, hpath, hdata⟩ := hnode
  have hkept : (world.disk.apply effect).files id = ⟨data j, true⟩ := by
    rw [hmove.files_kept (h.numbered j id hfile).2, hdata]
    intro hown
    exact h.distinct j k id hfile hown ▸ hpath
  refine ⟨j, id, hj, rfl, ?_⟩
  by_cases hjk : j = k
  · subst hjk
    obtain ⟨hfile', hpath'⟩ := hmove.released hfile hpath
    rw [after_writers_self]
    exact ⟨hfile', hpath', hkept⟩
  · rw [after_writers_other hjk]
    exact ⟨hfile, hpath, hkept⟩

/-- What a move replaces the destination by is of a write that had not ended. -/
theorem replacedSince_of_replaces (h : Supersedes destination data before old i world)
    {node : Option Node} (hnode : Move.Replaces world.disk effect (world.writers k) writer node) :
    ReplacedSince data old (world.after k writer effect) node := by
  obtain ⟨id, rfl, hfile, hready, hfile', hpath', hfiles⟩ := hnode
  refine ⟨k, id, fun hended => ?_, rfl, ?_⟩
  · obtain ⟨raised, hline⟩ := hended
    rw [← h.ended k ⟨raised, hline⟩] at hline
    rcases hready with hready | hready
    · cases hline.symm.trans hready
    · cases hline.symm.trans hready
  · rw [after_writers_self]
    refine ⟨hfile', hpath', ?_⟩
    show (world.disk.apply effect).files id = _
    rw [hfiles, h.consistent.ready k hready id hfile]

section Move

variable (h : Supersedes destination data before old i world)
  (hmove : Move destination (data k) world.disk (world.writers k) writer effect)

include h hmove

theorem live_since
    (hlive : ReplacedSince data old world (world.disk.slots destination.path).live) :
    ReplacedSince data old (world.after k writer effect)
      ((world.disk.apply effect).slots destination.path).live := by
  rcases hmove.live_destination (h.consistent.placed k) with hsame | hreplaces
  · rw [hsame]
    exact hlive.keep h.consistent hmove
  · exact replacedSince_of_replaces h hreplaces

theorem may_since
    (hmay : ∀ node, (world.disk.slots destination.path).May node → ReplacedSince data old world node)
    {node : Option Node} (hnode : ((world.disk.apply effect).slots destination.path).May node) :
    ReplacedSince data old (world.after k writer effect) node := by
  rcases hmove.may_destination (h.consistent.placed k) hnode with hnode | hreplaces
  · exact (hmay node hnode).keep h.consistent hmove
  · exact replacedSince_of_replaces h hreplaces

/-- A call of another write keeps what a write has reached. -/
theorem passed_other :
    Passed data destination old (world.after k writer effect) (world.writers i) := by
  have hpassed := h.passed
  unfold Passed at hpassed ⊢
  cases hline : (world.writers i).line with
  | chmod | openDirectory | fsyncDirectory =>
    rw [hline] at hpassed
    exact live_since h hmove hpassed
  | closeDirectory raised | exited raised =>
    rw [hline] at hpassed
    cases raised with
    | true => exact trivial
    | false => exact fun node hnode => may_since h hmove hpassed hnode
  | close raised | unlink raised =>
    rw [hline] at hpassed
    cases raised with
    | true => exact trivial
    | false => exact hpassed
  | _ => exact trivial

end Move

/-- A call of the write itself leads on. -/
theorem passed_self (h : Supersedes destination data before old i world)
    (hmove : Move destination (data i) world.disk (world.writers i) writer effect)
    (hfollows : Follows destination (world.writers i) (writer, effect)) :
    Passed data destination old (world.after i writer effect) writer := by
  have hpassed := h.passed
  unfold Passed at hpassed ⊢
  unfold Follows at hfollows
  cases hline : writer.line with
  | chmod =>
    rw [hline] at hfollows
    obtain ⟨path, hpath, rfl⟩ : ∃ path, (world.writers i).temporaryPath = some path ∧ effect = _ :=
      hfollows
    exact replacedSince_of_replaces h (hmove.replaces_rename (h.consistent.placed i))
  | openDirectory =>
    rw [hline] at hfollows
    rw [show (world.writers i).line = .chmod from hfollows] at hpassed
    exact live_since h hmove hpassed
  | fsyncDirectory =>
    rw [hline] at hfollows
    rw [show (world.writers i).line = .openDirectory from hfollows] at hpassed
    exact live_since h hmove hpassed
  | closeDirectory raised =>
    rw [hline] at hfollows
    cases raised with
    | true => exact trivial
    | false =>
      obtain ⟨hsyncs, rfl⟩ : (world.writers i).line = .fsyncDirectory ∧ effect = _ := hfollows
      rw [hsyncs] at hpassed
      intro node hnode
      have hslot : (world.disk.apply (.fsyncDirectory destination.parent)).slots destination.path =
          (world.disk.slots destination.path).settle := by
        rw [Disk.slots_fsyncDirectory,
          if_pos ⟨Destination.path_ne_nil, Destination.path_dropLast⟩]
      have hlive := live_since h hmove hpassed
      rw [hslot] at hlive
      replace hnode : ((world.disk.apply (.fsyncDirectory destination.parent)).slots
        destination.path).May node := hnode
      rw [hslot, Slot.may_settle] at hnode
      rw [hnode]
      exact hlive
  | exited raised =>
    rw [hline] at hfollows
    cases raised with
    | true => exact trivial
    | false =>
      refine fun node hnode => may_since h hmove ?_ hnode
      rcases hfollows with hbefore | hbefore
      · rw [show (world.writers i).line = .closeDirectory false from hbefore] at hpassed
        exact hpassed
      · rw [show (world.writers i).line = .exited false from hbefore] at hpassed
        exact hpassed
  | close raised | unlink raised =>
    rw [hline] at hfollows
    cases raised with
    | true => exact trivial
    | false => exact hfollows
  | _ => exact trivial

/-- **A call of any of the writes keeps what holds since the time of `old`.** -/
theorem step_supersedes (hposix : destination.windows = false)
    (h : Supersedes destination data before old i world) (turn : ι × OsAnswer) :
    Supersedes destination data before old i (world.step destination data turn).2 := by
  obtain ⟨k, answer⟩ := turn
  obtain ⟨hmove, hshape⟩ := advance_move destination world.disk (h.consistent.shape k) answer
  refine ⟨step_consistent h.consistent (k, answer), fun j hj => ?_, ?_⟩
  · show Function.update world.writers k _ j = _
    by_cases hjk : j = k
    · subst hjk
      obtain ⟨raised, hline⟩ := hj
      have hsame := h.ended j ⟨raised, hline⟩
      rw [Function.update_self]
      exact (advance_exited (hsame ▸ hline) answer).trans hsame
    · rw [Function.update_of_ne hjk]
      exact h.ended j hj
  · by_cases hik : i = k
    · subst hik
      have hpassed := h.passed
      have hclose : (world.writers i).line ≠ .close false := by
        intro hline
        rw [Passed, hline] at hpassed
        exact hpassed
      have hunlink : (world.writers i).line ≠ .unlink false := by
        intro hline
        rw [Passed, hline] at hpassed
        exact hpassed
      have hfollows : Follows destination (world.writers i)
          (advance destination (data i) world.disk (world.writers i) answer) :=
        advance_follows hposix (h.consistent.shape i) hclose hunlink answer
      show Passed data destination old _ (Function.update world.writers i _ i)
      rw [Function.update_self]
      exact passed_self h hmove hfollows
    · show Passed data destination old _ (Function.update world.writers k _ i)
      rw [Function.update_of_ne hik]
      exact passed_other h hmove

/-- The state that the turns lead to. -/
def reached (destination : Destination) (data : ι → Bytes) (world : World ι)
    (turns : List (ι × OsAnswer)) : World ι :=
  (Machine.run (step destination data) world turns).2

/-- All that a crash may leave after a write has returned. -/
theorem replaced_reached (hposix : destination.windows = false) (disk : Disk Str Bytes)
    (earlier later : List (ι × OsAnswer))
    (hstart : ((reached destination data (start disk) earlier).writers i).line = .mkdir)
    (hreturned : ((reached destination data (reached destination data (start disk) earlier)
      later).writers i).line = .exited false) {node : Option Node}
    (hmay : ((reached destination data (reached destination data (start disk) earlier)
      later).disk.slots destination.path).May node) :
    ReplacedSince data (reached destination data (start disk) earlier)
      (reached destination data (reached destination data (start disk) earlier) later) node := by
  have hold : Supersedes destination data disk (reached destination data (start disk) earlier) i
      (reached destination data (start disk) earlier) := by
    refine ⟨run_consistent disk earlier, fun _ _ => rfl, ?_⟩
    unfold Passed
    rw [hstart]
    exact trivial
  have h : Supersedes destination data disk (reached destination data (start disk) earlier) i
      (reached destination data (reached destination data (start disk) earlier) later) :=
    Machine.run_invariant
      (I := Supersedes destination data disk (reached destination data (start disk) earlier) i)
      (fun _ turn h => step_supersedes hposix h turn) hold later
  have hpassed := h.passed
  unfold Passed at hpassed
  rw [hreturned] at hpassed
  exact hpassed node hmay

omit [DecidableEq ι] in
/-- What a crash leaves of a write that has replaced the destination. -/
theorem crash_replaced {old world : World ι}
    (h : ∀ node, (world.disk.slots destination.path).May node → ReplacedSince data old world node)
    {image : List Str → Option (Disk.Entry Bytes)} (hcrash : world.disk.Crash image) :
    ∃ k, ¬ old.Ended k ∧ image destination.path = some (.file (data k)) := by
  obtain ⟨node, hmay, hleaves⟩ := hcrash destination.path
  obtain ⟨k, id, hk, rfl, -, -, hdata⟩ := h node hmay
  obtain ⟨content, himage, hcontent⟩ := hleaves
  rw [hdata] at hcontent
  exact ⟨k, hk, by rw [himage, hcontent rfl]⟩

/-- **A write that has returned supersedes every write that ended before it started**, and what
the destination held before. A crash takes the destination's directories with it unless they were
durable when the write started. -/
theorem returned_supersedes (hposix : destination.windows = false) (disk : Disk Str Bytes)
    (earlier later : List (ι × OsAnswer))
    (hstart : ((reached destination data (start disk) earlier).writers i).line = .mkdir)
    (hreturned : ((reached destination data (reached destination data (start disk) earlier)
      later).writers i).line = .exited false) :
    let old := reached destination data (start disk) earlier
    let world := reached destination data old later
    (∃ k, ¬ old.Ended k ∧ world.disk.read destination.path = some (.file (data k))) ∧
      (∀ image, world.disk.Crash image →
        ∃ k, ¬ old.Ended k ∧ image destination.path = some (.file (data k))) ∧
      ((∀ image, world.disk.Crash image → Disk.Reachable image destination.parent) ↔
        DurablyInside destination old.disk) := by
  intro old world
  have hreplaced : ∀ node, (world.disk.slots destination.path).May node →
      ReplacedSince data old world node :=
    fun _ => replaced_reached hposix disk earlier later hstart hreturned
  refine ⟨?_, fun _ => crash_replaced hreplaced,
    durablyInside_iff.symm.trans (run_inside (run_consistent disk earlier) later)⟩
  obtain ⟨k, id, hk, hlive, -, -, hdata⟩ := hreplaced _ (Slot.may_live _)
  exact ⟨k, hk, by rw [Disk.read_file hlive, hdata]⟩

end World

/-! ## Two writes, one after the other -/

def sampleDestination : Destination := ⟨[lit "keys"], lit "state.bin", false⟩

/-- The calls of one of two writes, none of which fails. -/
def quietTurns (second : Bool) : List (Bool × OsAnswer) :=
  quietAnswers.map fun answer => (second, answer)

def sampleData (second : Bool) : Bytes := if second then [2] else [1]

def firstWorld : World Bool :=
  .reached sampleDestination sampleData (.start (directoryDisk [lit "keys"])) (quietTurns false)

def secondWorld : World Bool :=
  .reached sampleDestination sampleData firstWorld (quietTurns true)

theorem run_writes : (firstWorld.writers true).line = .mkdir ∧
    (firstWorld.writers false).line = .exited false ∧
    (secondWorld.writers true).line = .exited false := by
  decide +kernel

/-- After the second write has returned, its data is there, and no crash takes it away or brings
back the data of the first one. -/
theorem returned_supersedes_first :
    secondWorld.disk.read sampleDestination.path = some (.file [2]) ∧
      ∀ image, secondWorld.disk.Crash image →
        Disk.Reachable image sampleDestination.parent ∧
          image sampleDestination.path = some (.file [2]) := by
  obtain ⟨hstart, hended, hreturned⟩ := run_writes
  obtain ⟨⟨k, hk, hread⟩, hcrash, hreachable⟩ :=
    World.returned_supersedes (show sampleDestination.windows = false from rfl)
      (directoryDisk [lit "keys"]) (quietTurns false) (quietTurns true) hstart hreturned
  have hinside : DurablyInside sampleDestination firstWorld.disk :=
    (World.run_inside (World.start_consistent _) _).mpr (inside_directoryDisk _ _ _)
  have hlast : ∀ k, ¬ firstWorld.Ended k → k = true := by
    intro k hk
    cases k with
    | true => rfl
    | false => exact absurd ⟨false, hended⟩ hk
  refine ⟨?_, fun image himage => ⟨hreachable.mpr hinside image himage, ?_⟩⟩
  · obtain rfl := hlast k hk
    exact hread
  · obtain ⟨k, hk, hdata⟩ := hcrash image himage
    obtain rfl := hlast k hk
    exact hdata

end CypherSyntax
