import CypherSyntax.Persistence.Durable
import CypherSyntax.Persistence.Failure

/-!
# The two models of a write

`atomicWriteBytes` works on its destination, and which calls of the operating system fail is a
parameter. `advance` makes the same calls one by one on a file system. A write by itself, whose
calls fail as the parameter says, exits as `atomicWriteBytes` does and leaves the same at the
destination.

Results:
* `reached_advance`: what a call finds out about the calls that fail, and that it is one less to go.
* `follow_exits`: a write by itself exits.
* `write_agrees`: it returns when `atomicWriteBytes` returns, with the same at the destination.
-/

namespace CypherSyntax

open Python FileSystem

/-! ## Answers -/

def Line.call : Line → Option OsCall
  | .mkdir => some .mkdir
  | .isSymlink => some .isSymlink
  | .mkstemp => some .mkstemp
  | .fchmod => some .fchmod
  | .fdopen => some .fdopen
  | .write => some .write
  | .flush => some .flush
  | .fsync => some .fsync
  | .closeHandle _ => some .closeHandle
  | .replace => some .replace
  | .chmod => some .chmod
  | .openDirectory => some .openDirectory
  | .fsyncDirectory => some .fsyncDirectory
  | .closeDirectory _ => some .closeDirectory
  | .close _ => some .close
  | .unlink _ => some .unlink
  | .exited _ => none

/-- A bound of the calls to come. -/
def Line.rank : Line → Nat
  | .mkdir => 16
  | .isSymlink => 15
  | .mkstemp => 14
  | .fchmod => 13
  | .fdopen => 12
  | .write => 11
  | .flush => 10
  | .fsync => 9
  | .closeHandle _ => 8
  | .replace => 7
  | .chmod => 6
  | .openDirectory => 5
  | .fsyncDirectory => 4
  | .closeDirectory _ => 3
  | .close _ => 2
  | .unlink _ => 1
  | .exited _ => 0

/-- The calls that have succeeded when a write gets to a line. -/
def Line.passed : Line → List OsCall
  | .isSymlink => [.mkdir]
  | .mkstemp => [.mkdir, .isSymlink]
  | .fchmod | .fdopen => [.mkdir, .isSymlink, .mkstemp]
  | .write => [.mkdir, .isSymlink, .mkstemp, .fdopen]
  | .flush => [.mkdir, .isSymlink, .mkstemp, .fdopen, .write]
  | .fsync => [.mkdir, .isSymlink, .mkstemp, .fdopen, .write, .flush]
  | .closeHandle false => [.mkdir, .isSymlink, .mkstemp, .fdopen, .write, .flush, .fsync]
  | .replace => [.mkdir, .isSymlink, .mkstemp, .fdopen, .write, .flush, .fsync, .closeHandle]
  | _ => []

/-- The call of a line is over at once, and fails when it is one of those that fail. -/
def Os.answer (os : Os) (random : Str) (line : Line) : OsAnswer :=
  ⟨line.call.any os.raises, false, os.written, random⟩

/-- The file system is as the parameter of `atomicWriteBytes` says. -/
structure Os.Describes (os : Os) (destination : Destination) (random : Str)
    (disk : Disk Str Bytes) : Prop where
  windows : destination.windows = os.windows
  symlink : (disk.slots destination.path).live = some .link ↔ os.isLink = true
  creatable : os.raises .mkdir = false → creatable disk destination.parent = true
  replaceable : os.raises .replace = false → (disk.slots destination.path).live ≠ some .directory
  /-- The first name that `mkstemp` tries is free. -/
  free : (disk.slots (destination.temporary random)).live = none

/-! ## What a line knows -/

section Reached

variable (os : Os) (destination : Destination) (data : Bytes) (random : Str)
  (before disk : Disk Str Bytes)

/-- The destination names what it did. -/
def Kept : Prop := (disk.slots destination.path).live = (before.slots destination.path).live

/-- How a write ends. -/
def Ended (raised : Bool) : Prop :=
  os.replaces = false ∧ raised = true ∧ Kept destination before disk ∨
    os.replaces = true ∧ raised = os.syncFails ∧ Lands destination data disk

/-- What a write that has got to a line knows about the calls that fail. -/
def Reached (line : Line) : Prop :=
  match line with
  | .mkdir => disk = before
  | .isSymlink =>
    Kept destination before disk ∧ (∀ call ∈ line.passed, os.raises call = false) ∧
      (disk.slots (destination.temporary random)).live = none
  | .mkstemp =>
    Kept destination before disk ∧ (∀ call ∈ line.passed, os.raises call = false) ∧
      os.isLink = false ∧ (disk.slots (destination.temporary random)).live = none
  | .fchmod | .fdopen | .write | .flush | .fsync | .closeHandle false | .replace =>
    Kept destination before disk ∧ (∀ call ∈ line.passed, os.raises call = false) ∧
      os.isLink = false
  | .closeHandle true | .close true | .unlink true =>
    Kept destination before disk ∧ os.replaces = false
  | .close false | .unlink false => False
  | .chmod => Lands destination data disk ∧ os.replaces = true
  | .openDirectory => Lands destination data disk ∧ os.replaces = true ∧ os.windows = false
  | .fsyncDirectory =>
    Lands destination data disk ∧ os.replaces = true ∧ os.windows = false ∧
      os.raises .openDirectory = false
  | .closeDirectory raised =>
    Lands destination data disk ∧ os.replaces = true ∧ os.windows = false ∧
      os.raises .openDirectory = false ∧ os.raises .fsyncDirectory = raised
  | .exited raised => Ended os destination data before disk raised

end Reached

variable {os : Os} {destination : Destination} {data : Bytes} {random : Str}
  {before disk : Disk Str Bytes} {writer : Writer}

variable (data random) in
/-- A failed write goes on to its clean-up. -/
theorem reached_cleanUp (hheld : writer.Holds) (hkept : Kept destination before disk)
    (hfails : os.replaces = false) :
    Reached os destination data random before disk (writer.cleanUp true).line ∧
      (writer.cleanUp true).line.rank ≤ 2 := by
  rcases Writer.cleanUp_held hheld true with ⟨-, h⟩ | ⟨-, h⟩
  · rw [h]
    exact ⟨⟨hkept, hfails⟩, le_refl 2⟩
  · rw [h]
    exact ⟨⟨hkept, hfails⟩, Nat.le_succ 1⟩

/-- A call that does not replace the destination keeps what it names. -/
theorem Kept.apply {writer' : Writer} {effect : Effect Str Bytes}
    (h : Kept destination before disk) (hmove : Move destination data disk writer writer' effect)
    (hplaced : Move.Placed destination data disk writer) (hready : ¬writer.Ready) :
    Kept destination before (disk.apply effect) := by
  rcases hmove.live_destination hplaced with hlive | ⟨_, -, -, hreplaces, -⟩
  · exact hlive.trans h
  · exact absurd hreplaces hready

theorem not_ready_of_line {line : Line} (hline : writer.line = line)
    (h : line ≠ .closeHandle false) (h' : line ≠ .replace) : ¬writer.Ready := by
  rintro (hready | hready)
  · exact h (hline.symm.trans hready)
  · exact h' (hline.symm.trans hready)

/-- One more call has succeeded. -/
theorem passed_append {calls : List OsCall} {call : OsCall}
    (h : ∀ c ∈ calls, os.raises c = false) (hcall : ¬os.raises call = true) :
    ∀ c ∈ calls ++ [call], os.raises c = false := by
  intro c hc
  rcases List.mem_append.mp hc with hc | hc
  · exact h c hc
  · rw [List.mem_singleton.mp hc]
    exact Bool.not_eq_true _ ▸ hcall

variable (data) in
/-- The handle passes on its data without touching the destination. -/
theorem Kept.send (h : Kept destination before disk) (sent : Nat) :
    Kept destination before (disk.apply (writer.send data sent).2) := by
  unfold Writer.send
  split
  · split <;> exact h
  · exact h

/-- **What a call finds out**, and that one call less is to come. -/
theorem reached_advance (hos : os.Describes destination random before)
    (hshape : writer.Shape data) (hplaced : Move.Placed destination data disk writer)
    (hready : writer.Ready → ∀ id, writer.file = some id → disk.files id = ⟨data, true⟩)
    (h : Reached os destination data random before disk writer.line) :
    Reached os destination data random before
        (disk.apply (advance destination data disk writer (os.answer random writer.line)).2)
        (advance destination data disk writer (os.answer random writer.line)).1.line ∧
      (advance destination data disk writer (os.answer random writer.line)).1.line.rank ≤
        writer.line.rank - 1 := by
  have hmove := (advance_move destination disk hshape (os.answer random writer.line)).1
  rcases hnext : advance destination data disk writer (os.answer random writer.line) with
    ⟨writer', effect⟩
  rw [hnext] at hmove
  unfold Writer.Shape at hshape
  cases hline : writer.line with
  | mkdir =>
    have hquiet := not_ready_of_line hline (by simp) (by simp)
    simp only [advance, hline, Os.answer, Line.call, Option.any_some] at h hnext
    obtain rfl : disk = before := h
    have hkept := Kept.apply (rfl : Kept destination disk disk) hmove hplaced hquiet
    by_cases hcreatable : (!creatable disk destination.parent) = true
    · rw [if_pos hcreatable] at hnext
      obtain ⟨rfl, rfl⟩ := Prod.mk.inj hnext
      have hfail : os.raises .mkdir = true := by
        by_contra hok
        rw [hos.creatable (Bool.not_eq_true _ ▸ hok)] at hcreatable
        cases hcreatable
      exact ⟨Or.inl ⟨replaces_of_raises hfail (by simp), rfl, hkept⟩, Nat.zero_le _⟩
    · rw [if_neg hcreatable] at hnext
      by_cases hfail : os.raises .mkdir = true
      · rw [if_pos hfail] at hnext
        obtain ⟨rfl, rfl⟩ := Prod.mk.inj hnext
        exact ⟨Or.inl ⟨replaces_of_raises hfail (by simp), rfl, hkept⟩, Nat.zero_le _⟩
      · rw [if_neg hfail] at hnext
        obtain ⟨rfl, rfl⟩ := Prod.mk.inj hnext
        have hnone : ∀ c ∈ ([] : List OsCall), os.raises c = false := List.forall_mem_nil _
        refine ⟨⟨hkept, passed_append hnone hfail, ?_⟩, le_rfl⟩
        rw [Disk.slots_mkdirs, if_neg fun hmissing =>
          (Destination.above_ne hmissing.1).2 random rfl]
        exact hos.free
  | isSymlink =>
    simp only [advance, hline, Os.answer, Line.call, Option.any_some] at h hnext
    obtain ⟨hkept, hpassed, hfree⟩ := h
    by_cases hfail : os.raises .isSymlink = true ∨
        (disk.slots destination.path).live = some .link
    · rw [if_pos hfail] at hnext
      obtain ⟨rfl, rfl⟩ := Prod.mk.inj hnext
      refine ⟨Or.inl ⟨?_, rfl, hkept⟩, Nat.zero_le _⟩
      rcases hfail with hfail | hlink
      · exact replaces_of_raises hfail (by simp)
      · simp [Os.replaces, hos.symlink.mp (hkept.symm.trans hlink)]
    · rw [if_neg hfail] at hnext
      obtain ⟨rfl, rfl⟩ := Prod.mk.inj hnext
      obtain ⟨hfail, hlink⟩ := not_or.mp hfail
      refine ⟨⟨hkept, passed_append hpassed hfail, ?_, hfree⟩, le_rfl⟩
      rw [← Bool.not_eq_true, ← hos.symlink, ← hkept]
      exact hlink
  | mkstemp =>
    have hquiet := not_ready_of_line hline (by simp) (by simp)
    simp only [hline] at hshape
    simp only [advance, hline, Os.answer, Line.call, Option.any_some] at h hnext
    obtain ⟨hkept, hpassed, hsymlink, hfree⟩ := h
    have hkept' := hkept.apply hmove hplaced hquiet
    by_cases hfail : os.raises .mkstemp = true
    · rw [if_pos hfail, Writer.cleanUp_free hshape.2.1 hshape.2.2.1] at hnext
      obtain ⟨rfl, rfl⟩ := Prod.mk.inj hnext
      exact ⟨Or.inl ⟨replaces_of_raises hfail (by simp), rfl, hkept⟩, Nat.zero_le _⟩
    · rw [if_neg hfail, if_neg (not_not.mpr hfree)] at hnext
      obtain ⟨rfl, rfl⟩ := Prod.mk.inj hnext
      exact ⟨⟨hkept', passed_append hpassed hfail, hsymlink⟩, le_rfl⟩
  | fchmod =>
    simp only [advance, hline] at h hnext
    obtain ⟨rfl, rfl⟩ := Prod.mk.inj hnext
    exact ⟨h, le_rfl⟩
  | fdopen =>
    simp only [hline] at hshape
    simp only [advance, hline, Os.answer, Line.call, Option.any_some] at h hnext
    obtain ⟨hkept, hpassed, hsymlink⟩ := h
    by_cases hfail : os.raises .fdopen = true
    · rw [if_pos hfail] at hnext
      obtain ⟨rfl, rfl⟩ := Prod.mk.inj hnext
      obtain ⟨hreached, hrank⟩ := reached_cleanUp data random hshape.1 hkept
        (replaces_of_raises hfail (by simp))
      exact ⟨hreached, hrank.trans (by decide)⟩
    · rw [if_neg hfail] at hnext
      obtain ⟨rfl, rfl⟩ := Prod.mk.inj hnext
      exact ⟨⟨hkept, passed_append hpassed hfail, hsymlink⟩, le_rfl⟩
  | write =>
    simp only [advance, hline, Os.answer, Line.call, Option.any_some] at h hnext
    rw [if_neg Bool.false_ne_true] at hnext
    obtain ⟨hkept, hpassed, hsymlink⟩ := h
    by_cases hfail : os.raises .write = true
    · rw [if_pos hfail] at hnext
      obtain ⟨rfl, rfl⟩ := Prod.mk.inj hnext
      exact ⟨⟨hkept.send data _, replaces_of_raises hfail (by simp)⟩,
        show Line.rank (.closeHandle true) ≤ Line.write.rank - 1 by decide⟩
    · rw [if_neg hfail] at hnext
      obtain ⟨rfl, rfl⟩ := Prod.mk.inj hnext
      exact ⟨⟨hkept.send data _, passed_append hpassed hfail, hsymlink⟩, le_rfl⟩
  | flush =>
    simp only [advance, hline, Os.answer, Line.call, Option.any_some] at h hnext
    rw [if_neg Bool.false_ne_true] at hnext
    obtain ⟨hkept, hpassed, hsymlink⟩ := h
    by_cases hfail : os.raises .flush = true
    · rw [if_pos hfail] at hnext
      obtain ⟨rfl, rfl⟩ := Prod.mk.inj hnext
      exact ⟨⟨hkept.send data _, replaces_of_raises hfail (by simp)⟩,
        show Line.rank (.closeHandle true) ≤ Line.flush.rank - 1 by decide⟩
    · rw [if_neg hfail] at hnext
      obtain ⟨rfl, rfl⟩ := Prod.mk.inj hnext
      exact ⟨⟨hkept.send data _, passed_append hpassed hfail, hsymlink⟩, le_rfl⟩
  | fsync =>
    simp only [hline] at hshape
    simp only [advance, hline, Os.answer, Line.call, Option.any_some] at h hnext
    obtain ⟨hkept, hpassed, hsymlink⟩ := h
    by_cases hfail : os.raises .fsync = true
    · rw [if_pos hfail] at hnext
      obtain ⟨rfl, rfl⟩ := Prod.mk.inj hnext
      exact ⟨⟨hkept, replaces_of_raises hfail (by simp)⟩, le_rfl⟩
    · obtain ⟨id, hid⟩ := Option.isSome_iff_exists.mp hshape.1.1
      rw [if_neg hfail, hid] at hnext
      obtain ⟨rfl, rfl⟩ := Prod.mk.inj hnext
      exact ⟨⟨hkept, passed_append hpassed hfail, hsymlink⟩, le_rfl⟩
  | closeHandle raised =>
    simp only [advance, hline, Os.answer, Line.call, Option.any_some] at h hnext
    rw [if_neg Bool.false_ne_true] at hnext
    cases raised with
    | true =>
      simp only [hline] at hshape
      obtain ⟨hkept, hfails⟩ := h
      rw [Bool.or_true, if_pos rfl] at hnext
      obtain ⟨rfl, rfl⟩ := Prod.mk.inj hnext
      have hheld : (writer.send data (min os.written data.length)).1.Holds := by
        rw [Writer.send_held data hshape.1]
        exact hshape.1
      obtain ⟨hreached, hrank⟩ := reached_cleanUp data random hheld
        (hkept.send data (min os.written data.length)) hfails
      exact ⟨hreached, hrank.trans (by decide)⟩
    | false =>
      simp only [hline] at hshape
      obtain ⟨hkept, hpassed, hsymlink⟩ := h
      rw [Writer.send_empty (hshape.2.2.symm ▸ min_le_right _ _), Bool.or_false] at hnext
      by_cases hfail : os.raises .closeHandle = true
      · rw [if_pos hfail] at hnext
        obtain ⟨rfl, rfl⟩ := Prod.mk.inj hnext
        obtain ⟨hreached, hrank⟩ := reached_cleanUp data random hshape.1
          hkept (replaces_of_raises hfail (by simp))
        exact ⟨hreached, hrank.trans (by decide)⟩
      · rw [if_neg hfail] at hnext
        obtain ⟨rfl, rfl⟩ := Prod.mk.inj hnext
        exact ⟨⟨hkept, passed_append hpassed hfail, hsymlink⟩, le_rfl⟩
  | replace =>
    simp only [hline] at hshape
    simp only [advance, hline, Os.answer, Line.call, Option.any_some] at h hnext
    obtain ⟨hkept, hpassed, hsymlink⟩ := h
    obtain ⟨id, hid⟩ := Option.isSome_iff_exists.mp hshape.1.1
    obtain ⟨path, hpath⟩ := Option.isSome_iff_exists.mp hshape.1.2
    obtain ⟨-, hlive, -⟩ := hplaced id path hid hpath
    rw [hpath] at hnext
    simp only [hlive] at hnext
    by_cases hfail : os.raises .replace = true
    · rw [if_pos (Or.inl hfail)] at hnext
      obtain ⟨rfl, rfl⟩ := Prod.mk.inj hnext
      obtain ⟨hreached, hrank⟩ := reached_cleanUp data random hshape.1 hkept
        (replaces_of_raises hfail (by simp))
      exact ⟨hreached, hrank.trans (by decide)⟩
    · have hdirectory : (disk.slots destination.path).live ≠ some .directory := by
        rw [hkept]
        exact hos.replaceable (Bool.not_eq_true _ ▸ hfail)
      rw [if_neg (by simp [hfail, hdirectory])] at hnext
      obtain ⟨rfl, rfl⟩ := Prod.mk.inj hnext
      refine ⟨⟨lands_rename (hplaced.ne_path hid hpath) hlive (hready (Or.inr hline) id hid), ?_⟩,
        le_rfl⟩
      have hall := passed_append hpassed hfail
      simp only [Line.passed, List.cons_append, List.nil_append, List.forall_mem_cons] at hall
      simp [Os.replaces, hsymlink, hall]
  | chmod =>
    simp only [hline] at hshape
    simp only [advance, hline] at h hnext
    obtain ⟨hlands, hreplaces⟩ := h
    by_cases hwindows : destination.windows = true
    · rw [if_pos hwindows, Writer.cleanUp_free hshape.2.1 hshape.2.2] at hnext
      obtain ⟨rfl, rfl⟩ := Prod.mk.inj hnext
      refine ⟨Or.inr ⟨hreplaces, ?_, hlands⟩, Nat.zero_le _⟩
      rw [Os.syncFails, ← hos.windows, hwindows]
      rfl
    · rw [if_neg hwindows] at hnext
      obtain ⟨rfl, rfl⟩ := Prod.mk.inj hnext
      exact ⟨⟨hlands, hreplaces, hos.windows ▸ Bool.not_eq_true _ ▸ hwindows⟩, le_rfl⟩
  | openDirectory =>
    simp only [hline] at hshape
    simp only [advance, hline, Os.answer, Line.call, Option.any_some] at h hnext
    obtain ⟨hlands, hreplaces, hwindows⟩ := h
    by_cases hfail : os.raises .openDirectory = true
    · rw [if_pos hfail, Writer.cleanUp_free hshape.2.1 hshape.2.2] at hnext
      obtain ⟨rfl, rfl⟩ := Prod.mk.inj hnext
      refine ⟨Or.inr ⟨hreplaces, ?_, hlands⟩, Nat.zero_le _⟩
      rw [Os.syncFails, hwindows, hfail]
      rfl
    · rw [if_neg hfail] at hnext
      obtain ⟨rfl, rfl⟩ := Prod.mk.inj hnext
      exact ⟨⟨hlands, hreplaces, hwindows, Bool.not_eq_true _ ▸ hfail⟩, le_rfl⟩
  | fsyncDirectory =>
    simp only [advance, hline, Os.answer, Line.call, Option.any_some] at h hnext
    obtain ⟨hlands, hreplaces, hwindows, hopen⟩ := h
    by_cases hfail : os.raises .fsyncDirectory = true
    · rw [if_pos hfail] at hnext
      obtain ⟨rfl, rfl⟩ := Prod.mk.inj hnext
      exact ⟨⟨hlands, hreplaces, hwindows, hopen, hfail⟩, le_rfl⟩
    · rw [if_neg hfail] at hnext
      obtain ⟨rfl, rfl⟩ := Prod.mk.inj hnext
      exact ⟨⟨(lands_fsyncDirectory hlands).1, hreplaces, hwindows, hopen,
        Bool.not_eq_true _ ▸ hfail⟩, le_rfl⟩
  | closeDirectory raised =>
    simp only [hline] at hshape
    simp only [advance, hline, Os.answer, Line.call, Option.any_some] at h hnext
    obtain ⟨hlands, hreplaces, hwindows, hopen, hsync⟩ := h
    rw [Writer.cleanUp_free hshape.2.1 hshape.2.2] at hnext
    obtain ⟨rfl, rfl⟩ := Prod.mk.inj hnext
    refine ⟨Or.inr ⟨hreplaces, ?_, hlands⟩, Nat.zero_le _⟩
    rw [Os.syncFails, hwindows, hopen, hsync, Bool.or_comm]
    rfl
  | close raised =>
    simp only [hline] at hshape
    cases raised with
    | false =>
      rw [hline] at h
      exact h.elim
    | true =>
      simp only [advance, hline, Os.answer, Line.call, Option.any_some] at h hnext
      obtain ⟨hkept, hfails⟩ := h
      by_cases hfail : os.raises .close = true
      · rw [if_pos hfail] at hnext
        obtain ⟨rfl, rfl⟩ := Prod.mk.inj hnext
        exact ⟨Or.inl ⟨hfails, rfl, hkept⟩, Nat.zero_le _⟩
      · rw [if_neg hfail, Writer.unlinkTemporary, if_pos hshape.1.2] at hnext
        obtain ⟨rfl, rfl⟩ := Prod.mk.inj hnext
        exact ⟨⟨hkept, hfails⟩, le_rfl⟩
  | unlink raised =>
    have hquiet := not_ready_of_line hline (by simp) (by simp)
    simp only [hline] at hshape
    cases raised with
    | false =>
      rw [hline] at h
      exact h.elim
    | true =>
      simp only [advance, hline, Os.answer, Line.call, Option.any_some] at h hnext
      obtain ⟨hkept, hfails⟩ := h
      have hkept' := hkept.apply hmove hplaced hquiet
      by_cases hfail : os.raises .unlink = true
      · rw [if_pos hfail] at hnext
        obtain ⟨rfl, rfl⟩ := Prod.mk.inj hnext
        exact ⟨Or.inl ⟨hfails, rfl, hkept⟩, Nat.zero_le _⟩
      · rw [if_neg hfail] at hnext
        obtain ⟨rfl, rfl⟩ := Prod.mk.inj hnext
        exact ⟨Or.inl ⟨hfails, rfl, hkept'⟩, Nat.zero_le _⟩
  | exited raised =>
    simp only [advance, hline] at h hnext
    obtain ⟨rfl, rfl⟩ := Prod.mk.inj hnext
    rw [hline]
    exact ⟨h, le_rfl⟩

/-! ## A write by itself -/

/-- A write by itself whose calls fail as `os` says. -/
def Os.follow (os : Os) (destination : Destination) (random : Str) (data : Bytes) :
    Nat → World Unit → World Unit
  | 0, world => world
  | n + 1, world => os.follow destination random data n
      (world.step destination (fun _ => data) ((), os.answer random (world.writers ()).line)).2

/-- A write by itself goes on until it exits. -/
theorem follow_exits {world : World Unit} (hos : os.Describes destination random before)
    (hconsistent : World.Consistent destination (fun _ => data) before world)
    (h : Reached os destination data random before world.disk (world.writers ()).line) {n : Nat}
    (hn : (world.writers ()).line.rank ≤ n) :
    ∃ raised, ((os.follow destination random data n world).writers ()).line = .exited raised ∧
      World.Consistent destination (fun _ => data) before
        (os.follow destination random data n world) ∧
      Ended os destination data before (os.follow destination random data n world).disk raised := by
  induction n generalizing world with
  | zero =>
    cases hline : (world.writers ()).line with
    | exited raised =>
      rw [hline] at h
      exact ⟨raised, hline, hconsistent, h⟩
    | _ =>
      rw [hline] at hn
      cases hn
  | succ n ih =>
    obtain ⟨hreached, hrank⟩ := reached_advance hos (hconsistent.shape ()) (hconsistent.placed ())
      (hconsistent.ready ()) h
    refine ih (World.step_consistent hconsistent _) ?_ ?_
    · show Reached os destination data random before _ (Function.update world.writers () _ ()).line
      rw [Function.update_self]
      exact hreached
    · show (Function.update world.writers () _ ()).line.rank ≤ n
      rw [Function.update_self]
      exact hrank.trans (by omega)

/-- **A write by itself ends as `atomicWriteBytes` does.** -/
theorem write_agrees {τ : Type} (hos : os.Describes destination random disk) (data : Bytes)
    (previous : Option Bytes) (log : List τ) :
    ∃ raised, ((os.follow destination random data 16 (World.start disk)).writers ()).line =
        .exited raised ∧
      Runs (atomicWriteBytes os (.bytes data)) ⟨Target.of previous, log⟩
        (fun _ t => raised = false ∧ t.self.destination = some data ∧
          (os.follow destination random data 16 (World.start disk)).disk.read destination.path =
            some (.file data))
        fun _ t => raised = true ∧
          (t.self.destination = some data ∧
            (os.follow destination random data 16 (World.start disk)).disk.read destination.path =
              some (.file data) ∨
          t.self.destination = previous ∧
            (os.follow destination random data 16 (World.start disk)).disk.read destination.path =
              disk.read destination.path) := by
  have hstart : Reached os destination data random disk disk .mkdir := rfl
  obtain ⟨raised, hline, hconsistent, hended⟩ :=
    follow_exits hos (World.start_consistent disk) hstart (le_refl 16)
  refine ⟨raised, hline, ?_⟩
  rcases hended with ⟨hreplaces, rfl, hkept⟩ | ⟨hreplaces, rfl, id, hlive, hdata⟩
  · have hread := Disk.read_congr hkept fun id hid => hconsistent.kept id (Disk.live_lt hid)
    refine (atomicWriteBytes_runs data _).mono ?_ ?_
    · rintro _ t ⟨-, hreplaced, -⟩
      rw [hreplaces] at hreplaced
      cases hreplaced
    · rintro _ t ⟨-, ⟨hreplaced, -⟩ | ⟨-, hprevious⟩⟩
      · rw [hreplaces] at hreplaced
        cases hreplaced
      · exact ⟨rfl, Or.inr ⟨hprevious, hread⟩⟩
  · have hread := Disk.read_file hlive
    rw [hdata] at hread
    refine (atomicWriteBytes_runs data _).mono ?_ ?_
    · rintro _ t ⟨-, -, hsync, hwritten⟩
      exact ⟨hsync, hwritten, hread⟩
    · rintro _ t ⟨-, ⟨-, hsync, hwritten⟩ | ⟨hreplaced, -⟩⟩
      · exact ⟨hsync, Or.inl ⟨hwritten, hread⟩⟩
      · rw [hreplaces] at hreplaced
        cases hreplaced

/-- A POSIX system on which the directory of the file cannot be synced. -/
def unsyncableOs : Os :=
  { posixOs [.fsyncDirectory] with destination := lit "keys/state.bin", parent := lit "keys" }

theorem describes_unsyncable : unsyncableOs.Describes ⟨[lit "keys"], lit "state.bin", false⟩
    (lit "q7zk3w_x") (directoryDisk [lit "keys"]) where
  windows := rfl
  symlink := by decide
  creatable _ := by decide
  replaceable _ := by decide
  free := by decide

/-- A write that cannot sync the directory raises, and has replaced the file. -/
theorem write_agrees_unsyncable :
    ((unsyncableOs.follow ⟨[lit "keys"], lit "state.bin", false⟩ (lit "q7zk3w_x") [1] 16
      (World.start (directoryDisk [lit "keys"]))).writers ()).line = .exited true ∧
    (unsyncableOs.follow ⟨[lit "keys"], lit "state.bin", false⟩ (lit "q7zk3w_x") [1] 16
      (World.start (directoryDisk [lit "keys"]))).disk.read [lit "keys", lit "state.bin"] =
        some (.file [1]) := by
  obtain ⟨raised, hline, hruns⟩ :=
    write_agrees describes_unsyncable [1] none ([] : List Unit)
  rcases hrun : (atomicWriteBytes unsyncableOs (.bytes [1])).run
    (⟨Target.of none, []⟩ : Frame Target Unit) with ⟨e | _, t⟩
  · obtain ⟨rfl, ⟨-, hread⟩ | ⟨hnone, -⟩⟩ := hruns.of_error hrun
    · exact ⟨hline, hread⟩
    · cases (congrArg (fun p => p.2.self.destination) hrun).trans hnone
  · cases congrArg (fun p => p.1.toOption) hrun

end CypherSyntax
