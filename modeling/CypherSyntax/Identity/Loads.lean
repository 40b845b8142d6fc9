import CypherSyntax.Identity.Survival
import CypherSyntax.Persistence.Readers

/-!
# Loads while saves are under way

Any number of processes save identities under one name while others load it. Between any two calls
that one of them makes of the operating system, the others make theirs.

Results:
* `loads_see_saves`: a load that has read the file returns the identity of the last save before it,
  as a whole. One that begins after a save has returned does not miss it.
-/

namespace CypherSyntax

open Python FileSystem Register

namespace Identity

section Loads

variable [Interpreter] [Crypto] [PrivateBytes]

/-- How a load goes on with what it has read. -/
def loadRead (n : Str) (os : Os) (store : EncryptedStore) (blob : Bytes) :
    Except PyError Identity :=
  loadFrom [] (fun _ => some (.file blob)) n os store

/-- What a load finds: the identity of the last save, if there is one and its passphrase is the
load's, and else what was there. -/
def Finds {ι : Type} (n : Str) (os : Os) (saves : ι → Sealing)
    (original : Option (Disk.Entry Bytes)) (store : EncryptedStore) (blob : Bytes) :
    Option ι → Prop
  | none => original = some (.file blob)
  | some k => store = (saves k).store → loadRead n os store blob = .ok (saves k).identity

variable {n : Str} {os : Os} {directory : List Str} {windows : Bool}

/-- **Loads see saves.** In every interleaving of saves and loads under one name, all saves and
loads take effect in one order, and each load finds the identity of the last save before it, whole.
If a save had returned before the load began, there is one. -/
theorem loads_see_saves {ι κ : Type} [DecidableEq ι] [DecidableEq κ] (hopens : OpensSealed)
    (hkeys : KeyBytes) (hname : ValidName n ∧ hasPathComponents n = false)
    (hread : os.raises .read = false) {saves : ι → Sealing} {data : ι → Bytes}
    (hwrites : Writes n saves data) (stores : κ → EncryptedStore) (disk : Disk Str Bytes)
    (hlink : (disk.slots (destinationOf directory n windows).path).live ≠ some .link)
    (earlier later : List (Turn ι κ)) :
    let destination := destinationOf directory n windows
    let old := Users.reached destination data (.start disk) earlier
    let accesses := Users.history destination data (.start disk) earlier ++
      Users.history destination data old later
    ∀ j blob, (Users.reached destination data old later).readers j = .returned blob →
      ∃ last, Answers none some accesses j last ∧
        Finds n os saves (disk.read destination.path) (stores j) blob last ∧
        ((∃ i, (old.world.writers i).line = .exited false) → old.readers j = .start →
          last ≠ none) := by
  intro destination old accesses j blob hreturned
  have hold : Users.Linear destination data disk old
      (Users.history destination data (.start disk) earlier) :=
    Users.run_linear hlink (Users.start_linear disk) earlier
  have husers := Users.run_linear hlink hold later
  let held : Option ι → Option (Disk.Entry Bytes)
    | none => disk.read destination.path
    | some k => some (.file (data k))
  have hanswers : Answers (held none) (fun k => held (some k)) accesses j (some (.file blob)) :=
    husers.answered j blob hreturned
  obtain ⟨last, hlast, hblob⟩ := hanswers.last
  refine ⟨last, hlast, ?_, ?_⟩
  · cases last with
    | none => exact hblob.symm
    | some k =>
      intro hstore
      obtain rfl : blob = data k := by
        cases hblob
        rfl
      rw [hstore]
      exact @load_sealed _ _ _ n os [] windows _ hopens hkeys hname hread _ (hwrites.name k) _
        (hwrites.file k) rfl
  · rintro ⟨i, hline⟩ hstart
    have hsaved : .write i ∈ Users.history destination data (.start disk) earlier :=
      hold.linearizes.written i hline
    obtain ⟨between, hbetween⟩ := hlast.later (hold.unread j hstart)
    rw [← hbetween]
    exact last_ne_none (Or.inl (last_ne_none (Or.inr ⟨i, hsaved⟩)))

end Loads

/-! ## A load that a save overtakes -/

section Samples

open scoped Samples SampleKeys

def heidiDestination : Destination := destinationOf [lit "keys"] (lit "heidi") false

/-- The first save has returned. -/
def savedUsers : Users Bool Unit :=
  .reached heidiDestination heidiFile (.start (directoryDisk [lit "keys"])) firstWrites

/-- The load opens the file, and the second save replaces it. -/
def loadingTurns : List (Turn Bool Unit) :=
  .read () ⟨false, 0, none⟩ :: ((quietTurns true).map fun turn => .write turn.1 turn.2) ++
    [.read () ⟨false, 4095, none⟩, .read () ⟨false, 4095, none⟩]

def loadedUsers : Users Bool Unit := savedUsers.reached heidiDestination heidiFile loadingTurns

theorem run_loaded : ((directoryDisk [lit "keys"]).slots heidiDestination.path).live ≠ some .link ∧
    (savedUsers.world.writers false).line = .exited false ∧ savedUsers.readers () = .start ∧
    loadedUsers.readers () = .returned (heidiFile false) := by
  decide +kernel

/-- The load finds one of the saved identities. -/
theorem loads_see_saves_heidi : loadedUsers.readers () = .returned (heidiFile false) ∧
    ∃ last, Answers none some (Users.history heidiDestination heidiFile
        (.start (directoryDisk [lit "keys"])) firstWrites ++
          savedUsers.history heidiDestination heidiFile loadingTurns) () last ∧
      Finds (lit "heidi") (posixOs []) heidiSave
        ((directoryDisk [lit "keys"]).read heidiDestination.path) EncryptedStore.sampleStore
        (heidiFile false) last ∧ last ≠ none := by
  have hopens : OpensSealed := fun _ _ _ _ _ _ h => opened_sealed h
  have hkeys : KeyBytes := ⟨fun data h => ⟨⟨data, h⟩, dif_pos h⟩, fun data h =>
    ⟨⟨data, h⟩, dif_pos h⟩, fun key => dif_pos key.property, fun key => dif_pos key.property⟩
  obtain ⟨hlink, hsaved, hstart, hreturned⟩ := run_loaded
  have hread : (posixOs []).raises .read = false := rfl
  have h := loads_see_saves hopens hkeys (validateIdentityName_ok.mp valid_heidi).2 hread
    writes_heidi (fun _ : Unit => EncryptedStore.sampleStore) (directoryDisk [lit "keys"]) hlink
    firstWrites loadingTurns ()
  unfold loadedUsers savedUsers heidiDestination at *
  generalize heidiFile false = blob at hreturned ⊢
  obtain ⟨last, hlast, hfinds, hnone⟩ := h blob hreturned
  exact ⟨hreturned, last, hlast, hfinds, hnone ⟨false, hsaved⟩ hstart⟩

end Samples

end Identity

end CypherSyntax
