import CypherSyntax.Identity.Vault
import CypherSyntax.Persistence.Order

/-!
# Identities that survive a crash

Any number of processes save identities under one name (`Identity.save`, identity.py), and a crash
comes at any time: between any two calls that they make of the operating system, some of which may
have failed. What is left in the directory is what `Identity.load` finds there. It finds nothing
where the crash took the directory, or one above it.

Results:
* `load_sealed`: what a save writes is loaded as its identity.
* `saves_survive`: after a crash, `load` finds what it could have found before, or one of the
  identities; once a save has returned on POSIX, it finds none that is older, and the directory is
  there exactly when it was durable before.
-/

namespace CypherSyntax

open Python Json FileSystem

namespace Identity

section Survival

variable [Interpreter] [Crypto] [PrivateBytes]

/-- The files of a directory, none if it is not there. -/
def filesOf (directory : List Str) (image : List Str → Option (Disk.Entry Bytes)) : Files :=
  fun name =>
    match Disk.find image (directory ++ [name]) with
    | some (.file content) => some content
    | _ => none

/-- A save of an identity, with what it draws. -/
structure Sealing where
  identity : Identity
  store : EncryptedStore
  salt : FixedBytes storeSaltBytes
  nonce : FixedBytes storeNonceBytes

/-- The file of the name, in a directory. -/
def destinationOf (directory : List Str) (n : Str) (windows : Bool) : Destination :=
  ⟨directory, pathOf n, windows⟩

/-- What each save under the name gives to `atomic_write_bytes`. -/
structure Writes {ι : Type} (n : Str) (saves : ι → Sealing) (data : ι → Bytes) : Prop where
  name : ∀ i, (saves i).identity.name = n
  file : ∀ i, (saves i).store.fileOf (saves i).identity.storagePayload (saves i).salt
    (saves i).nonce = .ok (data i)

/-- The outcome of a load from what is on the file system. -/
def loadFrom (directory : List Str) (image : List Str → Option (Disk.Entry Bytes)) (n : Str)
    (os : Os) (store : EncryptedStore) : Except PyError Identity :=
  ((load (.str n) os (.bytes store.passphrase)).run ⟨filesOf directory image, []⟩).1

variable {n : Str} {os : Os} {directory : List Str} {windows : Bool}
  {image : List Str → Option (Disk.Entry Bytes)}

/-- A load looks at the file of its name only. -/
theorem loadFrom_congr (hname : ValidName n ∧ hasPathComponents n = false)
    (hread : os.raises .read = false) {other : List Str → Option (Disk.Entry Bytes)}
    (h : Disk.find image (destinationOf directory n windows).path =
      Disk.find other (destinationOf directory n windows).path) (store : EncryptedStore) :
    loadFrom directory image n os store = loadFrom directory other n os store := by
  refine load_congr hname hread ?_
  unfold filesOf
  simp only
  rw [show directory ++ [pathOf n] = (destinationOf directory n windows).path from rfl, h]

/-- **What a save writes is loaded as its identity.** -/
theorem load_sealed (hopens : OpensSealed) (hkeys : KeyBytes)
    (hname : ValidName n ∧ hasPathComponents n = false) (hread : os.raises .read = false)
    {save : Sealing} (hsave : save.identity.name = n) {blob : Bytes}
    (hfile : save.store.fileOf save.identity.storagePayload save.salt save.nonce = .ok blob)
    (himage : Disk.find image (destinationOf directory n windows).path = some (.file blob)) :
    loadFrom directory image n os save.store = .ok save.identity := by
  obtain ⟨plaintext, hencode, hsealed⟩ := bind_eq_ok.mp hfile
  obtain ⟨ciphertext, hseal, hblob⟩ := bind_eq_ok.mp hsealed
  obtain rfl := pure_eq_ok.mp hblob
  obtain ⟨_, hencode', -, hdecode⟩ := save.identity.encodeObject_storagePayload
  obtain rfl := Except.ok.inj (hencode.symm.trans hencode')
  obtain ⟨-, -, -, -, -, -, hmax⟩ := encodeObject_ok.mp hencode
  have hlen := Crypto.encrypt_length _ _ _ _ _ _ hseal
  have htag : storeTagBytes = aeadTagBytes := rfl
  have hstored : filesOf directory image (pathOf n) =
      some (EncryptedStore.blobOf save.salt save.nonce ciphertext) := by
    unfold filesOf
    rw [show directory ++ [pathOf n] = (destinationOf directory n windows).path from rfl, himage]
  unfold loadFrom
  rw [load_file hname hread hstored, EncryptedStore.openBlob_blobOf (by omega) (by omega)
    (hopens _ _ _ _ _ _ hseal) hmax, hdecode]
  subst hsave
  exact ofPayload_sorted hkeys save.identity

/-- What a load finds after a crash, when some of the saves had made some of their calls before
`old` and all of them have made more since. -/
structure Survives {ι : Type} (directory : List Str) (n : Str) (windows : Bool) (os : Os)
    (saves : ι → Sealing) (disk : Disk Str Bytes) (old world : World ι) : Prop where
  /-- What it could have found after a crash before the saves, or an identity, as a whole. -/
  whole : ∀ image, world.disk.Crash image →
    (∃ earlier, disk.Crash earlier ∧ ∀ store,
      loadFrom directory image n os store = loadFrom directory earlier n os store) ∨
    ∃ k, loadFrom directory image n os (saves k).store = .ok (saves k).identity
  /-- Once a save has returned on POSIX, and where the directory is there, one that had not ended
  when it started. -/
  newest : windows = false → ∀ i, (old.writers i).line = .mkdir →
    (world.writers i).line = .exited false → ∀ image, world.disk.Crash image →
    Disk.Reachable image directory → ∃ k, ¬ old.Ended k ∧
      loadFrom directory image n os (saves k).store = .ok (saves k).identity
  /-- The directory is there if it was durable. -/
  inside : (∀ image, world.disk.Crash image → Disk.Reachable image directory) ↔
    DurablyInside (destinationOf directory n windows) old.disk

/-- **Identities survive a crash**: at any point of any interleaving of saves under one name, a
crash leaves one of the identities or what was there before them, and once a save has returned it
leaves one whose save had not ended when that save started, unless it takes the directory. -/
theorem saves_survive {ι : Type} [DecidableEq ι] (hopens : OpensSealed) (hkeys : KeyBytes)
    (hname : ValidName n ∧ hasPathComponents n = false) (hread : os.raises .read = false)
    {saves : ι → Sealing} {data : ι → Bytes} (hwrites : Writes n saves data)
    (disk : Disk Str Bytes) (hrooted : Rooted (destinationOf directory n windows) disk)
    (earlier later : List (ι × OsAnswer)) :
    let destination := destinationOf directory n windows
    let old := World.reached destination data (.start disk) earlier
    Survives directory n windows os saves disk old (old.reached destination data later) := by
  intro destination old
  have hload : ∀ {image : List Str → Option (Disk.Entry Bytes)} k,
      Disk.find image destination.path = some (.file (data k)) →
        loadFrom directory image n os (saves k).store = .ok (saves k).identity :=
    fun k himage => load_sealed hopens hkeys hname hread (hwrites.name k) (hwrites.file k) himage
  constructor
  · intro image hcrash
    have hrun : old.reached destination data later =
        .reached destination data (.start disk) (earlier ++ later) := by
      unfold old World.reached
      rw [Machine.run_append]
    rw [hrun] at hcrash
    rcases World.crash_found hrooted (earlier ++ later) hcrash with
      ⟨before, hbefore, hsame⟩ | ⟨k, hk⟩
    · exact Or.inl ⟨before, hbefore, loadFrom_congr hname hread hsame⟩
    · exact Or.inr ⟨k, hload k hk⟩
  · intro hposix i hstart hreturned image hcrash hreachable
    obtain ⟨k, hk, himage⟩ := World.crash_replaced (fun _ =>
      World.replaced_reached hposix disk earlier later hstart hreturned) hcrash
    exact ⟨k, hk, hload k ((find_destination hreachable).trans himage)⟩
  · exact durablyInside_iff.symm.trans (World.run_inside (World.run_consistent disk earlier) later)

end Survival

/-! ## Two saves, one after the other -/

section Samples

open scoped Samples SampleKeys

def heidiSave (second : Bool) : Sealing :=
  ⟨heidi (if second then 2 else 1), EncryptedStore.sampleStore, EncryptedStore.sampleSalt,
    EncryptedStore.sampleNonce⟩

def heidiFile (second : Bool) : Bytes :=
  ((heidiSave second).store.fileOf (heidiSave second).identity.storagePayload
    (heidiSave second).salt (heidiSave second).nonce).toOption.getD []

def firstSaved : World Bool :=
  .reached (destinationOf [lit "keys"] (lit "heidi") false) heidiFile
    (.start (directoryDisk [lit "keys"])) (quietTurns false)

def secondSaved : World Bool :=
  firstSaved.reached (destinationOf [lit "keys"] (lit "heidi") false) heidiFile (quietTurns true)

theorem run_saved : (firstSaved.writers true).line = .mkdir ∧
    (firstSaved.writers false).line = .exited false ∧
    (secondSaved.writers true).line = .exited false := by
  decide +kernel

theorem writes_heidi : Writes (lit "heidi") heidiSave heidiFile := by
  have hseals : EncryptedStore.SealsData := fun _ _ _ _ _ _ hne _ =>
    ⟨_, sealed_ok.mpr rfl⟩
  refine ⟨fun _ => rfl, fun second => ?_⟩
  obtain ⟨_, _, -, -, -, hfile⟩ := Save.file_ok EncryptedStore.storeCrypto_digests hseals
    ⟨(heidiSave second).identity, (heidiSave second).store, (posixOs []), posixOs_quiet,
      (heidiSave second).salt, (heidiSave second).nonce⟩
  unfold heidiFile
  rw [show (heidiSave second).store.fileOf _ _ _ = _ from hfile]
  rfl

/-- After the second save has returned, every crash leaves its identity to be loaded. -/
theorem saves_survive_heidi : (secondSaved.writers true).line = .exited false ∧
    ∀ image, secondSaved.disk.Crash image →
      loadFrom [lit "keys"] image (lit "heidi") (posixOs []) EncryptedStore.sampleStore =
        .ok (heidi 2) := by
  have hopens : OpensSealed := fun _ _ _ _ _ _ h => opened_sealed h
  have hkeys : KeyBytes := ⟨fun data h => ⟨⟨data, h⟩, dif_pos h⟩, fun data h =>
    ⟨⟨data, h⟩, dif_pos h⟩, fun key => dif_pos key.property, fun key => dif_pos key.property⟩
  have hrooted : Rooted (destinationOf [lit "keys"] (lit "heidi") false)
      (directoryDisk [lit "keys"]) := rooted_directoryDisk _ _ _
  have h : Survives [lit "keys"] (lit "heidi") false (posixOs []) heidiSave
      (directoryDisk [lit "keys"]) firstSaved secondSaved :=
    saves_survive hopens hkeys (validateIdentityName_ok.mp valid_heidi).2 rfl writes_heidi _
      hrooted (quietTurns false) (quietTurns true)
  have hinside : DurablyInside (destinationOf [lit "keys"] (lit "heidi") false)
      firstSaved.disk := by
    unfold firstSaved World.reached
    exact (World.run_inside (World.start_consistent _) _).mpr (inside_directoryDisk _ _ _)
  obtain ⟨hstart, hended, hreturned⟩ := run_saved
  generalize firstSaved = first at *
  generalize secondSaved = second at *
  refine ⟨hreturned, fun image hcrash => ?_⟩
  obtain ⟨k, hk, hloads⟩ := h.newest rfl true hstart hreturned image hcrash
    (h.inside.mpr hinside image hcrash)
  cases k with
  | true => exact hloads
  | false => exact absurd ⟨false, hended⟩ hk

end Samples

end Identity

end CypherSyntax
