import CypherSyntax.Identity.Storage
import CypherSyntax.Instances

/-!
# A directory of identities

A history of saves into one directory, and what a load finds there: the keys of the last save under
its name, whatever was saved under other names.

Results:
* `Save.run_file`: the file of a name is that of the last save under it.
* `load_last_save`: a directory behaves as a map from names to identities.
-/

namespace CypherSyntax

open Python Json

namespace Identity

section Directory

variable [Interpreter] [Crypto] [PrivateBytes]

/-! ## Loads -/

variable {n : Str} {os : Os} {store : EncryptedStore} {s : Frame Files Call}

/-- What `load` makes of the outcome of the store. -/
def ofStore (n : Str) (raw : Except PyError Value) : Except PyError Identity := do
  ofPayload n (← convert isStoreErrorClass (identityError (lit "failed to load identity")) raw)

/-- **A load of a valid name does what its store does**, and makes an identity of it. -/
theorem load_run (hname : ValidName n ∧ hasPathComponents n = false)
    {raw : Except PyError Value} {t : Frame Target Call}
    (h : (store.load os).run ⟨Target.of (s.self (pathOf n)), s.log⟩ = (raw, t)) :
    (load (.str n) os (.bytes store.passphrase)).run s =
      (ofStore n raw, ⟨Function.update s.self (pathOf n) t.self.destination, t.log⟩) := by
  have hvalidated : validateIdentityName (.str n) = .ok n :=
    validateIdentityName_ok.mpr ⟨rfl, hname⟩
  have hpassphrase : validatePassphrase (.bytes store.passphrase) = .ok store.passphrase :=
    validatePassphrase_ok.mpr ⟨rfl, store.passphrase_valid⟩
  have hstore : EncryptedStore.new (.bytes store.passphrase) = .ok store :=
    EncryptedStore.new_ok store.passphrase_valid
  unfold load ofStore
  rw [Method.run_bind_ok (Method.lift_ok.mpr ⟨hvalidated, rfl⟩),
    Method.run_bind_ok (Method.lift_ok.mpr ⟨hpassphrase, rfl⟩),
    Method.run_bind_ok (Method.lift_ok.mpr ⟨storagePath_ok hname, rfl⟩), Method.run_bind,
    EncryptedStore.run_convert, Method.run_bind_ok (Method.lift_ok.mpr ⟨hstore, rfl⟩),
    atPath_run h]
  cases convert isStoreErrorClass (identityError (lit "failed to load identity")) raw with
  | error e => rfl
  | ok value => rfl

/-- A load of a name without a file raises `IdentityError`. -/
theorem load_absent (hname : ValidName n ∧ hasPathComponents n = false)
    (hread : os.raises .read = false) (habsent : s.self (pathOf n) = none) :
    ∃ message, ((load (.str n) os (.bytes store.passphrase)).run s).1 =
      .error (identityError message) := by
  have hstore : (store.load os).run ⟨Target.of (s.self (pathOf n)), s.log⟩ = _ :=
    EncryptedStore.load_unread (Or.inr habsent)
  rw [load_run hname hstore, Os.unread_of_encoded hread]
  exact ⟨_, rfl⟩

/-- **A load of a file makes an identity of what its store opens**, and changes no file. -/
theorem load_file (hname : ValidName n ∧ hasPathComponents n = false)
    (hread : os.raises .read = false) {blob : Bytes} (hfile : s.self (pathOf n) = some blob) :
    (load (.str n) os (.bytes store.passphrase)).run s = (ofStore n (store.openBlob blob),
      ⟨s.self, s.log ++ if EncryptedStore.checkBlob blob = .ok () then
        [.decrypted (store.openingCall blob)] else []⟩) := by
  have hstore : (store.load os).run ⟨Target.of (s.self (pathOf n)), s.log⟩ = _ :=
    EncryptedStore.load_run hread hfile
  rw [load_run hname hstore]
  show (_, (⟨Function.update s.self (pathOf n) (s.self (pathOf n)), _⟩ : Frame Files Call)) = _
  rw [Function.update_eq_self]

/-- What the store rejects raises `IdentityError`. -/
theorem ofStore_error {e : PyError} (h : IsStoreError e) :
    ∃ message, ofStore n (.error e) = .error (identityError message) := by
  obtain ⟨message, rfl⟩ := h
  exact ⟨_, rfl⟩

/-- **Every authenticated dictionary is a payload of the name or an `IdentityError`.** -/
theorem load_holds (hcrypto : EncryptedStore.StoreCrypto) (hkeys : KeyBytes)
    (hname : ValidName n ∧ hasPathComponents n = false) (hread : os.raises .read = false)
    {blob : Bytes} (hfile : s.self (pathOf n) = some blob) {items : List (Key × Value)}
    (hholds : EncryptedStore.Holds store.passphrase blob (.dict items)) :
    Ensures (fun self => self.name = n ∧ ∃ signing exchange, IsPayload n items signing exchange)
      IsIdentityError ((load (.str n) os (.bytes store.passphrase)).run s).1 := by
  rw [load_file hname hread hfile, (EncryptedStore.openBlob_ok hcrypto).mpr hholds]
  exact ofPayload_ensures hkeys hname items

/-! ## Saves -/

/-- **A save does what its store does**, to the file of its name. -/
theorem save_run (self : Identity) {salt : FixedBytes storeSaltBytes}
    {nonce : FixedBytes storeNonceBytes} {outcome : Except PyError Unit} {t : Frame Target Call}
    (h : (store.save os self.storagePayload salt nonce).run
      ⟨Target.of (s.self (pathOf self.name)), s.log⟩ = (outcome, t)) :
    (self.save os (.bytes store.passphrase) salt nonce).run s =
      (convert isStoreErrorClass (identityError (lit "failed to save identity")) outcome,
        ⟨Function.update s.self (pathOf self.name) t.self.destination, t.log⟩) := by
  have hpassphrase : validatePassphrase (.bytes store.passphrase) = .ok store.passphrase :=
    validatePassphrase_ok.mpr ⟨rfl, store.passphrase_valid⟩
  have hstore : EncryptedStore.new (.bytes store.passphrase) = .ok store :=
    EncryptedStore.new_ok store.passphrase_valid
  unfold save
  rw [Method.run_bind_ok (Method.lift_ok.mpr ⟨hpassphrase, rfl⟩),
    Method.run_bind_ok (Method.lift_ok.mpr ⟨storagePath_ok self.name_valid, rfl⟩),
    EncryptedStore.run_convert, Method.run_bind_ok (Method.lift_ok.mpr ⟨hstore, rfl⟩), atPath_run h]

/-- One call of `save` into the directory, of which no call of the operating system fails. -/
structure Save where
  identity : Identity
  store : EncryptedStore
  os : Os
  os_quiet : os.Quiet
  salt : FixedBytes storeSaltBytes
  nonce : FixedBytes storeNonceBytes

namespace Save

def step (s : Frame Files Call) (save : Save) : Except PyError Unit × Frame Files Call :=
  (save.identity.save save.os (.bytes save.store.passphrase) save.salt save.nonce).run s

/-- The file that the save writes. -/
def file (save : Save) : Except PyError Bytes :=
  save.store.fileOf save.identity.storagePayload save.salt save.nonce

/-- The calls of the save. -/
def calls (save : Save) : List Call :=
  save.store.sealingCalls save.identity.storagePayload save.salt save.nonce

variable {save : Save}

/-- Every save has a file to write: the sealed payload of its identity. -/
theorem file_ok (hcrypto : EncryptedStore.StoreCrypto) (hseals : EncryptedStore.SealsData)
    (save : Save) :
    ∃ plaintext ciphertext, encodeObject save.identity.storagePayload = .ok plaintext ∧
      decodeObject plaintext = .ok (.dict (sortByKey save.identity.payloadItems)) ∧
      Crypto.encrypt .aesGcmSiv (Crypto.scrypt save.store.passphrase save.salt) save.nonce
        plaintext storeAssociatedData = .ok ciphertext ∧
      save.file = .ok (EncryptedStore.blobOf save.salt save.nonce ciphertext) := by
  obtain ⟨plaintext, hencode, hne, hdecode⟩ := save.identity.encodeObject_storagePayload
  obtain ⟨-, -, -, -, -, -, hmax⟩ := encodeObject_ok.mp hencode
  have hsize : plaintext.length < 2 ^ 31 := by
    have : maxStorePlaintextBytes = 1048576 := rfl
    omega
  obtain ⟨ciphertext, hseal⟩ := hseals (Crypto.scrypt save.store.passphrase save.salt)
    save.nonce plaintext storeAssociatedData (hcrypto.scrypt_length _ _) save.nonce.property hne hsize
  refine ⟨plaintext, ciphertext, hencode, hdecode, hseal, ?_⟩
  unfold file EncryptedStore.fileOf
  rw [hencode, ok_bind, hseal, ok_bind]
  rfl

/-- **What a save does to the directory.** -/
theorem step_run {blob : Bytes} (hfile : save.file = .ok blob) (s : Frame Files Call) :
    step s save = (.ok (), ⟨Function.update s.self (pathOf save.identity.name) (some blob),
      s.log ++ save.calls⟩) := by
  obtain ⟨t, hrun, hlog, hdata⟩ := EncryptedStore.save_quiet save.os_quiet hfile
    ⟨Target.of (s.self (pathOf save.identity.name)), s.log⟩
  unfold step
  rw [save_run save.identity hrun, hlog, hdata]
  rfl

/-- The log of a history of saves. -/
theorem run_log (hcrypto : EncryptedStore.StoreCrypto) (hseals : EncryptedStore.SealsData)
    (saves : List Save) (s : Frame Files Call) :
    (Machine.run step s saves).2.log = s.log ++ saves.flatMap calls := by
  induction saves generalizing s with
  | nil => exact (List.append_nil _).symm
  | cons save saves ih =>
    obtain ⟨_, _, -, -, -, hfile⟩ := save.file_ok hcrypto hseals
    rw [Machine.run_cons, ih, step_run hfile, List.flatMap_cons, List.append_assoc]

/-- The last save under a name. -/
def last (n : Str) (saves : List Save) : Option Save :=
  (saves.filter fun save => save.identity.name == n).getLast?

omit [PrivateBytes] in
theorem last_concat (n : Str) (saves : List Save) (save : Save) :
    last n (saves ++ [save]) = if save.identity.name = n then some save else last n saves := by
  unfold last
  rw [List.filter_append]
  by_cases h : save.identity.name = n
  · rw [if_pos h, List.filter_cons_of_pos (by simp [h]), List.filter_nil, List.getLast?_concat]
  · rw [if_neg h, List.filter_cons_of_neg (by simp [h]), List.filter_nil, List.append_nil]

omit [PrivateBytes] in
/-- The last save is a save of the history, under the name. -/
theorem last_mem {n : Str} {saves : List Save} (h : last n saves = some save) :
    save ∈ saves ∧ save.identity.name = n := by
  have hmem := List.mem_filter.mp (List.mem_of_getLast? h)
  exact ⟨hmem.1, beq_iff_eq.mp hmem.2⟩

/-- SHA-256 does not collide on the names of the history and the name. -/
def DistinctDigests (n : Str) (saves : List Save) : Prop :=
  ∀ save ∈ saves, Crypto.sha256 (utf8 save.identity.name) = Crypto.sha256 (utf8 n) →
    utf8 save.identity.name = utf8 n

/-- **The file of a name is that of the last save under it**: induction over the history, from its
last save. -/
theorem run_file (hcrypto : EncryptedStore.StoreCrypto) (hseals : EncryptedStore.SealsData)
    {n : Str} (hname : ValidName n ∧ hasPathComponents n = false) (saves : List Save)
    (hsha256 : DistinctDigests n saves) (s : Frame Files Call) :
    (Machine.run step s saves).2.self (pathOf n) =
      (last n saves).elim (s.self (pathOf n)) fun save => save.file.toOption := by
  induction saves using List.reverseRecOn with
  | nil => rfl
  | append_singleton saves save ih =>
    obtain ⟨_, _, -, -, -, hfile⟩ := save.file_ok hcrypto hseals
    rw [Machine.run_concat, step_run hfile, last_concat]
    show Function.update _ _ _ _ = _
    by_cases h : save.identity.name = n
    · rw [if_pos h, h, Function.update_self, Option.elim_some, hfile]
      rfl
    · have hpath : pathOf n ≠ pathOf save.identity.name := fun hpath =>
        h (pathOf_inj save.identity.name_valid.1 hname.1 (hsha256 save (by simp)) hpath.symm)
      rw [if_neg h, Function.update_of_ne hpath]
      exact ih fun save hsave => hsha256 save (List.mem_append_left _ hsave)

/-- The call that sealed the file of a save. -/
theorem sealing_mem_calls {plaintext ciphertext : Bytes}
    (hencode : encodeObject save.identity.storagePayload = .ok plaintext)
    (hseal : Crypto.encrypt .aesGcmSiv (Crypto.scrypt save.store.passphrase save.salt) save.nonce
      plaintext storeAssociatedData = .ok ciphertext) :
    .encrypted ⟨.aesGcmSiv, Crypto.scrypt save.store.passphrase save.salt, save.nonce, plaintext,
      storeAssociatedData, some ciphertext⟩ ∈ save.calls := by
  unfold calls EncryptedStore.sealingCalls
  rw [hencode]
  simp only [hseal]
  exact List.mem_singleton.mpr rfl

end Save

/-! ## A map from names to identities -/

/-- The outcome of a load from the directory after a history of saves. -/
def loaded (n : Str) (os : Os) (passphrase : Bytes) (files : Files) (saves : List Save) :
    Except PyError Identity × Frame Files Call :=
  (load (.str n) os (.bytes passphrase)).run (Machine.run Save.step ⟨files, []⟩ saves).2

section Map

variable {files : Files} {saves : List Save} {save : Save}

/-- The last save under the name is loaded with its passphrase. -/
theorem loaded_last (hcrypto : EncryptedStore.StoreCrypto) (hseals : EncryptedStore.SealsData)
    (hopens : OpensSealed) (hkeys : KeyBytes) (hname : ValidName n ∧ hasPathComponents n = false)
    (hread : os.raises .read = false) (hsha256 : Save.DistinctDigests n saves)
    (hlast : Save.last n saves = some save)
    (hpassphrase : save.store.passphrase = store.passphrase) :
    (loaded n os store.passphrase files saves).1 = .ok save.identity := by
  obtain ⟨plaintext, ciphertext, hencode, hdecode, hseal, hfile⟩ := save.file_ok hcrypto hseals
  obtain ⟨-, -, -, -, -, -, hmax⟩ := encodeObject_ok.mp hencode
  have hlen := Crypto.encrypt_length _ _ _ _ _ _ hseal
  have htag : storeTagBytes = aeadTagBytes := rfl
  have hstored := Save.run_file hcrypto hseals hname saves hsha256 ⟨files, []⟩
  rw [hlast, Option.elim_some, hfile] at hstored
  have hopen := hopens _ _ _ _ _ _ hseal
  rw [hpassphrase] at hopen
  unfold loaded
  rw [load_file hname hread hstored, EncryptedStore.openBlob_blobOf (by omega) (by omega) hopen hmax,
    hdecode]
  obtain ⟨-, rfl⟩ := Save.last_mem hlast
  exact ofPayload_sorted hkeys save.identity

/-- The last save under the name does not open under another key. -/
theorem loaded_other_key (hcrypto : EncryptedStore.StoreCrypto) (hseals : EncryptedStore.SealsData)
    (hname : ValidName n ∧ hasPathComponents n = false) (hread : os.raises .read = false)
    (hsha256 : Save.DistinctDigests n saves) (hlast : Save.last n saves = some save)
    (hkey : Crypto.scrypt save.store.passphrase save.salt ≠
      Crypto.scrypt store.passphrase save.salt)
    (hbound : OpensUnderSealingKey (loaded n os store.passphrase files saves).2.log) :
    ∃ message, (loaded n os store.passphrase files saves).1 = .error (identityError message) := by
  obtain ⟨plaintext, ciphertext, hencode, -, hseal, hfile⟩ := save.file_ok hcrypto hseals
  have hstored := Save.run_file hcrypto hseals hname saves hsha256 ⟨files, []⟩
  rw [hlast, Option.elim_some, hfile] at hstored
  unfold loaded at hbound ⊢
  rw [load_file hname hread hstored] at hbound ⊢
  cases hopen : store.openBlob (EncryptedStore.blobOf save.salt save.nonce ciphertext) with
  | error e => exact ofStore_error ((EncryptedStore.openBlob_ensures hcrypto).of_error hopen)
  | ok raw =>
    refine absurd ?_ hkey.symm
    obtain ⟨u, hcheck, hkeyed⟩ := bind_eq_ok.mp hopen
    rw [EncryptedStore.deriveKey_of_checkBlob hcheck, ok_bind] at hkeyed
    obtain ⟨opened, hopened, -⟩ := bind_eq_ok.mp hkeyed
    obtain ⟨hsalt, -, hciphertext⟩ := EncryptedStore.blobOf_parts save.salt save.nonce ciphertext
    rw [if_pos hcheck, Save.run_log hcrypto hseals] at hbound
    have hwritten := List.mem_flatMap.mpr
      ⟨save, (Save.last_mem hlast).1, Save.sealing_mem_calls hencode hseal⟩
    have hsame := hbound _ (mem_sealedCalls.mpr (List.mem_append_left _
      (List.mem_append_right _ hwritten))) _ (mem_openedCalls.mpr
      (List.mem_append_right _ (List.mem_singleton.mpr rfl))) rfl
      (congrArg some hciphertext.symm)
      (by rw [show (store.openingCall _).result = some opened from
        toOption_eq_some.mpr (convert_ok.mp hopened)]; simp)
    exact (congrArg (Crypto.scrypt store.passphrase) hsalt).symm.trans hsame

omit [PrivateBytes] in
/-- What was saved under other names does not count. -/
theorem last_filter (n : Str) (saves : List Save) :
    Save.last n (saves.filter fun save => save.identity.name == n) = Save.last n saves := by
  unfold Save.last
  rw [List.filter_filter]
  simp only [Bool.and_self]

/-- A load looks at the file of its name only. -/
theorem load_congr (hname : ValidName n ∧ hasPathComponents n = false)
    (hread : os.raises .read = false) {s s' : Frame Files Call}
    (h : s.self (pathOf n) = s'.self (pathOf n)) :
    ((load (.str n) os (.bytes store.passphrase)).run s).1 =
      ((load (.str n) os (.bytes store.passphrase)).run s').1 := by
  cases hfile : s.self (pathOf n) with
  | some blob => rw [load_file hname hread hfile, load_file hname hread (h ▸ hfile)]
  | none =>
    have hunread : ∀ s : Frame Files Call, s.self (pathOf n) = none →
        (store.load os).run ⟨Target.of (s.self (pathOf n)), s.log⟩ = _ :=
      fun _ habsent => EncryptedStore.load_unread (Or.inr habsent)
    rw [load_run hname (hunread s hfile), load_run hname (hunread s' (h ▸ hfile))]

/-- **A directory of identities behaves as a map**: a load returns the identity of the last save
under its name if that used its passphrase, and raises `IdentityError` if there was none or it used
a passphrase with another key, whatever was saved under other names. Of the authenticated
dictionaries, exactly the payloads of the name are loaded. -/
theorem load_last_save (hcrypto : EncryptedStore.StoreCrypto)
    (hseals : EncryptedStore.SealsData) (hopens : OpensSealed) (hkeys : KeyBytes)
    (hname : ValidName n ∧ hasPathComponents n = false) (hread : os.raises .read = false)
    (store : EncryptedStore) (hempty : files (pathOf n) = none) (saves : List Save)
    (hsha256 : Save.DistinctDigests n saves) :
    let run := loaded n os store.passphrase files saves
    (Save.last n saves = none → ∃ message, run.1 = .error (identityError message)) ∧
    (∀ save, Save.last n saves = some save → save.store.passphrase = store.passphrase →
      run.1 = .ok save.identity ∧ save.identity.name = n) ∧
    (∀ save, Save.last n saves = some save → Crypto.scrypt save.store.passphrase save.salt ≠
      Crypto.scrypt store.passphrase save.salt → OpensUnderSealingKey run.2.log →
      ∃ message, run.1 = .error (identityError message)) ∧
    run.1 = (loaded n os store.passphrase files
      (saves.filter fun save => save.identity.name == n)).1 ∧
    ∀ (s : Frame Files Call) (blob : Bytes) (items : List (Key × Value)),
      s.self (pathOf n) = some blob → EncryptedStore.Holds store.passphrase blob (.dict items) →
      let outcome := ((load (.str n) os (.bytes store.passphrase)).run s).1
      ((∃ self, outcome = .ok self) ↔ ∃ signing exchange, IsPayload n items signing exchange) ∧
      ((¬ ∃ signing exchange, IsPayload n items signing exchange) →
        ∃ message, outcome = .error (identityError message)) := by
  intro run
  have hstored := Save.run_file hcrypto hseals hname saves hsha256 ⟨files, []⟩
  refine ⟨fun hnone => ?_, fun save hlast hpassphrase => ?_, fun save hlast hkey hbound => ?_, ?_,
    fun s blob items hfile hholds => ?_⟩
  · rw [hnone, Option.elim_none] at hstored
    exact load_absent hname hread (hstored.trans hempty)
  · exact ⟨loaded_last hcrypto hseals hopens hkeys hname hread hsha256 hlast hpassphrase,
      (Save.last_mem hlast).2⟩
  · exact loaded_other_key hcrypto hseals hname hread hsha256 hlast hkey hbound
  · refine load_congr hname hread ?_
    have hfiltered := Save.run_file hcrypto hseals hname
      (saves.filter fun save => save.identity.name == n)
      (fun save hsave => hsha256 save (List.mem_of_mem_filter hsave)) ⟨files, []⟩
    rw [hstored, hfiltered, last_filter]
  · intro outcome
    have hload : Ensures _ _ outcome := load_holds hcrypto hkeys hname hread hfile hholds
    have hexact : (∃ self, outcome = .ok self) ↔
        ∃ signing exchange, IsPayload n items signing exchange := by
      constructor
      · rintro ⟨self, hself⟩
        exact (hload.of_ok hself).2
      · rintro ⟨signing, exchange, hpayload⟩
        obtain ⟨signingRaw, hsigning, hsigningLength⟩ := fromhex_of_keyText hpayload.signing_text
        obtain ⟨exchangeRaw, hexchange, hexchangeLength⟩ :=
          fromhex_of_keyText hpayload.exchange_text
        obtain ⟨signingKey, hsigningKey⟩ := hkeys.toSigning_ok signingRaw hsigningLength
        obtain ⟨exchangeKey, hexchangeKey⟩ := hkeys.toExchange_ok exchangeRaw hexchangeLength
        refine ⟨⟨n, signingKey, exchangeKey, hname⟩, ?_⟩
        show ((load (.str n) os (.bytes store.passphrase)).run s).1 = _
        rw [load_file hname hread hfile, (EncryptedStore.openBlob_ok hcrypto).mpr hholds]
        exact ofPayload_ok hname hpayload hsigning hexchange hsigningKey hexchangeKey
    refine ⟨hexact, fun hnone => ?_⟩
    cases houtcome : outcome with
    | ok self => exact absurd (hexact.mp ⟨self, houtcome⟩) hnone
    | error e =>
      obtain ⟨message, rfl⟩ := hload.of_error houtcome
      exact ⟨message, rfl⟩

end Map

end Directory

/-! ## Two identities in a directory -/

/-- A key from its bytes. -/
def keyOfBytes (data : Bytes) : Except PyError (FixedBytes 32) :=
  if h : data.length = 32 then .ok ⟨data, h⟩
  else .error (valueError "A private key is 32 bytes long")

namespace SampleKeys

open scoped Samples

scoped instance privateBytes : PrivateBytes where
  signing key := key.val
  signing_length key := key.property
  toSigning := keyOfBytes
  exchange key := key.val
  exchange_length key := key.property
  toExchange := keyOfBytes

end SampleKeys

section Samples

open scoped Samples SampleKeys

theorem valid_erin : validateIdentityName (.str (lit "erin")) = .ok (lit "erin") := by
  decide +kernel

theorem valid_frank : validateIdentityName (.str (lit "frank")) = .ok (lit "frank") := by
  decide +kernel

def erin : Identity :=
  ⟨lit "erin", ⟨List.replicate 32 1, List.length_replicate⟩,
    ⟨List.replicate 32 2, List.length_replicate⟩, (validateIdentityName_ok.mp valid_erin).2⟩

def frank : Identity :=
  ⟨lit "frank", ⟨List.replicate 32 3, List.length_replicate⟩,
    ⟨List.replicate 32 4, List.length_replicate⟩, (validateIdentityName_ok.mp valid_frank).2⟩

/-- Erin is saved, and then Frank. -/
def sampleSaves : List Save :=
  [erin, frank].map fun self => ⟨self, EncryptedStore.sampleStore, (posixOs []),
    posixOs_quiet, EncryptedStore.sampleSalt, EncryptedStore.sampleNonce⟩

/-- Erin is loaded from a directory that holds Frank as well. -/
theorem load_last_save_erin : (loaded (lit "erin") (posixOs [])
    EncryptedStore.sampleStore.passphrase (fun _ => none) sampleSaves).1 = .ok erin := by
  have hseals : EncryptedStore.SealsData := fun _ _ _ _ _ _ hne _ =>
    ⟨_, sealed_ok.mpr rfl⟩
  have hopens : OpensSealed := fun _ _ _ _ _ _ h => opened_sealed h
  have hkeys : KeyBytes := ⟨fun data h => ⟨⟨data, h⟩, dif_pos h⟩, fun data h =>
    ⟨⟨data, h⟩, dif_pos h⟩, fun key => dif_pos key.property, fun key => dif_pos key.property⟩
  have hread : (posixOs []).raises .read = false := rfl
  have hname := (validateIdentityName_ok.mp valid_erin).2
  have hsha256 : Save.DistinctDigests (lit "erin") sampleSaves := by
    unfold Save.DistinctDigests
    decide +kernel
  have hlast : ∀ save, Save.last (lit "erin") sampleSaves = some save →
      save.store.passphrase = EncryptedStore.sampleStore.passphrase →
      (loaded (lit "erin") (posixOs []) EncryptedStore.sampleStore.passphrase
        (fun _ => none) sampleSaves).1 = .ok save.identity ∧ save.identity.name = lit "erin" :=
    (load_last_save EncryptedStore.storeCrypto_digests hseals hopens hkeys hname hread
      EncryptedStore.sampleStore rfl sampleSaves hsha256).2.1
  exact (hlast _ rfl rfl).1

end Samples

end Identity

end CypherSyntax
