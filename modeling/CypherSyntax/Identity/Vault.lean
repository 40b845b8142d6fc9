import CypherSyntax.Identity.Directory

/-!
# A directory under failing calls

Any saves and loads in one directory, while any calls of the operating system fail. A save that
raises has replaced its file all the same if only the directory could not be synced; any other save
that raises has left the file as it was.

Results:
* `save_serves`, `load_serves`: one call does to the files what it does to the map.
* `directory_refines`: the calls return what they return on a map from names to identities.
-/

namespace CypherSyntax

open Python Json

namespace Identity

section Vault

variable [Interpreter] [Crypto] [PrivateBytes]

/-! ## Requests -/

/-- One call of `save` or `load`. -/
inductive Request where
  | save (self : Identity) (os : Os) (passphrase : Value) (salt : FixedBytes storeSaltBytes)
    (nonce : FixedBytes storeNonceBytes)
  | load (name : Value) (os : Os) (passphrase : Value)

/-- The name that a request is about, if it has a valid one. -/
def Request.name? : Request → Option Str
  | .save self _ _ _ _ => some self.name
  | .load name _ _ => (validateIdentityName name).toOption

/-- A request to the files of the directory. A load returns an identity. -/
def serve (s : Frame Files Call) : Request → Except PyError (Option Identity) × Frame Files Call
  | .save self os passphrase salt nonce =>
    (((self.save os passphrase salt nonce).run s).1.map fun _ => none,
      ((self.save os passphrase salt nonce).run s).2)
  | .load name os passphrase =>
    (((load name os passphrase).run s).1.map some, ((load name os passphrase).run s).2)

/-! ## The map -/

/-- An identity, with the salt and the key that it was sealed with. -/
structure Entry where
  identity : Identity
  salt : Bytes
  key : Bytes

/-- A map from names to identities. -/
abbrev Vault := Str → Option Entry

/-- A request to the map: what it returns, or `none` if it raises. -/
def Vault.serve (vault : Vault) : Request → Option (Option Identity) × Vault
  | .save self os passphrase salt _ =>
    match validatePassphrase passphrase with
    | .ok passphrase =>
      if os.replaces then
        (if os.syncFails then none else some none,
          Function.update vault self.name (some ⟨self, salt, Crypto.scrypt passphrase salt⟩))
      else (none, vault)
    | .error _ => (none, vault)
  | .load name os passphrase =>
    match validateIdentityName name, validatePassphrase passphrase with
    | .ok name, .ok passphrase =>
      (((vault name).filter fun entry => !os.raises .read &&
          Crypto.scrypt passphrase entry.salt == entry.key).map fun entry => some entry.identity,
        vault)
    | _, _ => (none, vault)

/-- The file of a name holds what the map has under it. -/
def Stores (s : Frame Files Call) (n : Str) : Option Entry → Prop
  | none => s.self (pathOf n) = none
  | some entry => entry.identity.name = n ∧
    ∃ (salt : FixedBytes storeSaltBytes) (nonce : FixedBytes storeNonceBytes)
      (plaintext ciphertext : Bytes), entry.salt = salt ∧
      encodeObject entry.identity.storagePayload = .ok plaintext ∧
      Crypto.encrypt .aesGcmSiv entry.key nonce plaintext storeAssociatedData = .ok ciphertext ∧
      s.self (pathOf n) = some (EncryptedStore.blobOf salt nonce ciphertext) ∧
      .encrypted ⟨.aesGcmSiv, entry.key, nonce, plaintext, storeAssociatedData,
        some ciphertext⟩ ∈ s.log

/-- The files of the names hold what the map has under them. -/
def Represents (names : List Str) (s : Frame Files Call) (vault : Vault) : Prop :=
  ∀ n ∈ names, ValidName n ∧ hasPathComponents n = false → Stores s n (vault n)

/-- SHA-256 does not collide on the names. -/
def DistinctNames (names : List Str) : Prop :=
  ∀ m ∈ names, ∀ n ∈ names, Crypto.sha256 (utf8 m) = Crypto.sha256 (utf8 n) → utf8 m = utf8 n

variable {names : List Str} {n : Str} {os : Os} {s t : Frame Files Call} {vault : Vault}

/-- What a file holds it holds while it is kept. -/
theorem Stores.keep {entry : Option Entry} (h : Stores s n entry) {calls : List Call}
    (hfile : t.self (pathOf n) = s.self (pathOf n)) (hlog : t.log = s.log ++ calls) :
    Stores t n entry := by
  cases entry with
  | none => exact hfile.trans h
  | some entry =>
    obtain ⟨hname, salt, nonce, plaintext, ciphertext, hsalt, hencode, hseal, hstored, hcall⟩ := h
    exact ⟨hname, salt, nonce, plaintext, ciphertext, hsalt, hencode, hseal, hfile.trans hstored,
      hlog ▸ List.mem_append_left _ hcall⟩

theorem Represents.keep (h : Represents names s vault) {calls : List Call}
    (hfiles : t.self = s.self) (hlog : t.log = s.log ++ calls) : Represents names t vault :=
  fun n hn hname => (h n hn hname).keep (congrFun hfiles _) hlog

/-! ## Saves -/

/-- A save with a passphrase that is rejected does nothing. -/
theorem save_rejected (self : Identity) {passphrase : Value} {e : PyError}
    (h : validatePassphrase passphrase = .error e) (salt : FixedBytes storeSaltBytes)
    (nonce : FixedBytes storeNonceBytes) :
    (self.save os passphrase salt nonce).run s = (.error e, s) :=
  Method.run_bind_error (Method.lift_error.mpr ⟨h, rfl⟩)

variable (os s) in
/-- **What a save does to the files**, for every pattern of failing calls. -/
theorem save_outcome (hcrypto : EncryptedStore.StoreCrypto) (hseals : EncryptedStore.SealsData)
    (self : Identity) (store : EncryptedStore) (salt : FixedBytes storeSaltBytes)
    (nonce : FixedBytes storeNonceBytes) :
    ∃ plaintext ciphertext, encodeObject self.storagePayload = .ok plaintext ∧
      Crypto.encrypt .aesGcmSiv (Crypto.scrypt store.passphrase salt) nonce plaintext
        storeAssociatedData = .ok ciphertext ∧
      (((self.save os (.bytes store.passphrase) salt nonce).run s).1.toOption =
        if os.replaces && !os.syncFails then some () else none) ∧
      ((self.save os (.bytes store.passphrase) salt nonce).run s).2 =
        ⟨if os.replaces then Function.update s.self (pathOf self.name)
            (some (EncryptedStore.blobOf salt nonce ciphertext)) else s.self,
          s.log ++ [.encrypted ⟨.aesGcmSiv, Crypto.scrypt store.passphrase salt, nonce, plaintext,
            storeAssociatedData, some ciphertext⟩]⟩ := by
  obtain ⟨plaintext, ciphertext, hencode, -, hseal, hfile⟩ := Save.file_ok hcrypto hseals
    ⟨self, store, (posixOs []), posixOs_quiet, salt, nonce⟩
  have hfile : store.fileOf self.storagePayload salt nonce =
      .ok (EncryptedStore.blobOf salt nonce ciphertext) := hfile
  have hcalls : store.sealingCalls self.storagePayload salt nonce =
      [.encrypted ⟨.aesGcmSiv, Crypto.scrypt store.passphrase salt, nonce, plaintext,
        storeAssociatedData, some ciphertext⟩] := by
    unfold EncryptedStore.sealingCalls
    rw [hencode]
    simp only [hseal]
    rfl
  refine ⟨plaintext, ciphertext, hencode, hseal, ?_⟩
  have hruns := store.save_runs os self.storagePayload salt nonce
    ⟨Target.of (s.self (pathOf self.name)), s.log⟩
  rcases hrun : (store.save os self.storagePayload salt nonce).run
    ⟨Target.of (s.self (pathOf self.name)), s.log⟩ with ⟨e | u, t⟩
  · rw [save_run self hrun]
    obtain ⟨hlog, ⟨blob, ⟨hblob, hreplaces⟩, hsync, hdata⟩ | ⟨hnone, hkept⟩⟩ := hruns.of_error hrun
    · obtain rfl := Except.ok.inj (hblob.symm.trans hfile)
      rw [hreplaces, hsync, hlog, hcalls, hdata]
      exact ⟨rfl, rfl⟩
    · have hreplaces : os.replaces = false :=
        Bool.not_eq_true _ ▸ fun h => hnone _ ⟨hfile, h⟩
      rw [hreplaces, hlog, hcalls, hkept]
      refine ⟨rfl, congrArg (Frame.mk · _) ?_⟩
      exact Function.update_eq_self _ _
  · rw [save_run self hrun]
    obtain ⟨hlog, blob, ⟨hblob, hreplaces⟩, hsync, hdata⟩ := hruns.of_ok hrun
    obtain rfl := Except.ok.inj (hblob.symm.trans hfile)
    rw [hreplaces, hsync, hlog, hcalls, hdata]
    exact ⟨rfl, rfl⟩

omit [Interpreter] [Crypto] [PrivateBytes] in
theorem toOption_map {α β : Type} (outcome : Except PyError α) (f : α → β) :
    (outcome.map f).toOption = outcome.toOption.map f := by
  cases outcome <;> rfl

/-- A save does to the files what it does to the map. -/
theorem save_serves (hcrypto : EncryptedStore.StoreCrypto) (hseals : EncryptedStore.SealsData)
    (hnames : DistinctNames names) (h : Represents names s vault) {self : Identity}
    (hself : self.name ∈ names) (passphrase : Value) (salt : FixedBytes storeSaltBytes)
    (nonce : FixedBytes storeNonceBytes) :
    (serve s (.save self os passphrase salt nonce)).1.toOption =
        (vault.serve (.save self os passphrase salt nonce)).1 ∧
      Represents names (serve s (.save self os passphrase salt nonce)).2
        (vault.serve (.save self os passphrase salt nonce)).2 := by
  cases hvalid : validatePassphrase passphrase with
  | error e =>
    simp only [serve, Vault.serve, hvalid, save_rejected self hvalid]
    exact ⟨rfl, h⟩
  | ok data =>
    obtain ⟨rfl, hlo, hhi⟩ := validatePassphrase_ok.mp hvalid
    obtain ⟨plaintext, ciphertext, hencode, hseal, hout, hframe⟩ := save_outcome os s hcrypto hseals
      self ⟨data, hlo, hhi⟩ salt nonce
    simp only [serve, Vault.serve, hvalid]
    rw [hframe]
    by_cases hreplaces : os.replaces = true
    · rw [if_pos hreplaces, if_pos hreplaces]
      refine ⟨?_, fun n hn hname => ?_⟩
      · rw [toOption_map, hout, hreplaces]
        cases os.syncFails <;> rfl
      · show Stores _ n (Function.update vault self.name _ n)
        by_cases hsame : n = self.name
        · subst hsame
          rw [Function.update_self]
          refine ⟨rfl, salt, nonce, plaintext, ciphertext, rfl, hencode, hseal, ?_, by simp⟩
          exact Function.update_self _ _ _
        · rw [Function.update_of_ne hsame]
          refine (h n hn hname).keep ?_ rfl
          refine Function.update_of_ne (fun hpath => hsame ?_) _ _
          exact pathOf_inj hname.1 self.name_valid.1 (hnames n hn self.name hself) hpath
    · rw [if_neg hreplaces, if_neg hreplaces]
      refine ⟨?_, h.keep rfl rfl⟩
      rw [toOption_map, hout, (Bool.not_eq_true _).mp hreplaces]
      rfl

/-! ## Loads -/

variable (s) in
/-- A load changes no file, whatever it returns. -/
theorem load_keeps (name : Value) (os : Os) (passphrase : Value) : ∃ calls,
    ((load name os passphrase).run s).2 = ⟨s.self, s.log ++ calls⟩ := by
  cases hvalidated : validateIdentityName name with
  | error e =>
    refine ⟨[], ?_⟩
    rw [load, Method.run_bind_error (Method.lift_error.mpr ⟨hvalidated, rfl⟩), List.append_nil]
  | ok n =>
    obtain ⟨rfl, hname⟩ := validateIdentityName_ok.mp hvalidated
    cases hvalid : validatePassphrase passphrase with
    | error e =>
      refine ⟨[], ?_⟩
      rw [load, Method.run_bind_ok (Method.lift_ok.mpr ⟨hvalidated, rfl⟩),
        Method.run_bind_error (Method.lift_error.mpr ⟨hvalid, rfl⟩), List.append_nil]
    | ok data =>
      obtain ⟨rfl, hpassphrase⟩ := validatePassphrase_ok.mp hvalid
      let store : EncryptedStore := ⟨data, hpassphrase⟩
      by_cases hunread : os.raises .read = true ∨ s.self (pathOf n) = none
      · refine ⟨[], ?_⟩
        have hstore : (store.load os).run ⟨Target.of (s.self (pathOf n)), s.log⟩ = _ :=
          EncryptedStore.load_unread hunread
        rw [show data = store.passphrase from rfl, load_run hname hstore, List.append_nil]
        exact congrArg (Frame.mk · s.log) (Function.update_eq_self _ _)
      · rw [not_or, Bool.not_eq_true] at hunread
        obtain ⟨blob, hfile⟩ := Option.ne_none_iff_exists'.mp hunread.2
        rw [show data = store.passphrase from rfl, load_file hname hunread.1 hfile]
        exact ⟨_, rfl⟩

/-- A load of a name that cannot be read raises. -/
theorem load_unread (hname : ValidName n ∧ hasPathComponents n = false) (store : EncryptedStore)
    (h : os.raises .read = true ∨ s.self (pathOf n) = none) :
    ((load (.str n) os (.bytes store.passphrase)).run s).1.toOption = none := by
  have hstore : (store.load os).run ⟨Target.of (s.self (pathOf n)), s.log⟩ = _ :=
    EncryptedStore.load_unread h
  rw [load_run hname hstore]
  rfl

/-- **A load of what the map has** returns it under the key that it was sealed with, and raises
under every other key. -/
theorem load_stored (hcrypto : EncryptedStore.StoreCrypto) (hopens : OpensSealed)
    (hkeys : KeyBytes) (hname : ValidName n ∧ hasPathComponents n = false)
    (hread : os.raises .read = false) (store : EncryptedStore) {entry : Entry}
    (h : Stores s n (some entry))
    (hbound : OpensUnderSealingKey ((load (.str n) os (.bytes store.passphrase)).run s).2.log) :
    ((load (.str n) os (.bytes store.passphrase)).run s).1.toOption =
      if Crypto.scrypt store.passphrase entry.salt = entry.key then some entry.identity
      else none := by
  obtain ⟨rfl, salt, nonce, plaintext, ciphertext, hsalt, hencode, hseal, hstored, hcall⟩ := h
  have hlen := Crypto.encrypt_length _ _ _ _ _ _ hseal
  have htag : storeTagBytes = aeadTagBytes := rfl
  obtain ⟨-, -, -, -, -, -, hmax⟩ := encodeObject_ok.mp hencode
  rw [load_file hname hread hstored] at hbound ⊢
  rw [hsalt]
  by_cases hkey : Crypto.scrypt store.passphrase salt = entry.key
  · obtain ⟨_, hencode', -, hdecode⟩ := entry.identity.encodeObject_storagePayload
    obtain rfl := Except.ok.inj (hencode.symm.trans hencode')
    have hopen := hopens _ _ _ _ _ _ hseal
    rw [← hkey] at hopen
    rw [if_pos hkey, EncryptedStore.openBlob_blobOf (by omega) (by omega) hopen hmax, hdecode]
    exact congrArg Except.toOption (ofPayload_sorted hkeys entry.identity)
  · rw [if_neg hkey]
    cases hopen : store.openBlob (EncryptedStore.blobOf salt nonce ciphertext) with
    | error e =>
      obtain ⟨message, rfl⟩ := (EncryptedStore.openBlob_ensures hcrypto).of_error hopen
      rfl
    | ok raw =>
      refine absurd ?_ hkey
      obtain ⟨u, hcheck, hkeyed⟩ := bind_eq_ok.mp hopen
      rw [EncryptedStore.deriveKey_of_checkBlob hcheck, ok_bind] at hkeyed
      obtain ⟨opened, hopened, -⟩ := bind_eq_ok.mp hkeyed
      obtain ⟨hparts, -, hciphertext⟩ := EncryptedStore.blobOf_parts salt nonce ciphertext
      rw [if_pos hcheck] at hbound
      have hsame := hbound _ (mem_sealedCalls.mpr (List.mem_append_left _ hcall)) _
        (mem_openedCalls.mpr (List.mem_append_right _ (List.mem_singleton.mpr rfl))) rfl
        (congrArg some hciphertext.symm)
        (by rw [show (store.openingCall _).result = some opened from
          toOption_eq_some.mpr (convert_ok.mp hopened)]; simp)
      exact (congrArg (Crypto.scrypt store.passphrase) hparts).symm.trans hsame

/-- A load finds in the files what it finds in the map. -/
theorem load_serves (hcrypto : EncryptedStore.StoreCrypto) (hopens : OpensSealed)
    (hkeys : KeyBytes) (h : Represents names s vault) {name : Value}
    (hnames : ∀ n, validateIdentityName name = .ok n → n ∈ names) (passphrase : Value)
    (hbound : OpensUnderSealingKey (serve s (.load name os passphrase)).2.log) :
    (serve s (.load name os passphrase)).1.toOption =
        (vault.serve (.load name os passphrase)).1 ∧
      Represents names (serve s (.load name os passphrase)).2
        (vault.serve (.load name os passphrase)).2 := by
  obtain ⟨calls, hkeeps⟩ := load_keeps s name os passphrase
  have hframe : (serve s (.load name os passphrase)).2 = ⟨s.self, s.log ++ calls⟩ := hkeeps
  have hvault : (vault.serve (.load name os passphrase)).2 = vault := by
    simp only [Vault.serve]
    split <;> rfl
  rw [hvault, hframe]
  refine ⟨?_, h.keep rfl rfl⟩
  show (((load name os passphrase).run s).1.map some).toOption = _
  rw [toOption_map]
  cases hvalidated : validateIdentityName name with
  | error e =>
    simp only [Vault.serve, hvalidated]
    rw [load, Method.run_bind_error (Method.lift_error.mpr ⟨hvalidated, rfl⟩)]
    rfl
  | ok n =>
    cases hvalid : validatePassphrase passphrase with
    | error e =>
      simp only [Vault.serve, hvalidated, hvalid]
      rw [load, Method.run_bind_ok (Method.lift_ok.mpr ⟨hvalidated, rfl⟩),
        Method.run_bind_error (Method.lift_error.mpr ⟨hvalid, rfl⟩)]
      rfl
    | ok data =>
      have hmem := hnames n hvalidated
      obtain ⟨rfl, hname⟩ := validateIdentityName_ok.mp hvalidated
      obtain ⟨rfl, hpassphrase⟩ := validatePassphrase_ok.mp hvalid
      have hstores := h n hmem hname
      simp only [Vault.serve, hvalidated, hvalid]
      cases hentry : vault n with
      | none =>
        rw [hentry] at hstores
        rw [load_unread hname ⟨data, hpassphrase⟩ (Or.inr hstores)]
        rfl
      | some entry =>
        rw [hentry] at hstores
        by_cases hread : os.raises .read = true
        · rw [load_unread hname ⟨data, hpassphrase⟩ (Or.inl hread)]
          simp [hread]
        · rw [Bool.not_eq_true] at hread
          rw [load_stored hcrypto hopens hkeys hname hread ⟨data, hpassphrase⟩ hstores hbound]
          by_cases hkey : Crypto.scrypt data entry.salt = entry.key
          · simp [hread, hkey]
          · simp [hread, hkey]

/-! ## Any calls -/

/-- Every call of the cryptography is logged for good. -/
theorem serve_log (hcrypto : EncryptedStore.StoreCrypto) (hseals : EncryptedStore.SealsData)
    (s : Frame Files Call) (request : Request) :
    ∃ calls, (serve s request).2.log = s.log ++ calls := by
  cases request with
  | save self os passphrase salt nonce =>
    cases hvalid : validatePassphrase passphrase with
    | error e =>
      refine ⟨[], ?_⟩
      simp only [serve, save_rejected self hvalid, List.append_nil]
    | ok data =>
      obtain ⟨rfl, hlo, hhi⟩ := validatePassphrase_ok.mp hvalid
      obtain ⟨_, _, -, -, -, hframe⟩ := save_outcome os s hcrypto hseals self ⟨data, hlo, hhi⟩ salt
        nonce
      exact ⟨_, congrArg Frame.log hframe⟩
  | load name os passphrase =>
    obtain ⟨calls, hkeeps⟩ := load_keeps s name os passphrase
    exact ⟨calls, congrArg Frame.log hkeeps⟩

omit [Interpreter] [Crypto] [PrivateBytes] in
/-- What holds of a log holds of its beginning. -/
theorem opensUnderSealingKey_of_append {log calls : List Call}
    (h : OpensUnderSealingKey (log ++ calls)) : OpensUnderSealingKey log :=
  fun written hwritten read hread =>
    h written (mem_sealedCalls.mpr (List.mem_append_left _ (mem_sealedCalls.mp hwritten)))
      read (mem_openedCalls.mpr (List.mem_append_left _ (mem_openedCalls.mp hread)))

/-- **A directory of identities is a map, whatever fails**: any saves and loads, with any
arguments and any pattern of failing calls of the operating system, return what they return on a
map in which a save counts when its file was replaced, whether it returned or raised. -/
theorem directory_refines (hcrypto : EncryptedStore.StoreCrypto)
    (hseals : EncryptedStore.SealsData) (hopens : OpensSealed) (hkeys : KeyBytes)
    (requests : List Request) (hnames : DistinctNames (requests.filterMap Request.name?))
    {files : Files} (hempty : ∀ n ∈ requests.filterMap Request.name?, files (pathOf n) = none)
    (hbound : OpensUnderSealingKey (Machine.run serve ⟨files, []⟩ requests).2.log) :
    (Machine.run serve ⟨files, []⟩ requests).1.map Except.toOption =
      (Machine.run Vault.serve (fun _ => none) requests).1 := by
  have hback : ∀ s request, OpensUnderSealingKey (serve s request).2.log →
      OpensUnderSealingKey s.log := by
    intro s request h
    obtain ⟨calls, hlog⟩ := serve_log hcrypto hseals s request
    rw [hlog] at h
    exact opensUnderSealingKey_of_append h
  have hstart : Represents (requests.filterMap Request.name?) ⟨files, []⟩ fun _ => none :=
    fun n hn _ => hempty n hn
  refine (Machine.run_simulation_within (B := fun s => OpensUnderSealingKey s.log) hback
    (fun request hrequest s vault h hlog => ?_) hstart hbound).1
  cases request with
  | save self os passphrase salt nonce =>
    exact save_serves hcrypto hseals hnames h (List.mem_filterMap.mpr ⟨_, hrequest, rfl⟩) passphrase
      salt nonce
  | load name os passphrase =>
    refine load_serves hcrypto hopens hkeys h (fun n hvalidated => ?_) passphrase hlog
    exact List.mem_filterMap.mpr ⟨_, hrequest, by rw [Request.name?, hvalidated]; rfl⟩

end Vault

/-! ## Saves that fail -/

section Samples

open scoped Samples SampleKeys

theorem valid_heidi : validateIdentityName (.str (lit "heidi")) = .ok (lit "heidi") := by
  decide +kernel

def seedKey (seed : UInt8) : FixedBytes 32 := ⟨List.replicate 31 0 ++ [seed], rfl⟩

/-- Identities whose name is Heidi. -/
def heidi (seed : UInt8) : Identity :=
  ⟨lit "heidi", seedKey seed, seedKey seed, (validateIdentityName_ok.mp valid_heidi).2⟩

/-- The signing keys of the identities that are returned. -/
def returnedKeys (outcomes : List (Option (Option Identity))) :
    List (Option (Option (FixedBytes 32))) :=
  outcomes.map fun outcome => outcome.map fun self => self.map signingPrivateKey

/-- Two saves that raise, of which the first has replaced its file, and a load after each. -/
def failingRequests : List Request :=
  let passphrase := .bytes EncryptedStore.sampleStore.passphrase
  [.save (heidi 1) (posixOs [.fsyncDirectory]) passphrase EncryptedStore.sampleSalt
      EncryptedStore.sampleNonce,
    .load (.str (lit "heidi")) (posixOs []) passphrase,
    .save (heidi 2) (posixOs [.replace]) passphrase EncryptedStore.sampleSalt
      EncryptedStore.sampleNonce,
    .load (.str (lit "heidi")) (posixOs []) passphrase]

theorem run_failing : (fun requests : List Request =>
    DistinctNames (requests.filterMap Request.name?) ∧
    OpensUnderSealingKey (Machine.run serve ⟨fun _ => none, []⟩ requests).2.log ∧
    returnedKeys (Machine.run Vault.serve (fun _ => none) requests).1 =
      [none, some (some (seedKey 1)), none, some (some (seedKey 1))]) failingRequests := by
  unfold DistinctNames
  decide +kernel

theorem directory_refines_failing :
    returnedKeys ((Machine.run serve ⟨fun _ => none, []⟩ failingRequests).1.map
      Except.toOption) = [none, some (some (seedKey 1)), none, some (some (seedKey 1))] := by
  have hseals : EncryptedStore.SealsData := fun _ _ _ _ _ _ hne _ =>
    ⟨_, sealed_ok.mpr rfl⟩
  have hopens : OpensSealed := fun _ _ _ _ _ _ h => opened_sealed h
  have hkeys : KeyBytes := ⟨fun data h => ⟨⟨data, h⟩, dif_pos h⟩, fun data h =>
    ⟨⟨data, h⟩, dif_pos h⟩, fun key => dif_pos key.property, fun key => dif_pos key.property⟩
  have hrun := run_failing
  generalize failingRequests = requests at hrun ⊢
  obtain ⟨hnames, hbound, hkept⟩ := hrun
  rw [directory_refines EncryptedStore.storeCrypto_digests hseals hopens hkeys requests hnames
    (fun _ _ => rfl) hbound]
  exact hkept

end Samples

end Identity

end CypherSyntax
