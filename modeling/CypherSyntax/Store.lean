import CypherSyntax.Crypto
import CypherSyntax.Persistence
import CypherSyntax.Python.Json.Plain

/-!
# The encrypted store

`src/cyphersyntax/store.py`: the two hooks of its reader, `_encode_object` and `EncryptedStore`,
with the texts of its errors.

* A store is the passphrase that `validate_passphrase` has accepted. Its path is part of `Os`, the
  file system as the store meets it, and the file is the destination of a write (`Target`).
* The salt and the nonce that `save` draws from `os.urandom` are arguments. `Scrypt` and the AEAD
  are parameters, and what is assumed of them is named where it is used (`StoreCrypto`,
  `SealsData`, `OpensSealed`).
* A dictionary is any Python value that `json.dumps` meets, with keys of all types and in any order;
  `json.loads` is a parser of the text, whose limit on nesting is a parameter (`Interpreter`).
* Out of scope: dictionaries that contain themselves, and subclasses of `dict` and `str`.

Results:
* `save_ok`: what a save that returns has written.
* `save_returns`: a save returns when its dictionary is encoded, the AEAD seals and no call of the
  operating system fails.
* `load_ok`: a load that returns has read a plain dictionary.
-/

namespace CypherSyntax

open Python Json

/-! ## Constants -/

def storeMagic : Bytes := ascii "CypherSyntax/store"

def storeVersion : UInt8 := 1

def storeSaltBytes : Nat := 16

def storeNonceBytes : Nat := 12

def storeTagBytes : Nat := 16

def maxStorePlaintextBytes : Nat := 1048576

def storeHeader : Bytes := storeMagic ++ [storeVersion]

def storeFixedBytes : Nat := storeHeader.length + storeSaltBytes + storeNonceBytes

def maxStoreFileBytes : Nat := storeFixedBytes + maxStorePlaintextBytes + storeTagBytes

def storeAssociatedData : Bytes := storeHeader

theorem storeHeader_length : storeHeader.length = 19 := by decide

/-! ## Encoding -/

/-- `_reject_duplicate_keys` and `_reject_nonfinite_number` -/
def storeHooks : Hooks ErrorClass :=
  rejectingHooks (fun name => storeError (lit "duplicate encrypted-store field: " ++ name))
    fun value => storeError (lit "non-finite JSON number is not permitted: " ++ value)

section Store

variable [Interpreter]

def encodeObject : Value → Except PyError Bytes
  | .dict items => do
    raiseIf (items.any (fun item => !Key.isStr item.1) = true)
      (typeError "encrypted store keys must be strings")
    let encoded ← convert Exc.isTypeOrValueError
      (storeError (lit "encrypted store payload is not canonical JSON"))
      (do encode (← dumps false false (.dict items)))
    raiseIf (maxStorePlaintextBytes < encoded.length)
      (storeError (lit "encrypted store payload exceeds the maximum size"))
    return encoded
  | _ => .error (typeError "encrypted store payload must be a dictionary")

/-- The dictionary a decrypted payload holds. -/
def decodeObject (plaintext : Bytes) : Except PyError Value := do
  let raw ← convert isDecodeFailure
    (storeError (lit "decrypted store payload is not valid JSON"))
    (do loads storeHooks (← decode plaintext))
  match raw with
  | .dict items =>
    let encoded ← encodeObject (.dict items)
    raiseIf (encoded ≠ plaintext)
      (storeError (lit "decrypted store payload is not canonically encoded"))
    return .dict items
  | _ => throw (storeError (lit "decrypted store payload must be a dictionary"))

/-- A dictionary is encoded to the UTF-8 text of its JSON, of bounded size. -/
theorem encodeObject_ok {obj : Value} {plaintext : Bytes} :
    encodeObject obj = .ok plaintext ↔ ∃ items text, obj = .dict items ∧
      (∀ item ∈ items, Key.isStr item.1 = true) ∧
      dumps false false obj = (.ok text : Except PyError Str) ∧
      encodeUtf8 text = some plaintext ∧ plaintext.length ≤ maxStorePlaintextBytes := by
  cases obj with
  | dict items =>
    simp only [encodeObject, bind_eq_ok, raiseIf_ok, convert_ok, pure_eq_ok, not_lt, encode_ok,
      List.any_eq_true, Bool.not_eq_true', not_exists, not_and, Bool.not_eq_false]
    constructor
    · rintro ⟨-, hkeys, encoded, ⟨text, htext, henc⟩, -, hlen, rfl⟩
      exact ⟨items, text, rfl, hkeys, htext, henc, hlen⟩
    · rintro ⟨_, text, h, hkeys, htext, henc, hlen⟩
      cases h
      exact ⟨(), hkeys, plaintext, ⟨text, htext, henc⟩, (), hlen, rfl⟩
  | _ =>
    constructor
    · intro h
      cases h
    · rintro ⟨_, _, h, -⟩
      cases h

/-- What is decoded is plain, with distinct keys, and encodes to what was decoded. -/
theorem decodeObject_ok {plaintext : Bytes} {obj : Value} (h : decodeObject plaintext = .ok obj) :
    Built Interpreter.recursionLimit obj ∧ encodeObject obj = .ok plaintext := by
  obtain ⟨raw, hraw, h⟩ := bind_eq_ok.mp h
  have hraw := convert_ok.mp hraw
  obtain ⟨text, -, hloads⟩ := bind_eq_ok.mp hraw
  have hbuilt : Built Interpreter.recursionLimit raw :=
    (loads_ensures (P := fun _ => True) ⟨fun _ => trivial, fun _ => trivial, fun _ => trivial⟩
      (rejectingHooks_ensures (fun _ => trivial) fun _ => trivial) text).of_ok hloads
  cases raw with
  | dict items =>
    simp only [bind_eq_ok, raiseIf_ok, pure_eq_ok, not_not] at h
    obtain ⟨encoded, hencoded, -, rfl, rfl⟩ := h
    exact ⟨hbuilt, hencoded⟩
  | _ => cases h

/-- A plain dictionary that is encoded is decoded, with its dictionaries sorted. -/
theorem decodeObject_encodeObject {obj : Value} {plaintext : Bytes} (hplain : obj.plain = true)
    (hwf : obj.WF) (hdepth : obj.depth ≤ Interpreter.recursionLimit)
    (h : encodeObject obj = .ok plaintext) : decodeObject plaintext = .ok obj.sorted := by
  obtain ⟨items, text, rfl, hkeys, htext, henc, hlen⟩ := encodeObject_ok.mp h
  have hread := readable_of_dumps _ hplain hwf htext
  have hloads : loads storeHooks text = .ok (Value.dict items).sorted :=
    loads_dumps (builds_of_rejectDuplicateKeys _ _) hread hdepth htext
  have hdecode : decode (κ := ErrorClass) plaintext = .ok text := by
    unfold decode
    rw [decodeUtf8_encodeUtf8 henc]
  have hsorted : encodeObject (Value.dict items).sorted = .ok plaintext := by
    refine encodeObject_ok.mpr ⟨sortByKey (sortedItems items), text, rfl, fun item hitem => ?_,
      (dumps_sorted _ hplain).trans htext, henc, hlen⟩
    rw [mem_sortByKey, sortedItems_eq] at hitem
    obtain ⟨kv, hkv, rfl⟩ := List.mem_map.mp hitem
    exact hkeys kv hkv
  unfold decodeObject
  rw [hdecode, ok_bind, hloads]
  show (do
    let encoded ← encodeObject (Value.dict items).sorted
    raiseIf (encoded ≠ plaintext) _
    return (Value.dict items).sorted) = _
  rw [hsorted, ok_bind, raiseIf_neg (by simp)]
  rfl

/-! ## The store -/

variable [Crypto]

structure EncryptedStore where
  passphrase : Bytes
  /-- What `validate_passphrase` checks. -/
  passphrase_valid : minPassphraseBytes ≤ passphrase.length ∧
    passphrase.length ≤ maxPassphraseBytes

/-- `path.read_bytes()` -/
def readBytes {τ : Type} (os : Os) : Method ErrorClass Target τ Bytes := do
  raiseIf (os.raises .read) (os.exception .read)
  match (← Method.self).destination with
  | some blob => return blob
  | none => liftM (Except.error (.builtin .osError (lit "no such file")) : Except PyError Bytes)

/-- What a load raises when it reads no file. -/
def Os.unread (os : Os) : PyError :=
  if os.unencoded .read then os.exception .read
  else storeError (lit "failed to read encrypted store")

omit [Interpreter] [Crypto] in
theorem Os.unread_of_encoded {os : Os} (h : os.raises .read = false) :
    os.unread = storeError (lit "failed to read encrypted store") := by
  have hencoded : os.unencoded .read = false := Os.encoded h (by decide)
  unfold Os.unread
  rw [hencoded]
  rfl

def isPersistenceError : PyError → Bool
  | .user .persistenceError _ => true
  | _ => false

def isInvalidTag : PyError → Bool
  | .user .invalidTag _ => true
  | _ => false

namespace EncryptedStore

/-- `EncryptedStore(path, passphrase)` -/
def new (passphrase : Value) : Except PyError EncryptedStore := do
  let ⟨passphrase, h⟩ ← attach (validatePassphrase passphrase)
  return ⟨passphrase, (validatePassphrase_ok.mp h).2⟩

def deriveKey (self : EncryptedStore) (salt : Bytes) : Except PyError Bytes := do
  raiseIf (salt.length ≠ storeSaltBytes)
    (storeError (lit "encrypted store salt has an invalid length"))
  return Crypto.scrypt self.passphrase salt

/-- The bytes of a file. -/
def blobOf (salt : FixedBytes storeSaltBytes) (nonce : FixedBytes storeNonceBytes)
    (ciphertext : Bytes) : Bytes :=
  storeHeader ++ salt.val ++ nonce.val ++ ciphertext

def save (self : EncryptedStore) (os : Os) (obj : Value) (salt : FixedBytes storeSaltBytes)
    (nonce : FixedBytes storeNonceBytes) : Method ErrorClass Target Call Unit := do
  let plaintext ← encodeObject obj
  let key ← self.deriveKey salt
  let ciphertext ← encrypt .aesGcmSiv key nonce plaintext storeAssociatedData
  let blob := blobOf salt nonce ciphertext
  Method.convert isPersistenceError (storeError (lit "failed to save encrypted store"))
    (atomicWriteBytes os (.bytes blob))

/-- The checks of a file before its key is derived. -/
def checkBlob (blob : Bytes) : Except PyError Unit := do
  let minimumSize := storeFixedBytes + storeTagBytes
  raiseIf (blob.length < minimumSize) (storeError (lit "encrypted store is truncated"))
  raiseIf (maxStoreFileBytes < blob.length)
    (storeError (lit "encrypted store exceeds the maximum file size"))
  raiseIf (storeMagic.isPrefixOf blob = false)
    (storeError (lit "encrypted store has an invalid format marker"))
  let version := blob.getD storeMagic.length 0
  raiseIf (version ≠ storeVersion)
    (storeError (lit "unsupported encrypted store version: " ++ natText version.toNat))

def load (self : EncryptedStore) (os : Os) : Method ErrorClass Target Call Value := do
  let blob ← Method.convert isOsError (storeError (lit "failed to read encrypted store"))
    (readBytes os)
  checkBlob blob
  let saltStart := storeHeader.length
  let nonceStart := saltStart + storeSaltBytes
  let ciphertextStart := nonceStart + storeNonceBytes
  let salt := (blob.drop saltStart).take storeSaltBytes
  let nonce := (blob.drop nonceStart).take storeNonceBytes
  let ciphertext := blob.drop ciphertextStart
  let key ← self.deriveKey salt
  let plaintext ← Method.convert isInvalidTag
    (storeError (lit "encrypted store authentication failed"))
    (decrypt .aesGcmSiv key nonce ciphertext storeAssociatedData)
  raiseIf (maxStorePlaintextBytes < plaintext.length)
    (storeError (lit "decrypted store payload exceeds the maximum size"))
  decodeObject plaintext

/-! ## What a save writes and a load reads -/

variable {self : EncryptedStore} {os : Os} {salt : FixedBytes storeSaltBytes}
  {nonce : FixedBytes storeNonceBytes}

omit [Interpreter] [Crypto] in
theorem new_ok {passphrase : Bytes} (h : minPassphraseBytes ≤ passphrase.length ∧
    passphrase.length ≤ maxPassphraseBytes) : new (.bytes passphrase) = .ok ⟨passphrase, h⟩ :=
  attach_bind_eq_ok.mpr ⟨passphrase, validatePassphrase_ok.mpr ⟨rfl, h⟩, rfl⟩

omit [Interpreter] in
theorem deriveKey_ok {salt key : Bytes} : self.deriveKey salt = .ok key ↔
    salt.length = storeSaltBytes ∧ Crypto.scrypt self.passphrase salt = key := by
  simp only [deriveKey, bind_eq_ok, raiseIf_ok, pure_eq_ok, not_not]
  constructor
  · rintro ⟨-, hlen, rfl⟩
    exact ⟨hlen, rfl⟩
  · rintro ⟨hlen, rfl⟩
    exact ⟨(), hlen, rfl⟩

/-- **A save that returns has sealed the encoded dictionary and written the file.** -/
theorem save_ok {obj : Value} {u : Unit} {s t : Frame Target Call}
    (h : (self.save os obj salt nonce).run s = (.ok u, t)) : ∃ plaintext ciphertext,
    encodeObject obj = .ok plaintext ∧
    Crypto.encrypt .aesGcmSiv (Crypto.scrypt self.passphrase salt) nonce plaintext
      storeAssociatedData = .ok ciphertext ∧
    t.self.destination = some (blobOf salt nonce ciphertext) := by
  obtain ⟨plaintext, _, h₁, h⟩ := Method.bind_ok.mp h
  obtain ⟨hencode, rfl⟩ := Method.lift_ok.mp h₁
  obtain ⟨key, _, h₂, h⟩ := Method.bind_ok.mp h
  obtain ⟨hkey, rfl⟩ := Method.lift_ok.mp h₂
  obtain ⟨-, rfl⟩ := deriveKey_ok.mp hkey
  obtain ⟨ciphertext, _, hseal, h⟩ := Method.bind_ok.mp h
  rw [encrypt_run] at hseal
  obtain ⟨blob, hblob, hwritten, -⟩ := atomicWriteBytes_ok (Method.convert_ok.mp h)
  cases hblob
  exact ⟨plaintext, ciphertext, hencode, (Prod.mk.inj hseal).1, hwritten⟩

variable (self os) in
/-- A save returns when the dictionary is encoded, the AEAD seals and no other call fails. -/
theorem save_returns {obj : Value} {plaintext ciphertext : Bytes}
    (hquiet : os.Quiet) (hencode : encodeObject obj = .ok plaintext)
    (hseal : Crypto.encrypt .aesGcmSiv (Crypto.scrypt self.passphrase salt) nonce plaintext
      storeAssociatedData = .ok ciphertext) (s : Frame Target Call) :
    ∃ t, (self.save os obj salt nonce).run s = (.ok (), t) := by
  have hkey : self.deriveKey salt = .ok (Crypto.scrypt self.passphrase salt) :=
    deriveKey_ok.mpr ⟨salt.property, rfl⟩
  have hrun := encrypt_run .aesGcmSiv (Crypto.scrypt self.passphrase salt) nonce.val plaintext
    storeAssociatedData s
  rw [hseal] at hrun
  unfold save
  rw [Method.run_bind_ok (Method.lift_ok.mpr ⟨hencode, rfl⟩),
    Method.run_bind_ok (Method.lift_ok.mpr ⟨hkey, rfl⟩), Method.run_bind_ok hrun]
  exact ⟨_, Method.convert_ok.mpr (atomicWriteBytes_run hquiet _ _)⟩

variable (salt nonce) in
omit [Interpreter] [Crypto] in
/-- Where a file is cut. -/
theorem blobOf_parts (ciphertext : Bytes) :
    ((blobOf salt nonce ciphertext).drop storeHeader.length).take storeSaltBytes = salt.val ∧
    ((blobOf salt nonce ciphertext).drop (storeHeader.length + storeSaltBytes)).take
      storeNonceBytes = nonce.val ∧
    (blobOf salt nonce ciphertext).drop
      (storeHeader.length + storeSaltBytes + storeNonceBytes) = ciphertext := by
  have hsalt : (storeHeader ++ salt.val).length = storeHeader.length + storeSaltBytes := by
    rw [List.length_append, salt.property]
  have hnonce : (storeHeader ++ salt.val ++ nonce.val).length =
      storeHeader.length + storeSaltBytes + storeNonceBytes := by
    rw [List.length_append, hsalt, nonce.property]
  unfold blobOf
  refine ⟨?_, ?_, List.drop_left' hnonce⟩
  · rw [List.append_assoc, List.append_assoc, List.drop_left, List.take_left' salt.property]
  · rw [List.append_assoc _ nonce.val, List.drop_left' hsalt, List.take_left' nonce.property]

omit [Interpreter] [Crypto] in
theorem checkBlob_ok {blob : Bytes} {u : Unit} : checkBlob blob = .ok u ↔
    storeFixedBytes + storeTagBytes ≤ blob.length ∧ blob.length ≤ maxStoreFileBytes ∧
    storeMagic <+: blob ∧ blob.getD storeMagic.length 0 = storeVersion := by
  simp only [checkBlob, bind_eq_ok, raiseIf_ok, not_lt, not_not, Bool.not_eq_false,
    List.isPrefixOf_iff_prefix]
  constructor
  · rintro ⟨-, hlo, -, hhi, -, hmagic, hversion⟩
    exact ⟨hlo, hhi, hmagic, hversion⟩
  · rintro ⟨hlo, hhi, hmagic, hversion⟩
    exact ⟨(), hlo, (), hhi, (), hmagic, hversion⟩

omit [Interpreter] [Crypto] in
/-- The sizes of a file that `save` writes are those `load` accepts. -/
theorem checkBlob_blobOf {ciphertext : Bytes} (hlo : storeTagBytes ≤ ciphertext.length)
    (hhi : ciphertext.length ≤ maxStorePlaintextBytes + storeTagBytes) :
    checkBlob (blobOf salt nonce ciphertext) = .ok () := by
  have hlen : (blobOf salt nonce ciphertext).length = storeFixedBytes + ciphertext.length := by
    unfold blobOf storeFixedBytes
    rw [List.length_append, List.length_append, List.length_append, salt.property, nonce.property]
  have hblob : blobOf salt nonce ciphertext =
      storeMagic ++ (storeVersion :: (salt.val ++ nonce.val ++ ciphertext)) := by
    simp only [blobOf, storeHeader, List.append_assoc, List.cons_append, List.nil_append]
  refine checkBlob_ok.mpr ⟨by omega, by unfold maxStoreFileBytes; omega, ?_, ?_⟩
  · rw [hblob]
    exact List.prefix_append _ _
  · rw [hblob, List.getD_eq_getElem?_getD, List.getElem?_append_right (le_refl _), Nat.sub_self]
    rfl

omit [Interpreter] [Crypto] in
theorem readBytes_ok {τ : Type} {blob : Bytes} {s t : Frame Target τ} :
    (readBytes os).run s = (.ok blob, t) ↔
      os.raises .read = false ∧ s.self.destination = some blob ∧ s = t := by
  unfold readBytes
  rw [Method.bind_ok]
  simp only [Method.lift_ok, raiseIf_ok, Bool.not_eq_true]
  constructor
  · rintro ⟨-, _, ⟨hread, rfl⟩, h⟩
    rw [Method.run_bind_ok (Method.run_self s)] at h
    cases hfile : s.self.destination with
    | some file =>
      rw [hfile] at h
      obtain ⟨rfl, rfl⟩ := Method.pure_ok.mp h
      exact ⟨hread, rfl, rfl⟩
    | none =>
      rw [hfile] at h
      cases (Method.lift_ok.mp h).1
  · rintro ⟨hread, hfile, rfl⟩
    refine ⟨(), s, ⟨hread, rfl⟩, ?_⟩
    rw [Method.run_bind_ok (Method.run_self s), hfile]
    rfl

variable (self os) in
/-- A load of a file that opens decodes what it opens to. -/
theorem load_blobOf {plaintext ciphertext : Bytes} {s : Frame Target Call}
    (hread : os.raises .read = false)
    (hfile : s.self.destination = some (blobOf salt nonce ciphertext))
    (hopen : Crypto.decrypt .aesGcmSiv (Crypto.scrypt self.passphrase salt) nonce ciphertext
      storeAssociatedData = .ok plaintext)
    (hsize : ciphertext.length = plaintext.length + storeTagBytes)
    (hmax : plaintext.length ≤ maxStorePlaintextBytes) :
    ∃ t, (self.load os).run s = (decodeObject plaintext, t) := by
  have hblob := readBytes_ok.mpr ⟨hread, hfile, (rfl : s = s)⟩
  obtain ⟨hsalt, hnonce, hciphertext⟩ := blobOf_parts salt nonce ciphertext
  have hcheck : checkBlob (blobOf salt nonce ciphertext) = .ok () :=
    checkBlob_blobOf (by omega) (by omega)
  have hkey : self.deriveKey salt = .ok (Crypto.scrypt self.passphrase salt) :=
    deriveKey_ok.mpr ⟨salt.property, rfl⟩
  have hdecrypt := decrypt_run .aesGcmSiv (Crypto.scrypt self.passphrase salt) nonce.val
    ciphertext storeAssociatedData s
  rw [hopen] at hdecrypt
  unfold load
  rw [Method.run_bind_ok (Method.convert_ok.mpr hblob),
    Method.run_bind_ok (Method.lift_ok.mpr ⟨hcheck, rfl⟩)]
  simp only [hsalt, hnonce, hciphertext]
  rw [Method.run_bind_ok (Method.lift_ok.mpr ⟨hkey, rfl⟩),
    Method.run_bind_ok (Method.convert_ok.mpr hdecrypt),
    Method.run_bind_ok (Method.lift_ok.mpr ⟨raiseIf_neg (by omega), rfl⟩)]
  exact ⟨_, rfl⟩

/-- A load that returns has read a plain value. -/
theorem load_ok {obj : Value} {s t : Frame Target Call}
    (h : (self.load os).run s = (.ok obj, t)) : obj.plain = true := by
  obtain ⟨blob, _, -, h⟩ := Method.bind_ok.mp h
  obtain ⟨_, _, -, h⟩ := Method.bind_ok.mp h
  obtain ⟨key, _, -, h⟩ := Method.bind_ok.mp h
  obtain ⟨plaintext, _, -, h⟩ := Method.bind_ok.mp h
  obtain ⟨_, _, -, h⟩ := Method.bind_ok.mp h
  exact (decodeObject_ok (Method.lift_ok.mp h).1).1.plain

end EncryptedStore

end Store

end CypherSyntax
