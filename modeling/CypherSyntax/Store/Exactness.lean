import CypherSyntax.Machine
import CypherSyntax.Persistence.Failure
import CypherSyntax.Store.RoundTrip

/-!
# The files that are loaded

A load looks at the bytes of its file only, so it is `openBlob` of them. A file is loaded exactly
when it has the layout of a store, opens, and holds the canonical encoding of what is loaded; every
other file is a `StoreError`.

Results:
* `load_run`: a load of a file is `openBlob` of its bytes.
* `openBlob_ok`, `openBlob_ensures`: what is loaded, and how a load fails.
* `run_log`: a history of saves has logged the sealing of its files.
-/

namespace CypherSyntax

open Python Json

/-! ## Decoding -/

/-- `StoreError` -/
def IsStoreError (e : PyError) : Prop := ∃ message, e = storeError message

theorem isStoreError (message : Str) : IsStoreError (storeError message) := ⟨message, rfl⟩

section Decoding

variable [Interpreter]

/-- A dictionary is encoded, or is not canonical JSON. -/
theorem encodeObject_ensures {items : List (Key × Value)}
    (hkeys : ∀ item ∈ items, Key.isStr item.1 = true) :
    Ensures (fun _ => True) IsStoreError (encodeObject (.dict items)) := by
  have hdumps : Ensures (fun _ => True)
      (fun e : PyError => e.isTypeOrValueError = true ∨ IsStoreError e)
      (do encode (← dumps false false (.dict items))) := by
    refine (dumps_ensures ⟨fun _ => Or.inl rfl, fun _ => Or.inl rfl⟩ _ _ _).bind fun text _ => ?_
    unfold encode
    cases encodeUtf8 text with
    | some data => trivial
    | none => exact Or.inl rfl
  unfold encodeObject
  refine (Ensures.raiseIf fun hany => ?_).bind fun _ _ =>
    (convert_ensures (isStoreError _) hdumps).bind fun _ _ =>
      (Ensures.raiseIf fun _ => isStoreError _).bind fun _ _ => trivial
  obtain ⟨item, hitem, hstr⟩ := List.any_eq_true.mp hany
  rw [hkeys item hitem] at hstr
  cases hstr

/-- **Decoding returns what the plaintext is the encoding of.** -/
theorem decodeObject_iff {plaintext : Bytes} {obj : Value} :
    decodeObject plaintext = .ok obj ↔ encodeObject obj = .ok plaintext ∧
      ∃ text, decodeUtf8 plaintext = some text ∧ loads storeHooks text = .ok obj := by
  constructor
  · intro h
    refine ⟨(decodeObject_ok h).2, ?_⟩
    obtain ⟨raw, hraw, h⟩ := bind_eq_ok.mp h
    obtain ⟨text, htext, hloads⟩ := bind_eq_ok.mp (convert_ok.mp hraw)
    refine ⟨text, decode_ok.mp htext, ?_⟩
    cases raw with
    | dict items =>
      simp only [bind_eq_ok, raiseIf_ok, pure_eq_ok] at h
      obtain ⟨-, -, -, -, rfl⟩ := h
      exact hloads
    | _ => cases h
  · rintro ⟨hencode, text, htext, hloads⟩
    obtain ⟨items, -, rfl, -⟩ := encodeObject_ok.mp hencode
    unfold decodeObject
    rw [decode_ok.mpr htext, ok_bind, hloads]
    show (do
      let encoded ← encodeObject (.dict items)
      raiseIf (encoded ≠ plaintext) _
      return Value.dict items) = _
    rw [hencode, ok_bind, raiseIf_neg (by simp)]
    rfl

/-- Decoding raises `StoreError` only: what `loads` returns has string keys. -/
theorem decodeObject_ensures (plaintext : Bytes) :
    Ensures (fun _ => True) IsStoreError (decodeObject plaintext) := by
  have hhooks : storeHooks.Ensures fun e : PyError => isDecodeFailure e = true ∨ IsStoreError e :=
    rejectingHooks_ensures (fun _ => Or.inr (isStoreError _)) fun _ => Or.inr (isStoreError _)
  unfold decodeObject
  refine (convert_ensures (isStoreError _) (loads_decode_ensures hhooks plaintext)).bind
    fun raw hbuilt => ?_
  cases raw with
  | dict items =>
    have hkeys : ∀ item ∈ items, Key.isStr item.1 = true := by
      intro item hitem
      obtain ⟨s, hs⟩ := isStr_of_plain hbuilt.plain item hitem
      rw [hs]
      rfl
    exact (encodeObject_ensures hkeys).bind fun _ _ =>
      (Ensures.raiseIf fun _ => isStoreError _).bind fun _ _ => trivial
  | _ => exact isStoreError _

end Decoding

/-! ## The parts of a file -/

namespace EncryptedStore

def saltOf (blob : Bytes) : Bytes := (blob.drop storeHeader.length).take storeSaltBytes

def nonceOf (blob : Bytes) : Bytes :=
  (blob.drop (storeHeader.length + storeSaltBytes)).take storeNonceBytes

def ciphertextOf (blob : Bytes) : Bytes :=
  blob.drop (storeHeader.length + storeSaltBytes + storeNonceBytes)

/-- A file that passes the checks starts with the header. -/
theorem storeHeader_prefix {blob : Bytes} (hmagic : storeMagic <+: blob)
    (hversion : blob.getD storeMagic.length 0 = storeVersion)
    (hlen : storeMagic.length < blob.length) : storeHeader <+: blob := by
  obtain ⟨rest, rfl⟩ := hmagic
  rw [List.getD_eq_getElem?_getD, List.getElem?_append_right (le_refl _), Nat.sub_self] at hversion
  cases rest with
  | nil => simp at hlen
  | cons version rest =>
    obtain rfl : version = storeVersion := hversion
    exact ⟨rest, by simp [storeHeader]⟩

/-- **The layout of a file that passes the checks.** -/
theorem blob_parts {blob : Bytes} {u : Unit} (h : checkBlob blob = .ok u) :
    ∃ (salt : FixedBytes storeSaltBytes) (nonce : FixedBytes storeNonceBytes),
      salt.val = saltOf blob ∧ nonce.val = nonceOf blob ∧
      blob = blobOf salt nonce (ciphertextOf blob) := by
  obtain ⟨hlo, -, hmagic, hversion⟩ := checkBlob_ok.mp h
  have hmin : storeFixedBytes + storeTagBytes = 63 := by decide
  have hmagicLength : storeMagic.length = 18 := by decide
  obtain ⟨rest, rfl⟩ := storeHeader_prefix hmagic hversion (by omega)
  rw [List.length_append, storeHeader_length, hmin] at hlo
  have hsalt : (saltOf (storeHeader ++ rest)).length = storeSaltBytes := by
    unfold saltOf
    rw [List.drop_left, List.length_take]
    exact Nat.min_eq_left (by unfold storeSaltBytes; omega)
  have hdrop : (storeHeader ++ rest).drop (storeHeader.length + storeSaltBytes) =
      rest.drop storeSaltBytes := by
    rw [← List.drop_drop, List.drop_left]
  have hnonce : (nonceOf (storeHeader ++ rest)).length = storeNonceBytes := by
    unfold nonceOf
    rw [hdrop, List.length_take, List.length_drop]
    exact Nat.min_eq_left (by unfold storeSaltBytes storeNonceBytes; omega)
  refine ⟨⟨_, hsalt⟩, ⟨_, hnonce⟩, rfl, rfl, ?_⟩
  show storeHeader ++ rest = storeHeader ++ saltOf _ ++ nonceOf _ ++ ciphertextOf _
  unfold saltOf nonceOf ciphertextOf
  rw [← List.drop_drop (i := storeNonceBytes), hdrop, List.drop_left, List.append_assoc,
    List.append_assoc, List.take_append_drop, List.take_append_drop]

/-! ## What a load does with the bytes of its file -/

section Load

variable [Interpreter] [Crypto]

/-- `load`, on the bytes of the file. -/
def openBlob (self : EncryptedStore) (blob : Bytes) : Except PyError Value := do
  checkBlob blob
  let key ← self.deriveKey (saltOf blob)
  let plaintext ← convert isInvalidTag (storeError (lit "encrypted store authentication failed"))
    (Crypto.decrypt .aesGcmSiv key (nonceOf blob) (ciphertextOf blob) storeAssociatedData)
  raiseIf (maxStorePlaintextBytes < plaintext.length)
    (storeError (lit "decrypted store payload exceeds the maximum size"))
  decodeObject plaintext

/-- The call that opens a file. -/
def openingCall (self : EncryptedStore) (blob : Bytes) : AeadCall :=
  let key := Crypto.scrypt self.passphrase (saltOf blob)
  ⟨.aesGcmSiv, key, nonceOf blob, ciphertextOf blob, storeAssociatedData,
    (Crypto.decrypt .aesGcmSiv key (nonceOf blob) (ciphertextOf blob)
      storeAssociatedData).toOption⟩

variable {self : EncryptedStore} {os : Os} {blob : Bytes}

omit [Interpreter] in
/-- The key of a file that passes the checks is derived. -/
theorem deriveKey_of_checkBlob {u : Unit} (h : checkBlob blob = .ok u) :
    self.deriveKey (saltOf blob) = .ok (Crypto.scrypt self.passphrase (saltOf blob)) := by
  obtain ⟨salt, -, hsalt, -⟩ := blob_parts h
  exact deriveKey_ok.mpr ⟨hsalt ▸ salt.property, rfl⟩

omit [Interpreter] [Crypto] in
theorem run_convert {σ α : Type} {caught : PyError → Bool} {exc : PyError}
    {m : Method ErrorClass σ Call α} (s : Frame σ Call) :
    (Method.convert caught exc m).run s = (convert caught exc (m.run s).1, (m.run s).2) := by
  unfold Method.convert Method.tryExcept
  simp only
  rcases m.run s with ⟨e | a, t⟩ <;> rfl

/-- **A load of a file is `openBlob` of its bytes**: it changes no file, and makes the one call
that opens the file when the file passes the checks. -/
theorem load_run {s : Frame Target Call} (hread : os.raises .read = false)
    (hfile : s.self.destination = some blob) : (self.load os).run s = (self.openBlob blob,
      ⟨s.self, s.log ++ if checkBlob blob = .ok () then [.decrypted (self.openingCall blob)]
        else []⟩) := by
  have hblob := readBytes_ok.mpr ⟨hread, hfile, (rfl : s = s)⟩
  unfold load openBlob
  rw [Method.run_bind_ok (Method.convert_ok.mpr hblob)]
  cases hcheck : checkBlob blob with
  | error e =>
    rw [Method.run_bind_error (Method.run_lift _ _), error_bind, if_neg (by simp), List.append_nil]
  | ok u =>
    have hkey : self.deriveKey (saltOf blob) = _ := deriveKey_of_checkBlob hcheck
    rw [Method.run_bind_ok (Method.run_lift _ _), ok_bind, if_pos rfl]
    refine (Method.run_bind_ok (Method.lift_ok.mpr ⟨hkey, rfl⟩)).trans ?_
    have hopen : ∀ exc, (Method.convert isInvalidTag exc (decrypt .aesGcmSiv
        (Crypto.scrypt self.passphrase (saltOf blob)) (nonceOf blob) (ciphertextOf blob)
        storeAssociatedData)).run s =
        (convert isInvalidTag exc (Crypto.decrypt .aesGcmSiv
          (Crypto.scrypt self.passphrase (saltOf blob)) (nonceOf blob) (ciphertextOf blob)
          storeAssociatedData), ⟨s.self, s.log ++ [.decrypted (self.openingCall blob)]⟩) := by
      intro exc
      rw [run_convert]
      rfl
    rw [hkey, ok_bind]
    cases hresult : convert isInvalidTag
      (storeError (lit "encrypted store authentication failed")) (Crypto.decrypt .aesGcmSiv
      (Crypto.scrypt self.passphrase (saltOf blob)) (nonceOf blob) (ciphertextOf blob)
      storeAssociatedData) with
    | error e => exact Method.run_bind_error ((hopen _).trans (by rw [hresult]))
    | ok plaintext =>
      refine (Method.run_bind_ok ((hopen _).trans (by rw [hresult]))).trans ?_
      rw [ok_bind]
      cases raiseIf (maxStorePlaintextBytes < plaintext.length) (storeError
        (lit "decrypted store payload exceeds the maximum size")) with
      | error e => rfl
      | ok u => rfl

/-- A load of a file that cannot be read raises. -/
theorem load_unread {s : Frame Target Call}
    (h : os.raises .read = true ∨ s.self.destination = none) :
    (self.load os).run s = (.error os.unread, s) := by
  have hread : ∃ e, (readBytes os).run s = (.error e, s) ∧ os.unread =
      if isOsError e then storeError (lit "failed to read encrypted store") else e := by
    unfold readBytes Os.unread
    by_cases hraises : os.raises .read = true
    · refine ⟨_, Method.run_bind_error (Method.lift_error.mpr
        ⟨raiseIf_error.mpr ⟨hraises, rfl⟩, rfl⟩), ?_⟩
      unfold Os.exception
      split <;> rfl
    · have hencoded : os.unencoded .read = false :=
        Os.encoded (Bool.not_eq_true _ ▸ hraises) (by decide)
      rw [Method.run_bind_ok (Method.lift_ok.mpr ⟨raiseIf_neg hraises, rfl⟩),
        Method.run_bind_ok (Method.run_self s), h.resolve_left hraises, hencoded]
      exact ⟨_, rfl, rfl⟩
  obtain ⟨e, hread, hunread⟩ := hread
  refine Method.run_bind_error ?_
  rw [run_convert, hread, hunread]
  rfl

/-! ## What is loaded -/

/-- **The file holds the dictionary under the passphrase**: it has the layout of a store, and opens
to the canonical encoding of a dictionary that `json.loads` reads from it. -/
def Holds (passphrase blob : Bytes) (obj : Value) : Prop :=
  ∃ (salt : FixedBytes storeSaltBytes) (nonce : FixedBytes storeNonceBytes)
    (ciphertext plaintext : Bytes) (text : Str),
    blob = blobOf salt nonce ciphertext ∧ blob.length ≤ maxStoreFileBytes ∧
    Crypto.decrypt .aesGcmSiv (Crypto.scrypt passphrase salt) nonce ciphertext
      storeAssociatedData = .ok plaintext ∧
    encodeObject obj = .ok plaintext ∧
    decodeUtf8 plaintext = some text ∧ loads storeHooks text = .ok obj

/-- A file with the layout of a store has the parts it is made of. -/
theorem openBlob_blobOf {salt : FixedBytes storeSaltBytes} {nonce : FixedBytes storeNonceBytes}
    {ciphertext plaintext : Bytes} (hlo : storeTagBytes ≤ ciphertext.length)
    (hhi : ciphertext.length ≤ maxStorePlaintextBytes + storeTagBytes)
    (hopen : Crypto.decrypt .aesGcmSiv (Crypto.scrypt self.passphrase salt) nonce ciphertext
      storeAssociatedData = .ok plaintext)
    (hmax : plaintext.length ≤ maxStorePlaintextBytes) :
    self.openBlob (blobOf salt nonce ciphertext) = decodeObject plaintext := by
  obtain ⟨hsalt, hnonce, hciphertext⟩ := blobOf_parts salt nonce ciphertext
  have hsalt : saltOf (blobOf salt nonce ciphertext) = salt.val := hsalt
  have hnonce : nonceOf (blobOf salt nonce ciphertext) = nonce.val := hnonce
  have hciphertext : ciphertextOf (blobOf salt nonce ciphertext) = ciphertext := hciphertext
  have hkey : self.deriveKey salt = .ok (Crypto.scrypt self.passphrase salt) :=
    deriveKey_ok.mpr ⟨salt.property, rfl⟩
  unfold openBlob
  rw [checkBlob_blobOf hlo hhi, ok_bind, hsalt, hnonce, hciphertext, hkey, ok_bind, hopen]
  show (do
    raiseIf (maxStorePlaintextBytes < plaintext.length) _
    decodeObject plaintext) = _
  rw [raiseIf_neg (by omega), ok_bind]

/-- What is documented of `Scrypt` and of `AESGCMSIV`. -/
structure StoreCrypto : Prop where
  /-- `length=32` -/
  scrypt_length : ∀ passphrase salt, (Crypto.scrypt passphrase salt).length = 32
  /-- A tag is appended to the plaintext. -/
  opened_length : ∀ key nonce data associatedData plaintext,
    Crypto.decrypt .aesGcmSiv key nonce data associatedData = .ok plaintext →
    data.length = plaintext.length + aeadTagBytes
  /-- What does not open under a key and a nonce of the right length raises `InvalidTag`. -/
  invalidTag : ∀ key nonce data associatedData e, key.length = 32 → nonce.length = 12 →
    data.length < 2 ^ 31 → Crypto.decrypt .aesGcmSiv key nonce data associatedData = .error e →
    isInvalidTag e = true

/-- `AESGCMSIV(key).encrypt` seals what is not empty. -/
def SealsData : Prop :=
  ∀ key nonce data associatedData, key.length = 32 → nonce.length = 12 → data ≠ [] →
    data.length < 2 ^ 31 → ∃ ciphertext,
      Crypto.encrypt .aesGcmSiv key nonce data associatedData = .ok ciphertext

/-- **What is loaded is what the file holds.** -/
theorem openBlob_ok (hcrypto : StoreCrypto) {obj : Value} :
    self.openBlob blob = .ok obj ↔ Holds self.passphrase blob obj := by
  constructor
  · intro h
    obtain ⟨u, hcheck, hkeyed⟩ := bind_eq_ok.mp h
    rw [deriveKey_of_checkBlob hcheck, ok_bind] at hkeyed
    obtain ⟨plaintext, hopen, hsized⟩ := bind_eq_ok.mp hkeyed
    obtain ⟨_, -, hdecode⟩ := bind_eq_ok.mp hsized
    obtain ⟨salt, nonce, hsalt, hnonce, hblob⟩ := blob_parts hcheck
    obtain ⟨hencode, text, htext, hloads⟩ := decodeObject_iff.mp hdecode
    rw [← hsalt, ← hnonce] at hopen
    exact ⟨salt, nonce, ciphertextOf blob, plaintext, text, hblob, (checkBlob_ok.mp hcheck).2.1,
      convert_ok.mp hopen, hencode, htext, hloads⟩
  · rintro ⟨salt, nonce, ciphertext, plaintext, text, rfl, hsize, hopen, hencode, htext, hloads⟩
    obtain ⟨-, -, -, -, -, -, hmax⟩ := encodeObject_ok.mp hencode
    have hlen := hcrypto.opened_length _ _ _ _ _ hopen
    have htag : storeTagBytes = aeadTagBytes := rfl
    rw [openBlob_blobOf (by omega) (by omega) hopen hmax]
    exact decodeObject_iff.mpr ⟨hencode, text, htext, hloads⟩

/-- **A load of a file raises `StoreError` only.** -/
theorem openBlob_ensures (hcrypto : StoreCrypto) :
    Ensures (fun _ => True) IsStoreError (self.openBlob blob) := by
  have hcheck : Ensures (fun _ => True) IsStoreError (checkBlob blob) :=
    (Ensures.raiseIf fun _ => isStoreError _).bind fun _ _ =>
      (Ensures.raiseIf fun _ => isStoreError _).bind fun _ _ =>
        (Ensures.raiseIf fun _ => isStoreError _).bind fun _ _ =>
          (Ensures.raiseIf fun _ => isStoreError _).mono (fun _ _ => trivial) fun _ h => h
  unfold openBlob
  cases hpass : checkBlob blob with
  | error e => exact hcheck.of_error hpass
  | ok u =>
    obtain ⟨salt, nonce, hsalt, hnonce, hblob⟩ := blob_parts hpass
    obtain ⟨-, hmax, -⟩ := checkBlob_ok.mp hpass
    have hsize : (ciphertextOf blob).length < 2 ^ 31 := by
      have : maxStoreFileBytes = 1048639 := by decide
      unfold ciphertextOf
      rw [List.length_drop]
      omega
    rw [ok_bind, deriveKey_of_checkBlob hpass, ok_bind]
    have hdecrypt : Ensures (fun _ => True) (fun e => isInvalidTag e = true ∨ IsStoreError e)
        (Crypto.decrypt .aesGcmSiv (Crypto.scrypt self.passphrase (saltOf blob)) (nonceOf blob)
          (ciphertextOf blob) storeAssociatedData) := by
      cases hopen : Crypto.decrypt .aesGcmSiv (Crypto.scrypt self.passphrase (saltOf blob))
        (nonceOf blob) (ciphertextOf blob) storeAssociatedData with
      | ok plaintext => trivial
      | error e =>
        exact Or.inl (hcrypto.invalidTag _ _ _ _ _ (hcrypto.scrypt_length _ _)
          (hnonce ▸ nonce.property) hsize hopen)
    exact (convert_ensures (isStoreError _) hdecrypt).bind fun _ _ =>
      (Ensures.raiseIf fun _ => isStoreError _).bind fun _ _ => decodeObject_ensures _

/-! ## What a save does, for every pattern of failing calls -/

/-- The file that a save hands to `atomic_write_bytes`. -/
def fileOf (self : EncryptedStore) (obj : Value) (salt : FixedBytes storeSaltBytes)
    (nonce : FixedBytes storeNonceBytes) : Except PyError Bytes := do
  let plaintext ← encodeObject obj
  let ciphertext ← Crypto.encrypt .aesGcmSiv (Crypto.scrypt self.passphrase salt) nonce plaintext
    storeAssociatedData
  return blobOf salt nonce ciphertext

/-- The call that seals a dictionary, if it is encoded. -/
def sealingCalls (self : EncryptedStore) (obj : Value) (salt : FixedBytes storeSaltBytes)
    (nonce : FixedBytes storeNonceBytes) : List Call :=
  match encodeObject obj with
  | .ok plaintext =>
    let key := Crypto.scrypt self.passphrase salt
    [.encrypted ⟨.aesGcmSiv, key, nonce, plaintext, storeAssociatedData,
      (Crypto.encrypt .aesGcmSiv key nonce plaintext storeAssociatedData).toOption⟩]
  | .error _ => []

/-- The save gets as far as replacing the file. -/
def Replaces (self : EncryptedStore) (os : Os) (obj : Value) (salt : FixedBytes storeSaltBytes)
    (nonce : FixedBytes storeNonceBytes) (blob : Bytes) : Prop :=
  self.fileOf obj salt nonce = .ok blob ∧ os.replaces = true

variable (self os) in
/-- **What a save leaves**: it returns when its file is written and synced, and when it raises its
file is there only if the directory could not be synced. -/
theorem save_runs (obj : Value) (salt : FixedBytes storeSaltBytes)
    (nonce : FixedBytes storeNonceBytes) (s : Frame Target Call) :
    Runs (self.save os obj salt nonce) s
      (fun _ t => t.log = s.log ++ self.sealingCalls obj salt nonce ∧ ∃ blob,
        self.Replaces os obj salt nonce blob ∧ os.syncFails = false ∧
        t.self.destination = some blob)
      fun _ t => t.log = s.log ++ self.sealingCalls obj salt nonce ∧
        ((∃ blob, self.Replaces os obj salt nonce blob ∧ os.syncFails = true ∧
          t.self.destination = some blob) ∨
        (∀ blob, ¬ self.Replaces os obj salt nonce blob) ∧
          t.self.destination = s.self.destination) := by
  have hkey : self.deriveKey salt = .ok (Crypto.scrypt self.passphrase salt) :=
    deriveKey_ok.mpr ⟨salt.property, rfl⟩
  unfold save Replaces fileOf
  refine .bind_lift (fun plaintext hencode => ?_) fun e hencode => ?_
  swap
  · rw [hencode]
    refine ⟨?_, Or.inr ⟨fun blob h => ?_, rfl⟩⟩
    · unfold sealingCalls
      rw [hencode, List.append_nil]
    · cases h.1
  have hrun : (encrypt .aesGcmSiv (Crypto.scrypt self.passphrase salt) nonce.val plaintext
      storeAssociatedData).run s = (Crypto.encrypt .aesGcmSiv
        (Crypto.scrypt self.passphrase salt) nonce plaintext storeAssociatedData,
        ⟨s.self, s.log ++ self.sealingCalls obj salt nonce⟩) := by
    unfold sealingCalls
    rw [hencode]
    rfl
  rw [hencode, ok_bind]
  refine .bind_run (Method.lift_ok.mpr ⟨hkey, rfl⟩) ?_
  cases hseal : Crypto.encrypt .aesGcmSiv (Crypto.scrypt self.passphrase salt) nonce plaintext
    storeAssociatedData with
  | error e =>
    rw [hseal] at hrun
    refine .of_run_error (Method.run_bind_error hrun) ⟨rfl, Or.inr ⟨fun blob h => ?_, rfl⟩⟩
    cases h.1
  | ok ciphertext =>
    rw [hseal] at hrun
    refine .bind_run hrun (.convert ((atomicWriteBytes_runs _ _).mono ?_ ?_))
    · rintro _ t ⟨hlog, hreplaces, hsync, hdata⟩
      exact ⟨hlog, _, ⟨rfl, hreplaces⟩, hsync, hdata⟩
    · rintro _ t ⟨hlog, ⟨hreplaces, hsync, hdata⟩ | ⟨hreplaces, hkept⟩⟩
      · exact ⟨hlog, Or.inl ⟨_, ⟨rfl, hreplaces⟩, hsync, hdata⟩⟩
      · refine ⟨hlog, Or.inr ⟨fun blob h => ?_, hkept⟩⟩
        rw [h.2] at hreplaces
        cases hreplaces

/-- A save that no call fails returns, and leaves its file. -/
theorem save_quiet (hquiet : os.Quiet) {obj : Value} {salt : FixedBytes storeSaltBytes}
    {nonce : FixedBytes storeNonceBytes} {file : Bytes}
    (hfile : self.fileOf obj salt nonce = .ok file)
    (s : Frame Target Call) : ∃ t, (self.save os obj salt nonce).run s = (.ok (), t) ∧
      t.log = s.log ++ self.sealingCalls obj salt nonce ∧ t.self.destination = some file := by
  have h := self.save_runs os obj salt nonce s
  rcases hrun : (self.save os obj salt nonce).run s with ⟨e | u, t⟩
  · obtain ⟨-, ⟨_, -, hsync, -⟩ | ⟨hnone, -⟩⟩ := h.of_error hrun
    · rw [hquiet.not_syncFails] at hsync
      cases hsync
    · exact absurd ⟨hfile, hquiet.replaces⟩ (hnone file)
  · obtain ⟨hlog, written, ⟨hwritten, -⟩, -, hdata⟩ := h.of_ok hrun
    obtain rfl := Except.ok.inj (hwritten.symm.trans hfile)
    exact ⟨t, rfl, hlog, hdata⟩

/-- The log of a save, whether it returns or raises. -/
theorem save_log (os : Os) (obj : Value) (salt : FixedBytes storeSaltBytes)
    (nonce : FixedBytes storeNonceBytes) (s : Frame Target Call) :
    ((self.save os obj salt nonce).run s).2.log = s.log ++ self.sealingCalls obj salt nonce := by
  have h := self.save_runs os obj salt nonce s
  rcases hrun : (self.save os obj salt nonce).run s with ⟨e | u, t⟩
  · exact (h.of_error hrun).1
  · exact (h.of_ok hrun).1

variable (self) in
theorem mem_sealingCalls {obj : Value} {salt : FixedBytes storeSaltBytes}
    {nonce : FixedBytes storeNonceBytes} {call : Call}
    (h : call ∈ self.sealingCalls obj salt nonce) :
    ∃ plaintext, encodeObject obj = .ok plaintext ∧ call = .encrypted ⟨.aesGcmSiv,
      Crypto.scrypt self.passphrase salt, nonce, plaintext, storeAssociatedData,
      (Crypto.encrypt .aesGcmSiv (Crypto.scrypt self.passphrase salt) nonce plaintext
        storeAssociatedData).toOption⟩ := by
  unfold sealingCalls at h
  cases hencode : encodeObject obj with
  | ok plaintext =>
    rw [hencode] at h
    exact ⟨plaintext, rfl, List.mem_singleton.mp h⟩
  | error e =>
    rw [hencode] at h
    exact absurd h List.not_mem_nil

/-! ## A history of saves -/

/-- One call of `save`. -/
structure Save where
  path : Str
  store : EncryptedStore
  os : Os
  obj : Value
  salt : FixedBytes storeSaltBytes
  nonce : FixedBytes storeNonceBytes

namespace Save

def step (s : Frame Files Call) (save : Save) : Except PyError Unit × Frame Files Call :=
  (atPath save.path (save.store.save save.os save.obj save.salt save.nonce)).run s

/-- The file that the save writes. -/
def file (save : Save) : Except PyError Bytes := save.store.fileOf save.obj save.salt save.nonce

/-- What the key of the save is derived from. -/
def scryptInput (save : Save) : Bytes × Bytes := (save.store.passphrase, save.salt.val)

/-- The calls of a history of saves. -/
theorem run_log (saves : List Save) (s : Frame Files Call) :
    (Machine.run step s saves).2.log = s.log ++
      saves.flatMap fun save => save.store.sealingCalls save.obj save.salt save.nonce := by
  induction saves generalizing s with
  | nil => exact (List.append_nil _).symm
  | cons save saves ih =>
    have hlog : (step s save).2.log =
        s.log ++ save.store.sealingCalls save.obj save.salt save.nonce :=
      save.store.save_log save.os save.obj save.salt save.nonce ⟨Target.of (s.self save.path), s.log⟩
    rw [Machine.run_cons, ih, hlog, List.flatMap_cons, List.append_assoc]

end Save

/-- No two of the inputs of `Scrypt` collide. -/
def ScryptCollisionFree (inputs : List (Bytes × Bytes)) : Prop :=
  ∀ a ∈ inputs, ∀ b ∈ inputs, Crypto.scrypt a.1 a.2 = Crypto.scrypt b.1 b.2 → a = b

omit [Interpreter] in
instance (inputs : List (Bytes × Bytes)) : Decidable (ScryptCollisionFree inputs) :=
  inferInstanceAs (Decidable (∀ a ∈ inputs, ∀ b ∈ inputs, _ → _))

/-- **A file that opens after a history of saves is one that they wrote**, under the passphrase
that opens it. -/
theorem openBlob_written {saves : List Save} {files : Files} {target : Target} {obj : Value}
    (hread : os.raises .read = false) (hfile : target.destination = some blob)
    (hauthentic : Authentic ((self.load os).run
      ⟨target, (Machine.run Save.step ⟨files, []⟩ saves).2.log⟩).2.log)
    (hscrypt : ScryptCollisionFree ((self.passphrase, saltOf blob) :: saves.map Save.scryptInput))
    (h : self.openBlob blob = .ok obj) :
    ∃ save ∈ saves, save.store.passphrase = self.passphrase ∧ save.file = .ok blob := by
  obtain ⟨u, hcheck, hkeyed⟩ := bind_eq_ok.mp h
  rw [deriveKey_of_checkBlob hcheck, ok_bind] at hkeyed
  obtain ⟨plaintext, hopen, -⟩ := bind_eq_ok.mp hkeyed
  have hopen := convert_ok.mp hopen
  rw [load_run hread hfile, Save.run_log, if_pos hcheck] at hauthentic
  have hresult : (self.openingCall blob).result = some plaintext := toOption_eq_some.mpr hopen
  have hsealed := hauthentic _ plaintext (List.mem_append_right _ (List.mem_singleton.mpr rfl))
    hresult
  -- the only calls that seal are those of the saves
  rcases List.mem_append.mp hsealed with hsealed | hsealed
  swap
  · cases List.mem_singleton.mp hsealed
  obtain ⟨save, hsave, hcall⟩ := List.mem_flatMap.mp hsealed
  obtain ⟨written, hencode, hcall⟩ := mem_sealingCalls _ hcall
  obtain ⟨hkey, hnonce, hplaintext, hciphertext⟩ :
      Crypto.scrypt self.passphrase (saltOf blob) =
        Crypto.scrypt save.store.passphrase save.salt ∧ nonceOf blob = save.nonce.val ∧
      plaintext = written ∧ some (ciphertextOf blob) = (Crypto.encrypt .aesGcmSiv
        (Crypto.scrypt save.store.passphrase save.salt) save.nonce written
        storeAssociatedData).toOption := by
    injection hcall with hcall
    injection hcall with h₁ h₂ h₃ h₄ h₅ h₆
    exact ⟨h₂, h₃, h₄, h₆⟩
  have hinput := hscrypt _ List.mem_cons_self _
    (List.mem_cons_of_mem _ (List.mem_map_of_mem hsave)) hkey
  obtain ⟨hpassphrase, hsalt⟩ : self.passphrase = save.store.passphrase ∧
      saltOf blob = save.salt.val := Prod.mk.inj hinput
  refine ⟨save, hsave, hpassphrase.symm, ?_⟩
  obtain ⟨salt, nonce, hsalt', hnonce', hblob⟩ := blob_parts hcheck
  obtain rfl : salt = save.salt := Subtype.ext (hsalt'.trans hsalt)
  obtain rfl : nonce = save.nonce := Subtype.ext (hnonce'.trans hnonce)
  unfold Save.file fileOf
  rw [hencode, ok_bind, toOption_eq_some.mp hciphertext.symm, ok_bind]
  exact pure_eq_ok.mpr hblob.symm

/-- **A store is loaded exactly from its canonical files**: a load returns what the file holds,
raises `StoreError` if it holds nothing, and raises `StoreError` on every file that no save has
written under the passphrase. -/
theorem load_exact (hcrypto : StoreCrypto) (saves : List Save) (files : Files)
    (self : EncryptedStore) (os : Os) (hread : os.raises .read = false) (target : Target)
    (blob : Bytes) (hfile : target.destination = some blob) :
    let run := (self.load os).run ⟨target, (Machine.run Save.step ⟨files, []⟩ saves).2.log⟩
    (∀ obj, run.1 = .ok obj ↔ Holds self.passphrase blob obj) ∧
    ((∀ obj, ¬ Holds self.passphrase blob obj) → ∃ message, run.1 = .error (storeError message)) ∧
    (Authentic run.2.log →
      ScryptCollisionFree ((self.passphrase, saltOf blob) :: saves.map Save.scryptInput) →
      (∀ save ∈ saves, save.store.passphrase = self.passphrase → save.file ≠ .ok blob) →
      ∃ message, run.1 = .error (storeError message)) := by
  intro run
  have hrun : run.1 = self.openBlob blob := by
    show ((self.load os).run _).1 = _
    rw [load_run hread hfile]
  have hraise : (∀ obj, self.openBlob blob ≠ .ok obj) →
      ∃ message, run.1 = .error (storeError message) := by
    intro hnone
    cases hopen : self.openBlob blob with
    | ok obj => exact absurd hopen (hnone obj)
    | error e =>
      obtain ⟨message, rfl⟩ := (openBlob_ensures hcrypto).of_error hopen
      exact ⟨message, hrun.trans hopen⟩
  refine ⟨fun obj => ?_, fun hnone => ?_, fun hauthentic hscrypt hunwritten => ?_⟩
  · rw [hrun]
    exact openBlob_ok hcrypto
  · exact hraise fun obj h => hnone obj ((openBlob_ok hcrypto).mp h)
  · refine hraise fun obj h => ?_
    obtain ⟨save, hsave, hpassphrase, hwritten⟩ :=
      openBlob_written hread hfile hauthentic hscrypt h
    exact hunwritten save hsave hpassphrase hwritten

end Load

/-! ## A file with one byte changed -/

section Samples

open scoped Samples

theorem storeCrypto_digests : StoreCrypto where
  scrypt_length _ _ := digest_length _ _
  opened_length _ _ _ _ _ h := by
    rw [opened_ok h, List.length_append, tagOf, digest_length]
  invalidTag _ _ _ _ _ _ _ _ h := by
    rw [opened_error h]
    rfl

/-- A save of the sample dictionary. -/
def sampleSave : Save :=
  ⟨lit "state.bin", sampleStore, (posixOs []), samplePayload, sampleSalt, sampleNonce⟩

/-- The file of the sample save, with its last byte changed. -/
def changedBlob : Bytes :=
  match sampleSave.file with
  | .ok blob => blob.dropLast ++ [blob.getLast?.getD 0 + 1]
  | .error _ => []

/-- A changed file is rejected. -/
theorem load_exact_changed : ∃ message, ((sampleStore.load (posixOs [])).run
    ⟨Target.of (some changedBlob),
      (Machine.run Save.step ⟨fun _ => none, []⟩ [sampleSave]).2.log⟩).1 =
    .error (storeError message) := by
  have hrun : Authentic ((sampleStore.load (posixOs [])).run ⟨Target.of (some changedBlob),
      (Machine.run Save.step ⟨fun _ => none, []⟩ [sampleSave]).2.log⟩).2.log ∧
      ScryptCollisionFree [(sampleStore.passphrase, saltOf changedBlob), sampleSave.scryptInput] ∧
      sampleSave.file ≠ .ok changedBlob := by
    decide +kernel
  obtain ⟨hauthentic, hscrypt, hchanged⟩ := hrun
  refine (load_exact storeCrypto_digests [sampleSave] (fun _ => none) sampleStore (posixOs []) rfl
    (Target.of (some changedBlob)) changedBlob rfl).2.2 hauthentic hscrypt fun save hsave _ => ?_
  rw [List.mem_singleton.mp hsave]
  exact hchanged

end Samples

end EncryptedStore

end CypherSyntax
