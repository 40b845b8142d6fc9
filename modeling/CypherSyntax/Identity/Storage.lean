import CypherSyntax.Identity
import CypherSyntax.Store.Exactness

/-!
# Stored identities

`Identity.storage_path`, `Identity.save` and `Identity.load` of `src/cyphersyntax/identity.py`, as
methods of the files of one directory, with the texts of their errors. A file is named after the
digest of the identity's name.

* The bytes of private keys, and the keys that are made of bytes, are parameters (`PrivateBytes`).
  That the two invert one another is assumed where an identity is loaded (`KeyBytes`).
* Saves and loads run one after another here. Those that overlap, and crashes, are in
  `Identity/Survival.lean` and `Identity/Loads.lean`.

Results:
* `encodeObject_storagePayload`: the payload of every identity is encoded.
-/

namespace CypherSyntax

open Python Json

def identityError (message : Str) : PyError := .user .identityError message

def identityFormat : Str := lit "CypherSyntax/identity/v1"

/-- The fields of a payload, sorted. -/
def identityFields : List Str :=
  [lit "ed25519_private_key", lit "format", lit "name", lit "x25519_private_key"]

def privateKeyBytes : Nat := 32

/-- The raw bytes of private keys. -/
class PrivateBytes [Crypto] where
  /-- `Ed25519PrivateKey.private_bytes(Raw, Raw, NoEncryption())` -/
  signing : Crypto.SigningKey → Bytes
  signing_length : ∀ key, (signing key).length = privateKeyBytes
  /-- `Ed25519PrivateKey.from_private_bytes` -/
  toSigning : Bytes → Except PyError Crypto.SigningKey
  /-- `X25519PrivateKey.private_bytes(Raw, Raw, NoEncryption())` -/
  exchange : Crypto.ExchangeKey → Bytes
  exchange_length : ∀ key, (exchange key).length = privateKeyBytes
  /-- `X25519PrivateKey.from_private_bytes` -/
  toExchange : Bytes → Except PyError Crypto.ExchangeKey

/-- `_identity_filename` -/
def identityFilename [Crypto] (name : Str) : Except PyError Str := do
  let encoded ← encode name
  return lit "identity-" ++ hex (Crypto.sha256 encoded) ++ lit ".bin"

/-- `_decode_private_key` -/
def decodePrivateKey (fieldName : String) : Value → Except PyError Bytes
  | .str value => do
    raiseIf (value.length ≠ privateKeyBytes * 2)
      (identityError (lit "persisted " ++ lit fieldName ++ lit " has an invalid length"))
    raiseIf (value.all isLowerHex = false)
      (identityError (lit "persisted " ++ lit fieldName ++ lit " is not canonical hexadecimal"))
    match fromhex value with
    | some decoded => return decoded
    | none => throw (valueError "non-hexadecimal number found in fromhex() arg")
  | _ => .error (identityError (lit "persisted " ++ lit fieldName ++ lit " must be a string"))

/-- `'; '.join(details)` -/
def joinDetails : List Str → Str
  | [] => []
  | [s] => s
  | s :: t :: details => s ++ lit "; " ++ joinDetails (t :: details)

/-- What the schema check says of the fields that are missing and unexpected. -/
def schemaDetails (missing unexpected : List Str) : List Str :=
  (if missing ≠ [] then [lit "missing fields: " ++ joinNames missing] else []) ++
    if unexpected ≠ [] then [lit "unexpected fields: " ++ joinNames unexpected] else []

def isStoreErrorClass : PyError → Bool
  | .user .storeError _ => true
  | _ => false

namespace Identity

section Storage

variable [Interpreter] [Crypto]

/-- The name of the file in the directory. -/
def storagePath (name : Value) : Except PyError Str := do
  let validatedName ← validateIdentityName name
  identityFilename validatedName

variable [PrivateBytes]

def storagePayload (self : Identity) : Value :=
  let signingRaw := PrivateBytes.signing self.signingPrivateKey
  let exchangeRaw := PrivateBytes.exchange self.exchangePrivateKey
  .dict [(key "format", .str identityFormat), (key "name", .str self.name),
    (key "ed25519_private_key", .str (hex signingRaw)),
    (key "x25519_private_key", .str (hex exchangeRaw))]

def save (self : Identity) (os : Os) (passphrase : Value) (salt : FixedBytes storeSaltBytes)
    (nonce : FixedBytes storeNonceBytes) : Method ErrorClass Files Call Unit := do
  let _ ← (validatePassphrase passphrase : Except PyError Bytes)
  let destination ← storagePath (.str self.name)
  Method.convert isStoreErrorClass (identityError (lit "failed to save identity")) do
    let store ← EncryptedStore.new passphrase
    atPath destination (store.save os self.storagePayload salt nonce)

/-- What `load` makes of the dictionary it has read. -/
def ofPayload (validatedName : Str) : Value → Except PyError Identity
  | .dict items => do
    let missing := missingFields identityFields items
    let unexpected := unexpectedFields identityFields items
    raiseIf (missing ≠ [] ∨ unexpected ≠ []) (identityError
      (lit "persisted identity has an invalid schema (" ++
        joinDetails (schemaDetails missing unexpected) ++ lit ")"))
    let format ← getItem items (lit "format")
    raiseIf (isText identityFormat format = false)
      (identityError (lit "persisted identity has an unsupported format"))
    let name ← getItem items (lit "name")
    raiseIf (isText validatedName name = false)
      (identityError (lit "persisted identity name does not match request"))
    let signingRaw ← decodePrivateKey "Ed25519 private key"
      (← getItem items (lit "ed25519_private_key"))
    let exchangeRaw ← decodePrivateKey "X25519 private key"
      (← getItem items (lit "x25519_private_key"))
    let signingKey ← PrivateBytes.toSigning signingRaw
    let exchangeKey ← PrivateBytes.toExchange exchangeRaw
    new (.str validatedName) signingKey exchangeKey
  | _ => .error (typeError "object is not iterable")

def load (name : Value) (os : Os) (passphrase : Value) :
    Method ErrorClass Files Call Identity := do
  let validatedName ← validateIdentityName name
  let _ ← (validatePassphrase passphrase : Except PyError Bytes)
  let source ← storagePath (.str validatedName)
  let raw ← Method.convert isStoreErrorClass (identityError (lit "failed to load identity")) do
    let store ← EncryptedStore.new passphrase
    atPath source (store.load os)
  ofPayload validatedName raw

end Storage

/-! ## Paths -/

section Paths

variable [Interpreter] [Crypto] {m n : Str}

/-- Where the identity of a valid name is stored. -/
def pathOf (name : Str) : Str := lit "identity-" ++ hex (Crypto.sha256 (utf8 name)) ++ lit ".bin"

theorem storagePath_ok (h : ValidName n ∧ hasPathComponents n = false) :
    storagePath (.str n) = .ok (pathOf n) := by
  have hname : validateIdentityName (.str n) = .ok n := validateIdentityName_ok.mpr ⟨rfl, h⟩
  have hencode : encode n = .ok (utf8 n) :=
    encode_ok (κ := ErrorClass).mpr (encode_utf8 h.1.isSome)
  unfold storagePath identityFilename
  rw [hname, ok_bind, hencode, ok_bind]
  rfl

/-- **Names whose digests differ have different files.** -/
theorem pathOf_inj (hm : ValidName m) (hn : ValidName n)
    (hsha256 : Crypto.sha256 (utf8 m) = Crypto.sha256 (utf8 n) → utf8 m = utf8 n)
    (h : pathOf m = pathOf n) : m = n := by
  unfold pathOf at h
  have hhex := List.append_cancel_left (List.append_cancel_right h)
  have hdigest : Crypto.sha256 (utf8 m) = Crypto.sha256 (utf8 n) :=
    Option.some.inj ((fromhex_hex _).symm.trans (hhex ▸ fromhex_hex _))
  exact utf8_inj hm.isSome hn.isSome (hsha256 hdigest)

end Paths

/-! ## Payloads -/

section Payloads

variable [Interpreter] [Crypto] [PrivateBytes] (self : Identity)

/-- The items of the payload. -/
def payloadItems : List (Key × Value) :=
  [(key "format", .str identityFormat), (key "name", .str self.name),
    (key "ed25519_private_key", .str (hex (PrivateBytes.signing self.signingPrivateKey))),
    (key "x25519_private_key", .str (hex (PrivateBytes.exchange self.exchangePrivateKey)))]

theorem payloadItems_flat : ∀ kv ∈ self.payloadItems, FlatField kv := by
  unfold payloadItems
  simp only [List.forall_mem_cons]
  exact ⟨flatField_str (by decide) (noSurrogates_ascii (ascii_of_plain (by decide))),
    flatField_str (by decide) self.name_valid.1.noSurrogates, flatField_hex (by decide) _,
    flatField_hex (by decide) _, fun _ h => absurd h List.not_mem_nil⟩

theorem payloadItems_distinct : self.payloadItems.Pairwise fun p q => p.1 ≠ q.1 := by
  have hkeys : (self.payloadItems.map Prod.fst).Pairwise (· ≠ ·) := by
    show [key "format", key "name", key "ed25519_private_key",
      key "x25519_private_key"].Pairwise (· ≠ ·)
    decide
  exact List.pairwise_map.mp hkeys

theorem payloadItems_size :
    (self.payloadItems.map fun kv => fieldSize false kv + 2).sum + 2 ≤ maxStorePlaintextBytes := by
  have hname : utf8Size (encodeString false self.name) ≤ 2 * 255 + 2 :=
    self.name_valid.1.encodeString_size false
  have hsigning : (PrivateBytes.signing self.signingPrivateKey).length = 32 :=
    PrivateBytes.signing_length _
  have hexchange : (PrivateBytes.exchange self.exchangePrivateKey).length = 32 :=
    PrivateBytes.exchange_length _
  have hformat : utf8Size (encodeString false identityFormat) = 26 :=
    encodeString_plain false (by decide)
  have hkeys : (lit "format").length = 6 ∧ (lit "name").length = 4 ∧
      (lit "ed25519_private_key").length = 19 ∧ (lit "x25519_private_key").length = 18 := by decide
  simp only [payloadItems, key, List.map_cons, List.map_nil, List.sum_cons, List.sum_nil]
  rw [fieldSize_str (by decide), fieldSize_str (by decide), fieldSize_hex (by decide),
    fieldSize_hex (by decide)]
  show _ ≤ 1048576
  omega

/-- **The payload of every identity is encoded, and reads back with its fields sorted.** -/
theorem encodeObject_storagePayload : ∃ plaintext,
    encodeObject self.storagePayload = .ok plaintext ∧ plaintext ≠ [] ∧
      decodeObject plaintext = .ok (.dict (sortByKey self.payloadItems)) := by
  have hflat := self.payloadItems_flat
  obtain ⟨text, htext, hno, hsize⟩ := dumps_flat (κ := ErrorClass) false false hflat
  obtain ⟨data, hencode, hlen, hdecode⟩ := encode_decode (κ := ErrorClass) hno
  have hmax := self.payloadItems_size
  have hkeys : ∀ item ∈ self.payloadItems, Key.isStr item.1 = true := by
    intro item hitem
    obtain ⟨name, hname, -⟩ := (hflat item hitem).cases
    rw [hname]
    rfl
  have hencoded : encodeObject self.storagePayload = .ok data :=
    encodeObject_ok.mpr ⟨self.payloadItems, text, rfl, hkeys, htext, encode_ok.mp hencode, by omega⟩
  have hread := decodeObject_encodeObject (plain_flat hflat)
    (wf_flat hflat self.payloadItems_distinct)
    (le_trans (depth_flat hflat) Interpreter.recursionLimit_pos) hencoded
  rw [sorted_flat hflat] at hread
  refine ⟨data, hencoded, ?_, hread⟩
  rintro rfl
  obtain ⟨-, text', hempty, hloads⟩ := decodeObject_iff.mp hread
  obtain rfl : [] = text' := Option.some.inj hempty
  exact absurd hloads (by simp [loads, scanOnce, skipSpace])

end Payloads

/-! ## What a payload says -/

section Schema

variable [Interpreter] [Crypto] [PrivateBytes] {n : Str}

/-- The hexadecimal text of a private key. -/
def IsKeyText (text : Str) : Prop := text.length = privateKeyBytes * 2 ∧ text.all isLowerHex = true

/-- **Exactly the payload of an identity of the name**, with the texts of its two keys. -/
structure IsPayload (n : Str) (items : List (Key × Value)) (signing exchange : Str) : Prop where
  fields : ∀ name, name ∈ fieldNames items ↔ name ∈ identityFields
  format : getItem items (lit "format") = (.ok (.str identityFormat) : Except PyError Value)
  name : getItem items (lit "name") = (.ok (.str n) : Except PyError Value)
  signing_item : getItem items (lit "ed25519_private_key") =
    (.ok (.str signing) : Except PyError Value)
  exchange_item : getItem items (lit "x25519_private_key") =
    (.ok (.str exchange) : Except PyError Value)
  signing_text : IsKeyText signing
  exchange_text : IsKeyText exchange

/-- What is documented of the private keys' bytes. -/
structure KeyBytes : Prop where
  /-- `from_private_bytes` accepts 32 bytes. -/
  toSigning_ok : ∀ data, data.length = privateKeyBytes →
    ∃ key, PrivateBytes.toSigning data = .ok key
  toExchange_ok : ∀ data, data.length = privateKeyBytes →
    ∃ key, PrivateBytes.toExchange data = .ok key
  /-- `from_private_bytes` inverts `private_bytes`. -/
  toSigning_signing : ∀ key, PrivateBytes.toSigning (PrivateBytes.signing key) = .ok key
  toExchange_exchange : ∀ key, PrivateBytes.toExchange (PrivateBytes.exchange key) = .ok key

def IsIdentityError (e : PyError) : Prop := ∃ message, e = identityError message

omit [Interpreter] [Crypto] [PrivateBytes] in
theorem isIdentityError (message : Str) : IsIdentityError (identityError message) := ⟨message, rfl⟩

omit [Interpreter] [Crypto] [PrivateBytes] in
theorem isText_iff {text : Str} {value : Value} : isText text value = true ↔ value = .str text := by
  unfold isText
  cases value <;> simp

omit [Interpreter] [Crypto] [PrivateBytes] in
theorem fromhex_of_keyText {text : Str} (h : IsKeyText text) :
    ∃ data, fromhex text = some data ∧ data.length = privateKeyBytes :=
  fromhex_lower (by have := h.1; omega) fun c hc => List.all_eq_true.mp h.2 c hc

omit [Interpreter] [Crypto] [PrivateBytes] in
/-- The text of a key is decoded to the bytes of a key, and everything else is rejected. -/
theorem decodePrivateKey_ensures (fieldName : String) (value : Value) :
    Ensures (fun data => data.length = privateKeyBytes ∧
      ∃ text, value = .str text ∧ IsKeyText text ∧ fromhex text = some data)
      IsIdentityError (decodePrivateKey fieldName value) := by
  cases value with
  | str text =>
    unfold decodePrivateKey
    refine (Ensures.raiseIf fun _ => isIdentityError _).bind fun _ hlen =>
      (Ensures.raiseIf fun _ => isIdentityError _).bind fun _ hhex => ?_
    have hlen : text.length = privateKeyBytes * 2 := not_not.mp hlen
    have hhex : text.all isLowerHex = true := Bool.not_eq_false _ ▸ hhex
    obtain ⟨data, hdata, hsize⟩ := fromhex_of_keyText ⟨hlen, hhex⟩
    rw [hdata]
    exact ⟨hsize, text, rfl, ⟨hlen, hhex⟩, hdata⟩
  | _ => exact isIdentityError _

omit [Interpreter] [Crypto] [PrivateBytes] in
theorem decodePrivateKey_ok {fieldName : String} {text : Str} {data : Bytes}
    (h : IsKeyText text) (hdata : fromhex text = some data) :
    decodePrivateKey fieldName (.str text) = .ok data := by
  unfold decodePrivateKey
  simp only
  rw [raiseIf_neg (not_not.mpr h.1), ok_bind, raiseIf_neg (by simp [h.2]), ok_bind, hdata]
  rfl

omit [Crypto] [PrivateBytes] in
theorem new_ok [Crypto] (h : ValidName n ∧ hasPathComponents n = false)
    (signing : Crypto.SigningKey) (exchange : Crypto.ExchangeKey) :
    new (.str n) signing exchange = .ok ⟨n, signing, exchange, h⟩ := by
  have hname : validateIdentityName (.str n) = .ok n := validateIdentityName_ok.mpr ⟨rfl, h⟩
  exact attach_bind_eq_ok.mpr ⟨n, hname, rfl⟩

/-- **What is loaded comes from exactly a payload, and everything else is rejected.** -/
theorem ofPayload_ensures (hkeys : KeyBytes) (hname : ValidName n ∧ hasPathComponents n = false)
    (items : List (Key × Value)) :
    Ensures (fun self => self.name = n ∧ ∃ signing exchange, IsPayload n items signing exchange)
      IsIdentityError (ofPayload n (.dict items)) := by
  unfold ofPayload
  refine (Ensures.raiseIf fun _ => isIdentityError _).bind fun _ hschema => ?_
  rw [not_or, not_not, not_not, missingFields_eq_nil, unexpectedFields_eq_nil] at hschema
  obtain ⟨hmissing, hunexpected⟩ := hschema
  have hitem : ∀ name ∈ identityFields, ∃ v, getItem items name = (.ok v : Except PyError Value) :=
    fun name h => (getItem_isOk (hmissing name h)).imp fun _ h => h.1
  obtain ⟨format, hformat⟩ := hitem (lit "format") (by decide)
  obtain ⟨name, hitemName⟩ := hitem (lit "name") (by decide)
  obtain ⟨signing, hsigning⟩ := hitem (lit "ed25519_private_key") (by decide)
  obtain ⟨exchange, hexchange⟩ := hitem (lit "x25519_private_key") (by decide)
  rw [hformat, ok_bind]
  refine (Ensures.raiseIf fun _ => isIdentityError _).bind fun _ hisFormat => ?_
  rw [hitemName, ok_bind]
  refine (Ensures.raiseIf fun _ => isIdentityError _).bind fun _ hisName => ?_
  rw [hsigning, ok_bind]
  refine (decodePrivateKey_ensures _ signing).bind fun data hdata => ?_
  obtain ⟨hsize, signingText, rfl, hsigningText, -⟩ := hdata
  rw [hexchange, ok_bind]
  refine (decodePrivateKey_ensures _ exchange).bind fun data' hdata' => ?_
  obtain ⟨hsize', exchangeText, rfl, hexchangeText, -⟩ := hdata'
  obtain ⟨signingKey, hsigningKey⟩ := hkeys.toSigning_ok data hsize
  obtain ⟨exchangeKey, hexchangeKey⟩ := hkeys.toExchange_ok data' hsize'
  rw [hsigningKey, ok_bind, hexchangeKey, ok_bind, new_ok hname]
  rw [Bool.not_eq_false, isText_iff] at hisFormat hisName
  rw [hisFormat] at hformat
  rw [hisName] at hitemName
  exact ⟨rfl, signingText, exchangeText, fun name => ⟨hunexpected name, hmissing name⟩, hformat,
    hitemName, hsigning, hexchange, hsigningText, hexchangeText⟩

/-- A payload is loaded as the identity it says. -/
theorem ofPayload_ok (hname : ValidName n ∧ hasPathComponents n = false)
    {items : List (Key × Value)} {signing exchange : Str} (h : IsPayload n items signing exchange)
    {signingRaw exchangeRaw : Bytes} (hsigning : fromhex signing = some signingRaw)
    (hexchange : fromhex exchange = some exchangeRaw) {signingKey : Crypto.SigningKey}
    {exchangeKey : Crypto.ExchangeKey}
    (hsigningKey : PrivateBytes.toSigning signingRaw = .ok signingKey)
    (hexchangeKey : PrivateBytes.toExchange exchangeRaw = .ok exchangeKey) :
    ofPayload n (.dict items) = .ok ⟨n, signingKey, exchangeKey, hname⟩ := by
  unfold ofPayload
  simp only
  rw [missingFields_eq_nil.mpr fun name hn => (h.fields name).mpr hn,
    unexpectedFields_eq_nil.mpr fun name hn => (h.fields name).mp hn, raiseIf_neg (by simp), ok_bind,
    h.format, ok_bind, raiseIf_neg (by simp [isText]), ok_bind,
    h.name, ok_bind, raiseIf_neg (by simp [isText]), ok_bind, h.signing_item, ok_bind,
    decodePrivateKey_ok h.signing_text hsigning, ok_bind, h.exchange_item, ok_bind,
    decodePrivateKey_ok h.exchange_text hexchange, ok_bind, hsigningKey, ok_bind, hexchangeKey,
    ok_bind, new_ok hname]

/-- The items that a save stores are a payload. -/
theorem isPayload_sorted (self : Identity) :
    IsPayload self.name (sortByKey self.payloadItems)
      (hex (PrivateBytes.signing self.signingPrivateKey))
      (hex (PrivateBytes.exchange self.exchangePrivateKey)) where
  fields name := by
    rw [fieldNames_sortByKey]
    show name ∈ [lit "format", lit "name", lit "ed25519_private_key",
      lit "x25519_private_key"] ↔ _
    exact (List.Perm.mem_iff (by decide))
  format := getItem_sorted self.payloadItems_distinct (by simp [payloadItems, key])
  name := getItem_sorted self.payloadItems_distinct (by simp [payloadItems, key])
  signing_item := getItem_sorted self.payloadItems_distinct (by simp [payloadItems, key])
  exchange_item := getItem_sorted self.payloadItems_distinct (by simp [payloadItems, key])
  signing_text := ⟨by rw [hex_length, PrivateBytes.signing_length]; rfl,
    List.all_eq_true.mpr (hex_lower _)⟩
  exchange_text := ⟨by rw [hex_length, PrivateBytes.exchange_length]; rfl,
    List.all_eq_true.mpr (hex_lower _)⟩

/-- **A stored payload is loaded as the identity that was saved.** -/
theorem ofPayload_sorted (hkeys : KeyBytes) (self : Identity) :
    ofPayload self.name (.dict (sortByKey self.payloadItems)) = .ok self :=
  ofPayload_ok self.name_valid self.isPayload_sorted (fromhex_hex _) (fromhex_hex _)
    (hkeys.toSigning_signing _) (hkeys.toExchange_exchange _)

end Schema

end Identity

end CypherSyntax
