import CypherSyntax.Protocol

/-!
# The cryptography package

What the program calls of the cryptography package, of `hashlib` and of `hmac`, is the parameter
`Crypto`. Its fields say how long results are; that signatures verify, that key exchanges agree
and that an AEAD opens what it has sealed are assumptions of the theorems that need them.

Each call is appended to the log of the method that makes it, so that what no function can do, such
as being free of collisions on all inputs, is assumed of the calls of a run.

Results:
* `HkdfCollisionFree`, `HmacCollisionFree`, `Unforged`, `Authentic`, `OpensUnderSealingKey`,
  `FreshKeys`: the assumptions on the calls of a run.
* `HashCollisionFree`: the assumption on what is hashed.
-/

namespace CypherSyntax

open Python

/-! ## The functions -/

/-- A byte string of a given length. -/
abbrev FixedBytes (n : Nat) := { b : Bytes // b.length = n }

/-- The AEAD classes. -/
inductive Aead where
  | aesGcmSiv | chacha20Poly1305
  deriving DecidableEq

/-- The arguments of `HKDF(algorithm=SHA256(), ...).derive(secret)`. -/
structure HkdfInput where
  secret : Bytes
  length : Nat
  salt : Option Bytes
  info : Bytes
  deriving DecidableEq

class Crypto where
  /-- `Ed25519PrivateKey` -/
  SigningKey : Type
  /-- `X25519PrivateKey` -/
  ExchangeKey : Type
  signingPublic : SigningKey → Bytes
  signingPublic_length : ∀ key, (signingPublic key).length = 32
  sign : SigningKey → Bytes → Bytes
  sign_length : ∀ key data, (sign key data).length = 64
  /-- Whether `from_public_bytes(public_key).verify(signature, data)` returns. -/
  verify : Bytes → Bytes → Bytes → Bool
  exchangePublic : ExchangeKey → Bytes
  exchangePublic_length : ∀ key, (exchangePublic key).length = 32
  /-- `private_key.exchange(X25519PublicKey.from_public_bytes(public_key))` -/
  exchange : ExchangeKey → Bytes → Except PyError Bytes
  exchange_length : ∀ key publicKey shared, exchange key publicKey = .ok shared →
    shared.length = 32
  sha256 : Bytes → Bytes
  sha256_length : ∀ data, (sha256 data).length = 32
  /-- `hmac.new(key, message, sha256).digest()` -/
  hmacSha256 : Bytes → Bytes → Bytes
  hmacSha256_length : ∀ key message, (hmacSha256 key message).length = 32
  hkdf : HkdfInput → Bytes
  hkdf_length : ∀ input, input.length ≤ 255 * 32 → (hkdf input).length = input.length
  /-- `Scrypt(salt=salt, length=32, n=2**14, r=8, p=1).derive(passphrase)` -/
  scrypt : Bytes → Bytes → Bytes
  /-- `aead(key).encrypt(nonce, data, associated_data)` -/
  encrypt : Aead → Bytes → Bytes → Bytes → Bytes → Except PyError Bytes
  encrypt_length : ∀ aead key nonce data associatedData ciphertext,
    encrypt aead key nonce data associatedData = .ok ciphertext →
    ciphertext.length = data.length + aeadTagBytes
  /-- `aead(key).decrypt(nonce, data, associated_data)` -/
  decrypt : Aead → Bytes → Bytes → Bytes → Bytes → Except PyError Bytes

/-! ## Calls -/

theorem toOption_eq_some {ε α : Type} {x : Except ε α} {a : α} :
    x.toOption = some a ↔ x = .ok a := by
  cases x <;> simp [Except.toOption]

/-- A call of `encrypt` or `decrypt` of an AEAD, and its result unless it raised. -/
structure AeadCall where
  aead : Aead
  key : Bytes
  nonce : Bytes
  data : Bytes
  associatedData : Bytes
  result : Option Bytes
  deriving DecidableEq

inductive Call where
  /-- An ephemeral key was generated, with this public key. -/
  | generated (publicKey : Bytes)
  | signed (publicKey data : Bytes)
  /-- A verification that succeeded. -/
  | verified (publicKey signature data : Bytes)
  | derived (input : HkdfInput)
  | authenticated (key message : Bytes)
  | encrypted (call : AeadCall)
  | decrypted (call : AeadCall)
  deriving DecidableEq

/-- A call that neither generates a key nor signs nor seals. -/
def Call.Silent : Call → Prop
  | .derived _ | .authenticated _ _ | .verified _ _ _ | .decrypted _ => True
  | .generated _ | .signed _ _ | .encrypted _ => False

section Logged

variable [Crypto] {σ : Type}

/-- `X25519PrivateKey.generate().public_key().public_bytes_raw()` for the key that was drawn. -/
def generate (key : Crypto.ExchangeKey) : Method ErrorClass σ Call Bytes := do
  Method.record (.generated (Crypto.exchangePublic key))
  return Crypto.exchangePublic key

def signData (key : Crypto.SigningKey) (data : Bytes) : Method ErrorClass σ Call Bytes := do
  Method.record (.signed (Crypto.signingPublic key) data)
  return Crypto.sign key data

def hkdf (input : HkdfInput) : Method ErrorClass σ Call Bytes := do
  Method.record (.derived input)
  return Crypto.hkdf input

def hmacSha256 (key message : Bytes) : Method ErrorClass σ Call Bytes := do
  Method.record (.authenticated key message)
  return Crypto.hmacSha256 key message

def encrypt (aead : Aead) (key nonce data associatedData : Bytes) :
    Method ErrorClass σ Call Bytes := do
  let result := Crypto.encrypt aead key nonce data associatedData
  Method.record (.encrypted ⟨aead, key, nonce, data, associatedData, result.toOption⟩)
  result

def decrypt (aead : Aead) (key nonce data associatedData : Bytes) :
    Method ErrorClass σ Call Bytes := do
  let result := Crypto.decrypt aead key nonce data associatedData
  Method.record (.decrypted ⟨aead, key, nonce, data, associatedData, result.toOption⟩)
  result

/-! ### What a call returns and logs -/

theorem generate_run (key : Crypto.ExchangeKey) (s : Frame σ Call) : (generate key).run s =
    (.ok (Crypto.exchangePublic key),
      ⟨s.self, s.log ++ [.generated (Crypto.exchangePublic key)]⟩) := rfl

theorem encrypt_run (aead : Aead) (key nonce data associatedData : Bytes) (s : Frame σ Call) :
    (encrypt aead key nonce data associatedData).run s =
      (Crypto.encrypt aead key nonce data associatedData, ⟨s.self, s.log ++ [.encrypted ⟨aead,
        key, nonce, data, associatedData,
        (Crypto.encrypt aead key nonce data associatedData).toOption⟩]⟩) := rfl

theorem decrypt_run (aead : Aead) (key nonce data associatedData : Bytes) (s : Frame σ Call) :
    (decrypt aead key nonce data associatedData).run s =
      (Crypto.decrypt aead key nonce data associatedData, ⟨s.self, s.log ++ [.decrypted ⟨aead,
        key, nonce, data, associatedData,
        (Crypto.decrypt aead key nonce data associatedData).toOption⟩]⟩) := rfl

end Logged

/-! ## Assumptions on the calls of a run -/

section Assumptions

variable [Crypto]

/-- No two HKDF calls of the run collide. -/
def HkdfCollisionFree (log : List Call) : Prop :=
  ∀ i j, .derived i ∈ log → .derived j ∈ log → Crypto.hkdf i = Crypto.hkdf j → i = j

/-- No two HMAC calls of the run collide. -/
def HmacCollisionFree (log : List Call) : Prop :=
  ∀ k m k' m', .authenticated k m ∈ log → .authenticated k' m' ∈ log →
    Crypto.hmacSha256 k m = Crypto.hmacSha256 k' m' → k = k' ∧ m = m'

/-- A signature of the key was verified only for what its holder has signed. -/
def Unforged (publicKey : Bytes) (log : List Call) : Prop :=
  ∀ signature data, .verified publicKey signature data ∈ log → .signed publicKey data ∈ log

/-- The AEAD opened only what it had sealed, to what it was. -/
def Authentic (log : List Call) : Prop :=
  ∀ call plaintext, .decrypted call ∈ log → call.result = some plaintext →
    .encrypted { call with data := plaintext, result := some call.data } ∈ log

def sealedCalls (log : List Call) : List AeadCall :=
  log.filterMap fun
    | .encrypted call => some call
    | _ => none

def openedCalls (log : List Call) : List AeadCall :=
  log.filterMap fun
    | .decrypted call => some call
    | _ => none

/-- The AEAD opened a ciphertext only under the key it was sealed with. -/
def OpensUnderSealingKey (log : List Call) : Prop :=
  ∀ written ∈ sealedCalls log, ∀ read ∈ openedCalls log, written.aead = read.aead →
    written.result = some read.data → read.result ≠ none → read.key = written.key

/-- The AEAD opens what it has sealed. -/
def OpensSealed : Prop :=
  ∀ aead key nonce data associatedData ciphertext,
    Crypto.encrypt aead key nonce data associatedData = .ok ciphertext →
    Crypto.decrypt aead key nonce ciphertext associatedData = .ok data

/-- The public keys that were generated. -/
def generatedKeys (log : List Call) : List Bytes :=
  log.filterMap fun
    | .generated publicKey => some publicKey
    | _ => none

omit [Crypto] in
theorem generatedKeys_append (log calls : List Call) :
    generatedKeys (log ++ calls) = generatedKeys log ++ generatedKeys calls :=
  List.filterMap_append

/-- No public key was generated twice. -/
def FreshKeys (log : List Call) : Prop := (generatedKeys log).Nodup

/-- No two of the messages have one SHA-256 hash. -/
def HashCollisionFree (messages : List Bytes) : Prop :=
  ∀ m ∈ messages, ∀ m' ∈ messages, Crypto.sha256 m = Crypto.sha256 m' → m = m'

/-! ### Checking the assumptions -/

def derivedInputs (log : List Call) : List HkdfInput :=
  log.filterMap fun
    | .derived input => some input
    | _ => none

def authenticatedMessages (log : List Call) : List (Bytes × Bytes) :=
  log.filterMap fun
    | .authenticated key message => some (key, message)
    | _ => none

def verifiedData (log : List Call) : List (Bytes × Bytes) :=
  log.filterMap fun
    | .verified publicKey _ data => some (publicKey, data)
    | _ => none

omit [Crypto] in
theorem mem_derivedInputs {log : List Call} {input : HkdfInput} :
    input ∈ derivedInputs log ↔ .derived input ∈ log := by
  unfold derivedInputs
  rw [List.mem_filterMap]
  constructor
  · rintro ⟨c, hc, h⟩
    cases c <;> cases h
    exact hc
  · intro h
    exact ⟨_, h, rfl⟩

omit [Crypto] in
theorem mem_authenticatedMessages {log : List Call} {key message : Bytes} :
    (key, message) ∈ authenticatedMessages log ↔ .authenticated key message ∈ log := by
  unfold authenticatedMessages
  rw [List.mem_filterMap]
  constructor
  · rintro ⟨c, hc, h⟩
    cases c <;> cases h
    exact hc
  · intro h
    exact ⟨_, h, rfl⟩

omit [Crypto] in
theorem mem_sealedCalls {log : List Call} {call : AeadCall} :
    call ∈ sealedCalls log ↔ .encrypted call ∈ log := by
  unfold sealedCalls
  rw [List.mem_filterMap]
  constructor
  · rintro ⟨c, hc, h⟩
    cases c <;> cases h
    exact hc
  · intro h
    exact ⟨_, h, rfl⟩

omit [Crypto] in
theorem mem_openedCalls {log : List Call} {call : AeadCall} :
    call ∈ openedCalls log ↔ .decrypted call ∈ log := by
  unfold openedCalls
  rw [List.mem_filterMap]
  constructor
  · rintro ⟨c, hc, h⟩
    cases c <;> cases h
    exact hc
  · intro h
    exact ⟨_, h, rfl⟩

omit [Crypto] in
theorem mem_verifiedData {log : List Call} {publicKey data : Bytes} :
    (publicKey, data) ∈ verifiedData log ↔
      ∃ signature, .verified publicKey signature data ∈ log := by
  unfold verifiedData
  rw [List.mem_filterMap]
  constructor
  · rintro ⟨c, hc, h⟩
    cases c <;> cases h
    exact ⟨_, hc⟩
  · rintro ⟨signature, h⟩
    exact ⟨_, h, rfl⟩

instance (log : List Call) : Decidable (HkdfCollisionFree log) :=
  decidable_of_iff (∀ i ∈ derivedInputs log, ∀ j ∈ derivedInputs log,
    Crypto.hkdf i = Crypto.hkdf j → i = j) <| by
    simp only [mem_derivedInputs]
    exact ⟨fun h i j hi hj => h i hi j hj, fun h i hi j hj => h i j hi hj⟩

instance (log : List Call) : Decidable (HmacCollisionFree log) :=
  decidable_of_iff (∀ a ∈ authenticatedMessages log, ∀ b ∈ authenticatedMessages log,
    Crypto.hmacSha256 a.1 a.2 = Crypto.hmacSha256 b.1 b.2 → a = b) <| by
    simp only [Prod.forall, mem_authenticatedMessages, Prod.mk.injEq]
    exact ⟨fun h k m k' m' hk hk' => h k m hk k' m' hk',
      fun h k m hk k' m' hk' => h k m k' m' hk hk'⟩

instance (publicKey : Bytes) (log : List Call) : Decidable (Unforged publicKey log) :=
  decidable_of_iff (∀ a ∈ verifiedData log, a.1 = publicKey → .signed publicKey a.2 ∈ log) <| by
    simp only [Prod.forall, mem_verifiedData]
    constructor
    · intro h signature data hmem
      exact h publicKey data ⟨signature, hmem⟩ rfl
    · rintro h key data ⟨signature, hmem⟩ rfl
      exact h signature data hmem

instance (log : List Call) : Decidable (Authentic log) :=
  decidable_of_iff (∀ call ∈ openedCalls log, ∀ plaintext ∈ call.result,
    .encrypted { call with data := plaintext, result := some call.data } ∈ log) <| by
    simp only [mem_openedCalls, Option.mem_def]
    exact ⟨fun h call plaintext hmem => h call hmem plaintext, fun h call hmem plaintext =>
      h call plaintext hmem⟩

instance (messages : List Bytes) : Decidable (HashCollisionFree messages) :=
  inferInstanceAs (Decidable (∀ m ∈ messages, ∀ m' ∈ messages, _ → _))

instance (log : List Call) : Decidable (OpensUnderSealingKey log) :=
  inferInstanceAs (Decidable (∀ written ∈ sealedCalls log, ∀ read ∈ openedCalls log, _ → _))

instance (log : List Call) : Decidable (FreshKeys log) :=
  inferInstanceAs (Decidable (generatedKeys log).Nodup)

end Assumptions

end CypherSyntax
