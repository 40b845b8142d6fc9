import CypherSyntax.Crypto
import CypherSyntax.Python.Json.RoundTrip

/-!
# A runtime and a cryptography

Concrete instances of the two parameters, on which runs can be computed: an interpreter whose
printable characters are those of ASCII, and a cryptography of polynomial digests. Its AEADs seal
every plaintext, the empty one included. The samples of the other modules open `Samples` and run on
this pair; no result is about it.

Results:
* `agree_comm`, `opened_sealed`: key agreement commutes, and the AEAD opens what it has sealed.
-/

namespace CypherSyntax

open Python Json

/-! ## The interpreter -/

/-- A float prints as the number its bits encode, with a fraction. -/
def bitsText (bits : BitVec 64) : Str := natText bits.toNat ++ [0x2E, 0x30]

theorem bitsText_form (bits : BitVec 64) : FloatForm (bitsText bits) :=
  ⟨natText bits.toNat, [0x2E, 0x30], [], by simp [bitsText], intText_form (Int.ofNat bits.toNat),
    Or.inr ⟨0x30, [], rfl, rfl, fun _ h => absurd h List.not_mem_nil⟩, Or.inl rfl,
    Or.inl (List.cons_ne_nil _ _)⟩

theorem decimalValue_bitsText (bits : BitVec 64) :
    BitVec.ofNat 64 (decimalValue ((bitsText bits).takeWhile isDigit)) = bits := by
  have htake : (bitsText bits).takeWhile isDigit = natText bits.toNat :=
    (List.takeWhile_append_of_pos (natText_digits bits.toNat)).trans (by simp [isDigit])
  rw [htake, decimalValue_natText, BitVec.ofNat_toNat, BitVec.setWidth_eq]

@[reducible] def asciiInterpreter : Interpreter where
  printable c := decide (0x20 ≤ c.val ∧ c.val < 0x7F)
  printable_ascii _ _ := rfl
  digitsAllowed n := decide (n ≤ 4300)
  digitsAllowed_640 n h := by simp; omega
  recursionLimit := 1000
  recursionLimit_pos := by decide
  floatRepr := bitsText
  floatOfText s := BitVec.ofNat 64 (decimalValue (s.takeWhile isDigit))
  floatRepr_form bits _ := bitsText_form bits
  floatOfText_repr bits _ := decimalValue_bitsText bits

/-! ## The cryptography -/

/-- A byte string as a polynomial, evaluated at 257. -/
def evaluate (data : Bytes) : Nat := data.foldl (fun n b => n * 257 + b.toNat + 1) 0

def digest (length : Nat) (data : Bytes) : Bytes :=
  beBytes length (evaluate data % 256 ^ length)

theorem digest_length (length : Nat) (data : Bytes) : (digest length data).length = length :=
  beBytes_length _ _

/-- The tag of a ciphertext. -/
def tagOf (aead : Aead) (key nonce data associatedData : Bytes) : Bytes :=
  digest aeadTagBytes ((if aead = .aesGcmSiv then 0 else 1) :: key ++ nonce ++ associatedData ++ data)

/-- The sum of two keys. -/
def agree (key publicKey : Bytes) : Except PyError Bytes :=
  if publicKey.length = 32 then .ok (beBytes 32 (evaluate key + evaluate publicKey))
  else .error (valueError "An X25519 public key is 32 bytes long")

theorem agree_length {key publicKey shared : Bytes} (h : agree key publicKey = .ok shared) :
    shared.length = 32 := by
  unfold agree at h
  by_cases hlen : publicKey.length = 32
  · rw [if_pos hlen] at h
    rw [← Except.ok.inj h, beBytes_length]
  · rw [if_neg hlen] at h
    cases h

/-- The plaintext and a tag. -/
def sealed (aead : Aead) (key nonce data associatedData : Bytes) : Except PyError Bytes :=
  .ok (data ++ tagOf aead key nonce data associatedData)

def opened (aead : Aead) (key nonce data associatedData : Bytes) : Except PyError Bytes :=
  let plaintext := data.take (data.length - aeadTagBytes)
  if data = plaintext ++ tagOf aead key nonce plaintext associatedData then .ok plaintext
  else .error (.user .invalidTag [])

theorem sealed_ok {aead : Aead} {key nonce data associatedData ciphertext : Bytes} :
    sealed aead key nonce data associatedData = .ok ciphertext ↔
      data ++ tagOf aead key nonce data associatedData = ciphertext := by
  rw [sealed, Except.ok.injEq]

theorem keyBytes_length (key : FixedBytes 32) : key.val.length = 32 := key.property

@[reducible] def digests : Crypto where
  SigningKey := FixedBytes 32
  ExchangeKey := FixedBytes 32
  signingPublic key := key.val
  signingPublic_length := keyBytes_length
  sign key data := digest 64 (key.val ++ data)
  sign_length _ _ := digest_length _ _
  verify publicKey signature data := signature == digest 64 (publicKey ++ data)
  exchangePublic key := key.val
  exchangePublic_length := keyBytes_length
  exchange key publicKey := agree key.val publicKey
  exchange_length _ _ _ h := agree_length h
  sha256 := digest 32
  sha256_length _ := digest_length _ _
  hmacSha256 key message := digest 32 (key ++ message)
  hmacSha256_length _ _ := digest_length _ _
  hkdf input := digest input.length (input.secret ++ input.salt.getD [] ++ input.info)
  hkdf_length _ _ := digest_length _ _
  scrypt passphrase salt := digest 32 (passphrase ++ salt)
  encrypt := sealed
  encrypt_length _ _ _ _ _ _ h := by
    rw [← sealed_ok.mp h, List.length_append, tagOf, digest_length]
  decrypt := opened

theorem agree_comm {a b : Bytes} (ha : a.length = 32) (hb : b.length = 32) :
    agree a b = agree b a := by
  unfold agree
  rw [if_pos ha, if_pos hb, Nat.add_comm]

theorem opened_sealed {aead : Aead} {key nonce data associatedData ciphertext : Bytes}
    (h : sealed aead key nonce data associatedData = .ok ciphertext) :
    opened aead key nonce ciphertext associatedData = .ok data := by
  obtain rfl := sealed_ok.mp h
  have htake : (data ++ tagOf aead key nonce data associatedData).take
      ((data ++ tagOf aead key nonce data associatedData).length - aeadTagBytes) = data := by
    rw [List.length_append, tagOf, digest_length, Nat.add_sub_cancel, List.take_left]
  unfold opened
  rw [htake]
  exact if_pos rfl

/-- What opens is a plaintext and its tag. -/
theorem opened_ok {aead : Aead} {key nonce data associatedData plaintext : Bytes}
    (h : opened aead key nonce data associatedData = .ok plaintext) :
    data = plaintext ++ tagOf aead key nonce plaintext associatedData := by
  unfold opened at h
  by_cases hdata : data = data.take (data.length - aeadTagBytes) ++
      tagOf aead key nonce (data.take (data.length - aeadTagBytes)) associatedData
  · rw [if_pos hdata] at h
    rwa [Except.ok.inj h] at hdata
  · rw [if_neg hdata] at h
    cases h

theorem opened_error {aead : Aead} {key nonce data associatedData : Bytes} {e : PyError}
    (h : opened aead key nonce data associatedData = .error e) : e = .user .invalidTag [] := by
  unfold opened at h
  by_cases hdata : data = data.take (data.length - aeadTagBytes) ++
      tagOf aead key nonce (data.take (data.length - aeadTagBytes)) associatedData
  · rw [if_pos hdata] at h
    cases h
  · rw [if_neg hdata] at h
    exact (Except.error.inj h).symm

/-! ## The pair that the samples run on -/

namespace Samples

scoped instance interpreter : Interpreter := asciiInterpreter

scoped instance crypto : Crypto := digests

end Samples

end CypherSyntax
