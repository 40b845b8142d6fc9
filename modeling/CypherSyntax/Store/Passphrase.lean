import CypherSyntax.Python.Json.KeyOrder
import CypherSyntax.Store.Exactness

/-!
# Which passphrases open a store

`validate_passphrase` of `persistence.py` admits any 16 to 1024 bytes, and `_derive_key` of
`store.py` gives them to `Scrypt` as they are. `Scrypt` uses its passphrase as the key of
HMAC-SHA256 only, which pads a key of at most 64 bytes with zero bytes and replaces a longer one by
its digest. A passphrase and the same passphrase with a zero byte appended derive one key.

* Premises, named where they are used: `ScryptUsesBlock` is what RFC 7914 says of the passphrase,
  blocks that differ derive different keys, and a file opens only under the key it was sealed with.
* A dictionary may be saved that no passphrase loads back, the one it was saved with included. The
  condition for that is on the dictionary: the texts of the keys of a nested dictionary are not in
  the order of the keys (`keysOrdered`), or it is nested deeper than `json.loads` reads.

Results:
* `decodes_iff`: which encoded dictionaries are decoded.
* `load_other_iff`: a passphrase fails to open a store exactly when its HMAC key block is not that
  of the passphrase the store was saved with, or the dictionary is one that cannot be loaded back.
* `load_other_zero_byte`: two passphrases that open each other's stores.
-/

namespace CypherSyntax

open Python Json

/-- The block of an HMAC key: a key of more than 64 bytes is replaced by its digest, and then
padded with zero bytes. -/
def hmacBlock (sha256 : Bytes → Bytes) (key : Bytes) : Bytes :=
  let key := if 64 < key.length then sha256 key else key
  key ++ List.replicate (64 - key.length) 0

/-- **A trailing zero byte does not change a short key's block.** -/
theorem hmacBlock_concat (sha256 : Bytes → Bytes) {key : Bytes} (h : key.length < 64) :
    hmacBlock sha256 (key ++ [0]) = hmacBlock sha256 key := by
  have hlen : (key ++ [0]).length = key.length + 1 := List.length_append
  have hpad : 64 - key.length = 64 - (key.length + 1) + 1 := by omega
  unfold hmacBlock
  simp only
  rw [if_neg (by omega), if_neg (by omega), hlen, hpad, List.replicate_succ, List.append_assoc,
    List.singleton_append]

namespace EncryptedStore

section Iff

variable [Interpreter] [Crypto]

/-- What `Scrypt` does with its passphrase in RFC 7914: it is the key of HMAC-SHA256. -/
def ScryptUsesBlock : Prop :=
  ∃ derive : Bytes → Bytes → Bytes, ∀ passphrase salt,
    Crypto.scrypt passphrase salt = derive (hmacBlock Crypto.sha256 passphrase) salt

omit [Crypto] in
/-- **Which encoded dictionaries are decoded**: what is read from the text has to have that text. -/
theorem decodes_iff {obj : Value} {plaintext : Bytes} (h : encodeObject obj = .ok plaintext) :
    (∃ v, decodeObject plaintext = .ok v) ↔
      keysOrdered obj = true ∧ obj.depth ≤ Interpreter.recursionLimit := by
  obtain ⟨items, text, rfl, -, htext, hencode, hlen⟩ := encodeObject_ok.mp h
  constructor
  · rintro ⟨v, hv⟩
    obtain ⟨hbuilt, hencoded⟩ := decodeObject_ok hv
    obtain ⟨-, text', -, -, htext', hencode', -⟩ := encodeObject_ok.mp hencoded
    obtain rfl := encodeUtf8_inj hencode hencode'
    exact (rereads_iff htext).mp ⟨v, hbuilt, htext'⟩
  · rintro ⟨hordered, hdepth⟩
    have hbuilt := built_reread hordered hdepth
    have htext' := dumps_reread _ hordered htext
    rw [reread_dict] at hbuilt htext'
    have hencoded := encodeObject_ok.mpr ⟨_, text, rfl, fun item hitem => ?_, htext', hencode, hlen⟩
    · exact ⟨_, decodeObject_encodeObject hbuilt.plain hbuilt.wf hbuilt.depth_le hencoded⟩
    · obtain ⟨p, -, rfl⟩ := List.mem_map.mp hitem
      rfl

variable {self other : EncryptedStore} {os os' : Os} {obj : Value}
  {salt : FixedBytes storeSaltBytes} {nonce : FixedBytes storeNonceBytes} {previous : Option Bytes}
  {t : Frame Target Call}

/-- What a save that returns has sealed, logged and written. -/
theorem save_sealed (h : (self.save os obj salt nonce).run ⟨Target.of previous, []⟩ = (.ok (), t)) :
    ∃ plaintext ciphertext, encodeObject obj = .ok plaintext ∧
      Crypto.encrypt .aesGcmSiv (Crypto.scrypt self.passphrase salt) nonce plaintext
        storeAssociatedData = .ok ciphertext ∧
      t.self.destination = some (blobOf salt nonce ciphertext) ∧
      t.log = [.encrypted ⟨.aesGcmSiv, Crypto.scrypt self.passphrase salt, nonce, plaintext,
        storeAssociatedData, some ciphertext⟩] := by
  obtain ⟨plaintext, ciphertext, hencode, hseal, hfile⟩ := save_ok h
  refine ⟨plaintext, ciphertext, hencode, hseal, hfile, ?_⟩
  have hlog := self.save_log os obj salt nonce ⟨Target.of previous, []⟩
  rw [h] at hlog
  rw [show t.log = _ from hlog, sealingCalls, hencode]
  simp only [hseal, List.nil_append]
  rfl

/-- A file opens only under the key it was sealed with. -/
theorem scrypt_of_load {v : Value}
    (hsave : (self.save os obj salt nonce).run ⟨Target.of previous, []⟩ = (.ok (), t))
    (hread : os'.raises .read = false)
    (hauthentic : Authentic ((other.load os').run t).2.log)
    (hload : ((other.load os').run t).1 = .ok v) :
    Crypto.scrypt other.passphrase salt = Crypto.scrypt self.passphrase salt := by
  obtain ⟨plaintext, ciphertext, -, -, hfile, hlog⟩ := save_sealed hsave
  rw [load_run hread hfile] at hauthentic hload
  obtain ⟨u, hcheck, hkeyed⟩ := bind_eq_ok.mp hload
  rw [deriveKey_of_checkBlob hcheck, ok_bind] at hkeyed
  obtain ⟨opened, hopen, -⟩ := bind_eq_ok.mp hkeyed
  rw [hlog, if_pos hcheck] at hauthentic
  have hsealed := hauthentic _ opened
    (List.mem_append_right _ (List.mem_singleton.mpr rfl))
    (toOption_eq_some.mpr (convert_ok.mp hopen))
  have hsalt : saltOf (blobOf salt nonce ciphertext) = salt.val :=
    (blobOf_parts salt nonce ciphertext).1
  rcases List.mem_append.mp hsealed with hsealed | hsealed
  swap
  · cases List.mem_singleton.mp hsealed
  have hcall := List.mem_singleton.mp hsealed
  injection hcall with hcall
  injection hcall with _ hkey
  rw [← hsalt]
  exact hkey.trans (by rw [hsalt])

/-- **Which passphrases fail to open a store**: those with another HMAC key block, and all of them
if the dictionary is one that cannot be loaded back. -/
theorem load_other_iff (hcrypto : StoreCrypto) (hopens : OpensSealed) (hblock : ScryptUsesBlock)
    (hread : os'.raises .read = false)
    (hsave : (self.save os obj salt nonce).run ⟨Target.of previous, []⟩ = (.ok (), t))
    (hfree : hmacBlock Crypto.sha256 self.passphrase ≠ hmacBlock Crypto.sha256 other.passphrase →
      Crypto.scrypt self.passphrase salt ≠ Crypto.scrypt other.passphrase salt)
    (hauthentic : Authentic ((other.load os').run t).2.log) :
    (∃ message, ((other.load os').run t).1 = .error (storeError message)) ↔
      hmacBlock Crypto.sha256 self.passphrase ≠ hmacBlock Crypto.sha256 other.passphrase ∨
        keysOrdered obj = false ∨ Interpreter.recursionLimit < obj.depth := by
  obtain ⟨plaintext, ciphertext, hencode, hseal, hfile, -⟩ := save_sealed hsave
  obtain ⟨-, -, -, -, -, -, hmax⟩ := encodeObject_ok.mp hencode
  have hlen := Crypto.encrypt_length _ _ _ _ _ _ hseal
  have htag : storeTagBytes = aeadTagBytes := rfl
  have hrun : ((other.load os').run t).1 = other.openBlob (blobOf salt nonce ciphertext) := by
    rw [load_run hread hfile]
  have hdecodes : (keysOrdered obj = false ∨ Interpreter.recursionLimit < obj.depth) ↔
      ¬ ∃ v, decodeObject plaintext = .ok v := by
    rw [decodes_iff hencode, not_and_or, Bool.not_eq_true, not_le]
  rw [hdecodes]
  constructor
  · rintro ⟨message, hraise⟩
    by_contra hcond
    rw [not_or, not_not, not_not] at hcond
    obtain ⟨hsame, v, hdecode⟩ := hcond
    -- one block, one key: the file opens to what was sealed
    obtain ⟨derive, hderive⟩ := hblock
    have hkey : Crypto.scrypt other.passphrase salt = Crypto.scrypt self.passphrase salt := by
      rw [hderive, hderive, hsame]
    have hopen := hopens _ _ _ _ _ _ hseal
    rw [← hkey] at hopen
    rw [hrun, openBlob_blobOf (by omega) (by omega) hopen hmax, hdecode] at hraise
    cases hraise
  · intro hcond
    rw [hrun]
    cases hresult : other.openBlob (blobOf salt nonce ciphertext) with
    | error e =>
      obtain ⟨message, rfl⟩ := (openBlob_ensures hcrypto).of_error hresult
      exact ⟨message, rfl⟩
    | ok v =>
      have hkey := scrypt_of_load hsave hread hauthentic (hrun.trans hresult)
      rcases hcond with hdiffer | hdecode
      · exact absurd hkey.symm (hfree hdiffer)
      · have hopen := hopens _ _ _ _ _ _ hseal
        rw [← hkey] at hopen
        rw [openBlob_blobOf (by omega) (by omega) hopen hmax] at hresult
        exact absurd ⟨v, hresult⟩ hdecode

end Iff

/-! ## A passphrase and a zero byte -/

/-- The digests, with a `Scrypt` that uses the block of its passphrase only. -/
@[reducible] def blockDigests : Crypto :=
  { digests with
    scrypt := fun passphrase salt => digest 32 (hmacBlock (digest 32) passphrase ++ salt) }

/-- The passphrase of the sample store, and a zero byte. -/
def zeroByteStore : EncryptedStore := ⟨List.replicate 16 0x70 ++ [0], by decide, by decide⟩

/-- Another passphrase of 16 bytes. -/
def otherStore : EncryptedStore := ⟨List.replicate 16 0x71, by decide, by decide⟩

section Samples

open scoped Samples

local instance blockCrypto : Crypto := blockDigests

theorem storeCrypto_blockDigests : StoreCrypto where
  scrypt_length _ _ := digest_length _ _
  opened_length _ _ _ _ _ h := by
    rw [opened_ok h, List.length_append, tagOf, digest_length]
  invalidTag _ _ _ _ _ _ _ _ h := by
    rw [opened_error h]
    rfl

theorem scryptUsesBlock_blockDigests : ScryptUsesBlock :=
  ⟨fun block salt => digest 32 (block ++ salt), fun _ _ => rfl⟩

/-- The frame after a save. -/
def savedFrame (obj : Value) : Frame Target Call :=
  ((sampleStore.save (posixOs []) obj sampleSalt sampleNonce).run ⟨Target.of none, []⟩).2

theorem save_savedFrame {obj : Value} (h : ((sampleStore.save (posixOs []) obj sampleSalt
    sampleNonce).run ⟨Target.of none, []⟩).1 = .ok ()) :
    (sampleStore.save (posixOs []) obj sampleSalt sampleNonce).run ⟨Target.of none, []⟩ =
      (.ok (), savedFrame obj) :=
  Prod.ext h rfl

theorem run_saves : ((sampleStore.save (posixOs []) samplePayload sampleSalt sampleNonce).run
      ⟨Target.of none, []⟩).1 = .ok () ∧
    ((sampleStore.save (posixOs []) nestedKeys sampleSalt sampleNonce).run
      ⟨Target.of none, []⟩).1 = .ok () := by
  decide +kernel

theorem run_loads :
    Authentic ((otherStore.load (posixOs [])).run (savedFrame samplePayload)).2.log ∧
    Authentic ((zeroByteStore.load (posixOs [])).run (savedFrame samplePayload)).2.log ∧
    Authentic ((zeroByteStore.load (posixOs [])).run (savedFrame nestedKeys)).2.log := by
  decide +kernel

theorem run_blocks : hmacBlock Crypto.sha256 sampleStore.passphrase ≠
      hmacBlock Crypto.sha256 otherStore.passphrase ∧
    Crypto.scrypt sampleStore.passphrase sampleSalt ≠
      Crypto.scrypt otherStore.passphrase sampleSalt ∧
    hmacBlock Crypto.sha256 sampleStore.passphrase =
      hmacBlock Crypto.sha256 zeroByteStore.passphrase := by
  decide +kernel

/-- A passphrase with another block does not open the store. The one with a zero byte more opens
it, and raises only for a dictionary whose keys are out of order. -/
theorem load_other_iff_other :
    (∃ message, ((otherStore.load (posixOs [])).run (savedFrame samplePayload)).1 =
      .error (storeError message)) ∧
    (¬ ∃ message, ((zeroByteStore.load (posixOs [])).run (savedFrame samplePayload)).1 =
      .error (storeError message)) ∧
    ∃ message, ((zeroByteStore.load (posixOs [])).run (savedFrame nestedKeys)).1 =
      .error (storeError message) := by
  have hopens : OpensSealed := fun _ _ _ _ _ _ h => opened_sealed h
  have hread : (posixOs []).raises .read = false := rfl
  have hdepth : ¬ Interpreter.recursionLimit < samplePayload.depth := by decide +kernel
  have hordered : keysOrdered samplePayload = true := by decide +kernel
  have hunordered : keysOrdered nestedKeys = false := by decide +kernel
  have hsave := save_savedFrame run_saves.1
  have hsave' := save_savedFrame run_saves.2
  obtain ⟨hdiffer, hkeys, hsame⟩ := run_blocks
  obtain ⟨hother, hzero, hzero'⟩ := run_loads
  generalize savedFrame samplePayload = saved at hsave hother hzero ⊢
  generalize savedFrame nestedKeys = saved' at hsave' hzero' ⊢
  refine ⟨?_, ?_, ?_⟩
  · exact (load_other_iff storeCrypto_blockDigests hopens scryptUsesBlock_blockDigests hread hsave
      (fun _ => hkeys) hother).mpr (Or.inl hdiffer)
  · rw [load_other_iff storeCrypto_blockDigests hopens scryptUsesBlock_blockDigests hread hsave
      (fun h => absurd hsame h) hzero]
    rintro (h | h | h)
    · exact h hsame
    · rw [hordered] at h
      cases h
    · exact hdepth h
  · exact (load_other_iff storeCrypto_blockDigests hopens scryptUsesBlock_blockDigests hread hsave'
      (fun h => absurd hsame h) hzero').mpr (Or.inr (Or.inl hunordered))

/-- **A passphrase that is not the one of the store and opens it.** -/
theorem load_other_zero_byte : sampleStore.passphrase ≠ zeroByteStore.passphrase ∧ ScryptUsesBlock ∧
    ∃ t, (sampleStore.save (posixOs []) samplePayload sampleSalt sampleNonce).run
      ⟨Target.of none, []⟩ = (.ok (), t) ∧
    ∃ v u, (zeroByteStore.load (posixOs [])).run t = (.ok v, u) ∧ samplePayload.same v = true := by
  have hpassphrase : sampleStore.passphrase ≠ zeroByteStore.passphrase := by decide
  have hencode : encodeObject samplePayload =
      .ok (ascii "\x7b\"counter\":7,\"enabled\":true,\"node\":\"alpha\"\x7d") := by
    decide +kernel
  have hwf : samplePayload.WF := ⟨by decide +kernel, trivial, trivial, trivial, trivial⟩
  have hplain : samplePayload.plain = true := by decide
  have hkey : Crypto.scrypt zeroByteStore.passphrase sampleSalt =
      Crypto.scrypt sampleStore.passphrase sampleSalt := by
    show digest 32 (hmacBlock _ (List.replicate 16 0x70 ++ [0]) ++ _) = _
    rw [hmacBlock_concat _ (by decide)]
    rfl
  obtain ⟨t, hsave⟩ := sampleStore.save_returns (posixOs []) posixOs_quiet hencode
    (sealed_ok.mpr rfl) ⟨Target.of none, []⟩
  obtain ⟨plaintext, ciphertext, hencoded, hseal, hfile⟩ := save_ok hsave
  obtain rfl := Except.ok.inj (hencode.symm.trans hencoded)
  have hopen := opened_sealed hseal
  rw [← hkey] at hopen
  obtain ⟨u, hload⟩ := zeroByteStore.load_blobOf (posixOs []) rfl hfile hopen
    (Crypto.encrypt_length _ _ _ _ _ _ hseal) (by decide)
  rw [decodeObject_encodeObject hplain hwf (by decide) hencode] at hload
  exact ⟨hpassphrase, scryptUsesBlock_blockDigests, t, hsave, samplePayload.sorted, u, hload,
    same_sorted samplePayload hwf⟩

end Samples

end EncryptedStore

end CypherSyntax
