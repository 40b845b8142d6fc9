import CypherSyntax.Store
import CypherSyntax.Instances

/-!
# Saving and loading a dictionary

`save` checks that the keys of the outermost dictionary are strings, and no others. The encoder
turns every other key of a nested dictionary into a string and every tuple into an array, so `save`
returns for dictionaries that `load` cannot give back.

Results:
* `load_save_iff_plain`: a saved dictionary is loaded back if and only if it is plain.
* `load_save_nested_keys`: a saved dictionary that cannot be loaded.
-/

namespace CypherSyntax

open Python Json

namespace EncryptedStore

section Iff

variable [Interpreter] [Crypto] {self : EncryptedStore} {os : Os}
  {salt : FixedBytes storeSaltBytes} {nonce : FixedBytes storeNonceBytes}

/-- What is loaded the same as it was saved is plain: the decoder builds nothing else. -/
theorem plain_of_load {obj v : Value} {s t : Frame Target Call}
    (h : (self.load os).run s = (.ok v, t)) (hsame : obj.same v = true) : obj.plain = true :=
  plain_of_same obj hsame (load_ok h)

/-- **A saved dictionary is loaded back if and only if it is plain**: every nested dictionary has
`str` keys only, and there is no tuple. -/
theorem load_save_iff_plain
    (hopen : ∀ key nonce data associatedData ciphertext,
      Crypto.encrypt .aesGcmSiv key nonce data associatedData = .ok ciphertext →
      Crypto.decrypt .aesGcmSiv key nonce ciphertext associatedData = .ok data)
    (hread : os.raises .read = false) {obj : Value} (hwf : obj.WF)
    (hdepth : obj.depth ≤ Interpreter.recursionLimit) {s t : Frame Target Call}
    (hsave : (self.save os obj salt nonce).run s = (.ok (), t)) :
    (∃ v u, (self.load os).run t = (.ok v, u) ∧ obj.same v = true) ↔ obj.plain = true := by
  constructor
  · rintro ⟨v, u, hload, hsame⟩
    exact plain_of_load hload hsame
  · intro hplain
    obtain ⟨plaintext, ciphertext, hencode, hseal, hfile⟩ := save_ok hsave
    obtain ⟨-, -, -, -, -, -, hmax⟩ := encodeObject_ok.mp hencode
    obtain ⟨u, hload⟩ := self.load_blobOf os hread hfile (hopen _ _ _ _ _ hseal)
      (Crypto.encrypt_length _ _ _ _ _ _ hseal) hmax
    rw [decodeObject_encodeObject hplain hwf hdepth hencode] at hload
    exact ⟨obj.sorted, u, hload, same_sorted obj hwf⟩

end Iff

/-! ## Two dictionaries -/

/-- A store with a passphrase of 16 bytes. -/
def sampleStore : EncryptedStore := ⟨List.replicate 16 0x70, by decide, by decide⟩

/-- `{"node": "alpha", "counter": 7, "enabled": True}` -/
def samplePayload : Value :=
  .dict [(.str (lit "node"), .str (lit "alpha")), (.str (lit "counter"), .int 7),
    (.str (lit "enabled"), .bool true)]

/-- `{"a": {10: None, 9: None}}` -/
def nestedKeys : Value :=
  .dict [(.str (lit "a"), .dict [(.int 10, .none), (.int 9, .none)])]

def sampleSalt : FixedBytes storeSaltBytes := ⟨List.replicate 16 0x73, by decide⟩

def sampleNonce : FixedBytes storeNonceBytes := ⟨List.replicate 12 0x6E, by decide⟩

section Samples

open scoped Samples

theorem encodeObject_samplePayload : encodeObject samplePayload =
    .ok (ascii "\x7b\"counter\":7,\"enabled\":true,\"node\":\"alpha\"\x7d") := by
  decide +kernel

theorem encodeObject_nestedKeys : encodeObject nestedKeys =
    .ok (ascii "\x7b\"a\":\x7b\"9\":null,\"10\":null\x7d\x7d") := by
  decide +kernel

/-- A dictionary with `str` keys only comes back. -/
theorem load_save_iff_plain_samplePayload : ∃ t,
    (sampleStore.save (posixOs []) samplePayload sampleSalt sampleNonce).run ⟨Target.of none, []⟩ =
      (.ok (), t) ∧
    ∃ v u, (sampleStore.load (posixOs [])).run t = (.ok v, u) ∧ samplePayload.same v = true := by
  obtain ⟨t, hsave⟩ := sampleStore.save_returns (posixOs []) posixOs_quiet
    encodeObject_samplePayload (sealed_ok.mpr rfl) ⟨Target.of none, []⟩
  have hwf : samplePayload.WF := ⟨by decide +kernel, trivial, trivial, trivial, trivial⟩
  exact ⟨t, hsave, (load_save_iff_plain (fun _ _ _ _ _ h => opened_sealed h) rfl hwf (by decide)
    hsave).mpr (by decide)⟩

/-- **A saved dictionary that cannot be loaded**: `sort_keys` sorts 9 before 10, but once they are
strings it sorts `"10"` before `"9"`, and the file is no longer canonical. -/
theorem load_save_nested_keys : nestedKeys.WF ∧ nestedKeys.depth ≤ Interpreter.recursionLimit ∧
    ∃ t, (sampleStore.save (posixOs []) nestedKeys sampleSalt sampleNonce).run
      ⟨Target.of none, []⟩ = (.ok (), t) ∧
    ∃ u, (sampleStore.load (posixOs [])).run t = (.error (storeError
      (lit "decrypted store payload is not canonically encoded")), u) := by
  obtain ⟨t, hsave⟩ := sampleStore.save_returns (posixOs []) posixOs_quiet
    encodeObject_nestedKeys (sealed_ok.mpr rfl) ⟨Target.of none, []⟩
  have hdecode : decodeObject (ascii "\x7b\"a\":\x7b\"9\":null,\"10\":null\x7d\x7d") =
      .error (storeError (lit "decrypted store payload is not canonically encoded")) :=
    raises_eq_true.mp (by decide +kernel)
  obtain ⟨plaintext, ciphertext, hencode, hseal, hfile⟩ := save_ok hsave
  obtain rfl := Except.ok.inj (encodeObject_nestedKeys.symm.trans hencode)
  obtain ⟨u, hload⟩ := sampleStore.load_blobOf (posixOs []) rfl hfile (opened_sealed hseal)
    (Crypto.encrypt_length _ _ _ _ _ _ hseal) (by decide)
  rw [hdecode] at hload
  exact ⟨⟨by decide +kernel, ⟨by decide +kernel, trivial, trivial, trivial⟩, trivial⟩, by decide, t,
    hsave, u, hload⟩

end Samples

end EncryptedStore

end CypherSyntax
