import CypherSyntax.Crypto
import CypherSyntax.Names
import CypherSyntax.Python.Runs

/-!
# Identities

`Identity` of `src/cyphersyntax/identity.py`: a name and two private keys. Identities name files, so
on top of the common rules their names have no path components.

* The keys are of the types that `Crypto` names, so the `isinstance` checks of `__post_init__` are
  left out, and so is the drawing of the keys: `new` takes them.
* `verify_signature` is given `bytes` at every call of the program. Its type checks are left out.

Results:
* `validateIdentityName_ok`: the names of identities are valid names.
* `verifySignature_runs`: a verification that returns has been logged.
-/

namespace CypherSyntax

open Python

section Names

variable [UnicodeData]

/-- `name in {".", ".."} or "/" in name or "\\" in name` -/
def hasPathComponents (name : Str) : Bool :=
  name == lit "." || name == lit ".." || name.contains 0x2F || name.contains 0x5C

/-- `_validate_identity_name` -/
def validateIdentityName (value : Value) : Except PyError Str := do
  let name ← validateName (.builtin .typeError) (.builtin .valueError) (lit "identity name") value
  raiseIf (hasPathComponents name = true)
    (valueError "identity name must not contain path components")
  return name

theorem validateIdentityName_ok {value : Value} {name : Str} :
    validateIdentityName value = .ok name ↔
      value = .str name ∧ ValidName name ∧ hasPathComponents name = false := by
  simp only [validateIdentityName, bind_eq_ok, validateName_ok, raiseIf_ok, pure_eq_ok,
    Bool.not_eq_true]
  constructor
  · rintro ⟨_, ⟨rfl, hvalid⟩, -, hpath, rfl⟩
    exact ⟨rfl, hvalid, hpath⟩
  · rintro ⟨rfl, hvalid, hpath⟩
    exact ⟨name, ⟨rfl, hvalid⟩, (), hpath, rfl⟩

end Names

structure Identity [UnicodeData] [Crypto] where
  name : Str
  signingPrivateKey : Crypto.SigningKey
  exchangePrivateKey : Crypto.ExchangeKey
  /-- What `__post_init__` checks. -/
  name_valid : ValidName name ∧ hasPathComponents name = false

namespace Identity

variable [Crypto] {σ : Type}

section Methods

variable [UnicodeData]

/-- `Identity(...)` -/
def new (name : Value) (signingPrivateKey : Crypto.SigningKey)
    (exchangePrivateKey : Crypto.ExchangeKey) : Except PyError Identity := do
  let ⟨name, h⟩ ← attach (validateIdentityName name)
  return ⟨name, signingPrivateKey, exchangePrivateKey, (validateIdentityName_ok.mp h).2⟩

def ed25519PublicBytes (self : Identity) : Bytes := Crypto.signingPublic self.signingPrivateKey

def sign (self : Identity) (data : Bytes) : Method ErrorClass σ Call Bytes :=
  signData self.signingPrivateKey data

theorem sign_run (self : Identity) (data : Bytes) (s : Frame σ Call) : (self.sign data).run s =
    (.ok (Crypto.sign self.signingPrivateKey data),
      ⟨s.self, s.log ++ [.signed self.ed25519PublicBytes data]⟩) := rfl

theorem ed25519PublicBytes_length (self : Identity) : self.ed25519PublicBytes.length = 32 :=
  Crypto.signingPublic_length _

end Methods

/-- `Identity.verify_signature` -/
def verifySignature (data signature publicKey : Bytes) : Method ErrorClass σ Call Unit := do
  raiseIf (Crypto.verify publicKey signature data = false)
    (invalidSignatureError (lit "signature verification failed"))
  Method.record (.verified publicKey signature data)

/-- A verification that returns has been logged. -/
theorem verifySignature_runs (data signature publicKey : Bytes) (s : Frame σ Call) :
    Runs (verifySignature data signature publicKey) s
      (fun _ t => Crypto.verify publicKey signature data = true ∧
        t = ⟨s.self, s.log ++ [.verified publicKey signature data]⟩)
      fun _ t => ¬ Crypto.verify publicKey signature data = true ∧ t = s := by
  unfold verifySignature
  refine .bind_lift (fun _ h => ?_) fun _ h => ⟨?_, rfl⟩
  · exact .of_run (Method.run_record _ _) ⟨Bool.not_eq_false _ ▸ raiseIf_ok.mp h, rfl⟩
  · rw [(raiseIf_error.mp h).1]
    exact Bool.false_ne_true

end Identity

end CypherSyntax
