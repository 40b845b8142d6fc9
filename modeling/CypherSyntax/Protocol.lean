import CypherSyntax.Python.Method

/-!
# Errors and constants of the protocol

The exception classes of `errors.py`, with those of the cryptography package that the program
meets, and the constants and the sequence check of `protocol.py`. Where a check of the source
returns nothing and the caller goes on with the checked object, its model returns what it has
checked: `validateMessageSequence` returns the integer.
-/

namespace CypherSyntax

open Python

/-! ## Errors -/

/-- The exception classes of the program, and `InvalidTag` of the AEADs. -/
inductive ErrorClass where
  | invalidSignatureError | keyConfirmationError | replayDetectedError | envelopeError
  | handshakeError | persistenceError | storeError | identityError | invalidTag
  deriving DecidableEq, Repr

abbrev PyError := Exc ErrorClass

def invalidSignatureError (message : Str) : PyError := .user .invalidSignatureError message

def keyConfirmationError (message : Str) : PyError := .user .keyConfirmationError message

def replayDetectedError (message : Str) : PyError := .user .replayDetectedError message

def envelopeError (message : Str) : PyError := .user .envelopeError message

def handshakeError (message : Str) : PyError := .user .handshakeError message

def storeError (message : Str) : PyError := .user .storeError message

/-- The text of an exception. -/
def PyError.message : PyError → Str
  | .builtin _ m => m
  | .user _ m => m

/-! ## Constants -/

def protocolVersion : Int := 1

def maxMessageSequence : Int := 2 ^ 64 - 1

def maxProtocolVersion : Int := 2 ^ 16 - 1

def maxParticipantNameBytes : Nat := 255

def maxSuiteNameBytes : Nat := 64

def maxPlaintextBytes : Nat := 1048576

def aeadTagBytes : Nat := 16

def maxCiphertextBytes : Nat := maxPlaintextBytes + aeadTagBytes

def maxEnvelopeBytes : Nat := maxCiphertextBytes * 2 + 4096

/-! ## Sequence numbers -/

def validateMessageSequence : Value → Except PyError Int
  | .int sequence =>
    if 0 ≤ sequence ∧ sequence ≤ maxMessageSequence then .ok sequence
    else .error (valueError "message sequence must fit in an unsigned 64-bit integer")
  | _ => .error (typeError "message sequence must be an integer")

theorem validateMessageSequence_ok {sequence : Value} {n : Int} :
    validateMessageSequence sequence = .ok n ↔
      sequence = .int n ∧ 0 ≤ n ∧ n ≤ maxMessageSequence := by
  unfold validateMessageSequence
  split
  · rename_i m
    constructor
    · intro h
      split at h
      · cases h
        exact ⟨rfl, ‹_›⟩
      · cases h
    · rintro ⟨h, hn⟩
      cases h
      rw [if_pos hn]
  · rename_i hne
    constructor
    · intro h
      cases h
    · rintro ⟨rfl, -⟩
      exact absurd rfl (hne n)

/-- The check raises `TypeError` or `ValueError` only. -/
theorem validateMessageSequence_error {sequence : Value} {e : PyError}
    (h : validateMessageSequence sequence = .error e) : e.isTypeOrValueError = true := by
  unfold validateMessageSequence at h
  split at h
  · split at h
    · cases h
    · cases h
      rfl
  · cases h
    rfl

end CypherSyntax
