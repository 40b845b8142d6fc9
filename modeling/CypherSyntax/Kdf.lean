import CypherSyntax.Crypto
import CypherSyntax.Python.Framing
import CypherSyntax.Python.Runs
import CypherSyntax.Python.Json.Object

/-!
# The key schedule

`src/cyphersyntax/kdf.py`, function by function. A `Direction` is what the keys of the messages of
one sender are derived from.

* HKDF and HMAC are parameters (`Crypto`). Their calls are logged with all of their input, and that
  they have no collisions is assumed of the calls of a run, where it is needed.
* A field of 2^32 bytes or more has no length prefix (`OverflowError`). `Direction.Short` says that
  the three fields of a direction have one.

Results:
* `deriveDirectionalSecret_runs`, `deriveMessageKey_runs`: a directional secret is derived in one
  HKDF call and a message key in two, or none when the arguments are rejected.
* `Direction.input_inj`, `messageInput_inj`: the calls determine the direction and the sequence.
* `messageKey_inj`: without collisions, one key and nonce belong to one direction and sequence.
* `sessionRoot_inj`: without collisions, one root belongs to one material and transcript hash.
-/

namespace CypherSyntax

open Python Json

variable [Crypto] {σ : Type}

/-! ## The functions -/

def hkdfExpand (secret : Bytes) (length : Nat) (salt : Option Bytes) (info : Bytes) :
    Method ErrorClass σ Call Bytes :=
  hkdf ⟨secret, length, salt, info⟩

def deriveSessionRoot (sharedSecret transcriptHash supplementalSecret : Bytes) :
    Method ErrorClass σ Call Bytes :=
  let material := sharedSecret ++ supplementalSecret
  hkdfExpand material 32 (some transcriptHash) (ascii "CypherSyntax/session-root/v1")

def deriveKeyConfirmation (rootKey transcriptHash : Bytes) (role : Str) :
    Method ErrorClass σ Call Bytes := do
  raiseIf (role ∉ [lit "initiator", lit "responder"])
    (valueError "key confirmation role must be initiator or responder" : PyError)
  let roleBytes ← (encodeAsciiText role : Except PyError Bytes)
  let payload := ascii "CypherSyntax/key-confirmation/v1|" ++ roleBytes ++ ascii "|" ++
    transcriptHash
  hmacSha256 rootKey payload

def deriveDirectionalSecret (rootKey : Bytes) (suiteName : Str)
    (senderPublicKey recipientPublicKey : Bytes) : Method ErrorClass σ Call Bytes := do
  let suiteBytes ← (encode suiteName : Except PyError Bytes)
  let info ← (joinFields (ascii "CypherSyntax/traffic-secret/v1")
    [suiteBytes, senderPublicKey, recipientPublicKey] : Except PyError Bytes)
  hkdfExpand rootKey 32 none info

def deriveMessageKey (rootKey : Bytes) (sequence : Value) (suiteName : Str)
    (senderPublicKey recipientPublicKey : Bytes) : Method ErrorClass σ Call (Bytes × Bytes) := do
  let sequence ← validateMessageSequence sequence
  let directionalSecret ← deriveDirectionalSecret rootKey suiteName senderPublicKey
    recipientPublicKey
  let info := ascii "CypherSyntax/message-key/v1" ++ beBytes 8 sequence.toNat
  let material ← hkdfExpand directionalSecret 44 none info
  return (material.take 32, (material.drop 32).take 12)

/-! ## Session roots -/

def sessionRootInput (material transcriptHash : Bytes) : HkdfInput :=
  ⟨material, 32, some transcriptHash, ascii "CypherSyntax/session-root/v1"⟩

theorem deriveSessionRoot_run (shared hash supplemental : Bytes) (s : Frame σ Call) :
    (deriveSessionRoot shared hash supplemental).run s =
      (.ok (Crypto.hkdf (sessionRootInput (shared ++ supplemental) hash)),
        ⟨s.self, s.log ++ [.derived (sessionRootInput (shared ++ supplemental) hash)]⟩) := rfl

/-- Shared secrets have one length, so the material determines both of its parts. -/
theorem sessionRoot_inj {log : List Call} (hfree : HkdfCollisionFree log)
    {shared shared' hash hash' supplemental supplemental' : Bytes}
    (h : .derived (sessionRootInput (shared ++ supplemental) hash) ∈ log)
    (h' : .derived (sessionRootInput (shared' ++ supplemental') hash') ∈ log)
    (hlen : shared.length = shared'.length)
    (heq : Crypto.hkdf (sessionRootInput (shared ++ supplemental) hash) =
      Crypto.hkdf (sessionRootInput (shared' ++ supplemental') hash')) :
    shared = shared' ∧ supplemental = supplemental' ∧ hash = hash' := by
  have hinput := hfree _ _ h h' heq
  rw [sessionRootInput, sessionRootInput, HkdfInput.mk.injEq, Option.some.injEq] at hinput
  obtain ⟨hmaterial, -, hhash, -⟩ := hinput
  obtain ⟨hshared, hsupplemental⟩ := List.append_inj hmaterial hlen
  exact ⟨hshared, hsupplemental, hhash⟩

/-! ## Key confirmations -/

/-- What a role authenticates with the root key. -/
def keyConfirmationPayload (role : String) (transcriptHash : Bytes) : Bytes :=
  ascii "CypherSyntax/key-confirmation/v1|" ++ ascii role ++ ascii "|" ++ transcriptHash

theorem deriveKeyConfirmation_run {role : String} (hrole : role = "initiator" ∨ role = "responder")
    (root hash : Bytes) (s : Frame σ Call) :
    (deriveKeyConfirmation root hash (lit role)).run s =
      (.ok (Crypto.hmacSha256 root (keyConfirmationPayload role hash)),
        ⟨s.self, s.log ++ [.authenticated root (keyConfirmationPayload role hash)]⟩) := by
  have hpure : raiseIf (lit role ∉ [lit "initiator", lit "responder"])
      (valueError "key confirmation role must be initiator or responder" : PyError) = .ok () ∧
      encodeAsciiText (κ := ErrorClass) (lit role) = .ok (ascii role) := by
    rcases hrole with rfl | rfl
    · exact ⟨raiseIf_neg (by decide), by decide⟩
    · exact ⟨raiseIf_neg (by decide), by decide⟩
  unfold deriveKeyConfirmation
  rw [Method.run_bind_ok (Method.lift_ok.mpr ⟨hpure.1, rfl⟩),
    Method.run_bind_ok (Method.lift_ok.mpr ⟨hpure.2, rfl⟩)]
  rfl

/-! ## Message keys -/

/-- The keys of one sender: its root key, the encoded suite name and both public keys. -/
structure Direction where
  rootKey : Bytes
  suite : Bytes
  sender : Bytes
  recipient : Bytes
  deriving DecidableEq

namespace Direction

/-- Each field fits in its length prefix. -/
structure Short (d : Direction) : Prop where
  suite : Python.Short d.suite
  sender : Python.Short d.sender
  recipient : Python.Short d.recipient

def input (d : Direction) : HkdfInput :=
  ⟨d.rootKey, 32, none,
    ascii "CypherSyntax/traffic-secret/v1" ++ frames [d.suite, d.sender, d.recipient]⟩

omit [Crypto] in
theorem Short.forall {d : Direction} (h : d.Short) :
    ∀ v ∈ [d.suite, d.sender, d.recipient], Python.Short v := by
  simp only [List.mem_cons, List.not_mem_nil, or_false]
  rintro v (rfl | rfl | rfl)
  · exact h.suite
  · exact h.sender
  · exact h.recipient

omit [Crypto] in
theorem input_inj {d d' : Direction} (hd : d.Short) (hd' : d'.Short) (h : d.input = d'.input) :
    d = d' := by
  rw [input, input, HkdfInput.mk.injEq] at h
  obtain ⟨hroot, -, -, hinfo⟩ := h
  have hfields := joinFields_inj hd.forall hd'.forall hinfo
  cases d
  cases d'
  simp only [List.cons.injEq, and_true] at hfields
  obtain ⟨rfl, rfl, rfl⟩ := hfields
  obtain rfl := hroot
  rfl

end Direction

def messageInput (directionalSecret : Bytes) (sequence : Nat) : HkdfInput :=
  ⟨directionalSecret, 44, none, ascii "CypherSyntax/message-key/v1" ++ beBytes 8 sequence⟩

omit [Crypto] in
theorem messageInput_inj {k k' : Bytes} {m n : Nat} (hm : m < 2 ^ 64) (hn : n < 2 ^ 64)
    (h : messageInput k m = messageInput k' n) : k = k' ∧ m = n := by
  rw [messageInput, messageInput, HkdfInput.mk.injEq] at h
  exact ⟨h.1, beBytes_inj hm hn (List.append_cancel_left h.2.2.2)⟩

def messageMaterial (d : Direction) (sequence : Nat) : Bytes :=
  Crypto.hkdf (messageInput (Crypto.hkdf d.input) sequence)

/-- The key and the nonce of a message. -/
def messageKey (d : Direction) (sequence : Nat) : Bytes × Bytes :=
  ((messageMaterial d sequence).take 32, ((messageMaterial d sequence).drop 32).take 12)

/-- The HKDF calls of a message key. -/
def messageCalls (d : Direction) (sequence : Nat) : List Call :=
  [.derived d.input, .derived (messageInput (Crypto.hkdf d.input) sequence)]

/-- A directional secret is derived in one HKDF call. -/
theorem deriveDirectionalSecret_run {d : Direction} (hd : d.Short) {suiteName : Str}
    (hsuite : encodeUtf8 suiteName = some d.suite) (s : Frame σ Call) :
    (deriveDirectionalSecret d.rootKey suiteName d.sender d.recipient).run s =
      (.ok (Crypto.hkdf d.input), ⟨s.self, s.log ++ [.derived d.input]⟩) := by
  unfold deriveDirectionalSecret
  rw [Method.run_bind_ok (Method.lift_ok.mpr ⟨encode_ok.mpr hsuite, rfl⟩),
    Method.run_bind_ok (Method.lift_ok.mpr ⟨joinFields_ok hd.forall, rfl⟩)]
  rfl

/-- Whatever the arguments, a directional secret is derived in one call or not at all. -/
theorem deriveDirectionalSecret_runs (rootKey : Bytes) (suiteName : Str)
    (sender recipient : Bytes) (s : Frame σ Call) :
    Runs (deriveDirectionalSecret rootKey suiteName sender recipient) s
      (fun secret t => ∃ suite, encodeUtf8 suiteName = some suite ∧
        (⟨rootKey, suite, sender, recipient⟩ : Direction).Short ∧
        secret = Crypto.hkdf (⟨rootKey, suite, sender, recipient⟩ : Direction).input ∧
        t = ⟨s.self, s.log ++ [.derived (⟨rootKey, suite, sender, recipient⟩ : Direction).input]⟩)
      fun _ t => t = s := by
  refine Runs.bind_lift (fun suite hsuite => Runs.bind_lift (fun info hinfo => ?_) fun _ _ => rfl)
    fun _ _ => rfl
  have hshort := short_of_joinFields hinfo
  simp only [List.forall_mem_cons] at hshort
  have hd : (⟨rootKey, suite, sender, recipient⟩ : Direction).Short :=
    ⟨hshort.1, hshort.2.1, hshort.2.2.1⟩
  obtain rfl := Except.ok.inj (hinfo.symm.trans (joinFields_ok hd.forall))
  exact ⟨suite, encode_ok.mp hsuite, hd, rfl, rfl⟩

/-- **A message key is derived in two HKDF calls.** -/
theorem deriveMessageKey_run {d : Direction} (hd : d.Short) {suiteName : Str}
    (hsuite : encodeUtf8 suiteName = some d.suite) {n : Int}
    (hn : 0 ≤ n ∧ n ≤ maxMessageSequence) (s : Frame σ Call) :
    (deriveMessageKey d.rootKey (.int n) suiteName d.sender d.recipient).run s =
      (.ok (messageKey d n.toNat), ⟨s.self, s.log ++ messageCalls d n.toNat⟩) := by
  unfold deriveMessageKey
  rw [Method.run_bind_ok
    (Method.lift_ok.mpr ⟨validateMessageSequence_ok.mpr ⟨rfl, hn⟩, rfl⟩),
    Method.run_bind_ok (deriveDirectionalSecret_run hd hsuite s)]
  show (Except.ok (messageKey d n.toNat), (⟨s.self, (s.log ++ [.derived d.input]) ++
    [.derived (messageInput (Crypto.hkdf d.input) n.toNat)]⟩ : Frame σ Call)) = _
  rw [List.append_assoc]
  rfl

/-- Whatever the arguments, the derivation raises before its first HKDF call or returns. -/
theorem deriveMessageKey_runs (rootKey : Bytes) (sequence : Value) (suiteName : Str)
    (sender recipient : Bytes) (s : Frame σ Call) :
    Runs (deriveMessageKey rootKey sequence suiteName sender recipient) s
      (fun key t => ∃ n suite, sequence = .int n ∧ (0 ≤ n ∧ n ≤ maxMessageSequence) ∧
        encodeUtf8 suiteName = some suite ∧
        (⟨rootKey, suite, sender, recipient⟩ : Direction).Short ∧
        key = messageKey ⟨rootKey, suite, sender, recipient⟩ n.toNat ∧
        t = ⟨s.self, s.log ++ messageCalls ⟨rootKey, suite, sender, recipient⟩ n.toNat⟩)
      fun _ t => t = s := by
  refine Runs.bind_lift (fun n hn => ?_) fun _ _ => rfl
  obtain ⟨rfl, hbounds⟩ := validateMessageSequence_ok.mp hn
  refine Runs.bind (deriveDirectionalSecret_runs rootKey suiteName sender recipient s) ?_
  rintro _ _ ⟨suite, hsuite, hd, rfl, rfl⟩
  refine ⟨n, suite, rfl, hbounds, hsuite, hd, rfl, ?_⟩
  show (⟨s.self, (s.log ++ [.derived _]) ++ [.derived _]⟩ : Frame σ Call) = _
  rw [List.append_assoc]
  rfl

theorem messageMaterial_parts (d : Direction) (n : Nat) :
    (messageKey d n).1 ++ (messageKey d n).2 = messageMaterial d n := by
  have hlen : (messageMaterial d n).length = 44 :=
    Crypto.hkdf_length _ (by show 44 ≤ 255 * 32; omega)
  show (messageMaterial d n).take 32 ++ ((messageMaterial d n).drop 32).take 12 = _
  rw [List.take_of_length_le (l := (messageMaterial d n).drop 32) (by rw [List.length_drop]; omega),
    List.take_append_drop]

/-- **Without collisions, one key and nonce belong to one direction and one sequence.** -/
theorem messageKey_inj {log : List Call} (hfree : HkdfCollisionFree log) {d d' : Direction}
    (hd : d.Short) (hd' : d'.Short) {m n : Nat} (hm : m < 2 ^ 64) (hn : n < 2 ^ 64)
    (h : ∀ c ∈ messageCalls d m, c ∈ log) (h' : ∀ c ∈ messageCalls d' n, c ∈ log)
    (heq : messageKey d m = messageKey d' n) : d = d' ∧ m = n := by
  simp only [messageCalls, List.mem_cons, List.not_mem_nil, or_false, forall_eq_or_imp,
    forall_eq] at h h'
  have hmaterial : messageMaterial d m = messageMaterial d' n := by
    rw [← messageMaterial_parts d m, ← messageMaterial_parts d' n, heq]
  obtain ⟨hsecret, hseq⟩ := messageInput_inj hm hn (hfree _ _ h.2 h'.2 hmaterial)
  exact ⟨Direction.input_inj hd hd' (hfree _ _ h.1 h'.1 hsecret), hseq⟩

end CypherSyntax
