import CypherSyntax.Instances
import CypherSyntax.Kdf

/-!
# Key separation

What HKDF is called with determines what the key is for. The label of its `info` names one of three
purposes, and behind the label every argument can be read off again: fields are length-prefixed, a
sequence has eight bytes, and a shared secret has 32, so that the supplemental secret behind it
needs no prefix.

Results:
* `Purpose.label_inj`: no label is a prefix of another one.
* `MessageKeyArguments.derive_returns`: arguments in range have a message key.
* `keySchedule_injective`: without collisions, message keys and session roots determine their
  arguments, and no HKDF input has two purposes.
-/

namespace CypherSyntax

open Python Json

/-! ## Purposes -/

inductive Purpose where
  | sessionRoot | trafficSecret | messageKey
  deriving DecidableEq

namespace Purpose

/-- What the `info` of an HKDF input starts with. -/
def label : Purpose → Bytes
  | .sessionRoot => ascii "CypherSyntax/session-root/v1"
  | .trafficSecret => ascii "CypherSyntax/traffic-secret/v1"
  | .messageKey => ascii "CypherSyntax/message-key/v1"

theorem eq_of_prefix_label {p q : Purpose} (h : p.label <+: q.label) : p = q := by
  cases p <;> cases q <;> first | rfl | exact absurd h (by decide)

/-- **One text starts with one label.** -/
theorem label_inj {p q : Purpose} {info : Bytes} (hp : p.label <+: info) (hq : q.label <+: info) :
    p = q := by
  rcases List.prefix_or_prefix_of_prefix hp hq with h | h
  · exact eq_of_prefix_label h
  · exact (eq_of_prefix_label h).symm

end Purpose

/-! ## Arguments -/

/-- The arguments of `derive_message_key`. -/
structure MessageKeyArguments where
  rootKey : Bytes
  sequence : Int
  suiteName : Str
  senderPublicKey : Bytes
  recipientPublicKey : Bytes
  deriving DecidableEq

namespace MessageKeyArguments

/-- A sequence of 64 bits, a name that can be encoded, and lengths of 32 bits. -/
structure InRange (a : MessageKeyArguments) : Prop where
  sequence : 0 ≤ a.sequence ∧ a.sequence ≤ 2 ^ 64 - 1
  suiteName : ∃ suite, encodeUtf8 a.suiteName = some suite ∧ Short suite
  senderPublicKey : Short a.senderPublicKey
  recipientPublicKey : Short a.recipientPublicKey

/-- The other direction. -/
def swap (a : MessageKeyArguments) : MessageKeyArguments :=
  { a with senderPublicKey := a.recipientPublicKey, recipientPublicKey := a.senderPublicKey }

theorem InRange.swap {a : MessageKeyArguments} (h : a.InRange) : a.swap.InRange :=
  ⟨h.sequence, h.suiteName, h.recipientPublicKey, h.senderPublicKey⟩

theorem ne_swap {a : MessageKeyArguments} (h : a.senderPublicKey ≠ a.recipientPublicKey) :
    a ≠ a.swap := fun heq => h (congrArg senderPublicKey heq)

end MessageKeyArguments

section Derivations

variable [Crypto] {σ α : Type}

/-- The call of `derive_message_key`. -/
def MessageKeyArguments.derive (a : MessageKeyArguments) :
    Method ErrorClass σ Call (Bytes × Bytes) :=
  deriveMessageKey a.rootKey (.int a.sequence) a.suiteName a.senderPublicKey a.recipientPublicKey

/-- The method has returned `a`, and the log holds its calls. -/
def Derives (log : List Call) (m : Method ErrorClass σ Call α) (a : α) : Prop :=
  ∃ s t, m.run s = (.ok a, t) ∧ t.log ⊆ log

/-- The calls of a method. -/
def callsOf (m : Method ErrorClass Unit Call α) : List Call := (m.run ⟨(), []⟩).2.log

/-- Some call of the key schedule passes the input to HKDF, for that purpose. -/
def UsedFor (input : HkdfInput) : Purpose → Prop
  | .sessionRoot => ∃ shared hash supplemental,
    .derived input ∈ callsOf (deriveSessionRoot shared hash supplemental)
  | .trafficSecret => ∃ root suite sender recipient,
    .derived input ∈ callsOf (deriveDirectionalSecret root suite sender recipient)
  | .messageKey => ∃ traffic root sequence suite sender recipient,
    callsOf (deriveMessageKey root sequence suite sender recipient) =
      [.derived traffic, .derived input]

/-! ## Purposes are told apart -/

/-- **An input starts with the label of its purpose.** -/
theorem UsedFor.label {input : HkdfInput} {p : Purpose} (h : UsedFor input p) :
    p.label <+: input.info := by
  cases p with
  | sessionRoot =>
    obtain ⟨shared, hash, supplemental, hcall⟩ := h
    obtain rfl := Call.derived.inj (List.mem_singleton.mp hcall)
    exact List.prefix_rfl
  | trafficSecret =>
    obtain ⟨root, suite, sender, recipient, hcall⟩ := h
    have hruns :=
      deriveDirectionalSecret_runs root suite sender recipient (⟨(), []⟩ : Frame Unit Call)
    unfold callsOf at hcall
    rcases hrun : (deriveDirectionalSecret root suite sender recipient).run
      (⟨(), []⟩ : Frame Unit Call) with ⟨e | secret, t⟩
    · rw [hrun, hruns.of_error hrun] at hcall
      exact absurd hcall List.not_mem_nil
    · obtain ⟨_, -, -, -, rfl⟩ := hruns.of_ok hrun
      rw [hrun] at hcall
      obtain rfl := Call.derived.inj (List.mem_singleton.mp hcall)
      exact List.prefix_append _ _
  | messageKey =>
    obtain ⟨traffic, root, sequence, suite, sender, recipient, hcalls⟩ := h
    have hruns := deriveMessageKey_runs root sequence suite sender recipient
      (⟨(), []⟩ : Frame Unit Call)
    unfold callsOf at hcalls
    rcases hrun : (deriveMessageKey root sequence suite sender recipient).run
      (⟨(), []⟩ : Frame Unit Call) with ⟨e | key, t⟩
    · rw [hrun, hruns.of_error hrun] at hcalls
      cases hcalls
    · obtain ⟨n, _, -, -, -, -, -, rfl⟩ := hruns.of_ok hrun
      rw [hrun] at hcalls
      obtain ⟨-, hcall⟩ := List.cons.inj hcalls
      obtain rfl := Call.derived.inj (List.cons.inj hcall).1
      exact List.prefix_append _ _

/-! ## Results determine their arguments -/

/-- Arguments in range have a message key. -/
theorem MessageKeyArguments.derive_returns {a : MessageKeyArguments} (h : a.InRange)
    (s : Frame σ Call) : ∃ key t, a.derive.run s = (.ok key, t) := by
  obtain ⟨suite, hsuite, hshort⟩ := h.suiteName
  have hd : (⟨a.rootKey, suite, a.senderPublicKey, a.recipientPublicKey⟩ : Direction).Short :=
    ⟨hshort, h.senderPublicKey, h.recipientPublicKey⟩
  exact ⟨_, _, deriveMessageKey_run hd hsuite h.sequence s⟩

/-- What a message key is derived from. -/
theorem Derives.messageKey {log : List Call} {a : MessageKeyArguments} {key : Bytes × Bytes}
    (h : Derives (σ := σ) log a.derive key) : ∃ suite, encodeUtf8 a.suiteName = some suite ∧
      (0 ≤ a.sequence ∧ a.sequence ≤ maxMessageSequence) ∧
      (⟨a.rootKey, suite, a.senderPublicKey, a.recipientPublicKey⟩ : Direction).Short ∧
      key = CypherSyntax.messageKey ⟨a.rootKey, suite, a.senderPublicKey, a.recipientPublicKey⟩
        a.sequence.toNat ∧
      messageCalls ⟨a.rootKey, suite, a.senderPublicKey, a.recipientPublicKey⟩
        a.sequence.toNat ⊆ log := by
  obtain ⟨s, t, hrun, hlog⟩ := h
  obtain ⟨n, suite, hn, hbounds, hsuite, hd, hkey, rfl⟩ :=
    (deriveMessageKey_runs _ _ _ _ _ s).of_ok hrun
  obtain rfl := Value.int.inj hn
  exact ⟨suite, hsuite, hbounds, hd, hkey, fun c hc => hlog (List.mem_append_right _ hc)⟩

/-- Message keys determine their arguments. -/
theorem messageKey_arguments {log : List Call} (hfree : HkdfCollisionFree log)
    {a b : MessageKeyArguments} {key : Bytes × Bytes} (ha : Derives (σ := σ) log a.derive key)
    (hb : Derives (σ := σ) log b.derive key) : a = b := by
  obtain ⟨suite, hsuite, hn, hd, hkey, hcalls⟩ := ha.messageKey
  obtain ⟨suite', hsuite', hn', hd', hkey', hcalls'⟩ := hb.messageKey
  have hmax : maxMessageSequence = 2 ^ 64 - 1 := rfl
  obtain ⟨hdirection, hsequence⟩ := messageKey_inj hfree hd hd' (by omega) (by omega) hcalls hcalls'
    (hkey.symm.trans hkey')
  obtain ⟨hroot, rfl, hsender, hrecipient⟩ := Direction.mk.inj hdirection
  have hname : a.suiteName = b.suiteName := encodeUtf8_inj hsuite hsuite'
  have hnumber : a.sequence = b.sequence := by omega
  cases a
  cases b
  cases hroot
  cases hsender
  cases hrecipient
  cases hname
  cases hnumber
  rfl

/-- Session roots determine their arguments. -/
theorem sessionRoot_arguments {log : List Call} (hfree : HkdfCollisionFree log)
    {shared shared' hash hash' supplemental supplemental' root : Bytes}
    (hlen : shared.length = shared'.length)
    (h : Derives (σ := σ) log (deriveSessionRoot shared hash supplemental) root)
    (h' : Derives (σ := σ) log (deriveSessionRoot shared' hash' supplemental') root) :
    shared = shared' ∧ hash = hash' ∧ supplemental = supplemental' := by
  obtain ⟨s, t, hrun, hlog⟩ := h
  obtain ⟨s', t', hrun', hlog'⟩ := h'
  rw [deriveSessionRoot_run] at hrun hrun'
  cases hrun
  obtain ⟨hroot, rfl⟩ := Prod.mk.inj hrun'
  have hcall := hlog (List.mem_append_right _ List.mem_cons_self)
  have hcall' := hlog' (List.mem_append_right _ List.mem_cons_self)
  obtain ⟨hshared, hsupplemental, hhash⟩ := sessionRoot_inj hfree hcall hcall' hlen
    (Except.ok.inj hroot).symm
  exact ⟨hshared, hhash, hsupplemental⟩

/-- **The key schedule is injective.** Arguments in range have a message key; on calls of HKDF that
do not collide, message keys and session roots determine their arguments, so the two directions of
distinct keys never share one; and no input of HKDF has two purposes. -/
theorem keySchedule_injective {log : List Call} (hfree : HkdfCollisionFree log) :
    (∀ (a : MessageKeyArguments) (s : Frame σ Call), a.InRange →
      ∃ key t, a.derive.run s = (.ok key, t)) ∧
    (∀ (a b : MessageKeyArguments) (key : Bytes × Bytes), Derives (σ := σ) log a.derive key →
      Derives (σ := σ) log b.derive key → a = b) ∧
    (∀ (a : MessageKeyArguments) (key key' : Bytes × Bytes),
      a.senderPublicKey ≠ a.recipientPublicKey → Derives (σ := σ) log a.derive key →
      Derives (σ := σ) log a.swap.derive key' → key ≠ key') ∧
    (∀ shared shared' hash hash' supplemental supplemental' root : Bytes,
      shared.length = 32 → shared'.length = 32 → hash.length = 32 → hash'.length = 32 →
      Derives (σ := σ) log (deriveSessionRoot shared hash supplemental) root →
      Derives (σ := σ) log (deriveSessionRoot shared' hash' supplemental') root →
      shared = shared' ∧ hash = hash' ∧ supplemental = supplemental') ∧
    ∀ (input : HkdfInput) (p q : Purpose), UsedFor input p → UsedFor input q → p = q := by
  refine ⟨fun a s h => a.derive_returns h s, fun a b key => messageKey_arguments hfree, ?_, ?_, ?_⟩
  · rintro a key key' hne ha hswap rfl
    exact a.ne_swap hne (messageKey_arguments hfree ha hswap)
  · intro shared shared' hash hash' supplemental supplemental' root hlen hlen' _ _
    exact sessionRoot_arguments hfree (hlen.trans hlen'.symm)
  · intro input p q hp hq
    exact Purpose.label_inj hp.label hq.label

end Derivations

section Samples

open scoped Samples

def sampleArguments : MessageKeyArguments :=
  ⟨List.replicate 32 1, 5, lit "CHACHA20_POLY1305", List.replicate 32 8, List.replicate 32 9⟩

/-- The session root with that supplemental secret. -/
def sampleRoot (supplemental : Bytes) : Method ErrorClass Unit Call Bytes :=
  deriveSessionRoot (List.replicate 32 2) (List.replicate 32 3) supplemental

/-- The calls of both directions and of two session roots. -/
def scheduleCalls : List Call :=
  callsOf sampleArguments.derive ++ callsOf sampleArguments.swap.derive ++
    (callsOf (sampleRoot [4]) ++ callsOf (sampleRoot [4, 4]))

/-- The directions have different keys, and the two supplemental secrets different roots. -/
theorem keySchedule_injective_swap : ∃ key key' t t',
    sampleArguments.derive.run (⟨(), []⟩ : Frame Unit Call) = (.ok key, t) ∧
    sampleArguments.swap.derive.run (⟨(), []⟩ : Frame Unit Call) = (.ok key', t') ∧ key ≠ key' ∧
    ∀ root, ¬ (Derives scheduleCalls (sampleRoot [4]) root ∧
      Derives scheduleCalls (sampleRoot [4, 4]) root) := by
  have hfree : HkdfCollisionFree scheduleCalls := by decide +kernel
  have hsuite : encodeUtf8 sampleArguments.suiteName = some (ascii "CHACHA20_POLY1305") := by
    decide
  have hshort : ∀ b : Bytes, b.length ≤ 32 → Short b := fun b h => lt_of_le_of_lt h (by decide)
  have hrange : sampleArguments.InRange :=
    ⟨by decide, ⟨_, hsuite, hshort _ (by decide)⟩, hshort _ (by decide), hshort _ (by decide)⟩
  obtain ⟨hreturns, -, hswap, hroots, -⟩ := keySchedule_injective (σ := Unit) hfree
  obtain ⟨key, t, hrun⟩ := hreturns _ ⟨(), []⟩ hrange
  obtain ⟨key', t', hrun'⟩ := hreturns _ ⟨(), []⟩ hrange.swap
  have hlog : t.log ⊆ scheduleCalls := by
    intro c hc
    have hcalls : callsOf sampleArguments.derive = t.log := by rw [callsOf, hrun]
    exact List.mem_append_left _ (List.mem_append_left _ (hcalls ▸ hc))
  have hlog' : t'.log ⊆ scheduleCalls := by
    intro c hc
    have hcalls : callsOf sampleArguments.swap.derive = t'.log := by rw [callsOf, hrun']
    exact List.mem_append_left _ (List.mem_append_right _ (hcalls ▸ hc))
  refine ⟨key, key', t, t', hrun, hrun', hswap _ key key' (by decide) ⟨_, t, hrun, hlog⟩
    ⟨_, t', hrun', hlog'⟩, fun root h => ?_⟩
  obtain ⟨-, -, hsupplemental⟩ := hroots _ _ _ _ _ _ root (by decide) (by decide) (by decide)
    (by decide) h.1 h.2
  exact absurd hsupplemental (by decide)

end Samples

end CypherSyntax
