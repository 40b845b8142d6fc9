import CypherSyntax.Machine
import CypherSyntax.Session

/-!
# The counter of a session

`send_sequence` over any list of `encrypt` calls with any arguments.

Results:
* `SessionState.step_counts`: one call.
* `SessionState.run_counts`: a list of calls, from any counter.
* `SessionState.encrypt_counts`: the packets are numbered 0, 1, 2, ..., nothing that was sealed is
  discarded, and after 2^64 packets the session is exhausted.
-/

namespace CypherSyntax

open Python Json

variable [Interpreter] [Crypto]

/-! ## One call -/

/-- A call that has not sealed anything. -/
def Call.Unsealed : Call → Prop
  | .encrypted call => call.result = none
  | _ => True

omit [Interpreter] [Crypto] in
theorem Call.Silent.unsealed {c : Call} (h : c.Silent) : c.Unsealed := by
  cases c with
  | encrypted => cases h
  | _ => trivial

/-- The sequence that a packet carries. -/
def Carries (packet : Bytes) (n : Int) : Prop :=
  ∃ e, MessageEnvelope.fromBytes (.bytes packet) = .ok e ∧ e.sequence = .int n

namespace SessionState

/-- One call of `encrypt`. -/
def sendStep (s : Frame SessionState Call) (value : Value) :
    Except PyError Bytes × Frame SessionState Call := (encrypt value).run s

/-- A call returns a packet with the counter and advances it, or leaves the session as it was and
discards nothing that was sealed. -/
theorem step_counts (s : Frame SessionState Call) (value : Value) :
    (∃ packet, (sendStep s value).1 = .ok packet ∧ (sendStep s value).2.self = s.self.advance ∧
      Carries packet s.self.sendSequence ∧ s.self.sendSequence ≤ maxMessageSequence) ∨
    ∃ e, (sendStep s value).1 = .error e ∧ (sendStep s value).2.self = s.self ∧
      Extends Call.Unsealed s.log (sendStep s value).2.log := by
  have hruns := encrypt_runs value s
  unfold sendStep
  rcases hrun : (encrypt value).run s with ⟨e | packet, t⟩
  · obtain ⟨hself, hlog⟩ := hruns.of_error hrun
    refine Or.inr ⟨e, rfl, hself, ?_⟩
    rcases hlog with hlog | ⟨plaintext, call, -, -, hnone, hlog⟩
    · exact hlog.mono fun _ h => h.unsealed
    · rw [hlog]
      refine .of_calls fun c hc => ?_
      rcases List.mem_append.mp hc with hc | hc
      · exact (messageCalls_silent c hc).unsealed
      · obtain rfl := List.mem_singleton.mp hc
        exact hnone
  · obtain ⟨plaintext, call, ciphertext, -, hsends, -, hpacket, rfl⟩ := hruns.of_ok hrun
    exact Or.inl ⟨packet, rfl, rfl, ⟨_, fromBytes_of_toBytes hpacket, rfl⟩, hsends.sequence.2⟩

/-- A session whose counter has passed the last sequence makes no call. -/
theorem encrypt_exhausted {s : Frame SessionState Call}
    (h : maxMessageSequence < s.self.sendSequence) {plaintext : Bytes}
    (hsize : plaintext.length ≤ maxPlaintextBytes) : sendStep s (.bytes plaintext) =
      (.error (.builtin .overflowError (lit "message sequence exhausted")), s) := by
  unfold sendStep encrypt
  rw [Method.run_bind_ok (Method.lift_ok.mpr ⟨raiseIf_neg (not_lt.mpr hsize), rfl⟩),
    Method.run_bind_ok (Method.run_self s)]
  exact Method.run_bind_error (Method.lift_error.mpr ⟨raiseIf_error.mpr ⟨h, rfl⟩, rfl⟩)

/-! ## Any calls -/

/-- The packets that were returned. -/
def packetsOf (outcomes : List (Except PyError Bytes)) : List Bytes :=
  outcomes.filterMap Except.toOption

/-- **The packets of a list of calls are numbered from the counter on.** -/
theorem run_counts (values : List Value) (s : Frame SessionState Call) :
    let packets := packetsOf (Machine.run sendStep s values).1
    (Machine.run sendStep s values).2.self =
        { s.self with sendSequence := s.self.sendSequence + packets.length } ∧
      (∀ (n : Nat) packet, packets[n]? = some packet → Carries packet (s.self.sendSequence + n)) ∧
      (packets ≠ [] → s.self.sendSequence + packets.length ≤ maxMessageSequence + 1) := by
  induction values generalizing s with
  | nil =>
    exact ⟨by simp [packetsOf], fun _ _ h => absurd h (by simp [packetsOf]), fun h => absurd rfl h⟩
  | cons value values ih =>
    obtain ⟨hself, hcarries, hmax⟩ := ih (sendStep s value).2
    rw [Machine.run_cons]
    rcases step_counts s value with ⟨packet, hout, hstep, hcarry, hbound⟩ | ⟨e, hout, hstep, -⟩
    · rw [hstep] at hself hcarries hmax
      have hpackets : packetsOf ((sendStep s value).1 ::
          (Machine.run sendStep (sendStep s value).2 values).1) =
          packet :: packetsOf (Machine.run sendStep (sendStep s value).2 values).1 :=
        List.filterMap_cons_some (by rw [hout]; rfl)
      simp only [hpackets, List.length_cons]
      refine ⟨?_, fun n p hp => ?_, fun _ => ?_⟩
      · rw [hself]
        simp only [advance, Nat.cast_add, Nat.cast_one]
        rw [add_assoc, add_comm 1]
      · cases n with
        | zero =>
          obtain rfl := Option.some.inj hp
          simpa using hcarry
        | succ n =>
          have h := hcarries n p hp
          simp only [advance, Nat.cast_add, Nat.cast_one] at h ⊢
          rw [add_comm (n : Int), ← add_assoc]
          exact h
      · by_cases hnil : packetsOf (Machine.run sendStep (sendStep s value).2 values).1 = []
        · rw [hnil]
          simp only [List.length_nil]
          omega
        · have h := hmax hnil
          simp only [advance] at h
          push_cast
          omega
    · rw [hstep] at hself hcarries hmax
      have hpackets : packetsOf ((sendStep s value).1 ::
          (Machine.run sendStep (sendStep s value).2 values).1) =
          packetsOf (Machine.run sendStep (sendStep s value).2 values).1 :=
        List.filterMap_cons_none (by rw [hout]; rfl)
      simp only [hpackets]
      exact ⟨hself, hcarries, hmax⟩

/-- **The packets of a session carry 0, 1, 2, ...** Calls that raise leave the session as it was and
discard nothing that was sealed; and once 2^64 packets have been returned, every call with a
plaintext of the right size raises `OverflowError` before it derives a key. -/
theorem encrypt_counts (session : SessionState) (log : List Call) (values : List Value) :
    let run := Machine.run sendStep ⟨{ session with sendSequence := 0 }, log⟩ values
    let packets := packetsOf run.1
    run.2.self = { session with sendSequence := packets.length } ∧
      (∀ (n : Nat) packet, packets[n]? = some packet → Carries packet n) ∧
      packets.length ≤ 2 ^ 64 ∧
      (∀ value e, (sendStep run.2 value).1 = .error e →
        (sendStep run.2 value).2.self = run.2.self ∧
        Extends Call.Unsealed run.2.log (sendStep run.2 value).2.log) ∧
      (packets.length = 2 ^ 64 → ∀ plaintext : Bytes, plaintext.length ≤ maxPlaintextBytes →
        sendStep run.2 (.bytes plaintext) =
          (.error (.builtin .overflowError (lit "message sequence exhausted")), run.2)) := by
  intro run packets
  obtain ⟨hself, hcarries, hmax⟩ := run_counts values ⟨{ session with sendSequence := 0 }, log⟩
  simp only [zero_add] at hself hcarries hmax
  have hbound : packets.length ≤ 2 ^ 64 := by
    by_cases hnil : packets = []
    · rw [hnil]
      exact Nat.zero_le _
    · have h : (packets.length : Int) ≤ maxMessageSequence + 1 := hmax hnil
      unfold maxMessageSequence at h
      omega
  refine ⟨hself, hcarries, hbound, fun value e he => ?_, fun hfull plaintext hsize => ?_⟩
  · rcases step_counts run.2 value with ⟨packet, hok, -⟩ | ⟨_, -, hstep, hlog⟩
    · rw [hok] at he
      cases he
    · exact ⟨hstep, hlog⟩
  · refine encrypt_exhausted ?_ hsize
    rw [show run.2.self = _ from hself]
    show maxMessageSequence < (packets.length : Int)
    unfold maxMessageSequence
    omega

end SessionState

end CypherSyntax
