import CypherSyntax.Session.Concurrent
import CypherSyntax.Session.Honest

/-!
# A handshake in memory

`pair_for_tests` gives the messages of a handshake from one party to the other as objects, where
two processes exchange bytes.

Results:
* `pairForTests_exchange`: it does what the exchange of the bytes does, whether that returns or
  raises.
-/

namespace CypherSyntax

open Python Json

variable [Interpreter] [Crypto]

def SessionFactory.pairForTests (alice bob : Identity) (suite : AeadSuite)
    (supplementalSecret : Bytes) (aliceEphemeral bobEphemeral : Crypto.ExchangeKey) :
    Method ErrorClass Unit Call (SessionState × SessionState) := do
  let pendingAlice ← SessionFactory.initiator alice bob.name bob.ed25519PublicBytes suite
    supplementalSecret aliceEphemeral
  let (response, pendingBob) ← SessionFactory.responder bob alice.ed25519PublicBytes
    pendingAlice.offer supplementalSecret bobEphemeral
  let (confirmation, aliceSession) ←
    Method.withObject pendingAlice (InitiatorHandshake.complete response)
  let bobSession ← Method.withObject pendingBob (ResponderHandshake.complete confirmation)
  return (aliceSession, bobSession)

/-- **A handshake in memory is the handshake on the wire**: every offer, response and confirmation
that a party makes is written and read back as it was, so that both give the same sessions, raise
the same exceptions and compute the same. -/
theorem pairForTests_exchange (alice bob : Identity) (suite : AeadSuite)
    (supplementalSecret : Bytes) (aliceEphemeral bobEphemeral : Crypto.ExchangeKey)
    (s : Frame Unit Call) :
    (SessionFactory.pairForTests alice bob suite supplementalSecret aliceEphemeral
        bobEphemeral).run s =
      (honestExchange alice bob suite supplementalSecret aliceEphemeral bobEphemeral).run s := by
  unfold SessionFactory.pairForTests honestExchange
  refine Method.run_bind_congr fun pending t => ?_
  refine Eq.trans ?_ (offer_laws.crosses _ _ _).symm
  refine Method.run_bind_congr fun ⟨response, served⟩ t => ?_
  refine Eq.trans ?_ (response_laws.crosses _ _ _).symm
  refine Method.run_bind_congr fun ⟨confirmation, session⟩ t => ?_
  refine Eq.trans ?_ (confirmation_laws.crosses _ _ _).symm
  exact Method.run_bind_congr fun _ _ => rfl

end CypherSyntax
