import CypherSyntax.Machine
import CypherSyntax.Threads
import CypherSyntax.Threads.Unlocked
import CypherSyntax.Disk
import CypherSyntax.Register
import CypherSyntax.Python.Text
import CypherSyntax.Python.Numeral
import CypherSyntax.Python.Value
import CypherSyntax.Python.Interpreter
import CypherSyntax.Python.Ensures
import CypherSyntax.Python.Method
import CypherSyntax.Python.Json.Dumps
import CypherSyntax.Python.Json.Loads
import CypherSyntax.Python.Json.RoundTrip
import CypherSyntax.Python.Json.Outcome
import CypherSyntax.Python.Json.Hooks
import CypherSyntax.Python.Json.Plain
import CypherSyntax.Protocol
import CypherSyntax.Names
import CypherSyntax.Replay
import CypherSyntax.Replay.Refinement
import CypherSyntax.Replay.Reentry
import CypherSyntax.Python.Framing
import CypherSyntax.Handshake.Message
import CypherSyntax.Handshake
import CypherSyntax.Wire
import CypherSyntax.Wire.Codec
import CypherSyntax.Wire.AssociatedData
import CypherSyntax.Handshake.Codec
import CypherSyntax.Persistence
import CypherSyntax.Persistence.Failure
import CypherSyntax.Persistence.Steps
import CypherSyntax.Persistence.Crash
import CypherSyntax.Persistence.Durable
import CypherSyntax.Persistence.Order
import CypherSyntax.Persistence.Agreement
import CypherSyntax.Persistence.Readers
import CypherSyntax.Crypto
import CypherSyntax.Store
import CypherSyntax.Instances
import CypherSyntax.Store.RoundTrip
import CypherSyntax.Store.Exactness
import CypherSyntax.Store.Passphrase
import CypherSyntax.Kdf
import CypherSyntax.Kdf.Separation
import CypherSyntax.Handshake.Payload
import CypherSyntax.Handshake.Signed
import CypherSyntax.Identity
import CypherSyntax.Identity.Storage
import CypherSyntax.Identity.Directory
import CypherSyntax.Identity.Vault
import CypherSyntax.Identity.Survival
import CypherSyntax.Identity.Loads
import CypherSyntax.SaveErrors
import CypherSyntax.SaveFailure
import CypherSyntax.Session
import CypherSyntax.Session.Handshake
import CypherSyntax.Session.Completion
import CypherSyntax.Session.Counter
import CypherSyntax.Session.Concurrent
import CypherSyntax.Session.Honest
import CypherSyntax.Session.Pair
import CypherSyntax.Session.Race
import CypherSyntax.Wheel
import CypherSyntax.Wheel.Confined
import CypherSyntax.Wheel.Record
import CypherSyntax.System
import CypherSyntax.System.Bytes
import CypherSyntax.System.Rejected
import CypherSyntax.System.Invariant
import CypherSyntax.System.Agreement
import CypherSyntax.System.Nonces
import CypherSyntax.System.Product
import CypherSyntax.System.Concurrent
import CypherSyntax.System.RootKeys
import CypherSyntax.System.Progress
import CypherSyntax.System.Traffic
import CypherSyntax.Channel
import CypherSyntax.Channel.Delivery
