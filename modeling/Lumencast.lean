import Lumencast.Machinery.Run
import Lumencast.Machinery.Heap
import Lumencast.Machinery.Buffer
import Lumencast.Machinery.Replica
import Lumencast.Machinery.LastWrite
import Lumencast.Machinery.Outcome
import Lumencast.Machinery.Readable
import Lumencast.Machinery.Template
import Lumencast.Machinery.Coroutine
import Lumencast.Machinery.Nested
import Lumencast.Protocol.Sequence
import Lumencast.Protocol.Receiver
import Lumencast.Protocol.LeafPath
import Lumencast.Protocol.Segments
import Lumencast.Protocol.Template
import Lumencast.Protocol.Double
import Lumencast.Protocol.Text
import Lumencast.Protocol.Decode
import Lumencast.Protocol.Declared
import Lumencast.Protocol.Soundness
import Lumencast.Protocol.RoundTrip
import Lumencast.Protocol.Reencoding
import Lumencast.Protocol.Grammar
import Lumencast.Protocol.WellFormed
import Lumencast.Lsml.Number
import Lumencast.Lsml.Hash
import Lumencast.Lsml.Rendering
import Lumencast.Lsml.Ecma
import Lumencast.Lsml.Readability
import Lumencast.Lsml.Canonical
import Lumencast.Lsml.Spelling
import Lumencast.Lsml.Sorted
import Lumencast.Lsml.Rejection
import Lumencast.Lsml.Layout
import Lumencast.Cli.Build
import Lumencast.Cli.Validate
import Lumencast.Conformance.Harness
import Lumencast.Conformance.Match
import Lumencast.Conformance.Preorder
import Lumencast.Conformance.Placeholders
import Lumencast.Server.Auth
import Lumencast.Server.Input
import Lumencast.Server.Constraint
import Lumencast.Server.Inline
import Lumencast.Server.ReplayBuffer
import Lumencast.Server.Coverage
import Lumencast.Server.Store
import Lumencast.Server.Subscription
import Lumencast.Server.Scene
import Lumencast.Server.Atomic
import Lumencast.Server.Paths
import Lumencast.Server.Patterns
import Lumencast.Server.HttpPoll
import Lumencast.Server.Tasks
import Lumencast.Server.Server
import Lumencast.Server.Acts
import Lumencast.Server.Queues
import Lumencast.Server.Ownership
import Lumencast.Server.Routing
import Lumencast.Server.WsHandler
import Lumencast.Server.Answers
import Lumencast.Server.Escapes
import Lumencast.Interop.ControlPlane
import Lumencast.Interop.HttpDriver
import Lumencast.Fanout.Feed
import Lumencast.Fanout.Convergence
import Lumencast.Fanout.Contiguity
import Lumencast.Fanout.Swap
import Lumencast.Fanout.BackPressure
import Lumencast.Fanout.Isolation
import Lumencast.Fanout.Poison
import Lumencast.Fanout.Arrivals
import Lumencast.Resume.Log
import Lumencast.Resume.Serial
import Lumencast.Resume.HandOff
import Lumencast.Resume.Equivalence
import Lumencast.Sessions.World
import Lumencast.Sessions.Inputs
import Lumencast.Sessions.Reconnect
import Lumencast.Sessions.Clients
import Lumencast.Sessions.Agree
import Lumencast.Sessions.Noninterference
import Lumencast.Sessions.Leaks
import Lumencast.Sessions.Ownership
import Lumencast.Sessions.Terminal
import Lumencast.Sessions.Line
import Lumencast.Sessions.Order
import Lumencast.Sessions.Ledger
import Lumencast.Sessions.Provenance
import Lumencast.Server.Refines
import Lumencast.Sessions.Mirror
import Lumencast.Sessions.CatchUp
import Lumencast.Sessions.Replies
import Lumencast.Sessions.Epochs
import Lumencast.Interop.Requests
import Lumencast.Interop.Bench
import Lumencast.Interop.Authors
import Lumencast.Interop.Hermetic
import Lumencast.Conformance.Growth
import Lumencast.Interop.Loop
