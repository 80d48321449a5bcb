import MeshNode.Api.Error
import MeshNode.Api.Reply
import MeshNode.Backoff
import MeshNode.Bytes
import MeshNode.Bytes.Base64
import MeshNode.Bytes.Hex
import MeshNode.Channel
import MeshNode.Channel.Table
import MeshNode.CommandLine
import MeshNode.Crypto.Aead
import MeshNode.Crypto.ChaCha20
import MeshNode.Crypto.Ed25519
import MeshNode.Crypto.Field
import MeshNode.Crypto.Hmac
import MeshNode.Crypto.Poly1305
import MeshNode.Crypto.Sha256
import MeshNode.Crypto.Sha512
import MeshNode.Crypto.X25519
import MeshNode.Decimal
import MeshNode.Decimal.Shortest
import MeshNode.Digest
import MeshNode.Envelope
import MeshNode.Error
import MeshNode.Files.Changes
import MeshNode.Files.Error
import MeshNode.Files.Listing
import MeshNode.Files.Lookup
import MeshNode.Files.Operations
import MeshNode.Files.Path
import MeshNode.Files.Tree
import MeshNode.Glob
import MeshNode.Handshake
import MeshNode.Heartbeat
import MeshNode.Heartbeat.Delivery
import MeshNode.Http.Exchange
import MeshNode.Http.MediaType
import MeshNode.Http.Message
import MeshNode.Http.Target
import MeshNode.Http.Url
import MeshNode.Jail
import MeshNode.Job.Execution
import MeshNode.Job.Outcome
import MeshNode.Job.Response
import MeshNode.Job.Runner
import MeshNode.Job.Spec
import MeshNode.Json
import MeshNode.Json.Decoder
import MeshNode.Json.Fault
import MeshNode.Json.Printer
import MeshNode.Json.Reader
import MeshNode.Json.Scalar
import MeshNode.Keyed
import MeshNode.Keys
import MeshNode.Keys.File
import MeshNode.Ledger
import MeshNode.Ledger.Document
import MeshNode.Ledger.Store
import MeshNode.Machine.Disk
import MeshNode.Machine.Heartbeats
import MeshNode.Machine.Server
import MeshNode.Machine.Surroundings
import MeshNode.Main
import MeshNode.NameSet
import MeshNode.Node.Announcement
import MeshNode.Node.Api
import MeshNode.Node.Status
import MeshNode.Orchestrator.Api
import MeshNode.Program
import MeshNode.Program.Footprint
import MeshNode.Proofs.Base64
import MeshNode.Proofs.Channel.Table
import MeshNode.Proofs.Decimal
import MeshNode.Proofs.Digest
import MeshNode.Proofs.Envelope
import MeshNode.Proofs.Envelope.Opening
import MeshNode.Proofs.Files.Growth
import MeshNode.Proofs.Files.Listing
import MeshNode.Proofs.Files.Lookup
import MeshNode.Proofs.Files.Operations
import MeshNode.Proofs.Files.Placing
import MeshNode.Proofs.Files.Replacement
import MeshNode.Proofs.Files.Safety
import MeshNode.Proofs.Files.Tree
import MeshNode.Proofs.Handshake
import MeshNode.Proofs.Heartbeat
import MeshNode.Proofs.Hex
import MeshNode.Proofs.Jail
import MeshNode.Proofs.Jail.Resolution
import MeshNode.Proofs.Job.Alone
import MeshNode.Proofs.Job.Cached
import MeshNode.Proofs.Job.List
import MeshNode.Proofs.Job.Once
import MeshNode.Proofs.Job.Outcome
import MeshNode.Proofs.Job.Recorded
import MeshNode.Proofs.Job.Traffic
import MeshNode.Proofs.Job.Write
import MeshNode.Proofs.Job.Written
import MeshNode.Proofs.Json.Compact
import MeshNode.Proofs.Json.Lossless
import MeshNode.Proofs.Json.Recoding
import MeshNode.Proofs.Json.Records
import MeshNode.Proofs.Json.Reordered
import MeshNode.Proofs.Json.Scalars
import MeshNode.Proofs.Json.Tagged
import MeshNode.Proofs.Json.Unique
import MeshNode.Proofs.Json.Values
import MeshNode.Proofs.Keyed
import MeshNode.Proofs.Keys.Creation
import MeshNode.Proofs.Keys.Record
import MeshNode.Proofs.Keys.Separate
import MeshNode.Proofs.Ledger
import MeshNode.Proofs.Ledger.Attempts
import MeshNode.Proofs.Ledger.Calls
import MeshNode.Proofs.Node.Announcement
import MeshNode.Proofs.Node.Refusal
import MeshNode.Proofs.Node.Repeated
import MeshNode.Proofs.Node.Replay
import MeshNode.Proofs.Node.Sealed
import MeshNode.Proofs.Orchestrator
import MeshNode.Proofs.Text
import MeshNode.Proofs.Token
import MeshNode.Proofs.Trust.Coherence
import MeshNode.Proofs.Trust.Health
import MeshNode.Proofs.Trust.History
import MeshNode.Proofs.Trust.Restart
import MeshNode.Proofs.Trust.Saving
import MeshNode.Proofs.Trust.Service
import MeshNode.Proofs.Trust.Traffic
import MeshNode.Proofs.Wire
import MeshNode.RequestId
import MeshNode.Settings.Error
import MeshNode.Settings.File
import MeshNode.Settings.Node
import MeshNode.Settings.Orchestrator
import MeshNode.SocketAddress
import MeshNode.StoreError
import MeshNode.Text.Blank
import MeshNode.Text.Digits
import MeshNode.Text.Printable
import MeshNode.Text.Quoted
import MeshNode.Token
import MeshNode.Toml
import MeshNode.Toml.Reader
import MeshNode.Trust.Evaluation
import MeshNode.Trust.Record
import MeshNode.Trust.Service
import MeshNode.Trust.Store
import MeshNode.Wire
import MeshNode.Proofs.Envelope.Authenticated
