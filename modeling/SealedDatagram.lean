import SealedDatagram.CipherSuite.Standard
import SealedDatagram.Config.Environment
import SealedDatagram.Config.File
import SealedDatagram.Network
import SealedDatagram.Proofs.Client
import SealedDatagram.Proofs.Client.Acceptance
import SealedDatagram.Proofs.Client.Phases
import SealedDatagram.Proofs.Client.Refusal
import SealedDatagram.Proofs.Client.Run
import SealedDatagram.Proofs.Client.Waiting
import SealedDatagram.Proofs.Config.Reload
import SealedDatagram.Proofs.Config.Stored
import SealedDatagram.Proofs.Config.Validity
import SealedDatagram.Proofs.Exchange
import SealedDatagram.Proofs.Field
import SealedDatagram.Proofs.Field.Sequence
import SealedDatagram.Proofs.Handshake
import SealedDatagram.Proofs.Link
import SealedDatagram.Proofs.MessageBuffer
import SealedDatagram.Proofs.MessageBuffer.Queue
import SealedDatagram.Proofs.MessageBuffer.Signals
import SealedDatagram.Proofs.Packet.Decode
import SealedDatagram.Proofs.Packet.Fault
import SealedDatagram.Proofs.Packet.Order
import SealedDatagram.Proofs.Packet.RoundTrip
import SealedDatagram.Proofs.Packet.SealedKind
import SealedDatagram.Proofs.Packet.Separation
import SealedDatagram.Proofs.Parcel
import SealedDatagram.Proofs.Recorder
import SealedDatagram.Proofs.Seal
import SealedDatagram.Proofs.Server.Answer
import SealedDatagram.Proofs.Server.Authentic
import SealedDatagram.Proofs.Server.Crew
import SealedDatagram.Proofs.Server.Delivery
import SealedDatagram.Proofs.Server.Policy
import SealedDatagram.Proofs.Server.Refusal
import SealedDatagram.Proofs.Server.Renewal
import SealedDatagram.Proofs.Server.Replay
import SealedDatagram.Proofs.Server.Return
import SealedDatagram.Proofs.Server.Run
import SealedDatagram.Proofs.Server.Stages
import SealedDatagram.Proofs.Server.Tally
import SealedDatagram.Proofs.SessionStore.Apart
import SealedDatagram.Proofs.SessionStore.Bounds
import SealedDatagram.Proofs.SessionStore.Expiry
import SealedDatagram.Proofs.SessionStore.History
import SealedDatagram.Proofs.SessionStore.Lookup
import SealedDatagram.Proofs.SessionStore.Registration
import SealedDatagram.Proofs.SessionStore.Run
import SealedDatagram.Proofs.Table
import SealedDatagram.Proofs.Text.Scan
import SealedDatagram.Proofs.Toml.Document
import SealedDatagram.Proofs.Toml.Scalars
import SealedDatagram.Proofs.Toml.Statements
import SealedDatagram.Proofs.Toml.Strings
import SealedDatagram.Proofs.WorkerPool
