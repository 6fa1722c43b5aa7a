import RWebTransport.QuicInvariant
import RWebTransport.Lib.Table
import RWebTransport.Lib.Run
import RWebTransport.Lib.ReadableStream
import RWebTransport.H3.Settings
import RWebTransport.H3.Codes
import RWebTransport.H3.SettingsGrammar
import RWebTransport.H3.Headers
import RWebTransport.ParserMemory
import RWebTransport.Accounting
import RWebTransport.Quic
import RWebTransport.Session.State
import RWebTransport.Session.Layout
import RWebTransport.Session.Sending
import RWebTransport.Session.Pruning
import RWebTransport.Session.Change
import RWebTransport.Server.Token
import RWebTransport.Node.SessionCore
import RWebTransport.Node.Lifecycle
import RWebTransport.Node.Requests
import RWebTransport.Node.Throwing
import RWebTransport.Node.ReceiveStream
import RWebTransport.Node.Incoming
import RWebTransport.Node.Datagrams
import RWebTransport.Node.Server
import RWebTransport.Driver
import RWebTransport.Server.Loop
import RWebTransport.Session.Handshake
import RWebTransport.Session.FailClosed
import RWebTransport.Session.OwnClose
import RWebTransport.Session.CleanClose
import RWebTransport.Session.Subprotocol
import RWebTransport.Session.StopSending
import RWebTransport.Session.Delivery
import RWebTransport.Node.Transport
import RWebTransport.Backpressure
import RWebTransport.Polling
import RWebTransport.Timers
import RWebTransport.Session.Once
import RWebTransport.Session.Overtaking
import RWebTransport.Session.Churn
import RWebTransport.Session.Stranding
import RWebTransport.Server.Clients
import RWebTransport.Server.Consistency
import RWebTransport.Server.DatagramSize
import RWebTransport.Session.Opening
import RWebTransport.Session.Signals
import RWebTransport.Session.Spending
import RWebTransport.Session.Frames
import RWebTransport.Session.Critical
import RWebTransport.QuicReading
import RWebTransport.QuicReassembly
import RWebTransport.QuicRanges
import RWebTransport.QuicRetransmission
import RWebTransport.QuicCredit
import RWebTransport.Session.Surfacing
import RWebTransport.Session.Discipline
import RWebTransport.Session.Outgoing
import RWebTransport.QuicUses
import RWebTransport.Session.Duplex
import RWebTransport.Session.Ledger
import RWebTransport.Session.Shared
import RWebTransport.Session.Budget
import RWebTransport.Commands
import RWebTransport.H3.StructuredFields
import RWebTransport.H3.Qpack
import RWebTransport.Session.Reassembly
import RWebTransport.Session.CloseReason
