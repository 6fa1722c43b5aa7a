import RWebTransport.Lib.Table
import RWebTransport.H3.Headers
import RWebTransport.ParserMemory
import RWebTransport.Quic

/-!
# The state of a session

The data of `session.rs`: the events a session emits, its per-stream records,
and `WtSession` itself.  The fields that are never assigned after construction
are grouped in `Config`.

The methods of `WtSession` borrow the connection, the event vector and, through
their buffers, the parser memory.  `Endpoint` is a session together with these,
so a method is a function on `Endpoint`.  Two fields of it are not in the
source as such: `wtSent` is the local variable that `flush` passes to
`flush_stream`, and `history` records what the source does without storing it.
No definition reads `history`.
-/

namespace RWebTransport

open Quic (Connection)

/-! ## Stream ids and limits -/

def connectId : Nat := 0

def clientControlId : Nat := 2
def clientQpackEncId : Nat := 6
def clientQpackDecId : Nat := 10
def clientFirstWtBidiId : Nat := 4
def clientFirstWtUniId : Nat := 14

def serverControlId : Nat := 3
def serverQpackEncId : Nat := 7
def serverQpackDecId : Nat := 11
def serverFirstWtBidiId : Nat := 1
def serverFirstWtUniId : Nat := 15

def maxControlFrame : Nat := 2 ^ 20
def maxSessionParserMemory : Nat := 8 * 1024 * 1024
def wtGrantMaxData : Nat := 2 ^ 34
def wtGrantMaxStreams : Nat := 2 ^ 20

/-! ## Events -/

/-- The request details `Ev::ServerReady` carries. -/
structure ServerRequest where
  authority : String
  path : String
  origin : Option String
  headers : List (String × String)
  requestedProtocols : List String
  protocol : Option String
  remoteAddr : String
  remotePort : Nat
deriving DecidableEq, Repr

/-- `Ev`, without the two events the drivers build on their own. -/
inductive Ev where
  | ready (protocol : Option String) (headers : List (String × String))
  | draining
  | serverReady (request : ServerRequest)
  | closed (code : Nat) (reason : Bytes) (remote : Bool)
  | error (message : String)
  | datagram (data : Bytes)
  | incomingStream (id : Nat) (bidi : Bool)
  | streamData (id : Nat) (data : Bytes)
  | streamFinished (id : Nat)
  | streamReset (id code : Nat)
  | streamStopSending (id code : Nat)
  | streamOpened (requestId id : Nat)
  | writeAck (requestId : Nat)
  | datagramAck (requestId : Nat) (sent : Bool)
deriving DecidableEq, Repr

/-! ## Streams -/

/-- One queued outbound chunk. -/
structure OutChunk where
  data : Bytes
  off : Nat
  requestId : Option Nat
deriving DecidableEq, Repr

/-- What a stream is used for. -/
inductive Role where
  /-- Our control and QPACK streams. -/
  | localControlPlane
  | connect
  | peerControl
  /-- A peer stream that is drained and discarded. -/
  | ignored
  | peerQpack (encoder : Bool)
  | wtData (bidi : Bool)
  /-- A peer stream whose type or signal is not complete yet. -/
  | pendingUni
  | pendingBidi
deriving DecidableEq, Repr

def Role.isWtData : Role → Bool
  | .wtData _ => true
  | _ => false

/-- The incremental HTTP/3 frame reassembler. -/
structure FrameParser where
  buf : ParserBuffer
  error : Bool

structure Stream where
  role : Role
  classBuf : ParserBuffer
  frames : FrameParser
  headersDone : Bool
  paused : Bool
  out : List OutChunk
  finQueued : Bool
  finSent : Bool
  recvDead : Bool
  recvPayload : Nat
  recvPrefix : Nat
  sendPayload : Nat
  sendPrefix : Nat

namespace Stream

def new (role : Role) (memory : Nat) : Stream where
  role := role
  classBuf := .new memory
  frames := ⟨.new memory, false⟩
  headersDone := false
  paused := false
  out := []
  finQueued := false
  finSent := false
  recvDead := false
  recvPayload := 0
  recvPrefix := 0
  sendPayload := 0
  sendPrefix := 0

/-- A stream whose first outbound chunk is a prefix of our own. -/
def withPrefix (role : Role) (bytes : Bytes) (memory : Nat) : Stream :=
  { new role memory with
    sendPrefix := if role.isWtData then bytes.length else 0
    out := if bytes.isEmpty then [] else [⟨bytes, 0, none⟩] }

/-- Queues a chunk. -/
def push (st : Stream) (data : Bytes) (requestId : Option Nat) : Stream :=
  { st with out := st.out ++ [⟨data, 0, requestId⟩] }

/-- The loop body of `mark_closed`: buffers gone, receive side dead. -/
def dead (st : Stream) : Stream :=
  { st with
    frames := { st.frames with buf := .new st.frames.buf.memory }
    classBuf := .new st.classBuf.memory
    recvDead := true }

/-- Returns the stream's receive buffers to their budget. -/
def release (st : Stream) (h : Heap) : Heap :=
  (h.release st.frames.buf.memory st.frames.buf.capacity).release
    st.classBuf.memory st.classBuf.capacity

end Stream

namespace FrameParser

def push (p : FrameParser) (h : Heap) (bytes : Bytes) : FrameParser × Heap :=
  if p.error then (p, h)
  else match p.buf.extendFromSlice h bytes with
    | (some buf, h') => ({ p with buf := buf }, h')
    | (none, h') => ({ p with error := true }, h')

/-- Takes the next complete frame, its payload copied into a buffer of its own. -/
def nextFrame (p : FrameParser) (h : Heap) : Option (Nat × ParserBuffer) × FrameParser × Heap :=
  if p.error then (none, p, h)
  else match H3.readVarint p.buf.data with
    | none => (none, p, h)
    | some (ty, n1) =>
        match H3.readVarint (p.buf.data.drop n1) with
        | none => (none, p, h)
        | some (len, n2) =>
            if maxControlFrame < len then (none, { p with error := true }, h)
            else
              let header := n1 + n2
              let total := header + len
              if p.buf.data.length < total then (none, p, h)
              else match p.buf.copyRange h header total with
                | (none, h') => (none, { p with error := true }, h')
                | (some payload, h') =>
                    let (buf, h'') := p.buf.consume h' total
                    (some (ty, payload), { p with buf := buf }, h'')

end FrameParser

/-! ## The session -/

/-- The deferred graceful close. -/
structure CloseReq where
  code : Nat
  reason : Bytes
  capsuleQueued : Bool

/-- What a session is constructed with. -/
structure Config where
  isServer : Bool
  authority : String := ""
  path : String := ""
  origin : Option String := none
  extraHeaders : List (String × String) := []
  protocols : List String := []
  supportedProtocols : List String := []
  allowedOrigins : Option (List String) := none
  responseHeaders : List (String × String) := []
  /-- The peer's address, as the pair of its IP's text and its port. -/
  remoteAddr : Option (String × Nat) := none
deriving DecidableEq

/-- The session state machine. -/
structure WtSession where
  cfg : Config
  nextBidi : Nat
  nextUni : Nat
  pendingOpens : List (Bool × Nat) := []
  setupSent : Bool := false
  ready : Bool := false
  closed : Bool := false
  connectPending : Bool := false
  drainEmitted : Bool := false
  drainSent : Bool := false
  fcCreditGranted : Bool := false
  fcMaxDataRemote : Nat := 0
  fcMaxStreamsBidiRemote : Nat := 0
  fcMaxStreamsUniRemote : Nat := 0
  fcDataSent : Nat := 0
  fcDataReceived : Nat := 0
  fcMaxDataLocal : Nat := H3.wtInitialMaxData
  /-- By direction, `true` being bidirectional. -/
  fcMaxStreamsLocal : Bool → Nat := fun _ => H3.wtInitialMaxStreams
  fcStreamsReceived : Bool → Nat := fun _ => 0
  terminalError : Option (Nat × String) := none
  dataBlockedAt : Option Nat := none
  streamsBidiBlockedAt : Option Nat := none
  streamsUniBlockedAt : Option Nat := none
  capsuleBuf : ParserBuffer
  parserMemory : Nat
  peerSettings : Option H3.PeerSettings := none
  streams : Table Stream := .empty
  closeReq : Option CloseReq := none
  wantQuicClose : Option (Nat × Bytes) := none
  closeDeferredOnce : Bool := false
  quicCloseIssued : Bool := false

/-- Something the source does and does not store. -/
inductive Trace where
  /-- A frame was taken off the peer's control stream. -/
  | controlFrame (ty : Nat)
  /-- A frame was taken off the CONNECT stream. -/
  | connectFrame (ty : Nat) (payload : Bytes)
  /-- The end of the CONNECT stream was read, with so much of a frame and of a
  capsule unfinished. -/
  | connectFin (frame capsule : Nat)
  /-- A capsule was taken off the session stream. -/
  | capsule (ty : Nat) (value : Bytes)
  /-- The peer's SETTINGS were accepted. -/
  | settings (settings : H3.PeerSettings)
  /-- The request of a client was queued on the CONNECT stream. -/
  | connectQueued
  /-- The session became ready. -/
  | ready
  /-- A CONNECT request was rejected. -/
  | rejected (status : Nat)
  /-- The application passed a chunk to `stream_write`. -/
  | written (id : Nat) (data : Bytes) (requestId : Nat)
  /-- The application reset a stream. -/
  | streamReset (id : Nat)
  /-- A queued write was dropped by `stream_reset`. -/
  | dropped (id requestId : Nat)
  /-- A write was acknowledged, with the stream it was for. -/
  | acked (id requestId : Nat)
  /-- CLOSE_WEBTRANSPORT_SESSION was queued on the CONNECT stream. -/
  | closeQueued
  /-- Bytes of an application chunk were accepted by `stream_send`. -/
  | accepted (id n : Nat)
  /-- Session credit was returned for a stream. -/
  | returned (id n : Nat)
  /-- Received payload was counted. -/
  | charged (id n : Nat)
deriving DecidableEq, Repr

/-- A session with all that its methods borrow. -/
structure Endpoint extends WtSession where
  conn : Connection
  heap : Heap
  /-- Every event emitted so far, oldest first. -/
  ev : List Ev := []
  wtSent : Nat := 0
  history : List Trace := []

namespace WtSession

/-- `WtSession::new_client` over its fresh budget. -/
def newClient (authority path : String) (origin : Option String)
    (extraHeaders : List (String × String)) (protocols : List String) (memory : Nat) :
    WtSession where
  cfg := { isServer := false, authority := authority, path := path, origin := origin
           extraHeaders := extraHeaders, protocols := protocols }
  nextBidi := clientFirstWtBidiId
  nextUni := clientFirstWtUniId
  capsuleBuf := .new memory
  parserMemory := memory

/-- `WtSession::new_server` over its fresh budget. -/
def newServer (remote : String × Nat) (supportedProtocols : List String)
    (allowedOrigins : Option (List String)) (responseHeaders : List (String × String))
    (memory : Nat) : WtSession where
  cfg := { isServer := true, supportedProtocols := supportedProtocols
           allowedOrigins := allowedOrigins, responseHeaders := responseHeaders
           remoteAddr := some remote }
  nextBidi := serverFirstWtBidiId
  nextUni := serverFirstWtUniId
  capsuleBuf := .new memory
  parserMemory := memory

/-- Session flow control is in use once the peer's SETTINGS enable it. -/
def usesSessionFlowControl (s : WtSession) : Bool :=
  s.peerSettings.any fun settings => decide (0 < settings.wtMaxSessions)

end WtSession

namespace Endpoint

/-- A fresh client session on a connection; its budget has no parent. -/
def client (authority path : String) (origin : Option String)
    (extraHeaders : List (String × String)) (protocols : List String)
    (conn : Connection) (heap : Heap) : Endpoint :=
  let (heap', memory) := heap.alloc maxSessionParserMemory none
  { toWtSession := .newClient authority path origin extraHeaders protocols memory
    conn := conn, heap := heap' }

/-- A fresh server session; its budget is a child of the server's. -/
def server (remote : String × Nat) (supportedProtocols : List String)
    (allowedOrigins : Option (List String)) (responseHeaders : List (String × String))
    (parent : Nat) (conn : Connection) (heap : Heap) : Endpoint :=
  let (heap', memory) := heap.alloc maxSessionParserMemory (some parent)
  { toWtSession := .newServer remote supportedProtocols allowedOrigins responseHeaders memory
    conn := conn, heap := heap' }

/-- `ev.push`. -/
def emit (e : Endpoint) (v : Ev) : Endpoint := { e with ev := e.ev ++ [v] }

/-- Records what the source does not store. -/
def log (e : Endpoint) (t : Trace) : Endpoint := { e with history := e.history ++ [t] }

/-- `streams.get_mut(&id)` followed by an update. -/
def modifyStream (e : Endpoint) (id : Nat) (f : Stream → Stream) : Endpoint :=
  { e with streams := e.streams.modify id f }

/-- `streams.insert`; a replaced stream gives its buffers back. -/
def insertStream (e : Endpoint) (id : Nat) (st : Stream) : Endpoint :=
  { e with
    streams := e.streams.insert id st
    heap := match e.streams.get id with
      | some old => old.release e.heap
      | none => e.heap }

/-- `streams.remove`. -/
def removeStream (e : Endpoint) (id : Nat) : Endpoint :=
  { e with
    streams := e.streams.erase id
    heap := match e.streams.get id with
      | some old => old.release e.heap
      | none => e.heap }

/-- The end of a temporary buffer's scope. -/
def dropBuffer (e : Endpoint) (b : ParserBuffer) : Endpoint :=
  { e with heap := e.heap.release b.memory b.capacity }

end Endpoint

end RWebTransport
