import RWebTransport.Lib.Run
import RWebTransport.Session.State

/-!
# The receive side of a session

`on_readable` and everything below it: the errors that end a session, session
flow-control accounting, capsules, the CONNECT and control streams, and the
classification of peer streams.

A `while` loop of the source is `iterate` over its body, with a unit of fuel
for every byte the loop may take.
-/

namespace RWebTransport.Endpoint

/-! ## Ending a session -/

/-- `mark_closed`: the first call emits `Closed` and drops all receive buffers. -/
def markClosed (e : Endpoint) (code : Nat) (reason : Bytes) (remote : Bool) : Endpoint :=
  if e.closed then e
  else
    let heap := e.heap.release e.capsuleBuf.memory e.capsuleBuf.capacity
    { e with
      closed := true
      capsuleBuf := .new e.capsuleBuf.memory
      streams := e.streams.map Stream.dead
      heap := e.streams.keys.foldl
        (fun h id => match e.streams.get id with
          | some st => st.release h
          | none => h) heap
      ev := e.ev ++ [.closed code reason remote] }

def parserLimitExceeded (e : Endpoint) : Endpoint :=
  if e.closed then e
  else (e.emit (.error "parser memory limit exceeded")).markClosed 0 [] true

/-- Whether a stream's frame parser has latched an error. -/
def frameError (e : Endpoint) (id : Nat) : Bool := (e.streams.get id).any fun st => st.frames.error

def flowError (e : Endpoint) (message : String) : Endpoint :=
  if e.closed then e
  else
    (({ e with terminalError := some (0x045d4487, message) } : Endpoint).emit
      (.error message)).markClosed 0 [] true

/-- `conn.close(true, code, reason)`. -/
def closeConn (e : Endpoint) (code : Nat) (reason : Bytes) : Endpoint :=
  { e with conn := e.conn.close true code reason }

def protocolError (e : Endpoint) (code : Nat) (message : String) : Endpoint :=
  if e.closed then e
  else ((e.emit (.error message)).markClosed 0 [] true).closeConn code (H3.asBytes message)

/-- `conn.stream_shutdown(id, Read, err)`. -/
def shutdownRead (e : Endpoint) (id err : Nat) : Endpoint :=
  { e with conn := e.conn.streamShutdownRead id err }

/-- `kill_recv`: stop reading and free the buffers after a fatal stream error. -/
def killRecv (e : Endpoint) (id : Nat) : Endpoint :=
  ({ e with
    streams := e.streams.modify id Stream.dead
    heap := match e.streams.get id with
      | some st => st.release e.heap
      | none => e.heap } : Endpoint).shutdownRead id 0

/-! ## Session flow control -/

/-- Counts a peer stream. -/
def countStream (e : Endpoint) (bidi : Bool) : Endpoint :=
  { e with
    fcStreamsReceived := fun b =>
      if b = bidi then e.fcStreamsReceived b + 1 else e.fcStreamsReceived b }

/-- Counts received payload. -/
def chargeStream (e : Endpoint) (id amount : Nat) : Endpoint :=
  { e with
    fcDataReceived := e.fcDataReceived + amount
    streams := e.streams.modify id fun st => { st with recvPayload := st.recvPayload + amount }
    history := e.history ++ [.charged id amount] }

/-- `account_incoming`: counts a peer stream against the limit we advertised. -/
def accountIncoming (e : Endpoint) (bidi : Bool) : Endpoint × Bool :=
  let e1 := e.countStream bidi
  if e1.usesSessionFlowControl ∧ e1.fcMaxStreamsLocal bidi < e1.fcStreamsReceived bidi then
    (e1.flowError "peer exceeded the session stream limit", false)
  else (e1, true)

/-- `account_receive`: counts payload against the limit we advertised. -/
def accountReceive (e : Endpoint) (id amount : Nat) : Endpoint × Bool :=
  let e1 := e.chargeStream id amount
  if e1.usesSessionFlowControl ∧ e1.fcMaxDataLocal < e1.fcDataReceived then
    (e1.flowError "peer exceeded the session data limit", false)
  else (e1, true)

/-! ## Capsules -/

/-- The capsule types that carry a limit. -/
def isFlowControlCapsule (ty : Nat) : Bool :=
  ty == H3.wtMaxDataCapsule || ty == H3.wtMaxStreamsBidiCapsule ||
    ty == H3.wtMaxStreamsUniCapsule || ty == H3.wtDataBlockedCapsule ||
    ty == H3.wtStreamsBlockedBidiCapsule || ty == H3.wtStreamsBlockedUniCapsule

/-- The limit a credit capsule raises. -/
def creditLimit (e : Endpoint) (ty : Nat) : Option Nat :=
  if ty = H3.wtMaxDataCapsule then some e.fcMaxDataRemote
  else if ty = H3.wtMaxStreamsBidiCapsule then some e.fcMaxStreamsBidiRemote
  else if ty = H3.wtMaxStreamsUniCapsule then some e.fcMaxStreamsUniRemote
  else none

def setCreditLimit (e : Endpoint) (ty v : Nat) : Endpoint :=
  if ty = H3.wtMaxDataCapsule then { e with fcMaxDataRemote := v }
  else if ty = H3.wtMaxStreamsBidiCapsule then { e with fcMaxStreamsBidiRemote := v }
  else if ty = H3.wtMaxStreamsUniCapsule then { e with fcMaxStreamsUniRemote := v }
  else e

/-- The code and reason of a CLOSE_WEBTRANSPORT_SESSION capsule. -/
def closeCapsuleInfo (value : Bytes) : Nat × Bytes :=
  if 4 ≤ value.length then
    ((value.take 4).foldl (fun v b => v * 256 + b.toNat) 0, H3.truncateCloseReason (value.drop 4))
  else (0, [])

/-- What one whole capsule does, and whether the scan goes on. -/
def handleCapsule (e : Endpoint) (ty : Nat) (value : Bytes) : Endpoint × Bool :=
  if ty = H3.wtCloseSessionCapsule ∧ !e.closed then
    let (code, reason) := closeCapsuleInfo value
    (e.markClosed code reason true, true)
  else if ty = H3.wtDrainSessionCapsule ∧ !e.drainEmitted ∧ !e.closed then
    (({ e with drainEmitted := true } : Endpoint).emit .draining, true)
  else if isFlowControlCapsule ty then
    match H3.readVarint value with
    | none => (e.flowError "truncated flow-control capsule", false)
    | some (v, n) =>
        if n ≠ value.length ∨
            (ty ≠ H3.wtMaxDataCapsule ∧ ty ≠ H3.wtDataBlockedCapsule ∧ 2 ^ 60 < v) then
          (e.flowError "invalid flow-control capsule", false)
        else match e.creditLimit ty with
          | none => (e, true)
          | some limit =>
              if v ≤ limit then (e.flowError "flow-control credit must increase", false)
              else (e.setCreditLimit ty v, true)
  else (e, true)

/-- One pass of the loop of `scan_capsules`. -/
def capsuleStep (e : Endpoint) : Endpoint × Bool :=
  if e.closed then (e, false)
  else match H3.readVarint e.capsuleBuf.data with
    | none => (e, false)
    | some (ty, n1) =>
        match H3.readVarint (e.capsuleBuf.data.drop n1) with
        | none => (e, false)
        | some (len, n2) =>
            let start := n1 + n2
            if maxControlFrame < len then
              ((e.emit (.error "oversized WebTransport capsule")).markClosed 0 [] true, false)
            else if e.capsuleBuf.data.length < start + len then (e, false)
            else match e.capsuleBuf.copyRange e.heap start (start + len) with
              | (none, h) => (({ e with heap := h } : Endpoint).parserLimitExceeded, false)
              | (some value, h) =>
                  let (buf, h') := e.capsuleBuf.consume h (start + len)
                  let e' : Endpoint := { e with capsuleBuf := buf, heap := h' }
                  let (e'', go) := (e'.log (.capsule ty value.data)).handleCapsule ty value.data
                  (e''.dropBuffer value, go)

/-- `scan_capsules`: appends a DATA payload and takes the whole capsules. -/
def scanCapsules (e : Endpoint) (payload : Bytes) : Endpoint :=
  if e.closed then e
  else match e.capsuleBuf.extendFromSlice e.heap payload with
    | (none, h) => ({ e with heap := h } : Endpoint).parserLimitExceeded
    | (some buf, h) =>
        iterate capsuleStep (buf.data.length + 1) { e with capsuleBuf := buf, heap := h }

/-! ## Frames -/

/-- `next_frame` on the parser of a stream; without the stream there is none. -/
def nextFrame (e : Endpoint) (id : Nat) : Option (Nat × ParserBuffer) × Endpoint :=
  match e.streams.get id with
  | none => (none, e)
  | some st =>
      let (frame, frames, h) := st.frames.nextFrame e.heap
      (frame, { e with
                streams := e.streams.modify id fun st => { st with frames := frames }
                heap := h })

/-- `frames.push` on the parser of a stream. -/
def pushFrames (e : Endpoint) (id : Nat) (chunk : Bytes) : Endpoint :=
  match e.streams.get id with
  | none => e
  | some st =>
      let (frames, h) := st.frames.push e.heap chunk
      { e with
        streams := e.streams.modify id fun st => { st with frames := frames }
        heap := h }

/-- How many bytes the frame parser of a stream holds. -/
def framesLength (e : Endpoint) (id : Nat) : Nat :=
  ((e.streams.get id).map fun st => st.frames.buf.data.length).getD 0

def headersDone (e : Endpoint) (id : Nat) : Bool := (e.streams.get id).any fun st => st.headersDone

def setHeadersDone (e : Endpoint) (id : Nat) : Endpoint :=
  e.modifyStream id fun st => { st with headersDone := true }

section

variable [H3.Codec]

/-- `self.ready = true`. -/
def becomeReady (e : Endpoint) : Endpoint := ({ e with ready := true } : Endpoint).log .ready

/-! ## The CONNECT stream of a client -/

/-- `queue_connect`. -/
def queueConnect (e : Endpoint) : Endpoint :=
  match H3.encodeHeadersFrame (H3.connectHeaders e.cfg.authority e.cfg.path e.cfg.origin
      e.cfg.extraHeaders e.cfg.protocols) with
  | .ok frame =>
      (e.log .connectQueued).insertStream connectId (.withPrefix .connect frame e.parserMemory)
  | .error err => e.emit (.error s!"failed to encode CONNECT: {err}")

/-- The decoded response to our CONNECT. -/
def connectResponse (e : Endpoint) (headers : List H3.Header) : Endpoint :=
  let status := (H3.statusOf headers).getD 0
  if 200 ≤ status ∧ status < 300 then
    if e.ready then e
    else
      let protocol := H3.wtProtocolOf headers
      if protocol.any fun p => !e.cfg.protocols.contains p then
        e.protocolError 0x0817b3dd "server selected an unoffered or malformed subprotocol"
      else e.becomeReady.emit (.ready protocol (H3.responseHeaders headers))
  else
    ((e.emit (.error s!"WebTransport CONNECT rejected with status {status}")).markClosed 0 [] true
      ).closeConn 0 (H3.ascii "connect rejected")

/-- One pass of the loop of `parse_connect_frames`. -/
def connectStep (id : Nat) (e : Endpoint) : Endpoint × Bool :=
  if e.closed then (e, false)
  else match e.nextFrame id with
    | (none, e1) => (e1, false)
    | (some (ty, payload), e0) =>
        let e1 := e0.log (.connectFrame ty payload.data)
        let e2 :=
          if ty = H3.frameHeaders ∧ !e.headersDone id then
            let e1 := e1.setHeadersDone id
            match H3.decodeHeaderBlock payload.data with
            | .ok headers => e1.connectResponse headers
            | .error err => e1.emit (.error s!"failed to decode CONNECT response: {err}")
          else if ty = H3.frameData then e1.scanCapsules payload.data
          else e1
        (e2.dropBuffer payload, true)

def parseConnectFrames (e : Endpoint) (id : Nat) : Endpoint :=
  iterate (connectStep id) (e.framesLength id + 1) e

/-! ## The CONNECT stream of a server -/

/-- `reject_connect`. -/
def rejectConnect (e : Endpoint) (id status : Nat) : Endpoint :=
  let e1 := match H3.encodeHeadersFrame [⟨H3.ascii ":status", H3.asBytes (toString status)⟩] with
    | .ok frame => e.modifyStream id fun st => { st.push frame none with finQueued := true }
    | .error _ => e
  let e2 := if !e1.ready ∧ !e1.closed then
      e1.emit (.error s!"rejected CONNECT with status {status}")
    else e1
  (e2.log (.rejected status)).markClosed 0 [] false

/-- The fields `accept_connect` collects from the request headers. -/
structure ConnectRequest where
  method : Option Bytes := none
  protocol : Option Bytes := none
  authority : String := ""
  path : String := "/"
  origin : Option String := none
  protocolFields : List String := []
  extra : List (String × String) := []

/-- The loop body over the request headers. -/
def ConnectRequest.header (r : ConnectRequest) (h : H3.Header) : ConnectRequest :=
  if h.name = H3.ascii ":method" then { r with method := some h.value }
  else if h.name = H3.ascii ":protocol" then { r with protocol := some h.value }
  else if h.name = H3.ascii ":authority" then { r with authority := H3.fromUtf8Lossy h.value }
  else if h.name = H3.ascii ":path" then { r with path := H3.fromUtf8Lossy h.value }
  else if h.name = H3.ascii "origin" then { r with origin := some (H3.fromUtf8Lossy h.value) }
  else if h.name = H3.wtAvailableProtocols then
    { r with protocolFields := r.protocolFields ++ [H3.fromUtf8Lossy h.value] }
  else if h.name.head? = some 0x3a then r
  else { r with extra := r.extra ++ [(H3.fromUtf8Lossy h.name, H3.fromUtf8Lossy h.value)] }

def ConnectRequest.ofHeaders (headers : List H3.Header) : ConnectRequest :=
  headers.foldl ConnectRequest.header {}

/-- The 200 response. -/
def acceptHeaders (cfg : Config) (selected : Option String) : List H3.Header :=
  ⟨H3.ascii ":status", H3.ascii "200"⟩ ::
    ((selected.map fun p => ⟨H3.wtProtocol, H3.asBytes (H3.serializeSfString p)⟩).toList ++
      cfg.responseHeaders.map fun p => ⟨H3.asBytes p.1, H3.asBytes p.2⟩)

/-- The subprotocols a request offers. -/
def ConnectRequest.requested (r : ConnectRequest) : List String :=
  H3.parseSfStringList (", ".intercalate r.protocolFields)

/-- The details of a request that `Ev::ServerReady` carries. -/
def ConnectRequest.details (r : ConnectRequest) (cfg : Config) (selected : Option String) :
    ServerRequest :=
  let (addr, port) := cfg.remoteAddr.getD ("", 0)
  { authority := r.authority, path := r.path, origin := r.origin, headers := r.extra
    requestedProtocols := r.requested, protocol := selected, remoteAddr := addr, remotePort := port }

/-- `accept_connect`: validates a request and answers it. -/
def acceptConnect (e : Endpoint) (id : Nat) (headers : List H3.Header) : Endpoint :=
  let req := ConnectRequest.ofHeaders headers
  if ¬(req.method = some (H3.ascii "CONNECT") ∧ req.protocol = some (H3.ascii "webtransport")) then
    e.rejectConnect id 400
  else if e.cfg.allowedOrigins.any fun allowed => !req.origin.any fun o => allowed.contains o then
    e.rejectConnect id 403
  else
    let selected := e.cfg.supportedProtocols.find? fun p => req.requested.contains p
    match H3.encodeHeadersFrame (acceptHeaders e.cfg selected) with
    | .ok frame =>
        ((e.modifyStream id fun st => st.push frame none).becomeReady).emit
          (.serverReady (req.details e.cfg selected))
    | .error err => e.emit (.error s!"failed to encode CONNECT response: {err}")

/-- One pass of the loop of `parse_server_connect_frames`. -/
def serverConnectStep (id : Nat) (e : Endpoint) : Endpoint × Bool :=
  if e.closed then (e, false)
  else match e.nextFrame id with
    | (none, e1) => (e1, false)
    | (some (ty, payload), e0) =>
        let e1 := e0.log (.connectFrame ty payload.data)
        let e2 :=
          if ty = H3.frameHeaders ∧ !e.headersDone id then
            let e1 := e1.setHeadersDone id
            match H3.decodeHeaderBlock payload.data with
            | .ok headers => e1.acceptConnect id headers
            | .error err =>
                (e1.emit (.error s!"failed to decode CONNECT request: {err}")).rejectConnect id 400
          else if ty = H3.frameData then e1.scanCapsules payload.data
          else e1
        (e2.dropBuffer payload, true)

/-- `parse_server_connect_frames`: nothing happens before the peer's SETTINGS. -/
def parseServerConnectFrames (e : Endpoint) (id : Nat) : Endpoint :=
  match e.peerSettings with
  | none => e
  | some settings =>
      if !settings.admitsConnect then e.rejectConnect id 400
      else iterate (serverConnectStep id) (e.framesLength id + 1) e

/-! ## The control stream -/

/-- The peer's SETTINGS and the limits they seed. -/
def seedLimits (e : Endpoint) (settings : H3.PeerSettings) : Endpoint :=
  { e with
    peerSettings := some settings
    fcMaxDataRemote := settings.wtInitialMaxData
    fcMaxStreamsBidiRemote := settings.wtInitialMaxStreamsBidi
    fcMaxStreamsUniRemote := settings.wtInitialMaxStreamsUni
    history := e.history ++ [.settings settings] }

/-- The deferred CONNECT of a client goes out, or the session is rejected. -/
def releaseConnect (e : Endpoint) (settings : H3.PeerSettings) : Endpoint :=
  if e.connectPending then
    let e1 : Endpoint := { e with connectPending := false }
    if settings.webtransportOk then e1.queueConnect
    else (e1.emit (.error "server does not advertise WebTransport support")).markClosed 0
      (H3.ascii "webtransport not supported") false
  else e

/-- Accepted SETTINGS: the limits they seed and the handshake they release. -/
def applySettings (e : Endpoint) (settings : H3.PeerSettings) : Endpoint :=
  let e1 := (e.seedLimits settings).releaseConnect settings
  if e1.cfg.isServer ∧ e1.streams.contains connectId then e1.parseServerConnectFrames connectId
  else e1

/-- What one frame on the peer's control stream does; `first` says that no
frame was taken before. -/
def handleControlFrame (e : Endpoint) (id : Nat) (first : Bool) (ty : Nat) (payload : Bytes) :
    Endpoint :=
  if first ∧ ty ≠ H3.frameSettings then
    e.protocolError 0x10a "SETTINGS must be the first control frame"
  else if ty = H3.frameSettings then
    if !first then e.protocolError 0x105 "repeated SETTINGS frame"
    else
      let e := e.setHeadersDone id
      match H3.parseSettings payload with
      | .ok settings => e.applySettings settings
      | .error message => e.protocolError 0x109 message
  else if ty = H3.frameData ∨ ty = H3.frameHeaders ∨ ty = 0x2 ∨ ty = 0x6 ∨ ty = 0x8 ∨ ty = 0x9 then
    e.protocolError 0x105 "unexpected frame on control stream"
  else if ty = H3.frameGoaway ∧ !e.drainEmitted ∧ !e.closed then
    ({ e with drainEmitted := true } : Endpoint).emit .draining
  else e

/-- One pass of the loop of `parse_control_frames`.  Where the source returns
early the session is closed, which ends the loop as well. -/
def controlStep (id : Nat) (e : Endpoint) : Endpoint × Bool :=
  if e.closed then (e, false)
  else match e.nextFrame id with
    | (none, e1) => (e1, false)
    | (some (ty, payload), e1) =>
        (((e1.log (.controlFrame ty)).handleControlFrame id (!e.headersDone id) ty
          payload.data).dropBuffer payload, true)

def parseControlFrames (e : Endpoint) (id : Nat) : Endpoint :=
  iterate (controlStep id) (e.framesLength id + 1) e

/-! ## Processing a chunk -/

/-- `process_recv` on the peer's control stream. -/
def recvControl (e : Endpoint) (id : Nat) (chunk : Bytes) (fin : Bool) : Endpoint :=
  let e1 := (e.pushFrames id chunk).parseControlFrames id
  let e2 := if fin ∧ !e1.closed then
      e1.protocolError 0x104 "peer closed the HTTP/3 control stream"
    else e1
  if e2.frameError id then
    let e3 := e2.killRecv id
    if e3.closed then e3
    else ((e3.emit (.error "malformed HTTP/3 control stream")).markClosed 0 [] true).closeConn 0
      (H3.ascii "h3 control error")
  else e2

/-- `process_recv` on the CONNECT stream. -/
def recvConnect (e : Endpoint) (id : Nat) (chunk : Bytes) (fin : Bool) : Endpoint :=
  let e1 := e.pushFrames id chunk
  let e2 := if e1.cfg.isServer then e1.parseServerConnectFrames id else e1.parseConnectFrames id
  let e3 := if e2.frameError id ∧ !e2.closed then
      (((e2.killRecv id).emit (.error "malformed HTTP/3 CONNECT stream")).markClosed 0 [] true
        ).closeConn 0 (H3.ascii "h3 connect error")
    else e2
  if fin ∧ !e3.closed then
    let e4 := e3.log (.connectFin (e3.framesLength id) e3.capsuleBuf.data.length)
    if 0 < e3.framesLength id ∨ 0 < e3.capsuleBuf.data.length then
      e4.protocolError 0x106 "truncated CONNECT frame or capsule"
    else e4.markClosed 0 [] true
  else e3

def setRecvDead (e : Endpoint) (id : Nat) : Endpoint :=
  e.modifyStream id fun st => { st with recvDead := true }

/-- A chunk of a resolved data stream that was accounted for. -/
def surfaceData (e : Endpoint) (id : Nat) (chunk : Bytes) (fin : Bool) : Endpoint :=
  let e1 := if chunk.isEmpty then e else e.emit (.streamData id chunk)
  if fin then (e1.setRecvDead id).emit (.streamFinished id) else e1

/-- `process_recv` on a resolved data stream. -/
def recvData (e : Endpoint) (id : Nat) (chunk : Bytes) (fin : Bool) : Endpoint :=
  match e.accountReceive id chunk.length with
  | (e1, false) => e1
  | (e1, true) => e1.surfaceData id chunk fin

/-- Appends a chunk to what is kept for classifying a stream; `none` when
memory was refused, which ends the session. -/
def pushClass (e : Endpoint) (id : Nat) (chunk : Bytes) : Endpoint × Option Bytes :=
  match e.streams.get id with
  | none => (e, none)
  | some st =>
      match st.classBuf.extendFromSlice e.heap chunk with
      | (none, h) => (({ e with heap := h } : Endpoint).parserLimitExceeded, none)
      | (some buf, h) =>
          ({ e with
              streams := e.streams.modify id fun st => { st with classBuf := buf }
              heap := h }, some buf.data)

/-- Fixes the role of a pending stream and frees what was kept for it. -/
def classify (e : Endpoint) (id : Nat) (role : Role) : Endpoint :=
  { e with
    streams := e.streams.modify id fun st =>
      { st with role := role, classBuf := .new st.classBuf.memory }
    heap := match e.streams.get id with
      | some st => e.heap.release st.classBuf.memory st.classBuf.capacity
      | none => e.heap }

/-- A pending stream turns out to be a data stream: `buf` is what was read of
it, `header` the length of its signal. -/
def surfaceStream (e : Endpoint) (id : Nat) (bidi : Bool) (buf : Bytes) (header : Nat) (fin : Bool) :
    Endpoint :=
  let data := buf.drop header
  let e1 := (e.classify id (.wtData bidi)).modifyStream id fun st => { st with recvPrefix := header }
  match e1.accountIncoming bidi with
  | (e2, false) => e2
  | (e2, true) =>
      match e2.accountReceive id data.length with
      | (e3, false) => e3
      | (e3, true) => (e3.emit (.incomingStream id bidi)).surfaceData id data fin

/-- A pending stream that cannot be classified and has ended is forgotten. -/
def forgetIf (e : Endpoint) (id : Nat) (fin : Bool) : Endpoint :=
  if fin then e.removeStream id else e

/-- Some other stream has the role already. -/
def duplicateRole (e : Endpoint) (id : Nat) (role : Role) : Bool :=
  e.streams.any fun other st => other != id && st.role == role

/-- `resolve_pending_uni`. -/
def resolvePendingUni (e : Endpoint) (id : Nat) (chunk : Bytes) (fin : Bool) : Endpoint :=
  match e.pushClass id chunk with
  | (e1, none) => e1
  | (e1, some buf) =>
      match H3.readVarint buf with
      | none => e1.forgetIf id fin
      | some (ty, n) =>
          if ty = H3.h3ControlStreamType then
            if e1.duplicateRole id .peerControl then
              e1.protocolError 0x103 "duplicate HTTP/3 control stream"
            else (e1.classify id .peerControl).recvControl id (buf.drop n) fin
          else if ty = H3.qpackEncoderStreamType ∨ ty = H3.qpackDecoderStreamType then
            let role := Role.peerQpack (ty == H3.qpackEncoderStreamType)
            if e1.duplicateRole id role then e1.protocolError 0x103 "duplicate QPACK stream"
            else
              let e2 := e1.classify id role
              if fin then e2.protocolError 0x104 "peer closed a critical QPACK stream" else e2
          else if ty = H3.wtUniStreamType then
            match H3.readVarint (buf.drop n) with
            | none => e1.forgetIf id fin
            | some (session, n2) =>
                if session ≠ connectId then (e1.shutdownRead id 0).classify id .ignored
                else e1.surfaceStream id false buf (n + n2) fin
          else e1.classify id .ignored

/-- `resolve_pending_bidi`. -/
def resolvePendingBidi (e : Endpoint) (id : Nat) (chunk : Bytes) (fin : Bool) : Endpoint :=
  match e.pushClass id chunk with
  | (e1, none) => e1
  | (e1, some buf) =>
      match H3.readVarint buf with
      | none => e1.forgetIf id fin
      | some (signal, n) =>
          if signal ≠ H3.wtBidiFrameType then (e1.shutdownRead id 0).classify id .ignored
          else match H3.readVarint (buf.drop n) with
            | none => e1.forgetIf id fin
            | some (session, n2) =>
                if session ≠ connectId then (e1.shutdownRead id 0).classify id .ignored
                else e1.surfaceStream id true buf (n + n2) fin

/-- `process_recv`. -/
def processRecv (e : Endpoint) (id : Nat) (chunk : Bytes) (fin : Bool) : Endpoint :=
  match (e.streams.get id).map Stream.role with
  | none | some .localControlPlane => e
  | some (.peerQpack _) =>
      if fin then e.protocolError 0x104 "peer closed a critical QPACK stream" else e
  | some .ignored => if fin then e.setRecvDead id else e
  | some .peerControl => e.recvControl id chunk fin
  | some .connect => e.recvConnect id chunk fin
  | some (.wtData _) => e.recvData id chunk fin
  | some .pendingUni => e.resolvePendingUni id chunk fin
  | some .pendingBidi => e.resolvePendingBidi id chunk fin

/-! ## Reading a stream -/

/-- `classify_new`. -/
def classifyNew (id : Nat) (isServer : Bool) : Role :=
  if isServer then
    if id % 4 = 0 then if id = connectId then .connect else .pendingBidi
    else if id % 4 = 2 then .pendingUni
    else .ignored
  else if id % 4 = 3 then .pendingUni
  else if id % 4 = 1 then .pendingBidi
  else .ignored

/-- `streams.entry(id).or_insert_with(..)`. -/
def touch (e : Endpoint) (id : Nat) : Endpoint :=
  if e.streams.contains id then e
  else e.insertStream id (.new (classifyNew id e.cfg.isServer) e.parserMemory)

/-- What a RESET does once it is accounted for. -/
def surfaceReset (e : Endpoint) (id code : Nat) : Endpoint :=
  let e1 := e.setRecvDead id
  match (e.streams.get id).map Stream.role with
  | some (.wtData _) =>
      e1.emit (.streamReset id ((H3.httpCodeToWebtransportCode code).getD code))
  | some .peerControl | some (.peerQpack _) =>
      e1.protocolError 0x104 "peer reset a critical HTTP/3 stream"
  | some .connect =>
      if e1.closed then e1
      else
        let e2 := if e1.ready then e1
          else e1.emit (.error s!"server reset the WebTransport session stream (code {code})")
        e2.markClosed (code % 2 ^ 32) [] true
  | _ => e1

/-- A RESET read off a stream; `finalSize` was asked for before. -/
def recvReset (e : Endpoint) (id code : Nat) (finalSize : Option Nat) : Endpoint :=
  match finalSize, e.streams.get id with
  | some size, some st =>
      if st.role.isWtData then
        match e.accountReceive id (size - st.recvPrefix - st.recvPayload) with
        | (e1, false) => e1
        | (e1, true) => e1.surfaceReset id code
      else e.surfaceReset id code
  | _, _ => e.surfaceReset id code

/-- Under backpressure a stream is left unread once it is known to carry data. -/
def holdsBack (st : Stream) : Bool :=
  st.role.isWtData || (st.role == .pendingUni &&
    (H3.readVarint st.classBuf.data).any fun r => r.1 == H3.wtUniStreamType)

/-- The buffer a pass reads into: a single byte while a stream is classified
under backpressure. -/
def readLen (st : Stream) (backpressured : Bool) : Nat :=
  if backpressured && st.role == .pendingUni then 1 else 16 * 1024

/-- One pass of the loop of `on_readable`. -/
def readStep (id : Nat) (backpressured : Bool) (e : Endpoint) : Endpoint × Bool :=
  match e.streams.get id with
  | none => (e, false)
  | some st =>
      if backpressured && holdsBack st then (e, false)
      else
        let finalSize := e.conn.streamRecvFinalSize id
        match e.conn.streamRecv id (readLen st backpressured) with
        | (.ok (chunk, fin), conn) =>
            let e1 := ({ e with conn := conn } : Endpoint).processRecv id chunk fin
            (e1, !e1.closed && !fin && !chunk.isEmpty)
        | (.error (.streamReset code), conn) =>
            (({ e with conn := conn } : Endpoint).recvReset id code finalSize, false)
        | (.error _, conn) => ({ e with conn := conn }, false)

/-- The guards in front of the loop of `on_readable`. -/
def mayRead (e : Endpoint) (id : Nat) (backpressured : Bool) : Bool :=
  (e.streams.get id).any fun st =>
    !st.recvDead && !((st.paused || backpressured) && st.role.isWtData) &&
      !(backpressured && st.role == .pendingBidi)

/-- `on_readable`. -/
def onReadable (e : Endpoint) (id : Nat) (backpressured : Bool) : Endpoint :=
  if e.closed then e
  else
    let e1 := e.touch id
    if e1.mayRead id backpressured then
      iterate (readStep id backpressured) ((e1.conn.streams id).recv.data.length + 1) e1
    else e1

end

/-! ## Datagrams -/

/-- One pass of the loop of `on_datagrams`. -/
def datagramStep (e : Endpoint) : Endpoint × Bool :=
  match e.conn.dgramRecv with
  | (none, conn) => ({ e with conn := conn }, false)
  | (some data, conn) =>
      let e1 : Endpoint := { e with conn := conn }
      match H3.readVarint data with
      | none => (e1, true)
      | some (qsi, off) =>
          (if qsi = connectId / 4 then e1.emit (.datagram (data.drop off)) else e1, true)

/-- `on_datagrams`. -/
def onDatagrams (e : Endpoint) : Endpoint :=
  iterate datagramStep (e.conn.dgramRecvQueue.length + 1) e

end RWebTransport.Endpoint
