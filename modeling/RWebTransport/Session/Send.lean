import RWebTransport.Session.Receive

/-!
# The send side of a session

Commands of the application, and `flush` with everything below it: credit
grants, the queue of requested opens, the per-stream send loop, BLOCKED
signals, pruning and the graceful close.

`flush` visits the stream table in the order of a hash map, which is taken as
an argument.
-/

namespace RWebTransport

/-- The order in which a hash map enumerates its keys. -/
structure HashOrder where
  order : List Nat → List Nat
  perm : ∀ keys, (order keys).Perm keys

/-- The keys as the table holds them. -/
def HashOrder.asHeld : HashOrder := ⟨id, List.Perm.refl⟩

namespace Endpoint

/-! ## Setup -/

def controlId (isServer : Bool) : Nat := if isServer then serverControlId else clientControlId
def qpackEncId (isServer : Bool) : Nat := if isServer then serverQpackEncId else clientQpackEncId
def qpackDecId (isServer : Bool) : Nat := if isServer then serverQpackDecId else clientQpackDecId

/-- Inserts one of our control-plane streams. -/
def insertLocal (e : Endpoint) (id : Nat) (bytes : Bytes) : Endpoint :=
  e.insertStream id (.withPrefix .localControlPlane bytes e.parserMemory)

/-- `on_established`. -/
def onEstablished (e : Endpoint) : Endpoint :=
  if e.setupSent then e
  else
    let e1 : Endpoint := { e with setupSent := true }
    let e2 := e1.insertLocal (controlId e.cfg.isServer) H3.controlStreamPrefix
    let e3 := e2.insertLocal (qpackEncId e.cfg.isServer) (H3.putVarint H3.qpackEncoderStreamType)
    let e4 := e3.insertLocal (qpackDecId e.cfg.isServer) (H3.putVarint H3.qpackDecoderStreamType)
    if e4.cfg.isServer then e4 else { e4 with connectPending := true }

/-! ## Opening streams -/

/-- The id of our first data stream of a direction. -/
def firstId (isServer bidi : Bool) : Nat :=
  if isServer then if bidi then serverFirstWtBidiId else serverFirstWtUniId
  else if bidi then clientFirstWtBidiId else clientFirstWtUniId

def nextId (e : Endpoint) (bidi : Bool) : Nat := if bidi then e.nextBidi else e.nextUni

/-- How many data streams of a direction were opened. -/
def opened (e : Endpoint) (bidi : Bool) : Nat := (e.nextId bidi - firstId e.cfg.isServer bidi) / 4

def fcMaxStreamsRemote (e : Endpoint) (bidi : Bool) : Nat :=
  if bidi then e.fcMaxStreamsBidiRemote else e.fcMaxStreamsUniRemote

/-- The signal a data stream starts with. -/
def streamSignal (bidi : Bool) : Bytes :=
  H3.putVarint (if bidi then H3.wtBidiFrameType else H3.wtUniStreamType) ++ H3.putVarint connectId

/-- `allocate_stream`. -/
def allocateStream (e : Endpoint) (bidi : Bool) (requestId : Nat) : Endpoint :=
  let id := e.nextId bidi
  let e1 : Endpoint :=
    if bidi then { e with nextBidi := e.nextBidi + 4 } else { e with nextUni := e.nextUni + 4 }
  (e1.insertStream id (.withPrefix (.wtData bidi) (streamSignal bidi) e.parserMemory)).emit
    (.streamOpened requestId id)

/-- The loop body of `release_pending_opens`. -/
def releaseOpen (e : Endpoint) (request : Bool × Nat) : Endpoint :=
  if e.usesSessionFlowControl ∧ e.fcMaxStreamsRemote request.1 ≤ e.opened request.1 then
    { e with pendingOpens := e.pendingOpens ++ [request] }
  else e.allocateStream request.1 request.2

/-- `release_pending_opens`. -/
def releasePendingOpens (e : Endpoint) : Endpoint :=
  if !e.ready ∨ e.closed then e
  else e.pendingOpens.foldl releaseOpen { e with pendingOpens := [] }

/-- `open_stream`. -/
def openStream (e : Endpoint) (bidi : Bool) (requestId : Nat) : Endpoint :=
  ({ e with pendingOpens := e.pendingOpens ++ [(bidi, requestId)] } : Endpoint).releasePendingOpens

/-! ## Stream commands -/

/-- `stream_write`. -/
def streamWrite (e : Endpoint) (id : Nat) (data : Bytes) (requestId : Nat) : Endpoint :=
  let e1 := e.log (.written id data requestId)
  if e1.streams.contains id then e1.modifyStream id fun st => st.push data (some requestId)
  else (e1.log (.acked id requestId)).emit (.writeAck requestId)

/-- `stream_fin`. -/
def streamFin (e : Endpoint) (id : Nat) : Endpoint :=
  e.modifyStream id fun st => { st with finQueued := true }

/-- `reconcile_send_final_size`: credit for what a reset discarded. -/
def reconcileSendFinalSize (e : Endpoint) (id : Nat) : Endpoint :=
  match e.conn.streamSendFinalSize id, e.streams.get id with
  | some finalSize, some st =>
      let finalPayload := finalSize - st.sendPrefix
      if st.role.isWtData ∧ finalPayload < st.sendPayload then
        { e with
          fcDataSent := e.fcDataSent - (st.sendPayload - finalPayload)
          streams := e.streams.modify id fun st => { st with sendPayload := finalPayload }
          history := e.history ++ [.returned id (st.sendPayload - finalPayload)] }
      else e
  | _, _ => e

/-- `out.clear()` on a stream. -/
def dropQueue (e : Endpoint) (id : Nat) : Endpoint :=
  match e.streams.get id with
  | none => e
  | some st =>
      { e with
        streams := e.streams.modify id fun st => { st with out := [] }
        history := e.history ++ (st.out.filterMap OutChunk.requestId).map (.dropped id) }

/-- `stream_reset`. -/
def streamReset (e : Endpoint) (id code : Nat) : Endpoint :=
  if e.streams.contains id then
    let e1 : Endpoint :=
      { e.log (.streamReset id) with
        conn := e.conn.streamShutdownWrite id (H3.webtransportCodeToHttpCode code) }
    ((e1.reconcileSendFinalSize id).dropQueue id).modifyStream id fun st =>
      { st with finSent := true }
  else e

/-- `stream_stop_sending`. -/
def streamStopSending (e : Endpoint) (id code : Nat) : Endpoint :=
  if e.streams.contains id then
    (e.shutdownRead id (H3.webtransportCodeToHttpCode code)).setRecvDead id
  else e

/-- `set_paused`. -/
def setPaused (e : Endpoint) (id : Nat) (paused : Bool) : Endpoint :=
  e.modifyStream id fun st => { st with paused := paused }

/-- `send_datagram`. -/
def sendDatagram (e : Endpoint) (data : Bytes) (requestId : Nat) : Endpoint :=
  let (sent, conn) := e.conn.dgramSend (H3.putVarint (connectId / 4) ++ data)
  ({ e with conn := conn } : Endpoint).emit (.datagramAck requestId sent)

/-- `max_datagram_size`. -/
def maxDatagramSize (e : Endpoint) : Nat := e.conn.dgramMaxWritableLen.getD 0 - 1

/-! ## The session stream -/

/-- Pushes bytes of our own on the CONNECT stream, if there is one. -/
def queueOnConnect (e : Endpoint) (body : Bytes) : Endpoint :=
  e.modifyStream connectId fun st => st.push body none

/-- A capsule in a DATA frame. -/
def capsuleFrame (ty : Nat) (value : Bytes) : Bytes :=
  H3.frame H3.frameData (H3.putVarint ty ++ H3.putVarint value.length ++ value)

/-- `close`: the first request counts. -/
def close (e : Endpoint) (code : Nat) (reason : Bytes) : Endpoint :=
  if e.closeReq.isNone then
    { e with closeReq := some ⟨code, H3.truncateCloseReason reason, false⟩ }
  else e

/-- `send_drain`: once, and not before there is a CONNECT stream. -/
def sendDrain (e : Endpoint) : Endpoint :=
  if e.closed ∨ e.drainSent then e
  else if e.streams.contains connectId then
    { e.queueOnConnect (capsuleFrame H3.wtDrainSessionCapsule []) with drainSent := true }
  else e

/-- `queue_session_capsule`. -/
def queueSessionCapsule (e : Endpoint) (ty value : Nat) : Endpoint :=
  e.queueOnConnect (capsuleFrame ty (H3.putVarint value))

/-! ## The parts of `flush` -/

/-- A flow error latched by the receive side closes the connection now. -/
def takeTerminalError (e : Endpoint) : Endpoint :=
  match e.terminalError with
  | some (code, message) =>
      ({ e with terminalError := none } : Endpoint).closeConn code (H3.asBytes message)
  | none => e

/-- The initial credit grant of a ready session. -/
def grantCredit (e : Endpoint) : Endpoint :=
  if e.ready ∧ !e.fcCreditGranted ∧ !e.closed then
    let e1 : Endpoint :=
      { e with
        fcCreditGranted := true
        fcMaxDataLocal := wtGrantMaxData
        fcMaxStreamsLocal := fun _ => wtGrantMaxStreams }
    ((e1.queueSessionCapsule H3.wtMaxDataCapsule wtGrantMaxData).queueSessionCapsule
      H3.wtMaxStreamsBidiCapsule wtGrantMaxStreams).queueSessionCapsule
      H3.wtMaxStreamsUniCapsule wtGrantMaxStreams
  else e

/-- Announces a data limit. -/
def raiseDataLimit (e : Endpoint) (limit : Nat) : Endpoint :=
  ({ e with fcMaxDataLocal := limit } : Endpoint).queueSessionCapsule H3.wtMaxDataCapsule limit

/-- Raises the data limit once half of the last grant is used up. -/
def replenishData (e : Endpoint) : Endpoint :=
  if e.fcMaxDataLocal - e.fcDataReceived ≤ wtGrantMaxData / 2 then
    let limit := min (e.fcDataReceived + wtGrantMaxData) (2 ^ 62 - 1)
    if e.fcMaxDataLocal < limit then e.raiseDataLimit limit else e
  else e

def maxStreamsCapsule (bidi : Bool) : Nat :=
  if bidi then H3.wtMaxStreamsBidiCapsule else H3.wtMaxStreamsUniCapsule

/-- Announces a stream limit. -/
def raiseStreamsLimit (e : Endpoint) (bidi : Bool) (limit : Nat) : Endpoint :=
  ({ e with fcMaxStreamsLocal := fun b =>
      if b = bidi then limit else e.fcMaxStreamsLocal b } : Endpoint).queueSessionCapsule
    (maxStreamsCapsule bidi) limit

/-- Raises the stream limit of a direction once half of the last grant is used up. -/
def replenishStreams (e : Endpoint) (bidi : Bool) : Endpoint :=
  if e.fcMaxStreamsLocal bidi - e.fcStreamsReceived bidi ≤ wtGrantMaxStreams / 2 then
    let limit := min (e.fcStreamsReceived bidi + wtGrantMaxStreams) (2 ^ 60)
    if e.fcMaxStreamsLocal bidi < limit then e.raiseStreamsLimit bidi limit else e
  else e

/-- Replenishes cumulative credit. -/
def replenish (e : Endpoint) : Endpoint :=
  if e.ready ∧ e.fcCreditGranted ∧ e.usesSessionFlowControl ∧ !e.closed then
    ((e.replenishData).replenishStreams false).replenishStreams true
  else e

/-- The value of our CLOSE_WEBTRANSPORT_SESSION capsule. -/
def closeValue (code : Nat) (reason : Bytes) : Bytes :=
  [H3.asU8 (code / 2 ^ 24), H3.asU8 (code / 2 ^ 16), H3.asU8 (code / 2 ^ 8), H3.asU8 code] ++ reason

/-- Queues a requested close behind everything on the CONNECT stream. -/
def queueClose (e : Endpoint) : Endpoint :=
  match e.closeReq with
  | none => e
  | some req =>
      if req.capsuleQueued then e
      else
        let e1 : Endpoint := { e with closeReq := some { req with capsuleQueued := true } }
        if e1.streams.contains connectId then
          (e1.log .closeQueued).modifyStream connectId fun st =>
            { st.push (capsuleFrame H3.wtCloseSessionCapsule (closeValue req.code req.reason)) none with
              finQueued := true }
        else { e1 with wantQuicClose := some (req.code, req.reason) }

/-! ## Sending -/

/-- The acknowledgement of a chunk. -/
def ackOf (chunk : OutChunk) : List Ev := (chunk.requestId.map Ev.writeAck).toList

/-- The record of it. -/
def ackTrace (id : Nat) (chunk : OutChunk) : List Trace := (chunk.requestId.map (Trace.acked id)).toList

/-- Whether a chunk counts towards the peer's data limit. -/
def isPayload (st : Stream) (chunk : OutChunk) : Bool := st.role.isWtData && chunk.requestId.isSome

/-- How much of a chunk the peer's data limit admits. -/
def sendAmount (e : Endpoint) (st : Stream) (chunk : OutChunk) : Nat :=
  let remaining := chunk.data.length - chunk.off
  if e.usesSessionFlowControl && isPayload st chunk then
    min remaining (e.fcMaxDataRemote - (e.fcDataSent + e.wtSent))
  else remaining

/-- `stream_send` took `sent` bytes of the first chunk. -/
def advance (e : Endpoint) (id : Nat) (front : OutChunk) (rest : List OutChunk) (payload : Bool)
    (sent : Nat) : Endpoint :=
  let off := front.off + sent
  let done := decide (front.data.length ≤ off)
  { e with
    wtSent := if payload then e.wtSent + sent else e.wtSent
    streams := e.streams.modify id fun st =>
      { st with
        sendPayload := if payload then st.sendPayload + sent else st.sendPayload
        out := if done then rest else { front with off := off } :: rest }
    ev := e.ev ++ (if done then ackOf front else [])
    history := e.history ++
      ((if payload then [.accepted id sent] else []) ++ if done then ackTrace id front else []) }

/-- The peer stopped the stream: it is told to the application, and every
queued write is settled. -/
def surfaceStop (e : Endpoint) (id code : Nat) (out : List OutChunk) : Endpoint :=
  { e with
    streams := e.streams.modify id fun st => { st with out := [], finSent := true }
    ev := e.ev ++ .streamStopSending id ((H3.httpCodeToWebtransportCode code).getD code) ::
      out.flatMap ackOf
    history := e.history ++ out.flatMap (ackTrace id) }

/-- One pass of the loop of `flush_stream`. -/
def sendStep (id : Nat) (e : Endpoint) : Endpoint × Bool :=
  match e.streams.get id with
  | none => (e, false)
  | some st =>
      match st.out with
      | [] => (e, false)
      | front :: rest =>
          let remaining := front.data.length - front.off
          let amount := e.sendAmount st front
          if amount = 0 ∧ remaining ≠ 0 then (e, false)
          else match e.conn.streamSend id ((front.data.drop front.off).take amount) false with
            | (.ok sent, conn) =>
                (({ e with conn := conn } : Endpoint).advance id front rest (isPayload st front) sent,
                  decide (remaining ≤ sent))
            | (.error (.streamStopped code), conn) =>
                (({ e with conn := conn } : Endpoint).surfaceStop id code st.out, false)
            | (.error _, conn) => ({ e with conn := conn }, false)

/-- The end of `flush_stream`: the FIN behind an empty queue.  An early return
of the loop leaves the queue nonempty or `fin_sent` set. -/
def sendFin (e : Endpoint) (id : Nat) : Endpoint :=
  match e.streams.get id with
  | none => e
  | some st =>
      if st.out.isEmpty && st.finQueued && !st.finSent then
        match e.conn.streamSend id [] true with
        | (.ok _, conn) =>
            ({ e with conn := conn } : Endpoint).modifyStream id fun st => { st with finSent := true }
        | (.error _, conn) => { e with conn := conn }
      else e

/-- How many passes the loop of `flush_stream` may take. -/
def queueLength (e : Endpoint) (id : Nat) : Nat :=
  ((e.streams.get id).map fun st => st.out.length).getD 0

/-- `flush_stream`. -/
def flushStream (e : Endpoint) (id : Nat) : Endpoint :=
  let e1 := e.reconcileSendFinalSize id
  (iterate (sendStep id) (e1.queueLength id + 1) e1).sendFin id

/-- Books what the send loop put out and ends the scope of its counter. -/
def commitSent (e : Endpoint) : Endpoint :=
  { e with fcDataSent := e.fcDataSent + e.wtSent, wtSent := 0 }

/-! ## BLOCKED signals -/

/-- Payload is waiting on a data stream. -/
def hasPendingPayload (e : Endpoint) : Bool :=
  e.streams.any fun _ st => st.role.isWtData && st.out.any fun c => c.requestId.isSome

def signalDataBlocked (e : Endpoint) : Endpoint :=
  if e.fcMaxDataRemote ≤ e.fcDataSent ∧ e.dataBlockedAt ≠ some e.fcMaxDataRemote ∧
      e.hasPendingPayload then
    { e.queueSessionCapsule H3.wtDataBlockedCapsule e.fcMaxDataRemote with
      dataBlockedAt := some e.fcMaxDataRemote }
  else e

def streamsBlockedAt (e : Endpoint) (bidi : Bool) : Option Nat :=
  if bidi then e.streamsBidiBlockedAt else e.streamsUniBlockedAt

def streamsBlockedCapsule (bidi : Bool) : Nat :=
  if bidi then H3.wtStreamsBlockedBidiCapsule else H3.wtStreamsBlockedUniCapsule

def signalStreamsBlocked (e : Endpoint) (bidi : Bool) : Endpoint :=
  let limit := e.fcMaxStreamsRemote bidi
  if limit ≤ e.opened bidi ∧ (e.pendingOpens.any fun p => p.1 == bidi) ∧
      e.streamsBlockedAt bidi ≠ some limit then
    let e1 := e.queueSessionCapsule (streamsBlockedCapsule bidi) limit
    if bidi then { e1 with streamsBidiBlockedAt := some limit }
    else { e1 with streamsUniBlockedAt := some limit }
  else e

/-- `signal_flow_control_blocked`. -/
def signalFlowControlBlocked (e : Endpoint) : Endpoint :=
  if !e.usesSessionFlowControl ∨ e.closed then e
  else ((e.signalDataBlocked).signalStreamsBlocked true).signalStreamsBlocked false

/-! ## Pruning and closing -/

/-- The predicate of `retain`: CONNECT, our control plane, and every stream one
of whose directions is not over. -/
def retains (isServer : Bool) (id : Nat) (st : Stream) : Bool :=
  if id = connectId ∨ st.role = .localControlPlane then true
  else
    let isUni := id / 2 % 2 == 1
    let ourInit := if isServer then id % 2 == 1 else id % 2 == 0
    let canRecv := !isUni || !ourInit
    let canSend := !isUni || ourInit
    let recvDone := !canRecv || st.recvDead
    let sendDone := !canSend || (st.finSent && st.out.isEmpty)
    !(recvDone && sendDone)

/-- Drops the streams both of whose directions are over. -/
def prune (e : Endpoint) : Endpoint :=
  { e with
    streams := e.streams.filter (retains e.cfg.isServer)
    heap := e.streams.keys.foldl
      (fun h id => match e.streams.get id with
        | some st => if retains e.cfg.isServer id st then h else st.release h
        | none => h) e.heap }

/-- Everything queued on the CONNECT stream is out, the FIN included. -/
def connectDrained (e : Endpoint) : Bool :=
  match e.streams.get connectId with
  | some st => st.out.isEmpty && st.finSent
  | none => true

/-- Arms the QUIC close once the CONNECT stream is drained. -/
def armQuicClose (e : Endpoint) : Endpoint :=
  match e.wantQuicClose, e.closeReq with
  | none, some req =>
      if req.capsuleQueued ∧ e.connectDrained then
        { e with wantQuicClose := some (req.code, req.reason) }
      else e
  | _, _ => e

/-- The graceful QUIC close, a flush pass after it was armed. -/
def gracefulClose (e : Endpoint) : Endpoint :=
  if e.quicCloseIssued then e
  else
    let e1 := e.armQuicClose
    if e1.wantQuicClose.isSome then
      if e1.closeDeferredOnce then
        ({ e1 with wantQuicClose := none, quicCloseIssued := true } : Endpoint).closeConn
          H3.h3NoError []
      else { e1 with closeDeferredOnce := true }
    else e1

/-- `flush`. -/
def flush (order : HashOrder) (e : Endpoint) : Endpoint :=
  let e1 := e.takeTerminalError.grantCredit.replenish.queueClose.releasePendingOpens
  let e2 := (order.order e1.streams.keys).foldl flushStream e1
  e2.commitSent.signalFlowControlBlocked.prune.gracefulClose

/-- `local_close_info`. -/
def localCloseInfo (e : Endpoint) : Option (Nat × Bytes) := e.closeReq.map fun r => (r.code, r.reason)

end Endpoint

end RWebTransport
