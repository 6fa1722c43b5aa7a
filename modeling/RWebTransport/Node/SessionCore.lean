import RWebTransport.Lib.Table
import RWebTransport.Lib.Run
import RWebTransport.H3.Headers

/-!
# The session object of the JavaScript side

`SessionCore` of `native.ts` with the stream objects of `streams.ts` and the
session surface of `webtransport.ts`: promises, the maps of pending requests and
stream sinks, and the terminal transition.

A promise is settled once.  The continuation of `create*Stream` behind its
`await` runs on its own, some time after the promise it waits for was settled:
it is a step of its own here (`SessionCore.resume`).
-/

namespace RWebTransport.Node

/-! ## Promises -/

inductive ErrorSource where
  | stream
  | session
deriving DecidableEq, Repr

/-- `WebTransportError`. -/
structure WebTransportError where
  message : String
  source : ErrorSource
  streamErrorCode : Option Nat := none
deriving DecidableEq, Repr

/-- A promise. -/
inductive Settled (α : Type) where
  | pending
  | resolved (value : α)
  | rejected (error : WebTransportError)
deriving DecidableEq, Repr

namespace Settled

variable {α : Type}

/-- The first settlement counts. -/
def resolve (p : Settled α) (value : α) : Settled α :=
  match p with
  | .pending => .resolved value
  | p => p

def reject (p : Settled α) (error : WebTransportError) : Settled α :=
  match p with
  | .pending => .rejected error
  | p => p

theorem resolve_ne_pending (p : Settled α) (value : α) : p.resolve value ≠ .pending := by
  cases p <;> simp [resolve]

theorem reject_ne_pending (p : Settled α) (error : WebTransportError) : p.reject error ≠ .pending := by
  cases p <;> simp [reject]

end Settled

/-- `WebTransportCloseInfo`. -/
structure CloseInfo where
  closeCode : Nat
  reason : String
deriving DecidableEq, Repr

/-- The counters of a `stats` event. -/
structure ConnectionStats where
  bytesSent : Nat
  bytesReceived : Nat
  packetsSent : Nat
  packetsReceived : Nat
  packetsLost : Nat
  smoothedRtt : Nat
  rttVariation : Nat
  minRtt : Nat
deriving DecidableEq, Repr

/-- What a request resolves to. -/
inductive Result where
  | done
  | stream (id : Nat)
  | sent (sent : Bool)
  | stats (stats : ConnectionStats) (droppedIncoming : Nat)
  | keyingMaterial (data : Bytes)
deriving DecidableEq, Repr

/-! ## Events and commands -/

/-- `NativeEvent`, for one session. -/
inductive NativeEvent where
  | ready (protocol : Option String) (responseHeaders : List (String × String))
  | serverReady (protocol : Option String)
  | draining
  | closed (code : Nat) (reason : Bytes)
  | error (message : String)
  | datagram (data : Bytes)
  | stream (streamId : Nat) (bidi : Bool)
  | streamData (streamId : Nat) (data : Bytes)
  | streamFin (streamId : Nat)
  | streamReset (streamId code : Nat)
  | streamStopSending (streamId code : Nat)
  | streamOpened (requestId streamId : Nat)
  | writeAck (requestId : Nat)
  | datagramAck (requestId : Nat) (sent : Bool)
  | stats (requestId : Nat) (stats : ConnectionStats)
  | keyingMaterial (requestId : Nat) (data : Option Bytes)
deriving DecidableEq, Repr

/-- A command on the session's transport. -/
inductive Command where
  | openStream (bidi : Bool) (requestId : Nat)
  | write (streamId : Nat) (data : Bytes) (requestId : Nat)
  | fin (streamId : Nat)
  | reset (streamId code : Nat)
  | stopSending (streamId code : Nat)
  | setPaused (streamId : Nat) (paused : Bool)
  | sendDatagram (data : Bytes) (requestId : Nat)
  | closeSession (code : Nat) (reason : Bytes)
  | drain
  | getStats (requestId : Nat)
  | exportKeyingMaterial (requestId : Nat) (label context : Bytes) (length : Nat)
  | shutdown
deriving DecidableEq, Repr

/-! ## Stream objects -/

inductive Half where
  | receive
  | send
deriving DecidableEq, Repr

/-- What the application sees of one half of a stream. -/
inductive ObjectState where
  | active
  | closed
  | errored (error : WebTransportError)
deriving DecidableEq, Repr

/-- A `WebTransportReceiveStream` or a `WebTransportSendStream`. -/
structure StreamObject where
  streamId : Nat
  half : Half
  state : ObjectState := .active
  /-- Chunks the application has not read yet. -/
  queue : List Bytes := []
  /-- Reads that wait for a chunk. -/
  reads : Nat := 0

/-- `controller.error`; an object that is over stays as it is. -/
def StreamObject.fail (o : StreamObject) (error : WebTransportError) : StreamObject :=
  match o.state with
  | .active => { o with state := .errored error, queue := [], reads := 0 }
  | _ => o

/-- `controller.close`: waiting reads end. -/
def StreamObject.close (o : StreamObject) : StreamObject :=
  match o.state with
  | .active => { o with state := .closed, reads := 0 }
  | _ => o

/-- `controller.enqueue`. -/
def StreamObject.enqueue (o : StreamObject) (data : Bytes) : StreamObject :=
  if 0 < o.reads then { o with reads := o.reads - 1 } else { o with queue := o.queue ++ [data] }

/-- A read of the application. -/
def StreamObject.read (o : StreamObject) : StreamObject :=
  match o.queue with
  | [] => { o with reads := o.reads + 1 }
  | _ :: queue => { o with queue := queue }

/-- The high-water mark of a receive stream, in chunks. -/
def receiveHighWaterMark : Nat := 32

/-- The high-water mark of the queue of a direction of incoming streams. -/
def maxPendingIncomingStreams : Nat := 128

/-! ## The session -/

/-- What waits for something: requests, stream objects and the continuations of
`create*Stream`. -/
structure Registry where
  nextRequestId : Nat := 1
  /-- The promises of all requests so far. -/
  requests : Table (Settled Result) := .empty
  opens : Table Unit := .empty
  /-- Pending writes, with their stream. -/
  writes : Table Nat := .empty
  datagramAcks : Table Unit := .empty
  statsRequests : Table Unit := .empty
  keyingMaterialRequests : Table Unit := .empty
  /-- The stream object that listens to a stream. -/
  receives : Table Nat := .empty
  sends : Table Nat := .empty
  closedState : Bool := false
  /-- The stream objects so far. -/
  objects : Table StreamObject := .empty
  nextObject : Nat := 0
  /-- Calls of `create*Stream` that wait for their stream, with the direction. -/
  creating : Table Bool := .empty

/-- A session with the objects that belong to it. -/
structure SessionCore extends Registry where
  attached : Bool := false
  readyState : Bool := false
  failedState : Bool := false
  closeCalled : Bool := false
  lastStats : Option (ConnectionStats × Nat) := none
  cachedProtocol : String := ""
  cachedResponseHeaders : List (String × String) := []
  droppedIncomingDatagrams : Nat := 0
  ready : Settled Unit := .pending
  closed : Settled CloseInfo := .pending
  draining : Settled Unit := .pending
  /-- Commands issued on the transport, oldest first. -/
  commands : List Command := []
  /-- Streams of the peer the application has not taken, by direction. -/
  incoming : Bool → Nat := fun _ => 0
  incomingCancelled : Bool → Bool := fun _ => false

namespace SessionCore

/-- Issues a command on the transport, if it is attached. -/
def command (s : SessionCore) (c : Command) : SessionCore :=
  if s.attached then { s with commands := s.commands ++ [c] } else s

/-- `attach`. -/
def attach (s : SessionCore) : SessionCore := { s with attached := true }

def usable (s : SessionCore) : Bool := s.attached && !s.closedState

def deadError : WebTransportError := ⟨"session is closed", .session, none⟩

/-! ### The terminal transition -/

/-- `new TextDecoder().decode`: a byte order mark in front is dropped. -/
def decodeText (b : Bytes) : String :=
  H3.fromUtf8Lossy (if [0xef, 0xbb, 0xbf].isPrefixOf b then b.drop 3 else b)

/-- The lifecycle promises at the end of the session. -/
def settleLifecycle (s : SessionCore) (info : Option CloseInfo) (error : Option WebTransportError) :
    SessionCore :=
  let s1 := { s with draining := s.draining.resolve () }
  if !s1.readyState then
    let err := error.getD ⟨"session closed before it was established", .session, none⟩
    { s1 with ready := s1.ready.reject err, closed := s1.closed.reject err }
  else match error with
    | some err => { s1 with closed := s1.closed.reject err }
    | none => { s1 with closed := s1.closed.resolve (info.getD ⟨0, ""⟩) }

/-- Everything that is pending is settled, and the sinks are told. -/
def settleAll (s : SessionCore) (err : WebTransportError) : SessionCore :=
  { s with
    requests := (s.requests.modifyIf
        (fun i => s.opens.contains i || s.writes.contains i || s.statsRequests.contains i ||
          s.keyingMaterialRequests.contains i) fun p => p.reject err).modifyIf
      s.datagramAcks.contains fun p => p.resolve (.sent false)
    objects := s.objects.modifyIf
      (fun o => s.receives.any (fun _ v => v == o) || s.sends.any fun _ v => v == o)
      fun o => o.fail err
    opens := .empty
    writes := .empty
    datagramAcks := .empty
    statsRequests := .empty
    keyingMaterialRequests := .empty
    receives := .empty
    sends := .empty }

/-- `finish`. -/
def finish (s : SessionCore) (info : Option CloseInfo) (error : Option WebTransportError) :
    SessionCore :=
  if s.closedState then s
  else
    let s1 := { s with closedState := true, failedState := s.failedState || error.isSome }
    (((s1.settleLifecycle info error).settleAll
      (error.getD ⟨"session closed", .session, none⟩)).command .shutdown)

/-- `failSetup`, when its microtask runs. -/
def failSetup (s : SessionCore) (message : String) : SessionCore :=
  s.finish none (some ⟨message, .session, none⟩)

/-! ### Requests -/

/-- `nextId`, with a promise under the new id. -/
def newRequest (s : SessionCore) : SessionCore :=
  { s with
    nextRequestId := s.nextRequestId + 1
    requests := s.requests.insert s.nextRequestId .pending }

/-- `openStream`, awaited by `create*Stream`. -/
def createStream (s : SessionCore) (bidi : Bool) : SessionCore :=
  if !s.usable then s
  else
    let id := s.nextRequestId
    { s.newRequest.command (.openStream bidi id) with
      opens := s.opens.insert id ()
      creating := s.creating.insert id bidi }

/-- `write`. -/
def write (s : SessionCore) (streamId : Nat) (chunk : Bytes) : SessionCore :=
  if !s.usable then s
  else
    let id := s.nextRequestId
    { s.newRequest.command (.write streamId chunk id) with writes := s.writes.insert id streamId }

/-- `finStream`. -/
def finStream (s : SessionCore) (streamId : Nat) : SessionCore := s.command (.fin streamId)

/-- `resetStream`: the pending writes of the stream are rejected. -/
def resetStream (s : SessionCore) (streamId code : Nat) : SessionCore :=
  let code := code % 2 ^ 32
  let s1 := s.command (.reset streamId code)
  { s1 with
    requests := s1.requests.modifyIf (fun i => s1.writes.get i == some streamId) fun p =>
      p.reject ⟨"stream aborted", .stream, some code⟩
    writes := s1.writes.filter fun _ stream => stream != streamId }

/-- `stopSending`. -/
def stopSending (s : SessionCore) (streamId code : Nat) : SessionCore :=
  s.command (.stopSending streamId (code % 2 ^ 32))

/-- `setPaused`. -/
def setPaused (s : SessionCore) (streamId : Nat) (paused : Bool) : SessionCore :=
  s.command (.setPaused streamId paused)

/-- `sendDatagram`. -/
def sendDatagram (s : SessionCore) (chunk : Bytes) : SessionCore :=
  if !s.usable then s
  else
    let id := s.nextRequestId
    { s.newRequest.command (.sendDatagram chunk id) with
      datagramAcks := s.datagramAcks.insert id () }

/-- `getStats`. -/
def getStats (s : SessionCore) : SessionCore :=
  if !s.usable then s
  else
    let id := s.nextRequestId
    { s.newRequest.command (.getStats id) with statsRequests := s.statsRequests.insert id () }

/-- `exportKeyingMaterial`. -/
def exportKeyingMaterial (s : SessionCore) (label context : Bytes) (length : Nat) : SessionCore :=
  if length < 1 ∨ 4096 < length ∨ !s.usable then s
  else
    let id := s.nextRequestId
    { s.newRequest.command (.exportKeyingMaterial id label context length) with
      keyingMaterialRequests := s.keyingMaterialRequests.insert id () }

/-- `close`. -/
def close (s : SessionCore) (code : Nat) (reason : String) : SessionCore :=
  if s.closedState ∨ !s.attached then s
  else s.command (.closeSession (code % 2 ^ 32) (H3.asBytes reason))

/-- `abort`. -/
def abort (s : SessionCore) (message : String) : SessionCore :=
  if s.closedState then s
  else (s.close 0 message).finish none (some ⟨message, .session, none⟩)

/-- `WebTransportSession.close`: the first call counts. -/
def sessionClose (s : SessionCore) (code : Nat) (reason : String) : SessionCore :=
  if s.closeCalled then s else { s with closeCalled := true }.close code reason

/-- `drain`. -/
def drain (s : SessionCore) : SessionCore := s.command .drain

/-- `shutdown`. -/
def shutdown (s : SessionCore) : SessionCore := s.command .shutdown

/-! ### Stream objects -/

/-- The constructor of a stream object, which registers its sink. -/
def construct (s : SessionCore) (streamId : Nat) (half : Half) : SessionCore :=
  let s1 := { s with
    objects := s.objects.insert s.nextObject { streamId := streamId, half := half }
    nextObject := s.nextObject + 1 }
  match half with
  | .receive => { s1 with receives := s1.receives.insert streamId s.nextObject }
  | .send => { s1 with sends := s1.sends.insert streamId s.nextObject }

/-- The objects of one of our own streams. -/
def constructOwn (s : SessionCore) (streamId : Nat) (bidi : Bool) : SessionCore :=
  if bidi then (s.construct streamId .receive).construct streamId .send
  else s.construct streamId .send

/-- The continuation of `create*Stream` behind its `await`. -/
def resume (s : SessionCore) (requestId : Nat) : SessionCore :=
  match s.creating.get requestId, s.requests.get requestId with
  | some bidi, some (.resolved (.stream streamId)) =>
      { s with creating := s.creating.erase requestId }.constructOwn streamId bidi
  | some _, some (.rejected _) => { s with creating := s.creating.erase requestId }
  | _, _ => s

def unregisterReceive (s : SessionCore) (streamId : Nat) : SessionCore :=
  { s with receives := s.receives.erase streamId }

def unregisterSend (s : SessionCore) (streamId : Nat) : SessionCore :=
  { s with sends := s.sends.erase streamId }

def modifyObject (s : SessionCore) (object : Nat) (f : StreamObject → StreamObject) : SessionCore :=
  { s with objects := s.objects.modify object f }

/-- `onData` of a receive stream: the queue is the backpressure. -/
def onData (s : SessionCore) (object : Nat) (o : StreamObject) (data : Bytes) : SessionCore :=
  let s1 := s.modifyObject object fun o => o.enqueue data
  if receiveHighWaterMark ≤ (o.enqueue data).queue.length then s1.setPaused o.streamId true else s1

/-- `onFin`. -/
def onFin (s : SessionCore) (object : Nat) (o : StreamObject) : SessionCore :=
  (s.modifyObject object StreamObject.close).unregisterReceive o.streamId

/-- `onReset`. -/
def onReset (s : SessionCore) (object : Nat) (o : StreamObject) (code : Nat) : SessionCore :=
  (s.modifyObject object fun o => o.fail ⟨"stream reset by peer", .stream, some code⟩).unregisterReceive
    o.streamId

/-- `onStopSending`. -/
def onStopSending (s : SessionCore) (object : Nat) (o : StreamObject) (code : Nat) : SessionCore :=
  (s.modifyObject object fun o => o.fail ⟨"peer sent STOP_SENDING", .stream, some code⟩).unregisterSend
    o.streamId

/-! ### Streams of the peer -/

/-- `onBidi` and `onUni`. -/
def onIncoming (s : SessionCore) (streamId : Nat) (bidi : Bool) : SessionCore :=
  if s.incomingCancelled bidi then
    let s1 := s.stopSending streamId 0
    if bidi then s1.resetStream streamId 0 else s1
  else if maxPendingIncomingStreams ≤ s.incoming bidi then
    s.abort (if bidi then "incoming stream queue limit exceeded (bidirectional)"
      else "incoming stream queue limit exceeded (unidirectional)")
  else
    let s1 := s.construct streamId .receive
    { (if bidi then s1.construct streamId .send else s1) with
      incoming := fun b => if b = bidi then s.incoming b + 1 else s.incoming b }

/-! ### Dispatch -/

/-- Applies what a sink does, if one is registered. -/
def withSink (s : SessionCore) (sinks : Table Nat) (streamId : Nat)
    (f : Nat → StreamObject → SessionCore) : SessionCore :=
  match sinks.get streamId with
  | none => s
  | some object =>
      match s.objects.get object with
      | none => s
      | some o => f object o

/-- Settles a request. -/
def settle (s : SessionCore) (requestId : Nat) (f : Settled Result → Settled Result) : SessionCore :=
  { s with requests := s.requests.modify requestId f }

/-- `dispatch`. -/
def dispatch (s : SessionCore) (ev : NativeEvent) : SessionCore :=
  if s.closedState then s
  else match ev with
    | .ready protocol headers =>
        { s with
          readyState := true, cachedProtocol := protocol.getD "", cachedResponseHeaders := headers
          ready := s.ready.resolve () }
    | .serverReady protocol =>
        { s with
          readyState := true, cachedProtocol := protocol.getD "", ready := s.ready.resolve () }
    | .draining => { s with draining := s.draining.resolve () }
    | .closed code reason => s.finish (some ⟨code, decodeText reason⟩) none
    | .error message => s.finish none (some ⟨message, .session, none⟩)
    | .datagram _ => s
    | .stream streamId bidi => s.onIncoming streamId bidi
    | .streamData streamId data => s.withSink s.receives streamId fun i o => s.onData i o data
    | .streamFin streamId => s.withSink s.receives streamId fun i o => s.onFin i o
    | .streamReset streamId code => s.withSink s.receives streamId fun i o => s.onReset i o code
    | .streamStopSending streamId code =>
        s.withSink s.sends streamId fun i o => s.onStopSending i o code
    | .streamOpened requestId streamId =>
        if s.opens.contains requestId then
          { s.settle requestId (fun p => p.resolve (.stream streamId)) with
            opens := s.opens.erase requestId }
        else s
    | .writeAck requestId =>
        if s.writes.contains requestId then
          { s.settle requestId (fun p => p.resolve .done) with writes := s.writes.erase requestId }
        else s
    | .datagramAck requestId sent =>
        if s.datagramAcks.contains requestId then
          { s.settle requestId (fun p => p.resolve (.sent sent)) with
            datagramAcks := s.datagramAcks.erase requestId }
        else s
    | .stats requestId stats =>
        let s1 := { s with lastStats := some (stats, s.droppedIncomingDatagrams) }
        if s.statsRequests.contains requestId then
          { s1.settle requestId (fun p => p.resolve (.stats stats s.droppedIncomingDatagrams)) with
            statsRequests := s.statsRequests.erase requestId }
        else s1
    | .keyingMaterial requestId data =>
        if s.keyingMaterialRequests.contains requestId then
          { s.settle requestId (fun p => match data with
              | some data => p.resolve (.keyingMaterial data)
              | none => p.reject ⟨"keying material export failed", .session, none⟩) with
            keyingMaterialRequests := s.keyingMaterialRequests.erase requestId }
        else s

/-! ### What the application does with a stream object -/

/-- The object, while it is active. -/
def activeObject (s : SessionCore) (object : Nat) (half : Half) : Option StreamObject :=
  (s.objects.get object).filter fun o => decide (o.half = half ∧ o.state = .active)

/-- The sink's `write`. -/
def sinkWrite (s : SessionCore) (object : Nat) (chunk : Bytes) : SessionCore :=
  match s.activeObject object .send with
  | some o => s.write o.streamId chunk
  | none => s

/-- The sink's `close`. -/
def sinkClose (s : SessionCore) (object : Nat) : SessionCore :=
  match s.activeObject object .send with
  | some o =>
      ((s.finStream o.streamId).modifyObject object StreamObject.close).unregisterSend o.streamId
  | none => s

/-- `abortNative`, for the reason `error`. -/
def sinkAbort (s : SessionCore) (object : Nat) (error : WebTransportError) : SessionCore :=
  match s.activeObject object .send with
  | some o =>
      ((s.resetStream o.streamId (error.streamErrorCode.getD 0)).modifyObject object fun o =>
        o.fail error).unregisterSend o.streamId
  | none => s

/-- The source's `cancel`. -/
def sourceCancel (s : SessionCore) (object code : Nat) : SessionCore :=
  match s.activeObject object .receive with
  | some o =>
      ((s.stopSending o.streamId code).modifyObject object StreamObject.close).unregisterReceive
        o.streamId
  | none => s

/-- A read of the application, and the source's `pull` behind it. -/
def sourceRead (s : SessionCore) (object : Nat) : SessionCore :=
  match s.activeObject object .receive with
  | some o => (s.modifyObject object StreamObject.read).setPaused o.streamId false
  | none => s

/-- The application takes an incoming stream. -/
def takeIncoming (s : SessionCore) (bidi : Bool) : SessionCore :=
  { s with incoming := fun b => if b = bidi then s.incoming b - 1 else s.incoming b }

/-- The application cancels a direction of incoming streams. -/
def cancelIncoming (s : SessionCore) (bidi : Bool) : SessionCore :=
  { s with
    incomingCancelled := fun b => if b = bidi then true else s.incomingCancelled b
    incoming := fun b => if b = bidi then 0 else s.incoming b }

end SessionCore

/-! ## Runs -/

/-- A step of the event loop: a native event, a call of the application, or a
continuation. -/
inductive Act where
  | attach
  | failSetup (message : String)
  | dispatch (ev : NativeEvent)
  | createStream (bidi : Bool)
  | resume (requestId : Nat)
  | sinkWrite (object : Nat) (chunk : Bytes)
  | sinkClose (object : Nat)
  | sinkAbort (object : Nat) (error : WebTransportError)
  | sourceCancel (object code : Nat)
  | sourceRead (object : Nat)
  | takeIncoming (bidi : Bool)
  | cancelIncoming (bidi : Bool)
  | sendDatagram (chunk : Bytes)
  | getStats
  | exportKeyingMaterial (label context : Bytes) (length : Nat)
  | close (code : Nat) (reason : String)
  | drain
  | recordDroppedIncomingDatagram

namespace SessionCore

/-- What a step does. -/
def act (s : SessionCore) : Act → SessionCore
  | .attach => s.attach
  | .failSetup message => s.failSetup message
  | .dispatch ev => s.dispatch ev
  | .createStream bidi => s.createStream bidi
  | .resume requestId => s.resume requestId
  | .sinkWrite object chunk => s.sinkWrite object chunk
  | .sinkClose object => s.sinkClose object
  | .sinkAbort object error => s.sinkAbort object error
  | .sourceCancel object code => s.sourceCancel object code
  | .sourceRead object => s.sourceRead object
  | .takeIncoming bidi => s.takeIncoming bidi
  | .cancelIncoming bidi => s.cancelIncoming bidi
  | .sendDatagram chunk => s.sendDatagram chunk
  | .getStats => s.getStats
  | .exportKeyingMaterial label context length => s.exportKeyingMaterial label context length
  | .close code reason => s.sessionClose code reason
  | .drain => s.drain
  | .recordDroppedIncomingDatagram =>
      { s with droppedIncomingDatagrams := s.droppedIncomingDatagrams + 1 }

end SessionCore

end RWebTransport.Node
