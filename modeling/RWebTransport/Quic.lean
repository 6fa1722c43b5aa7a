import RWebTransport.H3.Varint

/-!
# The QUIC connection

What a session sees of `quiche::Connection`: per-stream receive and send
buffers (`stream/recv_buf.rs`, `stream/send_buf.rs`) and the calls the session
makes (`stream_recv`, `stream_send`, `stream_shutdown`, the two final-size
queries, datagrams and `close`).  Reassembly and retransmission are below this
level: a receive buffer holds the contiguous unread bytes.

The history of a stream is kept next to its buffers (`RecvBuf.got`,
`SendBuf.data`).  No call reads it.
-/

namespace RWebTransport.Quic

/-- `quiche::Error`, as far as the stream calls return it. -/
inductive Error where
  | done
  | streamLimit
  | streamStopped (code : Nat)
  | streamReset (code : Nat)
  | finalSize
  | invalidStreamState
deriving DecidableEq, Repr

/-- The receive side of a stream. -/
structure RecvBuf where
  /-- The contiguous bytes not yet read. -/
  data : Bytes := []
  /-- The read offset. -/
  off : Nat := 0
  /-- The final size, once a FIN or a RESET told it. -/
  finOff : Option Nat := none
  /-- The code of a received RESET. -/
  error : Option Nat := none
  /-- Shut down by us: nothing is stored any more. -/
  drain : Bool := false
  /-- A zero-length buffer is queued to announce a FIN or a RESET. -/
  marker : Bool := false
  /-- The code of the STOP_SENDING we queued. -/
  stopCode : Option Nat := none
  /-- Every byte handed to the reader so far. -/
  got : Bytes := []
  /-- A read returned the FIN flag or the RESET error. -/
  ended : Bool := false

namespace RecvBuf

def ready (r : RecvBuf) : Bool := !r.data.isEmpty || r.marker

def isFin (r : RecvBuf) : Bool := r.finOff == some r.off

/-- `emit` on a buffer without a pending reset. -/
def emit (r : RecvBuf) (cap : Nat) : RecvBuf :=
  let out := r.data.take cap
  let r' := { r with data := r.data.drop cap, off := r.off + out.length, marker := false,
                     got := r.got ++ out }
  { r' with ended := r.ended || r'.isFin }

/-- `shutdown`: drop what is buffered and store nothing more.  The peer is
asked to stop unless everything has arrived. -/
def shutdown (r : RecvBuf) (code : Nat) : RecvBuf :=
  if r.drain then r
  else
    let r' := { r with drain := true, data := [], marker := false, off := r.off + r.data.length }
    if r'.isFin then r' else { r' with stopCode := some code }

end RecvBuf

/-- The send side of a stream. -/
@[ext] structure SendBuf where
  /-- Every byte accepted so far, in order. -/
  data : Bytes := []
  /-- The offset behind the last byte that is still to be delivered. -/
  off : Nat := 0
  /-- How many bytes have been serialized into packets. -/
  emitOff : Nat := 0
  /-- The peer's stream flow-control limit. -/
  maxData : Nat := 0
  /-- The final size, once FIN was accepted or the stream was reset. -/
  finOff : Option Nat := none
  /-- FIN was accepted by `stream_send`. -/
  fin : Bool := false
  /-- Reset by us. -/
  shut : Bool := false
  /-- The code of a received STOP_SENDING. -/
  error : Option Nat := none
  /-- The codes of the RESET frames we queued. -/
  resetCodes : List Nat := []
  /-- Everything up to the final size is acknowledged. -/
  complete : Bool := false

namespace SendBuf

/-- `reset`: what was not serialized is discarded, and a RESET is queued. -/
def reset (s : SendBuf) (code : Nat) : SendBuf :=
  { s with finOff := some s.emitOff, off := s.emitOff, complete := true
           resetCodes := s.resetCodes ++ [code] }

/-- `stop`, on a STOP_SENDING frame. -/
def stop (s : SendBuf) (code : Nat) : SendBuf :=
  if s.error.isSome then s else { s.reset code with error := some code }

/-- `shutdown`, on a local reset. -/
def shutdown (s : SendBuf) (code : Nat) : SendBuf :=
  if s.shut then s else { s.reset code with shut := true }

/-- `write` on a buffer that was not stopped: the buffer and the number of
bytes stored.  The checks against the final size use the full length. -/
def write (s : SendBuf) (bytes : Bytes) (fin : Bool) : Except Error (SendBuf × Nat) :=
  let maxOff := s.off + bytes.length
  let cap := s.maxData - s.off
  let len := min bytes.length cap
  let fin := fin && decide (bytes.length ≤ cap)
  if s.finOff.any (fun f => decide (f < maxOff) || (f == maxOff && !fin)) then .error .finalSize
  else
    .ok ({ s with data := s.data ++ bytes.take len, off := s.off + len,
                  finOff := if fin then some maxOff else s.finOff, fin := s.fin || fin }, len)

end SendBuf

/-- A stream: not yet created, live, or collected. -/
inductive Phase where
  | absent
  | live
  | collected
deriving DecidableEq, Repr

structure QStream where
  phase : Phase := .absent
  recv : RecvBuf := {}
  send : SendBuf := {}

/-- `ConnectionError`. -/
structure ConnectionError where
  isApp : Bool
  errorCode : Nat
  reason : Bytes
deriving DecidableEq, Repr

/-- The connection. -/
structure Connection where
  isServer : Bool
  streams : Nat → QStream := fun _ => {}
  /-- The connection-level send capacity. -/
  txCap : Nat := 0
  /-- The peer's limits on the streams we open, by `bidi`. -/
  peerMaxStreams : Bool → Nat := fun _ => 0
  /-- The initial send limit of a stream, by `bidi` and `local`. -/
  initialMaxData : Bool → Bool → Nat := fun _ _ => 0
  /-- Received datagrams, oldest first. -/
  dgramRecvQueue : List Bytes := []
  /-- The longest datagram that may be queued, while datagrams are usable. -/
  dgramMaxWritableLen : Option Nat := none
  /-- Datagrams handed over for sending. -/
  dgramsSent : List Bytes := []
  established : Bool := false
  /-- Closed or draining. -/
  terminated : Bool := false
  /-- The error `close` was called with. -/
  localError : Option ConnectionError := none

/-- The unidirectional bit of a stream id. -/
def isBidi (id : Nat) : Bool := id / 2 % 2 == 0

/-- Whether the stream id belongs to this endpoint. -/
def isLocal (id : Nat) (isServer : Bool) : Bool := id % 2 == (if isServer then 1 else 0)

/-- Whether both directions a stream has are complete. -/
def QStream.isComplete (s : QStream) (bidi localInit : Bool) : Bool :=
  match bidi, localInit with
  | true, _ => s.recv.isFin && s.send.complete
  | false, true => s.send.complete
  | false, false => s.recv.isFin

namespace Connection

def set (c : Connection) (id : Nat) (s : QStream) : Connection :=
  { c with streams := fun i => if i = id then s else c.streams i }

@[simp] theorem streams_set (c : Connection) (id : Nat) (s : QStream) (i : Nat) :
    (c.set id s).streams i = if i = id then s else c.streams i := rfl

@[simp] theorem isServer_set (c : Connection) (id : Nat) (s : QStream) :
    (c.set id s).isServer = c.isServer := rfl

def canRecv (c : Connection) (id : Nat) : Bool := isBidi id || !isLocal id c.isServer

def canSend (c : Connection) (id : Nat) : Bool := isBidi id || isLocal id c.isServer

def isComplete (c : Connection) (id : Nat) : Bool :=
  (c.streams id).isComplete (isBidi id) (isLocal id c.isServer)

/-- `collect`, for a stream that is complete. -/
def collectIf (c : Connection) (id : Nat) (cond : Bool) : Connection :=
  if cond then c.set id { c.streams id with phase := .collected } else c

/-- Membership in `readable()`. -/
def readable (c : Connection) (id : Nat) : Bool :=
  (c.streams id).phase == .live && (c.streams id).recv.ready

/-! ## Reading -/

/-- `stream_recv` into a buffer of `cap` bytes. -/
def streamRecv (c : Connection) (id cap : Nat) : Except Error (Bytes × Bool) × Connection :=
  if !c.canRecv id then (.error .invalidStreamState, c)
  else
    let s := c.streams id
    match s.phase with
    | .absent | .collected => (.error .invalidStreamState, c)
    | .live =>
        if !s.recv.ready then (.error .done, c)
        else match s.recv.error with
          | some code =>
              let r := { s.recv with data := [], marker := false, ended := true }
              let c' := c.set id { s with recv := r }
              (.error (.streamReset code), c'.collectIf id (c'.isComplete id))
          | none =>
              let r := s.recv.emit cap
              let c' := c.set id { s with recv := r }
              (.ok (s.recv.data.take cap, r.isFin), c'.collectIf id (c'.isComplete id))

/-- `stream_recv_final_size`. -/
def streamRecvFinalSize (c : Connection) (id : Nat) : Option Nat :=
  match (c.streams id).phase with
  | .live => (c.streams id).recv.finOff
  | _ => none

/-- `stream_send_final_size`. -/
def streamSendFinalSize (c : Connection) (id : Nat) : Option Nat :=
  match (c.streams id).phase with
  | .live => (c.streams id).send.finOff
  | _ => none

/-! ## Writing -/

/-- `get_or_create_stream` for a call of the application. -/
def getOrCreate (c : Connection) (id : Nat) : Except Error Connection :=
  match (c.streams id).phase with
  | .live => .ok c
  | .collected => .error .done
  | .absent =>
      if !isLocal id c.isServer then .error .invalidStreamState
      else if c.peerMaxStreams (isBidi id) < id / 4 + 1 then .error .streamLimit
      else .ok (c.set id { phase := .live, recv := {},
                           send := { maxData := c.initialMaxData (isBidi id) true } })

/-- `stream_send`: the number of bytes accepted, or the error. -/
def streamSend (c : Connection) (id : Nat) (bytes : Bytes) (fin : Bool) :
    Except Error Nat × Connection :=
  if !c.canSend id then (.error .invalidStreamState, c)
  else match c.getOrCreate id with
    | .error err => (.error err, c)
    | .ok c1 =>
        let s := c1.streams id
        match s.send.error with
        | some code =>
            (.error (.streamStopped code),
              c1.collectIf id (c1.isComplete id && !s.recv.ready))
        | none =>
            if c1.txCap = 0 ∧ bytes ≠ [] then (.error .done, c1)
            else
              let cap := min c1.txCap bytes.length
              match s.send.write (bytes.take cap) (fin && decide (bytes.length ≤ c1.txCap)) with
              | .error err => (.error err, c1)
              | .ok (send, sent) =>
                  let c2 := { c1.set id { s with send := send } with txCap := c1.txCap - sent }
                  if sent = 0 ∧ cap ≠ 0 then (.error .done, c2) else (.ok sent, c2)

/-! ## Shutting down -/

/-- `stream_shutdown(id, Read, err)`. -/
def streamShutdownRead (c : Connection) (id err : Nat) : Connection :=
  if c.canRecv id ∧ (c.streams id).phase = .live then
    c.set id { c.streams id with recv := (c.streams id).recv.shutdown err }
  else c

/-- `stream_shutdown(id, Write, err)`. -/
def streamShutdownWrite (c : Connection) (id err : Nat) : Connection :=
  if c.canSend id ∧ (c.streams id).phase = .live then
    c.set id { c.streams id with send := (c.streams id).send.shutdown err }
  else c

/-- `close`; only the first call has an effect. -/
def close (c : Connection) (app : Bool) (err : Nat) (reason : Bytes) : Connection :=
  if c.terminated ∨ c.localError.isSome then c
  else if app && !c.established then { c with localError := some ⟨false, 0x0c, []⟩ }
  else { c with localError := some ⟨app, err, reason⟩ }

/-! ## Datagrams -/

/-- `dgram_send`; the send queue takes what is short enough. -/
def dgramSend (c : Connection) (data : Bytes) : Bool × Connection :=
  if c.dgramMaxWritableLen.any fun n => decide (data.length ≤ n) then
    (true, { c with dgramsSent := c.dgramsSent ++ [data] })
  else (false, c)

/-- `dgram_recv` into the session's buffer of 64 KiB; a longer datagram is
popped as well and lost. -/
def dgramRecv (c : Connection) : Option Bytes × Connection :=
  match c.dgramRecvQueue with
  | [] => (none, c)
  | data :: rest =>
      (if 65536 < data.length then none else some data, { c with dgramRecvQueue := rest })

end Connection

/-! ## What the network does -/

/-- One effect of the network, the peer or the congestion controller. -/
inductive NetEvent where
  /-- Stream bytes become contiguous. -/
  | data (id : Nat) (bytes : Bytes)
  /-- The stream ends behind the bytes received so far. -/
  | fin (id : Nat)
  | reset (id code finalSize : Nat)
  | stopSending (id code : Nat)
  /-- Up to `n` bytes of the stream have been put into packets. -/
  | serialize (id n : Nat)
  /-- All bytes of the stream are acknowledged. -/
  | ack (id : Nat)
  | maxStreamData (id limit : Nat)
  | txCap (n : Nat)
  | maxStreams (bidi : Bool) (limit : Nat)
  | datagram (data : Bytes)
  | dgramMaxWritableLen (n : Option Nat)
  | established
  /-- A packet breaks the protocol, and quiche closes the connection. -/
  | failure (code : Nat)
  | terminated

namespace Connection

/-- The stream a frame of the peer is for, created if the peer may open it. -/
def forPeer (c : Connection) (id : Nat) : Option (Connection × QStream) :=
  match (c.streams id).phase with
  | .live => some (c, c.streams id)
  | .collected => none
  | .absent =>
      if isLocal id c.isServer then none
      else
        let s : QStream :=
          { phase := .live, recv := {}, send := { maxData := c.initialMaxData (isBidi id) false } }
        some (c.set id s, s)

/-- The effect of one network event.  What the protocol forbids, or quiche
ignores, changes nothing. -/
def net (c : Connection) : NetEvent → Connection
  | .data id bytes =>
      if !c.canRecv id then c
      else match c.forPeer id with
        | none => c
        | some (c', s) =>
            if s.recv.finOff.isSome then c'
            else if s.recv.drain then
              c'.set id { s with recv := { s.recv with off := s.recv.off + bytes.length } }
            else c'.set id { s with recv := { s.recv with data := s.recv.data ++ bytes } }
  | .fin id =>
      if !c.canRecv id then c
      else match c.forPeer id with
        | none => c
        | some (c', s) =>
            if s.recv.finOff.isSome then c'
            else c'.set id { s with recv := { s.recv with
              finOff := some (s.recv.off + s.recv.data.length)
              marker := !s.recv.drain && s.recv.data.isEmpty } }
  | .reset id code finalSize =>
      if !c.canRecv id then c
      else match c.forPeer id with
        | none => c
        | some (c', s) =>
            if s.recv.error.isSome ∨ s.recv.finOff.any (fun f => f != finalSize) ∨
                finalSize < s.recv.off + s.recv.data.length then c'
            else c'.set id { s with recv := { s.recv with
              data := [], off := finalSize, finOff := some finalSize, error := some code
              -- behind a known final size no zero-length buffer is queued
              marker := !s.recv.drain && s.recv.finOff.isNone } }
  | .stopSending id code =>
      if !c.canSend id then c
      else match c.forPeer id with
        | none => c
        | some (c', s) => c'.set id { s with send := s.send.stop code }
  | .serialize id n =>
      let s := c.streams id
      if s.phase = .live ∧ s.send.error = none ∧ s.send.shut = false then
        c.set id { s with send := { s.send with emitOff := max s.send.emitOff (min n s.send.off) } }
      else c
  | .ack id =>
      let s := c.streams id
      if s.phase = .live ∧ s.send.finOff = some s.send.off ∧ s.send.emitOff = s.send.off then
        let c' := c.set id { s with send := { s.send with complete := true } }
        c'.collectIf id (c'.isComplete id && !s.recv.ready && s.send.error.isNone)
      else c
  | .maxStreamData id limit =>
      let s := c.streams id
      if s.phase = .live then
        c.set id { s with send := { s.send with maxData := max s.send.maxData limit } }
      else c
  | .txCap n => { c with txCap := n }
  | .maxStreams bidi limit =>
      { c with peerMaxStreams := fun b =>
          if b = bidi then max (c.peerMaxStreams b) limit else c.peerMaxStreams b }
  | .datagram data => { c with dgramRecvQueue := c.dgramRecvQueue ++ [data] }
  | .dgramMaxWritableLen n => { c with dgramMaxWritableLen := n }
  | .established => { c with established := true }
  | .failure code => c.close false code []
  | .terminated => { c with terminated := true }

end Connection

end RWebTransport.Quic
