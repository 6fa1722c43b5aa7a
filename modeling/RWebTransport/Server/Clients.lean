import RWebTransport.Server.Loop
import RWebTransport.Server.Token
import RWebTransport.Session.Once

/-!
# The connections of a server

`run_inner` and `apply_command` of `server.rs` with all their connections: the
three maps `clients`, `routing` and `sessions`, the parser budget and the atomic
that the connections share, and the messages for the sink.

A connection id is a number here; the source only compares them.  A round is
one iteration of the loop.  What the sockets, quiche and the order of a
`HashMap` decide is part of the round.
-/

namespace RWebTransport.Server

open Endpoint (call)
open Quic (NetEvent Connection)

/-- `MAX_CONNECTIONS`. -/
def maxConnections : Nat := 16384

/-- `MAX_PARSER_MEMORY`. -/
def maxParserMemory : Nat := 64 * 1024 * 1024

/-- The part of `ServerSetup` that concerns sessions, and the secret of the
process. -/
structure Setup where
  supportedProtocols : List String := []
  allowedOrigins : Option (List String) := none
  responseHeaders : List (String × String) := []
  tokenSecret : Bytes

/-- `ServerMsg`, as far as it is about a session.  What `build_stats` and
`build_keying_material` answer is not looked at. -/
inductive ServerMsg where
  | session (id : Nat) (ev : Ev)
  | stats (id requestId : Nat)
  | keyingMaterial (id requestId : Nat)

/-- The id a message goes out under. -/
def ServerMsg.sessionId : ServerMsg → Nat
  | .session id _ | .stats id _ | .keyingMaterial id _ => id

/-- `ServerConn`. -/
structure Client where
  endpoint : Endpoint
  sessionId : Nat
  closedEmitted : Bool := false

/-- The state of the loop.  `out` holds the messages of the round. -/
structure Tables where
  /-- By connection id. -/
  clients : Table Client := .empty
  /-- From connection ids to connection ids. -/
  routing : Table Nat := .empty
  /-- From session ids to connection ids. -/
  sessions : Table Nat := .empty
  nextSessionId : Nat := 1
  heap : Heap
  /-- `DriverShared::max_datagram_size`. -/
  maxDatagramSize : Nat := 0
  out : List ServerMsg := []
  /-- What the sink was given, oldest first. -/
  emitted : List ServerMsg := []
  /-- The connections that were dropped, oldest first. -/
  reaped : List Client := []
  /-- The ids that sessions were given, oldest first. -/
  accepted : List Nat := []
  /-- The connections that had a writable datagram length when they were driven,
  with this length, oldest first. -/
  measured : List (Nat × Nat) := []
  /-- The loop has returned. -/
  stopped : Bool := false

/-- A packet with a header that parses, and what comes of it. -/
structure Packet where
  dcid : Nat
  /-- Its type is `Initial`. -/
  isInitial : Bool
  token : Bytes
  source : SocketAddr
  /-- The address of `source` as text, and its port. -/
  remote : String × Nat
  /-- The load of `inflight` finds too many batches. -/
  congested : Bool
  /-- `quiche::accept`. -/
  accept : Option Connection
  /-- The effects of `conn.recv`. -/
  received : List NetEvent

/-- What a command asks of a session. -/
inductive Request where
  | call (call : Call)
  | getStats (requestId : Nat)
  | exportKeyingMaterial (requestId : Nat)

/-- `ServerCommand`, but `Shutdown`. -/
structure ServerCommand where
  session : Nat
  request : Request

/-- What driving one connection meets. -/
structure Turn where
  /-- `conn.readable()`. -/
  readable : List Nat := []
  order : HashOrder := .asHeld
  /-- The effects of `conn.send`. -/
  sent : List NetEvent := []

/-- What one iteration meets. -/
structure Round where
  packets : List Packet := []
  /-- The effects of `conn.on_timeout`, by connection. -/
  timeouts : Nat → List NetEvent := fun _ => []
  commands : List ServerCommand := []
  /-- `Shutdown` follows the commands. -/
  shutdown : Bool := false
  backpressured : Bool := false
  /-- The order in which `clients` is visited. -/
  order : HashOrder := .asHeld
  turns : Nat → Turn := fun _ => {}
  /-- What `conn.is_closed()` comes with, where it holds at the end. -/
  closed : Nat → Option Closure := fun _ => none

/-- The buffers of a session that is dropped go back to their budget. -/
def dropped (e : Endpoint) : Heap :=
  e.streams.keys.foldl
    (fun h id => match e.streams.get id with
      | some st => st.release h
      | none => h)
    (e.heap.release e.capsuleBuf.memory e.capsuleBuf.capacity)

namespace Tables

/-- The state in front of the loop: the budget of the server is the first. -/
def start (allocator : Nat → Nat → Option Nat) : Tables where
  heap := ⟨[⟨maxParserMemory, 0, none⟩], 0, allocator⟩

/-- A connection on the shared budget. -/
def on (s : Tables) (c : Client) : Endpoint := { c.endpoint with heap := s.heap }

/-- A connection is left in a new state, and what it has told since goes out
under the given id. -/
def surface (s : Tables) (cid : Nat) (c : Client) (session : Nat) (e : Endpoint) : Tables :=
  { s with
    clients := s.clients.insert cid { c with endpoint := e }
    heap := e.heap
    out := s.out ++ (e.ev.drop c.endpoint.ev.length).map (.session session) }

/-- Something happens to a connection. -/
def visit (s : Tables) (cid : Nat) (f : Endpoint → Endpoint) : Tables :=
  match s.clients.get cid with
  | none => s
  | some c => s.surface cid c c.sessionId (f (s.on c))

/-- A connection that quiche has accepted. -/
def accept (setup : Setup) (s : Tables) (p : Packet) (conn : Connection) : Tables :=
  let endpoint := Endpoint.server p.remote setup.supportedProtocols setup.allowedOrigins
    setup.responseHeaders 0 conn s.heap
  { s with
    routing := s.routing.insert p.dcid p.dcid
    sessions := s.sessions.insert s.nextSessionId p.dcid
    clients := s.clients.insert p.dcid { endpoint := endpoint, sessionId := s.nextSessionId }
    nextSessionId := s.nextSessionId + 1
    accepted := s.accepted ++ [s.nextSessionId]
    heap := endpoint.heap }

/-- Where a packet goes, if anywhere: to a known connection, or to one that its
token allows to create. -/
def route (sha256 : Bytes → Bytes) (setup : Setup) (s : Tables) (p : Packet) : Tables × Option Nat :=
  match s.routing.get p.dcid with
  | some scid => (s, some scid)
  | none =>
      if !p.isInitial then (s, none)
      else if maxConnections ≤ s.clients.keys.length ∨ p.congested then (s, none)
      -- a stateless Retry
      else if p.token.isEmpty then (s, none)
      else match validateToken sha256 setup.tokenSecret p.source p.token with
        | none => (s, none)
        | some _ =>
            match p.accept with
            | none => (s, none)
            | some conn => (s.accept setup p conn, some p.dcid)

section

variable [H3.Codec]

/-- Effects of the network on a connection. -/
def network (events : List NetEvent) (e : Endpoint) : Endpoint :=
  execute call e (events.map .network)

def receive (sha256 : Bytes → Bytes) (setup : Setup) (s : Tables) (p : Packet) : Tables :=
  match s.route sha256 setup p with
  | (s', none) => s'
  | (s', some scid) => s'.visit scid (network p.received)

def timeout (r : Round) (s : Tables) (cid : Nat) : Tables := s.visit cid (network (r.timeouts cid))

/-- `apply_command`. -/
def applyCommand (s : Tables) (cmd : ServerCommand) : Tables :=
  match s.sessions.get cmd.session with
  | none => s
  | some scid =>
      match s.clients.get scid with
      | none => s
      | some c =>
          match cmd.request with
          | .call op => s.surface scid c cmd.session ((s.on c).call op)
          | .getStats requestId => { s with out := s.out ++ [.stats cmd.session requestId] }
          | .exportKeyingMaterial requestId =>
              { s with out := s.out ++ [.keyingMaterial cmd.session requestId] }

/-- The calls of the drive step. -/
def driveCalls (r : Round) (cid : Nat) (e : Endpoint) : List Call :=
  Server.drive e
    { received := [], commands := [], backpressured := r.backpressured
      readable := (r.turns cid).readable, order := (r.turns cid).order, sent := []
      closed := none, others := id }

/-- The drive step up to the publication of the datagram size. -/
def driveSession (r : Round) (cid : Nat) (e : Endpoint) : Endpoint :=
  closeEnded (execute call e (driveCalls r cid e))

/-- Stores the datagram size of a connection that has one. -/
def publish (s : Tables) (cid : Nat) : Tables :=
  match (s.clients.get cid).bind fun c => c.endpoint.conn.dgramMaxWritableLen with
  | some sz => { s with maxDatagramSize := sz - 1, measured := s.measured ++ [(cid, sz)] }
  | none => s

/-- Step 4, for one connection. -/
def drive (r : Round) (s : Tables) (cid : Nat) : Tables :=
  ((s.visit cid (driveSession r cid)).publish cid).visit cid (network (r.turns cid).sent)

/-- Step 5, first loop: the session of a closed connection ends. -/
def finish (r : Round) (s : Tables) (cid : Nat) : Tables :=
  match s.clients.get cid, r.closed cid with
  | some c, some how =>
      if c.closedEmitted then s
      else s.surface cid { c with closedEmitted := true } c.sessionId ((s.on c).endSession how)
  | _, _ => s

/-- Step 5, `clients.retain`: a closed connection is dropped. -/
def retain (r : Round) (s : Tables) (cid : Nat) : Tables :=
  match s.clients.get cid, r.closed cid with
  | some c, some _ =>
      { s with
        clients := s.clients.erase cid
        sessions := s.sessions.erase c.sessionId
        heap := dropped (s.on c)
        reaped := s.reaped ++ [c] }
  | _, _ => s

/-- Step 5, `routing.retain`. -/
def retainRouting (s : Tables) : Tables :=
  { s with routing := s.routing.filter fun _ scid => s.clients.contains scid }

/-- The messages of the round go to the sink. -/
def emit (s : Tables) : Tables := { s with emitted := s.emitted ++ s.out, out := [] }

/-- A phase that visits every connection. -/
def forClients (r : Round) (s : Tables) (f : Tables → Nat → Tables) : Tables :=
  execute f s (r.order.order s.clients.keys)

/-- Steps 1 and 2. -/
def received (sha256 : Bytes → Bytes) (setup : Setup) (s : Tables) (r : Round) : Tables :=
  (execute (receive sha256 setup) s r.packets).forClients r (timeout r)

/-- Steps 1 to 3. -/
def commanded (sha256 : Bytes → Bytes) (setup : Setup) (s : Tables) (r : Round) : Tables :=
  execute applyCommand (s.received sha256 setup r) r.commands

/-- The shutdown closes the connections. -/
def closeClient (r : Round) (s : Tables) (cid : Nat) : Tables :=
  s.visit cid fun e => network (r.turns cid).sent (e.closeConn 0 (H3.ascii "server shutdown"))

/-- The end of the loop. -/
def stop (r : Round) (s : Tables) : Tables :=
  { s.forClients r (closeClient r) with stopped := true }

/-- One iteration of the loop. -/
def act (sha256 : Bytes → Bytes) (setup : Setup) (s : Tables) (r : Round) : Tables :=
  if s.stopped then s
  else if r.shutdown then (s.commanded sha256 setup r).stop r
  else
    let driven := (s.commanded sha256 setup r).forClients r (drive r)
    (((driven.forClients r (finish r)).forClients r (retain r)).retainRouting).emit

end

/-- `serverMaxDatagramSize` of `lib.rs`, as `ServerTransport.maxDatagramSize` of
`native.ts` calls it for a session. -/
def serverMaxDatagramSize (s : Tables) (_session : Nat) : Nat := s.maxDatagramSize

end Tables

end RWebTransport.Server
