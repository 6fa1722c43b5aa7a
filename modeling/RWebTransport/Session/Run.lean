import RWebTransport.Session.Send

/-!
# Runs of a session

A run is a list of calls: the methods a driver calls on a session, and what the
network does to its connection in between.  `Call.steps` takes a call apart
into the steps it consists of (the reads of `on_readable`, the parts of
`flush`), so that a property is proved for one step and holds for every run.

`Call.Admissible` is what the callers promise: `on_readable` is called for
streams that quiche reports readable, and the stream commands name streams that
the session has told the application about.
-/

namespace RWebTransport

open Quic (NetEvent Connection)

/-- A call of the driver, or an effect of the network. -/
inductive Call where
  | onEstablished
  | onReadable (id : Nat) (backpressured : Bool)
  | onDatagrams
  | sendDatagram (data : Bytes) (requestId : Nat)
  | openStream (bidi : Bool) (requestId : Nat)
  | streamWrite (id : Nat) (data : Bytes) (requestId : Nat)
  | streamFin (id : Nat)
  | streamReset (id code : Nat)
  | streamStopSending (id code : Nat)
  | setPaused (id : Nat) (paused : Bool)
  | close (code : Nat) (reason : Bytes)
  | sendDrain
  | flush (order : HashOrder)
  | markClosed (code : Nat) (reason : Bytes) (remote : Bool)
  | network (event : NetEvent)

/-- A step of a call. -/
inductive Step where
  | onEstablished
  | touch (id : Nat)
  | read (id : Nat) (backpressured : Bool)
  | onDatagrams
  | sendDatagram (data : Bytes) (requestId : Nat)
  | openStream (bidi : Bool) (requestId : Nat)
  | streamWrite (id : Nat) (data : Bytes) (requestId : Nat)
  | streamFin (id : Nat)
  | streamReset (id code : Nat)
  | streamStopSending (id code : Nat)
  | setPaused (id : Nat) (paused : Bool)
  | close (code : Nat) (reason : Bytes)
  | sendDrain
  | takeTerminalError
  | grantCredit
  | replenish
  | queueClose
  | releasePendingOpens
  | flushStream (id : Nat)
  | commitSent
  | signalFlowControlBlocked
  | prune
  | gracefulClose
  | markClosed (code : Nat) (reason : Bytes) (remote : Bool)
  | network (event : NetEvent)

namespace Endpoint

/-- The application knows the stream. -/
def Surfaced (e : Endpoint) (id : Nat) : Prop :=
  (∃ requestId, .streamOpened requestId id ∈ e.ev) ∨ ∃ bidi, .incomingStream id bidi ∈ e.ev

/-- The application knows the stream as one it may write to. -/
def Writable (e : Endpoint) (id : Nat) : Prop :=
  (∃ requestId, .streamOpened requestId id ∈ e.ev) ∨ .incomingStream id true ∈ e.ev

theorem Writable.surfaced {e : Endpoint} {id : Nat} (h : e.Writable id) : e.Surfaced id :=
  h.imp_right fun h => ⟨true, h⟩

/-- The event tells that a stream was opened for the application. -/
def opensStream (id : Nat) : Ev → Bool
  | .streamOpened _ i => i == id
  | _ => false

instance (e : Endpoint) (id : Nat) : Decidable (∃ requestId, .streamOpened requestId id ∈ e.ev) :=
  decidable_of_iff (e.ev.any (opensStream id) = true) <| by
    simp only [List.any_eq_true]
    constructor
    · rintro ⟨v, hv, hopens⟩
      cases v with
      | streamOpened requestId i =>
          rw [← beq_iff_eq.mp hopens]
          exact ⟨requestId, hv⟩
      | _ => cases hopens
    · rintro ⟨requestId, hv⟩
      exact ⟨_, hv, by simp [opensStream]⟩

instance (e : Endpoint) (id : Nat) : Decidable (∃ bidi, .incomingStream id bidi ∈ e.ev) :=
  decidable_of_iff (.incomingStream id true ∈ e.ev ∨ .incomingStream id false ∈ e.ev) <| by
    simp only [Bool.exists_bool]
    exact or_comm

instance (e : Endpoint) (id : Nat) : Decidable (e.Writable id) :=
  inferInstanceAs (Decidable (_ ∨ _))

instance (e : Endpoint) (id : Nat) : Decidable (e.Surfaced id) :=
  inferInstanceAs (Decidable (_ ∨ _))

theorem touch_closed (e : Endpoint) (id : Nat) : (e.touch id).closed = e.closed := by
  unfold touch
  split <;> rfl

variable [H3.Codec]

/-- What a call does. -/
def call (e : Endpoint) : Call → Endpoint
  | .onEstablished => e.onEstablished
  | .onReadable id backpressured => e.onReadable id backpressured
  | .onDatagrams => e.onDatagrams
  | .sendDatagram data requestId => e.sendDatagram data requestId
  | .openStream bidi requestId => e.openStream bidi requestId
  | .streamWrite id data requestId => e.streamWrite id data requestId
  | .streamFin id => e.streamFin id
  | .streamReset id code => e.streamReset id code
  | .streamStopSending id code => e.streamStopSending id code
  | .setPaused id paused => e.setPaused id paused
  | .close code reason => e.close code reason
  | .sendDrain => e.sendDrain
  | .flush order => e.flush order
  | .markClosed code reason remote => e.markClosed code reason remote
  | .network event => { e with conn := e.conn.net event }

/-- What a step does. -/
def step (e : Endpoint) : Step → Endpoint
  | .onEstablished => e.onEstablished
  | .touch id => e.touch id
  | .read id backpressured => (readStep id backpressured e).1
  | .onDatagrams => e.onDatagrams
  | .sendDatagram data requestId => e.sendDatagram data requestId
  | .openStream bidi requestId => e.openStream bidi requestId
  | .streamWrite id data requestId => e.streamWrite id data requestId
  | .streamFin id => e.streamFin id
  | .streamReset id code => e.streamReset id code
  | .streamStopSending id code => e.streamStopSending id code
  | .setPaused id paused => e.setPaused id paused
  | .close code reason => e.close code reason
  | .sendDrain => e.sendDrain
  | .takeTerminalError => e.takeTerminalError
  | .grantCredit => e.grantCredit
  | .replenish => e.replenish
  | .queueClose => e.queueClose
  | .releasePendingOpens => e.releasePendingOpens
  | .flushStream id => e.flushStream id
  | .commitSent => e.commitSent
  | .signalFlowControlBlocked => e.signalFlowControlBlocked
  | .prune => e.prune
  | .gracefulClose => e.gracefulClose
  | .markClosed code reason remote => e.markClosed code reason remote
  | .network event => { e with conn := e.conn.net event }

/-! ## Taking a call apart -/

/-- The passes of the loop of `on_readable`. -/
def reads (id : Nat) (backpressured : Bool) : Nat → Endpoint → List Step
  | 0, _ => []
  | n + 1, e =>
      .read id backpressured ::
        if (readStep id backpressured e).2 then
          reads id backpressured n (readStep id backpressured e).1
        else []

/-- The part of `flush` in front of the send loop. -/
def flushHead : List Step :=
  [.takeTerminalError, .grantCredit, .replenish, .queueClose, .releasePendingOpens]

/-- The part of `flush` behind the send loop. -/
def flushTail : List Step := [.commitSent, .signalFlowControlBlocked, .prune, .gracefulClose]

/-- The ids `flush` visits. -/
def flushIds (order : HashOrder) (e : Endpoint) : List Nat :=
  order.order (execute step e flushHead).streams.keys

/-- The steps of a call. -/
def steps (e : Endpoint) : Call → List Step
  | .onEstablished => [.onEstablished]
  | .onReadable id backpressured =>
      if e.closed then []
      else
        let e1 := e.touch id
        .touch id :: if e1.mayRead id backpressured then
          reads id backpressured ((e1.conn.streams id).recv.data.length + 1) e1
        else []
  | .onDatagrams => [.onDatagrams]
  | .sendDatagram data requestId => [.sendDatagram data requestId]
  | .openStream bidi requestId => [.openStream bidi requestId]
  | .streamWrite id data requestId => [.streamWrite id data requestId]
  | .streamFin id => [.streamFin id]
  | .streamReset id code => [.streamReset id code]
  | .streamStopSending id code => [.streamStopSending id code]
  | .setPaused id paused => [.setPaused id paused]
  | .close code reason => [.close code reason]
  | .sendDrain => [.sendDrain]
  | .flush order => flushHead ++ ((flushIds order e).map .flushStream ++ flushTail)
  | .markClosed code reason remote => [.markClosed code reason remote]
  | .network event => [.network event]

theorem execute_reads (id : Nat) (backpressured : Bool) : ∀ (n : Nat) (e : Endpoint),
    execute step e (reads id backpressured n e) = iterate (readStep id backpressured) n e
  | 0, _ => rfl
  | n + 1, e => by
      rw [reads, iterate, execute_cons]
      split
      · exact execute_reads id backpressured n _
      · rfl

theorem mem_reads {id : Nat} {backpressured : Bool} {s : Step} : ∀ {n : Nat} {e : Endpoint},
    s ∈ reads id backpressured n e → s = .read id backpressured
  | 0, _, hs => by cases hs
  | n + 1, e, hs => by
      rw [reads] at hs
      rcases List.mem_cons.mp hs with rfl | hs
      · rfl
      · split at hs
        · exact mem_reads hs
        · cases hs

theorem execute_flushStream (ids : List Nat) (e : Endpoint) :
    execute step e (ids.map .flushStream) = ids.foldl flushStream e := by
  induction ids generalizing e with
  | nil => rfl
  | cons id ids ih => exact ih _

/-- A call is the execution of its steps. -/
theorem call_eq (e : Endpoint) (c : Call) : e.call c = execute step e (e.steps c) := by
  cases c with
  | onReadable id backpressured =>
      simp only [call, steps, onReadable]
      split
      · rfl
      · rw [execute_cons]
        split
        · exact (execute_reads id backpressured _ _).symm
        · rfl
  | flush order =>
      simp only [call, steps, execute_append, execute_flushStream]
      rfl
  | _ => rfl

/-! ## What callers promise -/

/-- The contract of a call. -/
def Admissible (e : Endpoint) : Call → Prop
  | .onReadable id _ => e.conn.readable id = true
  | .streamWrite id _ _ | .streamFin id | .streamReset id _ => e.Writable id
  | .streamStopSending id _ | .setPaused id _ => e.Surfaced id
  | _ => True

instance (e : Endpoint) : (c : Call) → Decidable (e.Admissible c)
  | .onReadable id _ => inferInstanceAs (Decidable (e.conn.readable id = true))
  | .streamWrite id _ _ | .streamFin id | .streamReset id _ => inferInstanceAs (Decidable (e.Writable id))
  | .streamStopSending id _ | .setPaused id _ => inferInstanceAs (Decidable (e.Surfaced id))
  | .onEstablished | .onDatagrams | .sendDatagram _ _ | .openStream _ _ | .close _ _ | .sendDrain
  | .flush _ | .markClosed _ _ _ | .network _ => .isTrue trivial

/-- What the contract of a call says about its steps. -/
def StepAdmissible (e : Endpoint) : Step → Prop
  | .touch id => e.closed = false ∧ e.conn.readable id = true
  | .read _ _ => e.closed = false
  | .streamWrite id _ _ | .streamFin id | .streamReset id _ => e.Writable id
  | .streamStopSending id _ | .setPaused id _ => e.Surfaced id
  | _ => True

/-- The loop goes on only while the session is open. -/
theorem readStep_open {id : Nat} {backpressured : Bool} {e : Endpoint} (he : e.closed = false)
    (h : (readStep id backpressured e).2 = true) :
    (readStep id backpressured e).1.closed = false := by
  unfold readStep at h ⊢
  cases hg : e.streams.get id with
  | none => exact he
  | some st =>
      simp only [hg] at h ⊢
      split_ifs at h ⊢ with hb
      split at h
      · simp only [Bool.and_eq_true, Bool.not_eq_true'] at h
        exact h.1.1
      · cases h
      · cases h

theorem reads_admissible (id : Nat) (backpressured : Bool) : ∀ (n : Nat) (e : Endpoint),
    e.closed = false → Along step StepAdmissible e (reads id backpressured n e)
  | 0, _, _ => trivial
  | n + 1, e, he => by
      rw [reads]
      refine ⟨he, ?_⟩
      split
      next hgo => exact reads_admissible id backpressured n _ (readStep_open he hgo)
      · exact trivial

theorem flushStream_admissible (ids : List Nat) (e : Endpoint) :
    Along step StepAdmissible e (ids.map .flushStream) := by
  induction ids generalizing e with
  | nil => trivial
  | cons id ids ih => exact ⟨trivial, ih _⟩

/-- The steps of an admissible call are admissible. -/
theorem steps_admissible {e : Endpoint} {c : Call} (h : e.Admissible c) :
    Along step StepAdmissible e (e.steps c) := by
  cases c with
  | onReadable id backpressured =>
      simp only [steps]
      split
      · exact trivial
      next hclosed =>
        refine ⟨⟨by simpa using hclosed, h⟩, ?_⟩
        split
        · exact reads_admissible id backpressured _ _ (by simpa [step, touch_closed] using hclosed)
        · exact trivial
  | flush order =>
      simp only [steps]
      exact along_append.mpr ⟨⟨trivial, trivial, trivial, trivial, trivial, trivial⟩,
        along_append.mpr ⟨flushStream_admissible _ _,
          ⟨trivial, trivial, trivial, trivial, trivial⟩⟩⟩
  | _ => exact ⟨h, trivial⟩

/-! ## Runs -/

/-- Every step of a call meets `P` in the state it is taken in. -/
def Meets (P : Endpoint → Step → Prop) (e : Endpoint) (c : Call) : Prop :=
  e.Admissible c ∧ Along step P e (e.steps c)

/-- What every admitted step preserves is preserved by every call. -/
theorem call_invariant {P : Endpoint → Step → Prop} {I : Endpoint → Prop}
    (hstep : ∀ e s, I e → e.StepAdmissible s → P e s → I (e.step s)) {e : Endpoint} {c : Call}
    (hI : I e) (hc : e.Meets P c) : I (e.call c) := by
  rw [call_eq]
  exact execute_invariant (fun e s hI hs => hstep e s hI hs.1 hs.2) hI
    (along_and (steps_admissible hc.1) hc.2)

/-- What every admitted step preserves holds throughout a run. -/
theorem run_invariant {P : Endpoint → Step → Prop} {I : Endpoint → Prop}
    (hstep : ∀ e s, I e → e.StepAdmissible s → P e s → I (e.step s)) {e : Endpoint}
    {calls : List Call} (hI : I e) (hrun : Along call (Meets P) e calls) :
    I (execute call e calls) :=
  execute_invariant (fun _ _ hI hc => call_invariant hstep hI hc) hI hrun

/-- A run in which callers keep their contracts meets the trivial condition. -/
theorem meets_true {e : Endpoint} {c : Call} (h : e.Admissible c) : e.Meets (fun _ _ => True) c :=
  ⟨h, along_true _ _ _⟩

/-! ## The start of a run -/

/-- A connection on which nothing has happened to streams yet, and that was not closed. -/
def Fresh (conn : Connection) (isServer : Bool) : Prop :=
  conn.isServer = isServer ∧ (∀ id, conn.streams id = {}) ∧ conn.localError = none

/-- The states in which sessions start: a client on a budget of its own, or a
server on a child of a shared budget. -/
inductive Start : Endpoint → Prop
  | client (authority path : String) (origin : Option String)
      (extraHeaders : List (String × String)) (protocols : List String) (conn : Connection)
      (heap : Heap) : Fresh conn false →
      Start (.client authority path origin extraHeaders protocols conn heap)
  | server (remote : String × Nat) (supportedProtocols : List String)
      (allowedOrigins : Option (List String)) (responseHeaders : List (String × String))
      (parent : Nat) (conn : Connection) (heap : Heap) : Fresh conn true →
      Start (.server remote supportedProtocols allowedOrigins responseHeaders parent conn heap)

/-! ## Concrete runs -/

/-- A connection on which everything may be sent. -/
def sampleConnection (isServer : Bool) : Connection :=
  { isServer := isServer, established := true, txCap := 2 ^ 20, peerMaxStreams := fun _ => 100
    initialMaxData := fun _ _ => 2 ^ 20 }

/-- A budget of the server, and an allocator that gives what is asked for. -/
def sampleHeap : Heap := ⟨[⟨2 ^ 26, 0, none⟩], 0, fun _ _ => some 0⟩

def sampleServer : Endpoint :=
  .server ("192.0.2.1", 443) ["chat"] none [] 0 (sampleConnection true) sampleHeap

def sampleClient : Endpoint :=
  .client "example.org" "/" none [] ["chat"] (sampleConnection false) sampleHeap

omit [H3.Codec] in
theorem sampleServer_start : Start sampleServer := .server _ _ _ _ _ _ _ ⟨rfl, fun _ => rfl, rfl⟩

omit [H3.Codec] in
theorem sampleClient_start : Start sampleClient := .client _ _ _ _ _ _ _ ⟨rfl, fun _ => rfl, rfl⟩

/-- A control stream with SETTINGS that enable WebTransport. -/
def sampleControl : Bytes :=
  H3.putVarint H3.h3ControlStreamType ++ H3.frame H3.frameSettings
    (H3.putVarint H3.settingsEnableConnectProtocol ++ H3.putVarint 1 ++
      H3.putVarint H3.settingsH3Datagram ++ H3.putVarint 1 ++
      H3.putVarint H3.settingsEnableWebtransport ++ H3.putVarint 1)

/-- A HEADERS frame of `Codec.plain`. -/
def sampleHeaders (headers : List (String × String)) : Bytes :=
  H3.frame H3.frameHeaders (headers.flatMap fun h =>
    H3.plainString (H3.ascii h.1) ++ H3.plainString (H3.ascii h.2))

/-- A request that is accepted. -/
def sampleRequest : Bytes := sampleHeaders [(":method", "CONNECT"), (":protocol", "webtransport")]

/-- `flush` in the order of the table. -/
def flushOnce : Call := .flush .asHeld

/-- A handshake as the server of `sampleServer` sees it. -/
def serverHandshake : List Call :=
  [.onEstablished, .network (.data 2 sampleControl), .onReadable 2 false,
    .network (.data 0 sampleRequest), .onReadable 0 false, flushOnce]

/-- A handshake as the client of `sampleClient` sees it. -/
def clientHandshake : List Call :=
  [.onEstablished, .network (.data 3 sampleControl), .onReadable 3 false, flushOnce,
    .network (.data 0 (sampleHeaders [(":status", "200")])), .onReadable 0 false, flushOnce]

end Endpoint

end RWebTransport
