import RWebTransport.Lib.ReadableStream
import RWebTransport.Node.Incoming

/-!
# The datagrams of a session

The half of `WebTransportDatagramDuplexStream` that is read, on top of `SessionCore`.  A
datagram that finds the queue full is dropped, and the session counts it.

`told`, `handed` and `discarded` are the history of a run and not part of the class:
what the transport told the sink, what the reads got, and how many datagrams a
cancellation threw away.
-/

namespace RWebTransport.Node

/-! ## The counter of the session -/

namespace SessionCore

variable (s : SessionCore)

@[simp] theorem dropped_command (c : Command) :
    (s.command c).droppedIncomingDatagrams = s.droppedIncomingDatagrams := by
  unfold command
  split <;> rfl

@[simp] theorem dropped_construct (streamId : Nat) (half : Half) :
    (s.construct streamId half).droppedIncomingDatagrams = s.droppedIncomingDatagrams := by
  cases half <;> rfl

@[simp] theorem dropped_finish (info : Option CloseInfo) (error : Option WebTransportError) :
    (s.finish info error).droppedIncomingDatagrams = s.droppedIncomingDatagrams := by
  unfold finish
  split
  · rfl
  · simp only [dropped_command, settleAll, settleLifecycle]
    split
    · rfl
    · split <;> rfl

@[simp] theorem dropped_close (code : Nat) (reason : String) :
    (s.close code reason).droppedIncomingDatagrams = s.droppedIncomingDatagrams := by
  unfold close
  split
  · rfl
  · exact dropped_command s _

@[simp] theorem dropped_abort (message : String) :
    (s.abort message).droppedIncomingDatagrams = s.droppedIncomingDatagrams := by
  unfold abort
  split
  · rfl
  · rw [dropped_finish, dropped_close]

@[simp] theorem dropped_resetStream (streamId code : Nat) :
    (s.resetStream streamId code).droppedIncomingDatagrams = s.droppedIncomingDatagrams :=
  dropped_command s _

@[simp] theorem dropped_write (streamId : Nat) (chunk : Bytes) :
    (s.write streamId chunk).droppedIncomingDatagrams = s.droppedIncomingDatagrams := by
  unfold write
  split
  · rfl
  · exact dropped_command s.newRequest _

theorem dropped_onIncoming (streamId : Nat) (bidi : Bool) :
    (s.onIncoming streamId bidi).droppedIncomingDatagrams = s.droppedIncomingDatagrams := by
  unfold onIncoming
  split
  · cases bidi <;> simp [stopSending]
  · split
    · exact dropped_abort s _
    · cases bidi <;> simp

theorem dropped_withSink {sinks : Table Nat} (streamId : Nat) {f : Nat → StreamObject → SessionCore}
    (hf : ∀ i o, (f i o).droppedIncomingDatagrams = s.droppedIncomingDatagrams) :
    (s.withSink sinks streamId f).droppedIncomingDatagrams = s.droppedIncomingDatagrams := by
  unfold withSink
  split
  · rfl
  · split
    · rfl
    · exact hf _ _

theorem dropped_dispatch (ev : NativeEvent) :
    (s.dispatch ev).droppedIncomingDatagrams = s.droppedIncomingDatagrams := by
  rw [dispatch.eq_def]
  split
  · rfl
  · cases ev with
    | closed code reason => exact dropped_finish s _ _
    | error message => exact dropped_finish s _ _
    | stream streamId bidi => exact dropped_onIncoming s streamId bidi
    | streamData streamId data =>
        refine dropped_withSink s streamId fun i o => ?_
        simp only [onData]
        split
        · exact dropped_command _ _
        · rfl
    | streamFin streamId => exact dropped_withSink s streamId fun i o => rfl
    | streamReset streamId code => exact dropped_withSink s streamId fun i o => rfl
    | streamStopSending streamId code => exact dropped_withSink s streamId fun i o => rfl
    | streamOpened requestId streamId =>
        simp only
        split <;> rfl
    | writeAck requestId =>
        simp only
        split <;> rfl
    | datagramAck requestId sent =>
        simp only
        split <;> rfl
    | stats requestId counters =>
        simp only
        split <;> rfl
    | keyingMaterial requestId data =>
        simp only
        split <;> rfl
    | _ => rfl

/-- Only the sink of the datagrams counts a drop. -/
theorem dropped_act {a : Act} (ha : a ≠ .recordDroppedIncomingDatagram) :
    (s.act a).droppedIncomingDatagrams = s.droppedIncomingDatagrams := by
  cases a with
  | attach => rfl
  | failSetup message => exact dropped_finish s _ _
  | dispatch ev => exact dropped_dispatch s ev
  | createStream bidi =>
      simp only [act, createStream]
      split
      · rfl
      · exact dropped_command s.newRequest _
  | resume requestId =>
      simp only [act, resume]
      split
      next bidi streamId _ _ => cases bidi <;> simp [constructOwn]
      · rfl
      · rfl
  | sinkWrite object chunk =>
      simp only [act, sinkWrite]
      split
      · exact dropped_write s _ chunk
      · rfl
  | sinkClose object =>
      simp only [act, sinkClose]
      split
      · exact dropped_command s _
      · rfl
  | sinkAbort object error =>
      simp only [act, sinkAbort]
      split
      · exact dropped_resetStream s _ _
      · rfl
  | sourceCancel object code =>
      simp only [act, sourceCancel]
      split
      · exact dropped_command s _
      · rfl
  | sourceRead object =>
      simp only [act, sourceRead]
      split
      · exact dropped_command _ _
      · rfl
  | takeIncoming bidi => rfl
  | cancelIncoming bidi => rfl
  | sendDatagram chunk =>
      simp only [act, sendDatagram]
      split
      · rfl
      · exact dropped_command s.newRequest _
  | getStats =>
      simp only [act, getStats]
      split
      · rfl
      · exact dropped_command s.newRequest _
  | exportKeyingMaterial label context length =>
      simp only [act, exportKeyingMaterial]
      split
      · rfl
      · exact dropped_command s.newRequest _
  | close code reason =>
      simp only [act, sessionClose]
      split
      · rfl
      · exact dropped_close _ code reason
  | drain => exact dropped_command s _
  | recordDroppedIncomingDatagram => exact absurd rfl ha

end SessionCore

/-! ## The readable half -/

/-- The high-water mark of the queue. -/
def incomingDatagramMark : Nat := 64

/-- `value | 0`. -/
def toInt32 (value : Int) : Int := (BitVec.ofInt 32 value).toInt

/-- `WebTransportDatagramDuplexStream`, with its session. -/
structure WebTransportDatagramDuplexStream where
  core : SessionCore := {}
  readable : ReadableStream Bytes := { highWaterMark := incomingDatagramMark }
  incomingHwm : Int := incomingDatagramMark
  /-- What the sink was told, oldest first. -/
  told : List Bytes := []
  /-- What the reads were given, oldest first. -/
  handed : List Bytes := []
  /-- How many datagrams the application threw away with the stream. -/
  discarded : Nat := 0
  /-- The exception of `enqueue` left the sink. -/
  threw : Bool := false

namespace WebTransportDatagramDuplexStream

/-- The datagram sink. -/
def sink (s : WebTransportDatagramDuplexStream) (data : Bytes) : WebTransportDatagramDuplexStream :=
  let s1 := { s with told := s.told ++ [data] }
  if 0 < s.readable.desiredSize.getD 1 then
    match s.readable.enqueue data with
    | some r =>
        { s1 with
          readable := r.1
          handed := if 0 < s.readable.requests then s.handed ++ [data] else s.handed }
    | none => { s1 with threw := true }
  else { s1 with core := s.core.act .recordDroppedIncomingDatagram }

/-- The handlers of `closed`: the stream is closed on a clean end and on an error. -/
def closedSettled (s : WebTransportDatagramDuplexStream) : WebTransportDatagramDuplexStream :=
  match s.core.closed with
  | .pending => s
  | _ => { s with readable := s.readable.close }

/-- The setter: the queue keeps its mark. -/
def setIncomingHighWaterMark (s : WebTransportDatagramDuplexStream) (value : Int) :
    WebTransportDatagramDuplexStream :=
  { s with incomingHwm := max 1 (toInt32 value) }

/-- A read of the application. -/
def read (s : WebTransportDatagramDuplexStream) : WebTransportDatagramDuplexStream :=
  { s with readable := s.readable.read.1, handed := s.handed ++ s.readable.ready.toList }

/-- The application cancels the stream. -/
def cancel (s : WebTransportDatagramDuplexStream) : WebTransportDatagramDuplexStream :=
  { s with
    readable := s.readable.cancel.1
    discarded := s.discarded + (s.readable.queue.length - s.readable.cancel.1.queue.length) }

inductive Action where
  /-- A native `Datagram` event. -/
  | datagram (data : Bytes)
  /-- Any other step of the session object. -/
  | core (a : SessionCore.Step)
  | setIncomingHighWaterMark (value : Int)
  | read
  | releaseLock
  | cancel
  /-- The promise of the start algorithm. -/
  | start
  /-- The promise of a pull. -/
  | pulled
  /-- The handlers of `closed` run. -/
  | closedSettled

def step (s : WebTransportDatagramDuplexStream) : Action → WebTransportDatagramDuplexStream
  | .datagram data => if s.core.closedState then s else s.sink data
  -- the event is the one above, and only the sink counts
  | .core (.app (.dispatch (.datagram _))) => s
  | .core (.app .recordDroppedIncomingDatagram) => s
  | .core a => { s with core := s.core.step a }
  | .setIncomingHighWaterMark value => s.setIncomingHighWaterMark value
  | .read => s.read
  | .releaseLock => { s with readable := s.readable.releaseLock }
  | .cancel => s.cancel
  | .start => { s with readable := s.readable.start.1 }
  | .pulled => { s with readable := s.readable.pulled.1 }
  | .closedSettled => s.closedSettled

/-! ## Every datagram is accounted for -/

/-- What was handed over and what is still queued are datagrams of the transport in its
order, and all the others were counted as dropped or thrown away with the stream. -/
structure Accounted (s : WebTransportDatagramDuplexStream) : Prop where
  order : (s.handed ++ s.readable.queue).Sublist s.told
  count : s.told.length = s.handed.length + s.readable.queue.length +
    s.core.droppedIncomingDatagrams + s.discarded
  length : s.readable.queue.length ≤ incomingDatagramMark
  quiet : s.threw = false
  reported : 1 ≤ s.incomingHwm

/-- The invariant: while the session is not over, the stream takes datagrams unless the
application gave it up. -/
structure Kept (s : WebTransportDatagramDuplexStream) : Prop extends Accounted s where
  sound : s.readable.Sound
  mark : s.readable.highWaterMark = incomingDatagramMark
  takes : s.core.closedState = false →
    s.readable.canEnqueue = true ∨ s.readable.state = .closed
  pending : s.core.closedState = false → s.core.closed = .pending

variable {s : WebTransportDatagramDuplexStream}

theorem kept_fresh : Kept {} where
  order := List.Sublist.refl _
  count := rfl
  length := Nat.zero_le _
  quiet := rfl
  reported := by decide
  sound := ⟨fun _ => rfl, fun _ => ⟨rfl, rfl⟩, fun _ hclosing => by cases hclosing⟩
  mark := rfl
  takes _ := .inl rfl
  pending _ := rfl

theorem Kept.core (h : s.Kept) {core : SessionCore} (hkeeps : s.core.Keeps core)
    (hdropped : core.droppedIncomingDatagrams = s.core.droppedIncomingDatagrams) :
    Kept { s with core := core } where
  order := h.order
  count := by
    simp only [hdropped]
    exact h.count
  length := h.length
  quiet := h.quiet
  reported := h.reported
  sound := h.sound
  mark := h.mark
  takes hopen := h.takes (hkeeps.settled hopen).1
  pending hopen := (hkeeps.settled hopen).2.trans (h.pending (hkeeps.settled hopen).1)

/-- The books do not change with the stream while its queue is the same. -/
theorem Accounted.stream (h : s.Accounted) {stream : ReadableStream Bytes}
    (hqueue : stream.queue = s.readable.queue) : Accounted { s with readable := stream } where
  order := by
    simp only [hqueue]
    exact h.order
  count := by
    simp only [hqueue]
    exact h.count
  length := hqueue ▸ h.length
  quiet := h.quiet
  reported := h.reported

/-- An operation of the stream that leaves the queue alone. -/
theorem Kept.readable (h : s.Kept) {stream : ReadableStream Bytes}
    (hshrinks : s.readable.Shrinks stream) (hproceeds : s.readable.Proceeds stream)
    (hqueue : stream.queue = s.readable.queue) : Kept { s with readable := stream } where
  toAccounted := h.toAccounted.stream hqueue
  sound := hproceeds.sound h.sound
  mark := hshrinks.mark.trans h.mark
  takes hopen := (h.takes hopen).imp hshrinks.takes hproceeds.closed
  pending := h.pending

/-- While the session is not over, there is room exactly in a stream that is not full and
was not given up. -/
theorem Kept.room (h : s.Kept) (hopen : s.core.closedState = false) :
    0 < s.readable.desiredSize.getD 1 ↔
      s.readable.canEnqueue = true ∧ s.readable.queue.length < incomingDatagramMark := by
  rcases h.takes hopen with hcan | hclosed
  · rw [ReadableStream.desiredSize_readable (ReadableStream.readable_of_canEnqueue hcan),
      Option.getD_some, h.mark]
    simp only [hcan, true_and]
    omega
  · simp [ReadableStream.desiredSize, ReadableStream.canEnqueue, hclosed]

/-- A datagram that finds room goes to a read that waits, or into the queue. -/
theorem Kept.sink_room (h : s.Kept) {data : Bytes} {r : ReadableStream Bytes × Bool}
    (hr : s.readable.enqueue data = some r)
    (hroom : s.readable.queue.length < incomingDatagramMark) :
    Kept { s with
      told := s.told ++ [data]
      readable := r.1
      handed := if 0 < s.readable.requests then s.handed ++ [data] else s.handed } := by
  have hsound := h.sound.enqueue hr
  obtain ⟨hcan, ⟨hrequests, rfl⟩ | ⟨hrequests, rfl⟩⟩ := ReadableStream.enqueue_eq_some hr
  · have hempty := h.sound.waiting hrequests
    have horder := h.order
    have hcount := h.count
    rw [hempty, List.append_nil] at horder
    rw [hempty, List.length_nil] at hcount
    refine ⟨⟨?_, ?_, ?_, h.quiet, h.reported⟩, hsound, ?_, fun _ => .inl ?_, h.pending⟩
    · simpa [hrequests, hempty] using horder.append_right [data]
    · simp only [hrequests, hempty, if_true, List.length_append, List.length_singleton,
        ReadableStream.callPullIfNeeded_queue, List.length_nil]
      omega
    · simp [hempty]
    · simpa using h.mark
    · rwa [ReadableStream.canEnqueue_callPullIfNeeded]
  · have hwaits : ¬0 < s.readable.requests := by omega
    refine ⟨⟨?_, ?_, ?_, h.quiet, h.reported⟩, hsound, ?_, fun _ => .inl ?_, h.pending⟩
    · simpa [hwaits] using h.order.append_right [data]
    · have hcount := h.count
      simp only [hwaits, if_false, List.length_append, List.length_singleton,
        ReadableStream.callPullIfNeeded_queue]
      omega
    · simpa using Nat.succ_le_of_lt hroom
    · simpa using h.mark
    · rwa [ReadableStream.canEnqueue_callPullIfNeeded]

/-- A datagram that finds no room is counted. -/
theorem Kept.sink_full (h : s.Kept) (data : Bytes) :
    Kept { s with
      told := s.told ++ [data]
      core := s.core.act .recordDroppedIncomingDatagram } where
  order := h.order.trans (List.sublist_append_left _ _)
  count := by
    have hcount := h.count
    simp only [List.length_append, List.length_singleton, SessionCore.act]
    omega
  length := h.length
  quiet := h.quiet
  reported := h.reported
  sound := h.sound
  mark := h.mark
  takes := h.takes
  pending := h.pending

theorem Kept.sink (h : s.Kept) (hopen : s.core.closedState = false) (data : Bytes) :
    (s.sink data).Kept := by
  unfold WebTransportDatagramDuplexStream.sink
  simp only
  split
  next hsize =>
    obtain ⟨hcan, hroom⟩ := (h.room hopen).mp hsize
    obtain ⟨r, hr⟩ := Option.isSome_iff_exists.mp (ReadableStream.enqueue_isSome hcan data)
    rw [hr]
    exact h.sink_room hr hroom
  · exact h.sink_full data

theorem Kept.read (h : s.Kept) : s.read.Kept := by
  have hqueue := s.readable.ready_append_read
  have hlength := congrArg List.length hqueue
  rw [List.length_append] at hlength
  have hshrinks := s.readable.shrinks_read
  have hproceeds := s.readable.proceeds_read
  refine ⟨⟨?_, ?_, ?_, h.quiet, h.reported⟩, hproceeds.sound h.sound, hshrinks.mark.trans h.mark,
    fun hopen => (h.takes hopen).imp hshrinks.takes hproceeds.closed, h.pending⟩
  · have horder := h.order
    rw [← hqueue, ← List.append_assoc] at horder
    exact horder
  · have hcount := h.count
    simp only [WebTransportDatagramDuplexStream.read, List.length_append]
    omega
  · exact hshrinks.length.trans h.length

theorem Kept.cancel (h : s.Kept) : s.cancel.Kept where
  order := by
    have hsublist : s.readable.cancel.1.queue.Sublist s.readable.queue := by
      unfold ReadableStream.cancel
      split
      · exact List.nil_sublist _
      · exact List.Sublist.refl _
    exact (hsublist.append_left s.handed).trans h.order
  count := by
    have hcount := h.count
    have hlength := s.readable.cancel_frame.2
    simp only [WebTransportDatagramDuplexStream.cancel]
    omega
  length := s.readable.cancel_frame.2.trans h.length
  quiet := h.quiet
  reported := h.reported
  sound := s.readable.proceeds_cancel.sound h.sound
  mark := s.readable.cancel_frame.1.trans h.mark
  takes hopen := by
    right
    rcases h.takes hopen with hcan | hclosed
    · simp [WebTransportDatagramDuplexStream.cancel, ReadableStream.cancel, ReadableStream.finish,
        ReadableStream.readable_of_canEnqueue hcan]
    · exact s.readable.proceeds_cancel.closed hclosed
  pending := h.pending

theorem Kept.closedSettled (h : s.Kept) : s.closedSettled.Kept := by
  unfold WebTransportDatagramDuplexStream.closedSettled
  split
  · exact h
  next hsettled =>
    have hover : s.core.closedState = true := by
      by_contra hopen
      exact hsettled (h.pending (Bool.not_eq_true _ ▸ hopen))
    exact ⟨h.toAccounted.stream s.readable.close_frame.2, s.readable.proceeds_close.sound h.sound,
      s.readable.close_frame.1.trans h.mark, fun hopen => by simp [hover] at hopen, h.pending⟩

/-- A step of the session object is one of its own steps that counts nothing, or is left
out. -/
theorem step_core (s : WebTransportDatagramDuplexStream) (a : SessionCore.Step) :
    s.step (.core a) = s ∨
      s.step (.core a) = { s with core := s.core.step a } ∧
        (s.core.step a).droppedIncomingDatagrams = s.core.droppedIncomingDatagrams := by
  cases a with
  | app a =>
      cases a with
      | dispatch ev =>
          cases ev with
          | datagram data => exact .inl rfl
          | _ => exact .inr ⟨rfl, SessionCore.dropped_dispatch s.core _⟩
      | recordDroppedIncomingDatagram => exact .inl rfl
      | _ => exact .inr ⟨rfl, SessionCore.dropped_act s.core (fun h => by cases h)⟩
  | write streamId chunk => exact .inr ⟨rfl, SessionCore.dropped_write s.core streamId chunk⟩
  | resetStream streamId code =>
      exact .inr ⟨rfl, SessionCore.dropped_resetStream s.core streamId code⟩
  | abort message => exact .inr ⟨rfl, SessionCore.dropped_abort s.core message⟩

theorem Kept.step (h : s.Kept) (a : Action) : (s.step a).Kept := by
  cases a with
  | datagram data =>
      simp only [WebTransportDatagramDuplexStream.step]
      split
      · exact h
      next hopen => exact h.sink (by simpa using hopen) data
  | core a =>
      rcases step_core s a with hsame | ⟨hstep, hdropped⟩
      · rw [hsame]
        exact h
      · rw [hstep]
        exact h.core (SessionCore.keeps_step s.core a) hdropped
  | setIncomingHighWaterMark value => exact { h with reported := le_max_left 1 (toInt32 value) }
  | read => exact h.read
  | releaseLock =>
      exact h.readable (ReadableStream.shrinks_releaseLock _) (ReadableStream.proceeds_releaseLock _)
        rfl
  | cancel => exact h.cancel
  | start =>
      exact h.readable (ReadableStream.shrinks_start _) (ReadableStream.proceeds_start _)
        (ReadableStream.start_queue _)
  | pulled =>
      exact h.readable (ReadableStream.shrinks_pulled _) (ReadableStream.proceeds_pulled _)
        (ReadableStream.pulled_queue _)
  | closedSettled => exact h.closedSettled

theorem kept_run (h : s.Kept) (actions : List Action) : (execute step s actions).Kept :=
  execute_invariant (I := Kept) (fun _ a hs _ => hs.step a) h (along_true step actions s)

/-! ## Losses and the end -/

/-- What becomes of a datagram while the session is not over. -/
structure Taken (s : WebTransportDatagramDuplexStream) (data : Bytes) : Prop where
  /-- As many are unread as the queue takes, or the application gave up the stream. -/
  full : s.readable.state = .closed ∨ s.readable.queue.length = incomingDatagramMark →
    s.step (.datagram data) =
      { s with
        told := s.told ++ [data]
        core := s.core.act .recordDroppedIncomingDatagram }
  /-- There is room: the datagram comes behind the ones before it. -/
  room : s.readable.state ≠ .closed → s.readable.queue.length < incomingDatagramMark →
    (s.step (.datagram data)).core = s.core ∧
      (s.step (.datagram data)).handed ++ (s.step (.datagram data)).readable.queue =
        s.handed ++ s.readable.queue ++ [data]

theorem Kept.taken (h : s.Kept) (hopen : s.core.closedState = false) (data : Bytes) :
    s.Taken data := by
  have hstep : s.step (.datagram data) = s.sink data := by
    simp [WebTransportDatagramDuplexStream.step, hopen]
  constructor <;> rw [hstep]
  · intro hfull
    have hsize : ¬0 < s.readable.desiredSize.getD 1 := by
      rw [h.room hopen]
      rintro ⟨hcan, hroom⟩
      have hreadable := ReadableStream.readable_of_canEnqueue hcan
      rcases hfull with hclosed | hlength
      · rw [hreadable] at hclosed
        cases hclosed
      · omega
    simp [WebTransportDatagramDuplexStream.sink, hsize]
  · intro hstate hroom
    have hcan := (h.takes hopen).resolve_right hstate
    have hsize := (h.room hopen).mpr ⟨hcan, hroom⟩
    obtain ⟨r, hr⟩ := Option.isSome_iff_exists.mp (ReadableStream.enqueue_isSome hcan data)
    simp only [WebTransportDatagramDuplexStream.sink, hsize, if_true, hr, true_and]
    obtain ⟨-, ⟨hrequests, rfl⟩ | ⟨hrequests, rfl⟩⟩ := ReadableStream.enqueue_eq_some hr
    · simp [hrequests, h.sound.waiting hrequests]
    · simp [hrequests]

theorem step_over (hover : s.readable.canEnqueue = false) (a : Action) :
    (s.step a).readable.canEnqueue = false := by
  cases a with
  | datagram data =>
      have hnone : s.readable.enqueue data = none := by simp [ReadableStream.enqueue, hover]
      simp only [step, sink, hnone]
      split
      · exact hover
      · split <;> exact hover
  | core a =>
      rcases step_core s a with hsame | ⟨hstep, -⟩
      · rwa [hsame]
      · rwa [hstep]
  | setIncomingHighWaterMark value => exact hover
  | read => exact s.readable.proceeds_read.ended hover
  | releaseLock => exact s.readable.proceeds_releaseLock.ended hover
  | cancel => exact s.readable.proceeds_cancel.ended hover
  | start => exact s.readable.proceeds_start.ended hover
  | pulled => exact s.readable.proceeds_pulled.ended hover
  | closedSettled =>
      simp only [step, closedSettled]
      split
      · exact hover
      · exact s.readable.proceeds_close.ended hover

/-- No read waits once the stream takes no more datagrams. -/
theorem served_run (h : s.Kept) (hover : s.readable.canEnqueue = false) (more : List Action) :
    (execute step s more).readable.requests = 0 :=
  (kept_run h more).sound.served
    (execute_invariant (P := fun _ _ => True) (I := fun t => t.readable.canEnqueue = false)
      (fun _ a ht _ => step_over ht a) hover (along_true step more s))

/-- The datagrams of a session: in every state all that the transport told are accounted
for, in order; a datagram is lost only to a full queue or to a stream the application gave
up; and behind the end of the session, which the handlers of `closed` pass on, no read
waits. -/
theorem datagrams_accounted (actions : List Action) :
    (execute step {} actions).Accounted ∧
      ((execute step {} actions).core.closedState = false → ∀ data,
        (execute step {} actions).Taken data) ∧
      ((execute step {} actions).core.closed ≠ .pending → ∀ more,
        (execute step (execute step {} actions)
          (.closedSettled :: more)).readable.requests = 0) := by
  have h := kept_run kept_fresh actions
  refine ⟨h.toAccounted, fun hopen data => h.taken hopen data, fun hsettled more => ?_⟩
  have hclosed : (execute step {} actions).closedSettled.readable =
      (execute step {} actions).readable.close := by
    unfold closedSettled
    split
    next hpending => exact absurd hpending hsettled
    · rfl
  have hover : (execute step {} actions).closedSettled.readable.canEnqueue = false := by
    rw [hclosed]
    exact ReadableStream.close_over _
  exact served_run h.closedSettled hover more

end WebTransportDatagramDuplexStream

end RWebTransport.Node
