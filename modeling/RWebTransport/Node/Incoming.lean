import RWebTransport.Lib.ReadableStream
import RWebTransport.Node.Requests

/-!
# The incoming streams of a session

The two `ReadableStream`s of `WebTransportSession` that hand the streams of the
peer to the application, on top of `SessionCore`.  Each takes
`MAX_PENDING_INCOMING_STREAMS` wrappers; one more ends the session.

`SessionCore.Keeps` is what every step does to the end of the session: what is
over stays over and issues no further close.
-/

namespace RWebTransport.Node

/-! ## The end of the session -/

/-- A close of the session on the transport. -/
def Command.isClose : Command → Bool
  | .closeSession _ _ => true
  | _ => false

namespace SessionCore

/-- How often the session was closed on the transport. -/
def closes (s : SessionCore) : Nat := s.commands.countP Command.isClose

/-- A session that is over stays over and is not closed again; one that is not over
has not settled `closed`. -/
structure Keeps (s s' : SessionCore) : Prop where
  ended : s.closedState = true → s'.closedState = true ∧ s'.closes = s.closes
  settled : s'.closedState = false → s.closedState = false ∧ s'.closed = s.closed

theorem Keeps.trans {s t u : SessionCore} (h : s.Keeps t) (h' : t.Keeps u) : s.Keeps u where
  ended hc :=
    have ⟨hc', hcloses⟩ := h.ended hc
    have ⟨hc'', hcloses'⟩ := h'.ended hc'
    ⟨hc'', hcloses'.trans hcloses⟩
  settled hc :=
    have ⟨hc', hclosed⟩ := h'.settled hc
    have ⟨hc'', hclosed'⟩ := h.settled hc'
    ⟨hc'', hclosed.trans hclosed'⟩

theorem Keeps.of_eq {s s' : SessionCore} (hstate : s'.closedState = s.closedState)
    (hclosed : s'.closed = s.closed) (hcommands : s'.commands = s.commands) : s.Keeps s' where
  ended hc := ⟨hstate.trans hc, by rw [closes, closes, hcommands]⟩
  settled hc := ⟨hstate.symm.trans hc, hclosed⟩

theorem Keeps.refl (s : SessionCore) : s.Keeps s := .of_eq rfl rfl rfl

/-- What a step does in front does not matter if it leaves the end alone. -/
theorem Keeps.behind {s t u : SessionCore} (h : t.Keeps u) (hstate : t.closedState = s.closedState)
    (hclosed : t.closed = s.closed) (hcommands : t.commands = s.commands) : s.Keeps u :=
  (Keeps.of_eq hstate hclosed hcommands).trans h

variable (s : SessionCore)

theorem keeps_command {c : Command} (hc : Command.isClose c = false) : s.Keeps (s.command c) := by
  unfold command
  split
  · refine ⟨fun hover => ⟨hover, ?_⟩, fun hopen => ⟨hopen, rfl⟩⟩
    simp [closes, List.countP_append, hc]
  · exact Keeps.refl s

theorem keeps_finish (info : Option CloseInfo) (error : Option WebTransportError) :
    s.Keeps (s.finish info error) where
  ended hc := by
    unfold finish
    rw [if_pos hc]
    exact ⟨hc, rfl⟩
  settled hopen := by simp [finish_closedState] at hopen

theorem keeps_close (code : Nat) (reason : String) : s.Keeps (s.close code reason) := by
  unfold close
  split
  · exact Keeps.refl s
  next hor =>
    refine ⟨fun hc => absurd (.inl hc) hor, fun hopen => ?_⟩
    rw [toRegistry_command] at hopen
    refine ⟨hopen, ?_⟩
    unfold command
    split <;> rfl

theorem keeps_construct (streamId : Nat) (half : Half) : s.Keeps (s.construct streamId half) := by
  cases half <;> exact .of_eq rfl rfl rfl

theorem keeps_constructOwn (streamId : Nat) (bidi : Bool) : s.Keeps (s.constructOwn streamId bidi) := by
  cases bidi with
  | true => exact (keeps_construct s streamId .receive).trans (keeps_construct _ streamId .send)
  | false => exact keeps_construct s streamId .send

theorem keeps_abort (message : String) : s.Keeps (s.abort message) := by
  unfold abort
  split
  · exact Keeps.refl s
  · exact (keeps_close s 0 message).trans (keeps_finish _ _ _)

theorem keeps_stopSending (streamId code : Nat) : s.Keeps (s.stopSending streamId code) :=
  keeps_command s rfl

theorem keeps_resetStream (streamId code : Nat) : s.Keeps (s.resetStream streamId code) :=
  (keeps_command s (c := .reset streamId (code % 2 ^ 32)) rfl).trans (.of_eq rfl rfl rfl)

theorem keeps_write (streamId : Nat) (chunk : Bytes) : s.Keeps (s.write streamId chunk) := by
  unfold write
  split
  · exact Keeps.refl s
  · exact (Keeps.of_eq rfl rfl rfl : s.Keeps s.newRequest).trans
      ((keeps_command s.newRequest (c := .write streamId chunk s.nextRequestId) rfl).trans
        (.of_eq rfl rfl rfl))

theorem keeps_onIncoming (streamId : Nat) (bidi : Bool) : s.Keeps (s.onIncoming streamId bidi) := by
  unfold onIncoming
  split
  · cases bidi with
    | true => exact (keeps_stopSending s streamId 0).trans (keeps_resetStream _ streamId 0)
    | false => exact keeps_stopSending s streamId 0
  · split
    · exact keeps_abort s _
    · cases bidi with
      | true =>
          exact ((keeps_construct s streamId .receive).trans (keeps_construct _ streamId .send)).trans
            (.of_eq rfl rfl rfl)
      | false => exact (keeps_construct s streamId .receive).trans (.of_eq rfl rfl rfl)

theorem keeps_withSink {sinks : Table Nat} (streamId : Nat) {f : Nat → StreamObject → SessionCore}
    (hf : ∀ i o, s.Keeps (f i o)) : s.Keeps (s.withSink sinks streamId f) := by
  unfold withSink
  split
  · exact Keeps.refl s
  · split
    · exact Keeps.refl s
    · exact hf _ _

theorem keeps_onData (object : Nat) (o : StreamObject) (data : Bytes) :
    s.Keeps (s.onData object o data) := by
  have henqueued : s.Keeps (s.modifyObject object fun o => o.enqueue data) := .of_eq rfl rfl rfl
  simp only [onData]
  split
  · exact henqueued.trans (keeps_command _ rfl)
  · exact henqueued

theorem keeps_dispatch (ev : NativeEvent) : s.Keeps (s.dispatch ev) := by
  rw [dispatch.eq_def]
  split
  · exact Keeps.refl s
  · cases ev with
    | closed code reason => exact keeps_finish s _ _
    | error message => exact keeps_finish s _ _
    | stream streamId bidi => exact keeps_onIncoming s streamId bidi
    | streamData streamId data => exact keeps_withSink s streamId fun i o => keeps_onData s i o data
    | streamFin streamId => exact keeps_withSink s streamId fun i o => .of_eq rfl rfl rfl
    | streamReset streamId code => exact keeps_withSink s streamId fun i o => .of_eq rfl rfl rfl
    | streamStopSending streamId code => exact keeps_withSink s streamId fun i o => .of_eq rfl rfl rfl
    | streamOpened requestId streamId =>
        simp only
        split <;> exact .of_eq rfl rfl rfl
    | writeAck requestId =>
        simp only
        split <;> exact .of_eq rfl rfl rfl
    | datagramAck requestId sent =>
        simp only
        split <;> exact .of_eq rfl rfl rfl
    | stats requestId counters =>
        simp only
        split <;> exact .of_eq rfl rfl rfl
    | keyingMaterial requestId data =>
        simp only
        split <;> exact .of_eq rfl rfl rfl
    | _ => exact .of_eq rfl rfl rfl

theorem keeps_request {c : Command} (hc : Command.isClose c = false) {s' : SessionCore}
    (hstate : s'.closedState = (s.newRequest.command c).closedState)
    (hclosed : s'.closed = (s.newRequest.command c).closed)
    (hcommands : s'.commands = (s.newRequest.command c).commands) : s.Keeps s' :=
  (Keeps.of_eq rfl rfl rfl : s.Keeps s.newRequest).trans
    ((keeps_command s.newRequest hc).trans (.of_eq hstate hclosed hcommands))

theorem keeps_act (a : Act) : s.Keeps (s.act a) := by
  cases a with
  | attach => exact .of_eq rfl rfl rfl
  | failSetup message => exact keeps_finish s _ _
  | dispatch ev => exact keeps_dispatch s ev
  | createStream bidi =>
      simp only [act, createStream]
      split
      · exact Keeps.refl s
      · exact keeps_request s (c := .openStream bidi s.nextRequestId) rfl rfl rfl rfl
  | resume requestId =>
      simp only [act, resume]
      split
      · exact (keeps_constructOwn _ _ _).behind rfl rfl rfl
      · exact .of_eq rfl rfl rfl
      · exact Keeps.refl s
  | sinkWrite object chunk =>
      simp only [act, sinkWrite]
      split
      · exact keeps_write s _ chunk
      · exact Keeps.refl s
  | sinkClose object =>
      simp only [act, sinkClose]
      split
      · exact (keeps_command s rfl).trans (.of_eq rfl rfl rfl)
      · exact Keeps.refl s
  | sinkAbort object error =>
      simp only [act, sinkAbort]
      split
      · exact (keeps_resetStream s _ _).trans (.of_eq rfl rfl rfl)
      · exact Keeps.refl s
  | sourceCancel object code =>
      simp only [act, sourceCancel]
      split
      · exact (keeps_stopSending s _ code).trans (.of_eq rfl rfl rfl)
      · exact Keeps.refl s
  | sourceRead object =>
      simp only [act, sourceRead]
      split
      · exact (keeps_command _ rfl).behind rfl rfl rfl
      · exact Keeps.refl s
  | takeIncoming bidi => exact .of_eq rfl rfl rfl
  | cancelIncoming bidi => exact .of_eq rfl rfl rfl
  | sendDatagram chunk =>
      simp only [act, sendDatagram]
      split
      · exact Keeps.refl s
      · exact keeps_request s (c := .sendDatagram chunk s.nextRequestId) rfl rfl rfl rfl
  | getStats =>
      simp only [act, getStats]
      split
      · exact Keeps.refl s
      · exact keeps_request s (c := .getStats s.nextRequestId) rfl rfl rfl rfl
  | exportKeyingMaterial label context length =>
      simp only [act, exportKeyingMaterial]
      split
      · exact Keeps.refl s
      · exact keeps_request s (c := .exportKeyingMaterial s.nextRequestId label context length) rfl
          rfl rfl rfl
  | close code reason =>
      simp only [act, sessionClose]
      split
      · exact Keeps.refl s
      · exact (keeps_close _ code reason).behind rfl rfl rfl
  | drain => exact keeps_command s rfl
  | recordDroppedIncomingDatagram => exact .of_eq rfl rfl rfl

theorem keeps_step (a : Step) : s.Keeps (s.step a) := by
  cases a with
  | app a => exact keeps_act s a
  | write streamId chunk => exact keeps_write s streamId chunk
  | resetStream streamId code => exact keeps_resetStream s streamId code
  | abort message => exact keeps_abort s message

end SessionCore

/-! ## The session surface -/

/-- `WebTransportSession`.  The directions are `true` for bidirectional streams and
`false` for unidirectional ones, and a wrapper stands as the id of its stream. -/
structure WebTransportSession where
  core : SessionCore := {}
  incoming : Bool → ReadableStream Nat := fun _ => { highWaterMark := maxPendingIncomingStreams }
  cancelled : Bool → Bool := fun _ => false

namespace WebTransportSession

/-- The message of an overflow. -/
def overflow (bidi : Bool) : String :=
  if bidi then "incoming stream queue limit exceeded (bidirectional)"
  else "incoming stream queue limit exceeded (unidirectional)"

def setIncoming (s : WebTransportSession) (bidi : Bool) (stream : ReadableStream Nat) :
    WebTransportSession :=
  { s with incoming := fun b => if b = bidi then stream else s.incoming b }

/-- The constructors of a wrapper, which register its sinks. -/
def wrap (core : SessionCore) (streamId : Nat) (bidi : Bool) : SessionCore :=
  let core := core.construct streamId .receive
  if bidi then core.construct streamId .send else core

/-- `onBidi` and `onUni`. -/
def onIncoming (s : WebTransportSession) (streamId : Nat) (bidi : Bool) : WebTransportSession :=
  if s.cancelled bidi then
    let core := s.core.stopSending streamId 0
    { s with core := if bidi then core.resetStream streamId 0 else core }
  else if (s.incoming bidi).desiredSize.getD 0 ≤ 0 then { s with core := s.core.abort (overflow bidi) }
  else
    let s1 := { s with core := wrap s.core streamId bidi }
    match (s.incoming bidi).enqueue streamId with
    | some r => s1.setIncoming bidi r.1
    -- the consumer no longer reads
    | none => s1

/-- The handlers of `closed`. -/
def closedSettled (s : WebTransportSession) : WebTransportSession :=
  match s.core.closed with
  | .pending => s
  | .resolved _ => { s with incoming := fun b => (s.incoming b).close }
  | .rejected _ => { s with incoming := fun b => (s.incoming b).error }

/-- The cancellation of a direction. -/
def cancel (s : WebTransportSession) (bidi : Bool) : WebTransportSession :=
  let r := (s.incoming bidi).cancel
  { s.setIncoming bidi r.1 with
    cancelled := fun b => if b = bidi then s.cancelled b || r.2 else s.cancelled b }

inductive Action where
  /-- A native `Stream` event. -/
  | stream (streamId : Nat) (bidi : Bool)
  /-- Any other step of the session object. -/
  | core (a : SessionCore.Step)
  | read (bidi : Bool)
  | releaseLock (bidi : Bool)
  | cancel (bidi : Bool)
  /-- The promise of the start algorithm. -/
  | start (bidi : Bool)
  /-- The promise of a pull. -/
  | pulled (bidi : Bool)
  /-- The handlers of `closed` run. -/
  | closedSettled

def step (s : WebTransportSession) : Action → WebTransportSession
  | .stream streamId bidi => if s.core.closedState then s else s.onIncoming streamId bidi
  | .core (.app (.dispatch (.stream _ _))) => s
  | .core a => { s with core := s.core.step a }
  | .read bidi => s.setIncoming bidi (s.incoming bidi).read.1
  | .releaseLock bidi => s.setIncoming bidi (s.incoming bidi).releaseLock
  | .cancel bidi => s.cancel bidi
  | .start bidi => s.setIncoming bidi (s.incoming bidi).start.1
  | .pulled bidi => s.setIncoming bidi (s.incoming bidi).pulled.1
  | .closedSettled => s.closedSettled

/-! ## The limit -/

/-- Each direction holds as many unread wrappers as its mark at most; while the session
is not over a direction that was not cancelled takes streams. -/
structure Bounded (s : WebTransportSession) : Prop where
  mark : ∀ b, (s.incoming b).highWaterMark = maxPendingIncomingStreams
  length : ∀ b, (s.incoming b).queue.length ≤ maxPendingIncomingStreams
  takes : s.core.closedState = false → ∀ b, s.cancelled b = false → (s.incoming b).canEnqueue = true
  pending : s.core.closedState = false → s.core.closed = .pending

variable {s : WebTransportSession}

theorem bounded_fresh : Bounded {} where
  mark _ := rfl
  length _ := Nat.zero_le _
  takes _ _ _ := rfl
  pending _ := rfl

theorem Bounded.core (h : s.Bounded) {core : SessionCore} (hkeeps : s.core.Keeps core) :
    Bounded { s with core := core } where
  mark := h.mark
  length := h.length
  takes hopen := h.takes (hkeeps.settled hopen).1
  pending hopen := (hkeeps.settled hopen).2.trans (h.pending (hkeeps.settled hopen).1)

theorem setIncoming_self (s : WebTransportSession) (bidi : Bool) (stream : ReadableStream Nat) :
    (s.setIncoming bidi stream).incoming bidi = stream := by
  simp [setIncoming]

theorem Bounded.setIncoming (h : s.Bounded) {bidi : Bool} {stream : ReadableStream Nat}
    (hmark : stream.highWaterMark = (s.incoming bidi).highWaterMark)
    (hlength : stream.queue.length ≤ maxPendingIncomingStreams)
    (htakes : (s.incoming bidi).canEnqueue = true → stream.canEnqueue = true) :
    (s.setIncoming bidi stream).Bounded where
  mark b := by
    simp only [WebTransportSession.setIncoming]
    split
    · exact hmark.trans (h.mark bidi)
    · exact h.mark b
  length b := by
    simp only [WebTransportSession.setIncoming]
    split
    · exact hlength
    · exact h.length b
  takes hopen b hb := by
    have hb' := h.takes hopen b hb
    simp only [WebTransportSession.setIncoming]
    split
    next heq => exact htakes (heq ▸ hb')
    · exact hb'
  pending := h.pending

theorem Bounded.shrinks (h : s.Bounded) {bidi : Bool} {stream : ReadableStream Nat}
    (hshrinks : (s.incoming bidi).Shrinks stream) : (s.setIncoming bidi stream).Bounded :=
  h.setIncoming hshrinks.mark (hshrinks.length.trans (h.length bidi)) hshrinks.takes

theorem keeps_wrap (core : SessionCore) (streamId : Nat) (bidi : Bool) :
    core.Keeps (wrap core streamId bidi) := by
  cases bidi with
  | true =>
      exact (SessionCore.keeps_construct core streamId .receive).trans
        (SessionCore.keeps_construct _ streamId .send)
  | false => exact SessionCore.keeps_construct core streamId .receive

/-- Whether a stream finds room. -/
theorem Bounded.room (h : s.Bounded) (hopen : s.core.closedState = false) {bidi : Bool}
    (hb : s.cancelled bidi = false) :
    (s.incoming bidi).desiredSize.getD 0 ≤ 0 ↔
      (s.incoming bidi).queue.length = maxPendingIncomingStreams := by
  have hreadable := ReadableStream.readable_of_canEnqueue (h.takes hopen bidi hb)
  have hlength := h.length bidi
  rw [ReadableStream.desiredSize_readable hreadable, Option.getD_some, h.mark]
  omega

theorem Bounded.onIncoming (h : s.Bounded) (hopen : s.core.closedState = false) (streamId : Nat)
    (bidi : Bool) : (s.onIncoming streamId bidi).Bounded := by
  unfold WebTransportSession.onIncoming
  split
  · cases bidi with
    | true =>
        exact h.core ((SessionCore.keeps_stopSending s.core streamId 0).trans
          (SessionCore.keeps_resetStream _ streamId 0))
    | false => exact h.core (SessionCore.keeps_stopSending s.core streamId 0)
  next hb =>
    have hb : s.cancelled bidi = false := by simpa using hb
    split
    · exact h.core (SessionCore.keeps_abort s.core _)
    next hsize =>
      have hwrapped := h.core (keeps_wrap s.core streamId bidi)
      simp only
      split
      next r hr =>
        have hroom : (s.incoming bidi).queue.length < maxPendingIncomingStreams :=
          lt_of_le_of_ne (h.length bidi) (mt (h.room hopen hb).mpr hsize)
        obtain ⟨hcan, ⟨-, rfl⟩ | ⟨-, rfl⟩⟩ := ReadableStream.enqueue_eq_some hr
        · refine hwrapped.setIncoming (by simp) ?_ fun hcan => ?_
          · simpa using h.length bidi
          · rwa [ReadableStream.canEnqueue_callPullIfNeeded]
        · refine hwrapped.setIncoming (by simp) ?_ fun hcan => ?_
          · simpa using Nat.succ_le_of_lt hroom
          · rwa [ReadableStream.canEnqueue_callPullIfNeeded]
      · exact hwrapped

theorem Bounded.cancel (h : s.Bounded) (bidi : Bool) : (s.cancel bidi).Bounded where
  mark b := by
    simp only [WebTransportSession.cancel, WebTransportSession.setIncoming]
    split
    · exact (s.incoming bidi).cancel_frame.1.trans (h.mark bidi)
    · exact h.mark b
  length b := by
    simp only [WebTransportSession.cancel, WebTransportSession.setIncoming]
    split
    · exact (s.incoming bidi).cancel_frame.2.trans (h.length bidi)
    · exact h.length b
  takes hopen b hb := by
    simp only [WebTransportSession.cancel, WebTransportSession.setIncoming] at hb ⊢
    split at hb
    next heq =>
      -- A direction that takes streams is readable, and the cancellation is noted.
      subst heq
      rw [Bool.or_eq_false_iff] at hb
      have hreadable := ReadableStream.readable_of_canEnqueue (h.takes hopen b hb.1)
      simp [ReadableStream.cancel, hreadable] at hb
    next hne =>
      rw [if_neg hne]
      exact h.takes hopen b hb
  pending := h.pending

theorem Bounded.closedSettled (h : s.Bounded) : s.closedSettled.Bounded := by
  unfold WebTransportSession.closedSettled
  cases hclosed : s.core.closed with
  | pending => exact h
  | resolved info =>
      have hover : s.core.closedState = true := by
        by_contra hopen
        have hpending := h.pending (Bool.not_eq_true _ ▸ hopen)
        rw [hclosed] at hpending
        cases hpending
      exact ⟨fun b => (s.incoming b).close_frame.1.trans (h.mark b),
        fun b => (s.incoming b).close_frame.2 ▸ h.length b,
        fun hopen => by simp [hover] at hopen, fun hopen => by simp [hover] at hopen⟩
  | rejected error =>
      have hover : s.core.closedState = true := by
        by_contra hopen
        have hpending := h.pending (Bool.not_eq_true _ ▸ hopen)
        rw [hclosed] at hpending
        cases hpending
      exact ⟨fun b => (s.incoming b).error_frame.1.trans (h.mark b),
        fun b => (s.incoming b).error_frame.2.trans (h.length b),
        fun hopen => by simp [hover] at hopen, fun hopen => by simp [hover] at hopen⟩

/-- A step of the session object is one of its own steps, or is left out. -/
theorem step_core (s : WebTransportSession) (a : SessionCore.Step) :
    s.step (.core a) = s ∨ s.step (.core a) = { s with core := s.core.step a } := by
  cases a with
  | app a =>
      cases a with
      | dispatch ev =>
          cases ev with
          | stream streamId bidi => exact .inl rfl
          | _ => exact .inr rfl
      | _ => exact .inr rfl
  | _ => exact .inr rfl

theorem Bounded.step (h : s.Bounded) (a : Action) : (s.step a).Bounded := by
  cases a with
  | stream streamId bidi =>
      simp only [WebTransportSession.step]
      split
      · exact h
      next hopen => exact h.onIncoming (by simpa using hopen) streamId bidi
  | core a =>
      rcases step_core s a with hsame | hstep
      · rw [hsame]
        exact h
      · rw [hstep]
        exact h.core (SessionCore.keeps_step s.core a)
  | read bidi => exact h.shrinks (ReadableStream.shrinks_read _)
  | releaseLock bidi => exact h.shrinks (ReadableStream.shrinks_releaseLock _)
  | cancel bidi => exact h.cancel bidi
  | start bidi => exact h.shrinks (ReadableStream.shrinks_start _)
  | pulled bidi => exact h.shrinks (ReadableStream.shrinks_pulled _)
  | closedSettled => exact h.closedSettled

theorem bounded_run (actions : List Action) : (execute step {} actions).Bounded :=
  execute_invariant (I := Bounded) (fun _ a h _ => h.step a) bounded_fresh
    (along_true step actions _)

/-! ## A stream of the peer -/

/-- A session that is over stays so, and is not closed again. -/
theorem over_run (h : s.core.closedState = true) (actions : List Action) :
    (execute step s actions).core.closedState = true ∧
      (execute step s actions).core.closes = s.core.closes := by
  refine execute_invariant (P := fun _ _ => True)
    (I := fun t => t.core.closedState = true ∧ t.core.closes = s.core.closes) (fun t a ht _ => ?_)
    ⟨h, rfl⟩ (along_true step actions s)
  cases a with
  | stream streamId bidi => simpa [step, ht.1] using ht
  | core a =>
      rcases step_core t a with hsame | hstep
      · rw [hsame]
        exact ht
      · have hkept := (SessionCore.keeps_step t.core a).ended ht.1
        rw [hstep]
        exact ⟨hkept.1, hkept.2.trans ht.2⟩
  | closedSettled =>
      have hcore : (t.step .closedSettled).core = t.core := by
        simp only [step, closedSettled]
        split <;> rfl
      rwa [hcore]
  | _ => exact ht

/-- What becomes of a stream of the peer while the session is not over. -/
structure Taken (s : WebTransportSession) (streamId : Nat) (bidi : Bool) : Prop where
  /-- The stream would be one too many: the session ends, and has no sinks. -/
  full : s.cancelled bidi = false → (s.incoming bidi).queue.length = maxPendingIncomingStreams →
    (s.step (.stream streamId bidi)).core.closedState = true ∧
      (s.step (.stream streamId bidi)).core.closed =
        .rejected ⟨overflow bidi, .session, none⟩ ∧
      (s.step (.stream streamId bidi)).core.closes =
        s.core.closes + (if s.core.attached then 1 else 0) ∧
      (s.step (.stream streamId bidi)).core.nextObject = s.core.nextObject ∧
      (s.step (.stream streamId bidi)).core.receives = .empty ∧
      (s.step (.stream streamId bidi)).core.sends = .empty ∧
      (s.step (.stream streamId bidi)).incoming = s.incoming
  /-- There is room: the wrapper goes to a read that waits, or into the queue. -/
  room : s.cancelled bidi = false → (s.incoming bidi).queue.length < maxPendingIncomingStreams →
    (s.step (.stream streamId bidi)).core = wrap s.core streamId bidi ∧
      (s.step (.stream streamId bidi)).core.closedState = false ∧
      (s.step (.stream streamId bidi)).core.commands = s.core.commands ∧
      ((s.step (.stream streamId bidi)).incoming bidi).queue =
        if 0 < (s.incoming bidi).requests then (s.incoming bidi).queue
        else (s.incoming bidi).queue ++ [streamId]
  /-- The direction was cancelled: the stream is stopped and gets no wrapper. -/
  cancelled : s.cancelled bidi = true →
    (s.step (.stream streamId bidi)).core.closedState = false ∧
      (s.step (.stream streamId bidi)).core.commands = s.core.commands ++
        (if s.core.attached then
          .stopSending streamId 0 :: if bidi then [.reset streamId 0] else []
        else []) ∧
      (s.step (.stream streamId bidi)).core.nextObject = s.core.nextObject ∧
      (s.step (.stream streamId bidi)).core.objects = s.core.objects ∧
      (s.step (.stream streamId bidi)).core.receives = s.core.receives ∧
      (s.step (.stream streamId bidi)).core.sends = s.core.sends ∧
      (s.step (.stream streamId bidi)).incoming = s.incoming

/-- The session object with the unread streams of both directions as counts. -/
def counted (s : WebTransportSession) : SessionCore :=
  { s.core with
    incoming := fun b => (s.incoming b).queue.length
    incomingCancelled := s.cancelled }

def uncounted (core : SessionCore) : SessionCore :=
  { core with incoming := fun _ => 0, incomingCancelled := fun _ => false }

theorem command_counts (core : SessionCore) (incoming : Bool → Nat) (cancelled : Bool → Bool)
    (c : Command) :
    SessionCore.command { core with incoming := incoming, incomingCancelled := cancelled } c =
      { core.command c with incoming := incoming, incomingCancelled := cancelled } := by
  unfold SessionCore.command
  split <;> rfl

/-- Apart from the counts themselves the handler does what `SessionCore.onIncoming` does
on them. -/
theorem Bounded.onIncoming_counted (h : s.Bounded) (hopen : s.core.closedState = false)
    (streamId : Nat) (bidi : Bool) :
    uncounted (s.onIncoming streamId bidi).core = uncounted (s.counted.onIncoming streamId bidi) := by
  cases hb : s.cancelled bidi with
  | true =>
      rw [WebTransportSession.onIncoming, if_pos hb, SessionCore.onIncoming, if_pos (by exact hb)]
      simp only [counted, SessionCore.stopSending, SessionCore.resetStream, command_counts]
      cases bidi <;> rfl
  | false =>
      by_cases hsize : (s.incoming bidi).desiredSize.getD 0 ≤ 0
      · have hfull : maxPendingIncomingStreams ≤ (s.incoming bidi).queue.length :=
          ((h.room hopen hb).mp hsize).ge
        cases hattached : s.core.attached <;> cases hready : s.core.readyState <;> cases bidi <;>
          simp [WebTransportSession.onIncoming, SessionCore.onIncoming, counted, uncounted, hb, hsize, hfull,
            overflow, SessionCore.abort, SessionCore.close, SessionCore.finish,
            SessionCore.settleLifecycle, SessionCore.settleAll, SessionCore.command, hopen, hattached,
            hready]
      · have hroom : ¬maxPendingIncomingStreams ≤ (s.incoming bidi).queue.length := fun hfull =>
          hsize ((h.room hopen hb).mpr (le_antisymm (h.length bidi) hfull))
        obtain ⟨r, hr⟩ := Option.isSome_iff_exists.mp
          (ReadableStream.enqueue_isSome (h.takes hopen bidi hb) streamId)
        cases bidi <;>
          simp [WebTransportSession.onIncoming, SessionCore.onIncoming, counted, uncounted, hb, hsize, hroom, hr,
            wrap, WebTransportSession.setIncoming, SessionCore.construct]

theorem abort_spec {core : SessionCore} (hopen : core.closedState = false)
    (hpending : core.closed = .pending) (message : String) :
    (core.abort message).closed = .rejected ⟨message, .session, none⟩ ∧
      (core.abort message).closes = core.closes + (if core.attached then 1 else 0) ∧
      (core.abort message).nextObject = core.nextObject ∧
      (core.abort message).receives = .empty ∧ (core.abort message).sends = .empty := by
  cases hattached : core.attached <;> cases hready : core.readyState <;>
    simp [SessionCore.abort, SessionCore.close, SessionCore.finish, SessionCore.settleLifecycle,
      SessionCore.settleAll, SessionCore.command, SessionCore.closes, List.countP_cons,
      Command.isClose, hopen, hpending, hattached, hready, Settled.reject]

theorem Bounded.taken (h : s.Bounded) (hopen : s.core.closedState = false) (streamId : Nat)
    (bidi : Bool) : s.Taken streamId bidi := by
  have hstep : s.step (.stream streamId bidi) = s.onIncoming streamId bidi := by
    simp [WebTransportSession.step, hopen]
  refine ⟨fun hb hfull => ?_, fun hb hroom => ?_, fun hb => ?_⟩ <;> rw [hstep]
  · have habort : s.onIncoming streamId bidi = { s with core := s.core.abort (overflow bidi) } := by
      rw [WebTransportSession.onIncoming, if_neg (by simp [hb]), if_pos ((h.room hopen hb).mpr hfull)]
    have hspec := abort_spec hopen (h.pending hopen) (overflow bidi)
    have hover : (s.core.abort (overflow bidi)).closedState = true := by
      rw [SessionCore.abort, if_neg (by simp [hopen])]
      exact SessionCore.finish_closedState _ _ _
    rw [habort]
    exact ⟨hover, hspec.1, hspec.2.1, hspec.2.2.1, hspec.2.2.2.1, hspec.2.2.2.2, rfl⟩
  · have hsize : ¬(s.incoming bidi).desiredSize.getD 0 ≤ 0 :=
      mt (h.room hopen hb).mp (ne_of_lt hroom)
    obtain ⟨r, hr⟩ := Option.isSome_iff_exists.mp
      (ReadableStream.enqueue_isSome (h.takes hopen bidi hb) streamId)
    have htaken : s.onIncoming streamId bidi =
        ({ s with core := wrap s.core streamId bidi } : WebTransportSession).setIncoming bidi r.1 := by
      simp [WebTransportSession.onIncoming, hb, hsize, hr]
    have hwrap : (wrap s.core streamId bidi).closedState = s.core.closedState ∧
        (wrap s.core streamId bidi).commands = s.core.commands := by
      cases bidi <;> exact ⟨rfl, rfl⟩
    rw [htaken]
    refine ⟨rfl, hwrap.1.trans hopen, hwrap.2, ?_⟩
    rw [setIncoming_self]
    rcases ReadableStream.enqueue_eq_some hr with ⟨-, ⟨hrequests, rfl⟩ | ⟨hrequests, rfl⟩⟩
    · simp [hrequests]
    · simp [hrequests]
  · cases hattached : s.core.attached <;> cases bidi <;>
      simp [WebTransportSession.onIncoming, hb, SessionCore.stopSending, SessionCore.resetStream,
        SessionCore.command, hattached, hopen]

/-- The limit of the incoming streams: in every state each direction holds at most
`maxPendingIncomingStreams` unread wrappers; a stream that finds them all unread ends
the session, which is not closed a second time, and any other stream does not. -/
theorem incoming_limited (actions : List Action) :
    (∀ b, ((execute step {} actions).incoming b).queue.length ≤ maxPendingIncomingStreams) ∧
      ∀ streamId bidi,
        ((execute step {} actions).core.closedState = false →
          (execute step {} actions).Taken streamId bidi) ∧
        ((execute step {} actions).core.closedState = true → ∀ more,
          (execute step (execute step {} actions) more).core.closedState = true ∧
            (execute step (execute step {} actions) more).core.closes =
              (execute step {} actions).core.closes) := by
  have h := bounded_run actions
  exact ⟨h.length, fun streamId bidi =>
    ⟨fun hopen => h.taken hopen streamId bidi, fun hover more => over_run hover more⟩⟩

end WebTransportSession

end RWebTransport.Node
