import RWebTransport.Lib.ReadableStream
import RWebTransport.Lib.Run
import RWebTransport.Node.SessionCore

/-!
# Pausing a receive stream

`WebTransportReceiveStream` of `streams.ts` on its `ReadableStream`, with the
`setPaused` commands on their way to the native session.  A full queue pauses
the native stream and a pull resumes it.

The stream does not call the pull algorithm while the promise of an earlier call
is pending, so a read below the high-water mark need not resume at once.
`paused_full` says that the resume is noted in that case, and follows with that
promise.
-/

namespace RWebTransport.Node

/-- A receive stream with the channel of commands behind it. -/
structure ReceiveStream where
  controller : ReadableStream Bytes := { highWaterMark := receiveHighWaterMark }
  /-- The sink is registered. -/
  registered : Bool := true
  /-- The `setPaused` commands on their way, oldest first. -/
  channel : List Bool := []
  /-- `paused` of the native stream. -/
  paused : Bool := false
deriving DecidableEq, Repr

namespace ReceiveStream

/-- `setPaused`. -/
def setPaused (s : ReceiveStream) (paused : Bool) : ReceiveStream :=
  { s with channel := s.channel ++ [paused] }

/-- An operation of the controller, with the call of `pull` if it makes one. -/
def control (s : ReceiveStream) (r : ReadableStream Bytes × Bool) : ReceiveStream :=
  let s1 := { s with controller := r.1 }
  if r.2 then s1.setPaused false else s1

/-- `onData`. -/
def onData (s : ReceiveStream) (chunk : Bytes) : ReceiveStream :=
  match s.controller.enqueue chunk with
  | none => s
  | some r =>
      let s1 := s.control r
      if s1.controller.desiredSize.getD 1 ≤ 0 then s1.setPaused true else s1

/-- `onFin`. -/
def onFin (s : ReceiveStream) : ReceiveStream :=
  { s with controller := s.controller.close, registered := false }

/-- `onReset` and `onSessionClose`. -/
def onError (s : ReceiveStream) : ReceiveStream :=
  { s with controller := s.controller.error, registered := false }

/-- A cancellation, with the source's `cancel`. -/
def cancel (s : ReceiveStream) : ReceiveStream :=
  let r := s.controller.cancel
  { s with controller := r.1, registered := s.registered && !r.2 }

/-- `WtSession::set_paused`, for the next command. -/
def deliver (s : ReceiveStream) : ReceiveStream :=
  match s.channel with
  | [] => s
  | paused :: channel => { s with channel := channel, paused := paused }

inductive Action where
  | onData (chunk : Bytes)
  | onFin
  | onError
  /-- The promise of the start algorithm. -/
  | start
  /-- The promise of a pull. -/
  | pulled
  | read
  | releaseLock
  | cancel
  /-- The native session takes a command. -/
  | deliver
deriving DecidableEq, Repr

/-- What an action does.  The events of an unregistered sink are dropped, and the
application gets the stream behind the microtask that starts it. -/
def step (s : ReceiveStream) : Action → ReceiveStream
  | .onData chunk => if s.registered then s.onData chunk else s
  | .onFin => if s.registered then s.onFin else s
  | .onError => if s.registered then s.onError else s
  | .start => s.control s.controller.start
  | .pulled => s.control s.controller.pulled
  | .read => if s.controller.started then s.control s.controller.read else s
  | .releaseLock => { s with controller := s.controller.releaseLock }
  | .cancel => s.cancel
  | .deliver => s.deliver

/-- The native stream is paused, once the commands on their way are delivered. -/
def pausing (s : ReceiveStream) : Bool := s.channel.getLast?.getD s.paused

@[simp] theorem pausing_setPaused (s : ReceiveStream) (paused : Bool) :
    (s.setPaused paused).pausing = paused := by
  simp [pausing, setPaused]

theorem pausing_deliver (s : ReceiveStream) : s.deliver.pausing = s.pausing := by
  unfold deliver
  split
  · rfl
  next paused channel hchannel =>
    simp only [pausing, hchannel, List.getLast?_cons]
    cases channel.getLast? <;> rfl

/-- While the stream takes chunks, a pause stands for a full queue or is going to be
undone by a pull that is noted. -/
structure Balanced (s : ReceiveStream) : Prop where
  mark : s.controller.highWaterMark = receiveHighWaterMark
  started : s.controller.pulling = true → s.controller.started = true
  full : s.controller.canEnqueue = true → s.pausing = true →
    receiveHighWaterMark ≤ s.controller.queue.length ∨
      s.controller.pulling = true ∧ s.controller.pullAgain = true

variable {s : ReceiveStream}

theorem balanced_fresh : Balanced {} where
  mark := rfl
  started h := by cases h
  full _ h := by cases h

@[simp] theorem control_controller (s : ReceiveStream) (r : ReadableStream Bytes × Bool) :
    (s.control r).controller = r.1 := by
  unfold control
  split <;> rfl

/-- A stream that is over has nothing to keep. -/
theorem Balanced.over (h : s.Balanced) {r : ReceiveStream} (hover : r.controller.canEnqueue = false)
    (hmark : r.controller.highWaterMark = s.controller.highWaterMark)
    (hpulling : r.controller.pulling = s.controller.pulling)
    (hstarted : r.controller.started = s.controller.started) : r.Balanced where
  mark := hmark.trans h.mark
  started := by
    rw [hpulling, hstarted]
    exact h.started
  full henqueue := by simp [hover] at henqueue

/-- Behind the check for a pull a started stream is balanced, however it was before. -/
theorem balanced_callPullIfNeeded {c : ReadableStream Bytes} (hmark : c.highWaterMark = receiveHighWaterMark)
    (hstarted : c.started = true) : (s.control c.callPullIfNeeded).Balanced where
  mark := by simp [hmark]
  started _ := by simp [hstarted]
  full henqueue hpausing := by
    simp only [control_controller] at henqueue ⊢
    have hsame : c.canEnqueue = true := by simpa [ReadableStream.canEnqueue] using henqueue
    cases hpull : c.shouldCallPull with
    | false =>
        left
        rw [ReadableStream.callPullIfNeeded_queue, ← hmark]
        exact ReadableStream.full_of_unwanted hsame hstarted hpull
    | true =>
        rcases ReadableStream.callPullIfNeeded_wanted hpull with hcalled | hnoted
        · simp [control, hcalled] at hpausing
        · exact .inr hnoted

/-- A pause at a full queue is balanced. -/
theorem Balanced.setPaused (h : s.Balanced)
    (hfull : receiveHighWaterMark ≤ s.controller.queue.length) : (s.setPaused true).Balanced where
  mark := h.mark
  started := h.started
  full _ _ := .inl hfull

theorem Balanced.enqueued (h : s.Balanced) {chunk : Bytes} {r : ReadableStream Bytes × Bool}
    (hr : s.controller.enqueue chunk = some r) : (s.control r).Balanced := by
  obtain ⟨hcan, hchunk⟩ := ReadableStream.enqueue_eq_some hr
  obtain ⟨c, rfl, hmark, hstarted, hpulling, hlength⟩ : ∃ c : ReadableStream Bytes,
      r = c.callPullIfNeeded ∧ c.highWaterMark = s.controller.highWaterMark ∧
        c.started = s.controller.started ∧ c.pulling = s.controller.pulling ∧
        s.controller.queue.length ≤ c.queue.length := by
    rcases hchunk with ⟨-, rfl⟩ | ⟨-, rfl⟩
    · exact ⟨_, rfl, rfl, rfl, rfl, le_rfl⟩
    · exact ⟨_, rfl, rfl, rfl, rfl, by simp⟩
  cases hrun : s.controller.started with
  | true => exact balanced_callPullIfNeeded (hmark.trans h.mark) (hstarted.trans hrun)
  | false =>
      have hnot : s.controller.pulling ≠ true := fun hp => by
        have hstart := h.started hp
        rw [hrun] at hstart
        cases hstart
      have hidle : c.shouldCallPull = false := by
        simp [ReadableStream.shouldCallPull, hstarted, hrun]
      rw [ReadableStream.callPullIfNeeded_idle hidle]
      refine ⟨hmark.trans h.mark, fun hp => absurd (hpulling ▸ hp) hnot, fun _ hpausing => ?_⟩
      rcases h.full hcan hpausing with hfull | ⟨hp, -⟩
      · exact .inl (le_trans hfull hlength)
      · exact absurd hp hnot

theorem Balanced.onData (h : s.Balanced) (chunk : Bytes) : (s.onData chunk).Balanced := by
  unfold ReceiveStream.onData
  split
  · exact h
  next r hr =>
    have henqueued := h.enqueued hr
    have hreadable : (s.control r).controller.state = .readable := by
      obtain ⟨hcan, ⟨-, rfl⟩ | ⟨-, rfl⟩⟩ := ReadableStream.enqueue_eq_some hr <;>
        simpa using ReadableStream.readable_of_canEnqueue hcan
    simp only
    split
    next hsize =>
      rw [ReadableStream.desiredSize_readable hreadable, Option.getD_some, henqueued.mark] at hsize
      exact henqueued.setPaused (by omega)
    · exact henqueued

theorem Balanced.read (h : s.Balanced) (hstarted : s.controller.started = true) :
    (s.control s.controller.read).Balanced := by
  unfold ReadableStream.read
  split
  · split
    · exact balanced_callPullIfNeeded h.mark hstarted
    next chunk queue hqueue =>
      simp only
      split
      · exact h.over rfl rfl rfl rfl
      · exact balanced_callPullIfNeeded h.mark hstarted
  · exact h

theorem Balanced.pulled (h : s.Balanced) : (s.control s.controller.pulled).Balanced := by
  unfold ReadableStream.pulled
  split
  · exact h
  next hpulling =>
    have hpulling : s.controller.pulling = true := by simpa using hpulling
    split
    · exact balanced_callPullIfNeeded h.mark (h.started hpulling)
    next hagain =>
      refine ⟨h.mark, fun hp => ?_, fun henqueue hpausing => ?_⟩
      · cases hp
      · rcases h.full henqueue hpausing with hfull | ⟨-, hnoted⟩
        · exact .inl hfull
        · exact absurd hnoted hagain

theorem Balanced.step (h : s.Balanced) (a : Action) : (s.step a).Balanced := by
  cases a with
  | onData chunk =>
      simp only [ReceiveStream.step]
      split
      · exact h.onData chunk
      · exact h
  | onFin =>
      simp only [ReceiveStream.step]
      split
      · unfold ReceiveStream.onFin ReadableStream.close
        split
        · exact ⟨h.mark, h.started, h.full⟩
        · split
          · exact h.over rfl rfl rfl rfl
          · exact h.over (by simp [ReadableStream.canEnqueue]) rfl rfl rfl
      · exact h
  | onError =>
      simp only [ReceiveStream.step]
      split
      · unfold ReceiveStream.onError ReadableStream.error
        split
        · exact h.over rfl rfl rfl rfl
        · exact ⟨h.mark, h.started, h.full⟩
      · exact h
  | start =>
      simp only [ReceiveStream.step, ReadableStream.start]
      split
      · exact h
      · exact balanced_callPullIfNeeded h.mark rfl
  | pulled => exact h.pulled
  | read =>
      simp only [ReceiveStream.step]
      split
      next hstarted => exact h.read hstarted
      · exact h
  | releaseLock => exact ⟨h.mark, h.started, h.full⟩
  | cancel =>
      simp only [ReceiveStream.step, ReceiveStream.cancel, ReadableStream.cancel]
      split
      · exact h.over rfl rfl rfl rfl
      · exact ⟨h.mark, h.started, h.full⟩
  | deliver =>
      have hcontroller : s.deliver.controller = s.controller := by
        unfold ReceiveStream.deliver
        split <;> rfl
      refine ⟨?_, ?_, ?_⟩ <;> simp only [ReceiveStream.step, hcontroller, pausing_deliver]
      · exact h.mark
      · exact h.started
      · exact h.full

/-- The promise of a pull that is noted behind a read below the mark resumes the
native stream. -/
theorem Balanced.resumes (h : s.Balanced) (henqueue : s.controller.canEnqueue = true)
    (hpulling : s.controller.pulling = true) (hagain : s.controller.pullAgain = true)
    (hlow : s.controller.queue.length < receiveHighWaterMark) :
    (s.step .pulled).pausing = false := by
  have hwanted : ReadableStream.shouldCallPull
      { s.controller with pulling := false, pullAgain := false } = true := by
    simp only [ReadableStream.canEnqueue] at henqueue
    simp [ReadableStream.shouldCallPull, ReadableStream.canEnqueue, henqueue, h.started hpulling,
      h.mark, hlow]
  simp [ReceiveStream.step, ReadableStream.pulled, hpulling, hagain, ReadableStream.callPullIfNeeded,
    hwanted, control]

theorem balanced_run (actions : List Action) : (execute step {} actions).Balanced :=
  execute_invariant (I := Balanced) (fun _ a h _ => h.step a) balanced_fresh
    (along_true step actions _)

/-- No resume is lost: while a stream takes chunks, a pause that is in force or on its
way stands for a full queue, or the promise of a pull that is in flight undoes
it. -/
theorem paused_full (actions : List Action)
    (henqueue : (execute step {} actions).controller.canEnqueue = true)
    (hpausing : (execute step {} actions).pausing = true) :
    receiveHighWaterMark ≤ (execute step {} actions).controller.queue.length ∨
      (execute step {} actions).controller.pulling = true ∧
        (execute step {} actions).controller.pullAgain = true ∧
        (execute step {} actions |>.step .pulled).pausing = false := by
  by_cases hlow : (execute step {} actions).controller.queue.length < receiveHighWaterMark
  · rcases (balanced_run actions).full henqueue hpausing with hfull | ⟨hpulling, hagain⟩
    · exact .inl hfull
    · exact .inr ⟨hpulling, hagain, (balanced_run actions).resumes henqueue hpulling hagain hlow⟩
  · exact .inl (by omega)

/-- A read that waits takes the first chunk of a batch, and the rest fills the
queue.  The application then reads behind the chunk it got, in front of the
promise of the pull. -/
def earlyRead : List Action :=
  [.start, .pulled, .read, .pulled] ++ List.replicate 33 (.onData [0]) ++ [.read]

theorem paused_full_sample :
    receiveHighWaterMark ≤ (execute step {} earlyRead).controller.queue.length ∨
      (execute step {} earlyRead).controller.pulling = true ∧
        (execute step {} earlyRead).controller.pullAgain = true ∧
        (execute step {} earlyRead |>.step .pulled).pausing = false :=
  paused_full earlyRead (by decide +kernel) (by decide +kernel)

theorem not_full :
    ¬∀ actions : List Action, (execute step {} actions).controller.canEnqueue = true →
      (execute step {} actions).pausing = true →
      receiveHighWaterMark ≤ (execute step {} actions).controller.queue.length := by
  intro h
  have hfull := h earlyRead (by decide +kernel) (by decide +kernel)
  revert hfull
  decide +kernel

end ReceiveStream

end RWebTransport.Node
