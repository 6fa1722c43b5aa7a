import Mathlib.Logic.Basic

/-!
# Readable streams

The default controller of a `ReadableStream` with a counting strategy, as the
streams standard has it: the queue with its high-water mark, the read requests
that wait for a chunk, and the pull algorithm of the underlying source.

The operations that may call the pull algorithm say whether they do.  While the
promise of a pull is pending the next one is only noted (`pullAgain`), and its
completion (`pulled`) makes up for it.
-/

namespace RWebTransport

universe u

inductive StreamState where
  | readable
  | closed
  | errored
deriving DecidableEq, Repr

/-- A stream with its default controller. -/
structure ReadableStream (α : Type u) where
  highWaterMark : Nat
  state : StreamState := .readable
  /-- Chunks that no read has taken, oldest first. -/
  queue : List α := []
  /-- Reads that wait for a chunk. -/
  requests : Nat := 0
  started : Bool := false
  pulling : Bool := false
  pullAgain : Bool := false
  closeRequested : Bool := false
deriving DecidableEq, Repr

namespace ReadableStream

variable {α : Type u}

/-- `desiredSize`. -/
def desiredSize (s : ReadableStream α) : Option Int :=
  match s.state with
  | .readable => some (s.highWaterMark - s.queue.length)
  | .closed => some 0
  | .errored => none

/-- `ReadableStreamDefaultControllerCanCloseOrEnqueue`. -/
def canEnqueue (s : ReadableStream α) : Bool := s.state == .readable && !s.closeRequested

/-- `ReadableStreamDefaultControllerShouldCallPull`. -/
def shouldCallPull (s : ReadableStream α) : Bool :=
  s.canEnqueue && s.started && (decide (0 < s.requests) || decide (s.queue.length < s.highWaterMark))

/-- `ReadableStreamDefaultControllerCallPullIfNeeded`. -/
def callPullIfNeeded (s : ReadableStream α) : ReadableStream α × Bool :=
  if !s.shouldCallPull then (s, false)
  else if s.pulling then ({ s with pullAgain := true }, false)
  else ({ s with pulling := true }, true)

/-- `controller.enqueue`, which throws at a stream that is over or closing. -/
def enqueue (s : ReadableStream α) (chunk : α) : Option (ReadableStream α × Bool) :=
  if !s.canEnqueue then none
  else if 0 < s.requests then some (callPullIfNeeded { s with requests := s.requests - 1 })
  else some (callPullIfNeeded { s with queue := s.queue ++ [chunk] })

/-- `ReadableStreamClose`. -/
def finish (s : ReadableStream α) : ReadableStream α := { s with state := .closed, requests := 0 }

/-- `controller.close`; the exception of a stream that is over is swallowed. -/
def close (s : ReadableStream α) : ReadableStream α :=
  if !s.canEnqueue then s
  else if s.queue = [] then { s with closeRequested := true }.finish
  else { s with closeRequested := true }

/-- `controller.error`. -/
def error (s : ReadableStream α) : ReadableStream α :=
  if s.state = .readable then { s with state := .errored, queue := [], requests := 0 } else s

/-- A cancellation by the consumer, and whether it calls the cancel algorithm. -/
def cancel (s : ReadableStream α) : ReadableStream α × Bool :=
  if s.state = .readable then ({ s.finish with queue := [] }, true) else (s, false)

/-- A read of the consumer. -/
def read (s : ReadableStream α) : ReadableStream α × Bool :=
  if s.state = .readable then
    match s.queue with
    | [] => callPullIfNeeded { s with requests := s.requests + 1 }
    | _ :: queue =>
        let s1 := { s with queue := queue }
        if s1.closeRequested ∧ queue = [] then (s1.finish, false) else s1.callPullIfNeeded
  else (s, false)

/-- A reader that lets go of the stream takes its reads with it. -/
def releaseLock (s : ReadableStream α) : ReadableStream α := { s with requests := 0 }

/-- The promise of the start algorithm is fulfilled. -/
def start (s : ReadableStream α) : ReadableStream α × Bool :=
  if s.started then (s, false) else callPullIfNeeded { s with started := true }

/-- The promise of the last pull is fulfilled. -/
def pulled (s : ReadableStream α) : ReadableStream α × Bool :=
  if !s.pulling then (s, false)
  else if s.pullAgain then callPullIfNeeded { s with pulling := false, pullAgain := false }
  else ({ s with pulling := false }, false)

/-! ## Calls of the pull algorithm -/

variable {s : ReadableStream α}

theorem callPullIfNeeded_idle (h : s.shouldCallPull = false) : s.callPullIfNeeded = (s, false) := by
  simp [callPullIfNeeded, h]

/-- All but the two flags stays. -/
theorem callPullIfNeeded_frame (s : ReadableStream α) :
    ∃ pulling pullAgain, s.callPullIfNeeded.1 = { s with pulling := pulling, pullAgain := pullAgain } := by
  unfold callPullIfNeeded
  split
  · exact ⟨s.pulling, s.pullAgain, rfl⟩
  · split
    · exact ⟨s.pulling, true, rfl⟩
    · exact ⟨true, s.pullAgain, rfl⟩

@[simp] theorem callPullIfNeeded_state (s : ReadableStream α) :
    s.callPullIfNeeded.1.state = s.state := by
  obtain ⟨p, a, h⟩ := callPullIfNeeded_frame s
  rw [h]

@[simp] theorem callPullIfNeeded_queue (s : ReadableStream α) :
    s.callPullIfNeeded.1.queue = s.queue := by
  obtain ⟨p, a, h⟩ := callPullIfNeeded_frame s
  rw [h]

@[simp] theorem callPullIfNeeded_requests (s : ReadableStream α) :
    s.callPullIfNeeded.1.requests = s.requests := by
  obtain ⟨p, a, h⟩ := callPullIfNeeded_frame s
  rw [h]

@[simp] theorem callPullIfNeeded_started (s : ReadableStream α) :
    s.callPullIfNeeded.1.started = s.started := by
  obtain ⟨p, a, h⟩ := callPullIfNeeded_frame s
  rw [h]

@[simp] theorem callPullIfNeeded_closeRequested (s : ReadableStream α) :
    s.callPullIfNeeded.1.closeRequested = s.closeRequested := by
  obtain ⟨p, a, h⟩ := callPullIfNeeded_frame s
  rw [h]

@[simp] theorem callPullIfNeeded_highWaterMark (s : ReadableStream α) :
    s.callPullIfNeeded.1.highWaterMark = s.highWaterMark := by
  obtain ⟨p, a, h⟩ := callPullIfNeeded_frame s
  rw [h]

/-- Where a pull is wanted, it is made, or noted behind the one in flight. -/
theorem callPullIfNeeded_wanted (h : s.shouldCallPull = true) :
    s.callPullIfNeeded.2 = true ∨
      s.callPullIfNeeded.1.pulling = true ∧ s.callPullIfNeeded.1.pullAgain = true := by
  cases hpulling : s.pulling with
  | true => exact .inr (by simp [callPullIfNeeded, h, hpulling])
  | false => exact .inl (by simp [callPullIfNeeded, h, hpulling])

/-- A started stream that takes chunks and does not want a pull has a full queue. -/
theorem full_of_unwanted (henqueue : s.canEnqueue = true) (hstarted : s.started = true)
    (h : s.shouldCallPull = false) : s.highWaterMark ≤ s.queue.length := by
  simp only [shouldCallPull, henqueue, hstarted, Bool.and_self, Bool.true_and, Bool.or_eq_false_iff,
    decide_eq_false_iff_not] at h
  omega

/-- A chunk goes to a read that waits, or into the queue. -/
theorem enqueue_eq_some {chunk : α} {r : ReadableStream α × Bool} (h : s.enqueue chunk = some r) :
    s.canEnqueue = true ∧
      (0 < s.requests ∧ r = callPullIfNeeded { s with requests := s.requests - 1 } ∨
        s.requests = 0 ∧ r = callPullIfNeeded { s with queue := s.queue ++ [chunk] }) := by
  unfold enqueue at h
  split at h
  · cases h
  next hcan =>
    have hcan' : s.canEnqueue = true := by simpa using hcan
    split at h
    next hrequests => exact ⟨hcan', .inl ⟨hrequests, (Option.some.inj h).symm⟩⟩
    next hrequests => exact ⟨hcan', .inr ⟨by omega, (Option.some.inj h).symm⟩⟩

theorem enqueue_isSome (h : s.canEnqueue = true) (chunk : α) : (s.enqueue chunk).isSome = true := by
  unfold enqueue
  rw [if_neg (by simp [h])]
  split <;> rfl

theorem readable_of_canEnqueue (h : s.canEnqueue = true) : s.state = .readable := by
  simp only [canEnqueue, Bool.and_eq_true, beq_iff_eq] at h
  exact h.1

theorem desiredSize_readable (h : s.state = .readable) :
    s.desiredSize = some ((s.highWaterMark : Int) - s.queue.length) := by
  simp [desiredSize, h]

theorem canEnqueue_callPullIfNeeded (s : ReadableStream α) :
    s.callPullIfNeeded.1.canEnqueue = s.canEnqueue := by
  simp [canEnqueue]

/-! ## The queue -/

/-- What an operation does to a stream that is not over: the mark stays, the queue does
not grow, and the stream takes chunks as before. -/
structure Shrinks (s s' : ReadableStream α) : Prop where
  mark : s'.highWaterMark = s.highWaterMark
  length : s'.queue.length ≤ s.queue.length
  takes : s.canEnqueue = true → s'.canEnqueue = true

theorem Shrinks.callPullIfNeeded {t : ReadableStream α} (h : s.Shrinks t) :
    s.Shrinks t.callPullIfNeeded.1 where
  mark := by rw [callPullIfNeeded_highWaterMark, h.mark]
  length := by
    rw [callPullIfNeeded_queue]
    exact h.length
  takes hopen := by
    rw [canEnqueue_callPullIfNeeded]
    exact h.takes hopen

theorem shrinks_refl (s : ReadableStream α) : s.Shrinks s := ⟨rfl, Nat.le_refl _, id⟩

theorem shrinks_read (s : ReadableStream α) : s.Shrinks s.read.1 := by
  unfold read
  split
  · split
    · exact Shrinks.callPullIfNeeded ⟨rfl, Nat.le_refl _, id⟩
    next chunk queue hqueue =>
      have hlength : queue.length ≤ s.queue.length := by simp [hqueue]
      simp only
      split
      next hclosing =>
        refine ⟨rfl, hlength, fun hopen => ?_⟩
        simp [canEnqueue, hclosing.1] at hopen
      · exact Shrinks.callPullIfNeeded ⟨rfl, hlength, id⟩
  · exact shrinks_refl s

theorem shrinks_releaseLock (s : ReadableStream α) : s.Shrinks s.releaseLock := ⟨rfl, Nat.le_refl _, id⟩

theorem shrinks_start (s : ReadableStream α) : s.Shrinks s.start.1 := by
  unfold start
  split
  · exact shrinks_refl s
  · exact Shrinks.callPullIfNeeded ⟨rfl, Nat.le_refl _, id⟩

theorem shrinks_pulled (s : ReadableStream α) : s.Shrinks s.pulled.1 := by
  unfold pulled
  split
  · exact shrinks_refl s
  · split
    · exact Shrinks.callPullIfNeeded ⟨rfl, Nat.le_refl _, id⟩
    · exact ⟨rfl, Nat.le_refl _, id⟩

theorem start_queue (s : ReadableStream α) : s.start.1.queue = s.queue := by
  unfold start
  split
  · rfl
  · exact callPullIfNeeded_queue _

theorem pulled_queue (s : ReadableStream α) : s.pulled.1.queue = s.queue := by
  unfold pulled
  split
  · rfl
  · split
    · exact callPullIfNeeded_queue _
    · rfl

theorem close_frame (s : ReadableStream α) :
    s.close.highWaterMark = s.highWaterMark ∧ s.close.queue = s.queue := by
  unfold close
  split
  · exact ⟨rfl, rfl⟩
  · split <;> exact ⟨rfl, rfl⟩

theorem error_frame (s : ReadableStream α) :
    s.error.highWaterMark = s.highWaterMark ∧ s.error.queue.length ≤ s.queue.length := by
  unfold error
  split
  · exact ⟨rfl, Nat.zero_le _⟩
  · exact ⟨rfl, Nat.le_refl _⟩

theorem cancel_frame (s : ReadableStream α) :
    s.cancel.1.highWaterMark = s.highWaterMark ∧ s.cancel.1.queue.length ≤ s.queue.length := by
  unfold cancel
  split
  · exact ⟨rfl, Nat.zero_le _⟩
  · exact ⟨rfl, Nat.le_refl _⟩

/-! ## Reads that wait -/

/-- A read waits at an empty queue, a stream that is over holds nothing, and one that is
closing still has chunks. -/
structure Sound (s : ReadableStream α) : Prop where
  waiting : 0 < s.requests → s.queue = []
  ended : s.state ≠ .readable → s.queue = [] ∧ s.requests = 0
  closing : s.state = .readable → s.closeRequested = true → s.queue ≠ []

theorem Sound.callPullIfNeeded (h : s.Sound) : s.callPullIfNeeded.1.Sound :=
  ⟨by simpa using h.waiting, by simpa using h.ended, by simpa using h.closing⟩

/-- No read waits at a stream that takes no more chunks. -/
theorem Sound.served (h : s.Sound) (hover : s.canEnqueue = false) : s.requests = 0 := by
  by_cases hstate : s.state = .readable
  · have hclosing : s.closeRequested = true := by simpa [canEnqueue, hstate] using hover
    have hqueue := h.closing hstate hclosing
    exact Nat.eq_zero_of_not_pos fun hwaits => hqueue (h.waiting hwaits)
  · exact (h.ended hstate).2

/-- What an operation does to a sound stream: it is sound behind it, and one that takes no
more chunks never takes chunks again. -/
structure Proceeds (s s' : ReadableStream α) : Prop where
  sound : s.Sound → s'.Sound
  ended : s.canEnqueue = false → s'.canEnqueue = false
  closed : s.state = .closed → s'.state = .closed

theorem Proceeds.callPullIfNeeded {t : ReadableStream α} (h : s.Proceeds t) :
    s.Proceeds t.callPullIfNeeded.1 where
  sound hs := (h.sound hs).callPullIfNeeded
  ended hs := by
    rw [canEnqueue_callPullIfNeeded]
    exact h.ended hs
  closed hs := by
    rw [callPullIfNeeded_state]
    exact h.closed hs

theorem proceeds_refl (s : ReadableStream α) : s.Proceeds s := ⟨id, id, id⟩

theorem proceeds_read (s : ReadableStream α) : s.Proceeds s.read.1 := by
  unfold read
  split
  next hstate =>
    split
    next hqueue =>
      refine Proceeds.callPullIfNeeded ⟨fun hs => ?_, id, id⟩
      exact ⟨fun _ => hqueue, fun hover => absurd hstate hover, hs.closing⟩
    next chunk queue hqueue =>
      have hidle (hs : s.Sound) : s.requests = 0 :=
        Nat.eq_zero_of_not_pos fun hwaits => by simp [hs.waiting hwaits] at hqueue
      simp only
      split
      next hclosing =>
        -- The last chunk of a stream that is closing: the stream is over.
        refine ⟨fun _ => ⟨fun _ => hclosing.2, fun _ => ⟨hclosing.2, rfl⟩, ?_⟩, ?_, fun _ => rfl⟩
        · intro hreadable
          cases hreadable
        · exact fun _ => rfl
      next hclosing =>
        refine Proceeds.callPullIfNeeded
          ⟨fun hs => ⟨?_, fun hover => absurd hstate hover, ?_⟩, id, id⟩
        · intro hwaits
          exact absurd (hidle hs) (Nat.ne_of_gt hwaits)
        · exact fun _ hrequested hempty => hclosing ⟨hrequested, hempty⟩
  · exact proceeds_refl s

theorem proceeds_releaseLock (s : ReadableStream α) : s.Proceeds s.releaseLock where
  sound hs := ⟨fun hwaits => absurd rfl (Nat.ne_of_gt hwaits),
    fun hover => ⟨(hs.ended hover).1, rfl⟩, hs.closing⟩
  ended := id
  closed := id

theorem proceeds_start (s : ReadableStream α) : s.Proceeds s.start.1 := by
  unfold start
  split
  · exact proceeds_refl s
  · exact Proceeds.callPullIfNeeded ⟨fun hs => ⟨hs.waiting, hs.ended, hs.closing⟩, id, id⟩

theorem proceeds_pulled (s : ReadableStream α) : s.Proceeds s.pulled.1 := by
  unfold pulled
  split
  · exact proceeds_refl s
  · split
    · exact Proceeds.callPullIfNeeded ⟨fun hs => ⟨hs.waiting, hs.ended, hs.closing⟩, id, id⟩
    · exact ⟨fun hs => ⟨hs.waiting, hs.ended, hs.closing⟩, id, id⟩

theorem proceeds_close (s : ReadableStream α) : s.Proceeds s.close := by
  unfold close
  split
  · exact proceeds_refl s
  next hcan =>
    have hcan : s.canEnqueue = true := by simpa using hcan
    have hopen := readable_of_canEnqueue hcan
    split
    next hqueue =>
      refine ⟨fun _ => ⟨fun _ => hqueue, fun _ => ⟨hqueue, rfl⟩, ?_⟩, fun _ => rfl, fun _ => rfl⟩
      intro hreadable
      cases hreadable
    next hqueue =>
      refine ⟨fun hs => ⟨hs.waiting, hs.ended, fun _ _ => hqueue⟩, ?_, id⟩
      exact fun hover => absurd hcan (by simp [hover])

theorem proceeds_cancel (s : ReadableStream α) : s.Proceeds s.cancel.1 := by
  unfold cancel
  split
  · refine ⟨fun _ => ⟨fun _ => rfl, fun _ => ⟨rfl, rfl⟩, ?_⟩, fun _ => rfl, fun _ => rfl⟩
    intro hreadable
    cases hreadable
  · exact proceeds_refl s

/-- A stream that was closed takes no more chunks. -/
theorem close_over (s : ReadableStream α) : s.close.canEnqueue = false := by
  unfold close
  split
  next hcan => simpa using hcan
  · split
    · rfl
    · simp [canEnqueue]

/-- A stream that takes chunks stays sound with one more. -/
theorem Sound.enqueue (h : s.Sound) {chunk : α} {r : ReadableStream α × Bool}
    (hr : s.enqueue chunk = some r) : r.1.Sound := by
  obtain ⟨hcan, ⟨hrequests, rfl⟩ | ⟨hrequests, rfl⟩⟩ := enqueue_eq_some hr
  · refine Sound.callPullIfNeeded ⟨fun _ => h.waiting hrequests, fun hover => ?_, h.closing⟩
    exact absurd (readable_of_canEnqueue hcan) hover
  · refine Sound.callPullIfNeeded ⟨fun hwaits => ?_, fun hover => ?_, fun _ _ => by simp⟩
    · exact absurd hrequests (Nat.ne_of_gt hwaits)
    · exact absurd (readable_of_canEnqueue hcan) hover

/-- The chunk a read takes at once. -/
def ready (s : ReadableStream α) : Option α := if s.state = .readable then s.queue.head? else none

theorem ready_append_read (s : ReadableStream α) : s.ready.toList ++ s.read.1.queue = s.queue := by
  unfold ready read
  split
  · cases hqueue : s.queue with
    | nil => simp
    | cons chunk queue =>
        simp only [List.head?_cons, Option.toList_some, List.singleton_append, List.cons.injEq,
          true_and]
        split
        · rfl
        · simp
  · rfl

end ReadableStream

end RWebTransport
