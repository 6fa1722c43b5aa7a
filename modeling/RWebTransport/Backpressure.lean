import RWebTransport.Lib.Run
import Mathlib.Data.List.Perm.Subperm
import Mathlib.Data.List.Dedup

/-!
# Backpressure between the event loop and the JS thread

`NeonSink::emit` and `release_inflight_batch` of `lib.rs`, and what the loops of
`driver.rs` and `server.rs` do with the counter: they load it once in an
iteration, and withhold stream data and datagrams while `MAX_INFLIGHT_BATCHES`
or more batches are under way.

The counter is raised on the loop thread and lowered on the JS thread.  The
steps below are the atomic ones, in any order the two threads allow: on the loop
thread `poll`, the load, the increment of `emit` and the outcome of `try_send`,
on the JS thread the release of a batch it dequeues.
-/

namespace RWebTransport.Backpressure

/-- `MAX_INFLIGHT_BATCHES`. -/
def maxInflightBatches : Int := 128

/-- Where the loop thread is. -/
inductive Phase where
  | starting
  /-- In `poll`. -/
  | polling
  /-- Behind `poll`, in front of the load. -/
  | polled
  /-- Behind the load. -/
  | driven
  | stopped
  deriving DecidableEq, Repr

/-- The two threads, the counter and the waker between them. -/
structure Threads where
  phase : Phase := .starting
  /-- What the load of the last iteration found; `false` in front of the load. -/
  backpressured : Bool := false
  /-- `DriverShared::inflight`. -/
  inflight : Int := 0
  /-- A wake that no `poll` has returned yet. -/
  woken : Bool := false
  /-- How many batches were emitted; the next batch has this number. -/
  emitted : Nat := 0
  /-- The batch between `fetch_add` and the outcome of `try_send`. -/
  emitting : Option Nat := none
  /-- The batches in the channel to the JS thread. -/
  queued : List Nat := []
  /-- The batches that were released, oldest first. -/
  released : List Nat := []

/-- What a thread does in one step. -/
inductive Action where
  /-- `poll` returns. -/
  | poll
  /-- `poll` is interrupted and called again. -/
  | interrupted
  | load
  /-- `emit` raises the counter. -/
  | emit
  /-- `try_send` returns. -/
  | trySend (ok : Bool)
  /-- The loop calls `poll`. -/
  | block
  | stop
  /-- The JS thread dequeues a batch. -/
  | dequeue (batch : Nat)

namespace Threads

/-- `release_inflight_batch`: a decrement from the cap wakes the loop. -/
def releaseInflightBatch (s : Threads) (batch : Nat) : Threads :=
  { s with
    inflight := s.inflight - 1
    woken := s.woken || decide (s.inflight = maxInflightBatches)
    released := batch :: s.released }

/-- `NeonSink::emit`, up to `try_send`. -/
def emit (s : Threads) : Threads :=
  { s with inflight := s.inflight + 1, emitted := s.emitted + 1, emitting := some s.emitted }

/-- The outcome of `try_send`.  A batch that cannot be scheduled is released on
the loop thread. -/
def trySend (s : Threads) (ok : Bool) : Threads :=
  match s.emitting with
  | none => s
  | some batch =>
      if ok then { s with emitting := none, queued := s.queued ++ [batch] }
      else ({ s with emitting := none } : Threads).releaseInflightBatch batch

/-- The JS thread releases the batch it dequeues in front of its callbacks. -/
def dequeue (s : Threads) (batch : Nat) : Threads :=
  ({ s with queued := s.queued.erase batch } : Threads).releaseInflightBatch batch

/-- Before the loop, with nothing under way. -/
def start : Threads := {}

def step (s : Threads) : Action → Threads
  | .poll => { s with phase := .polled, woken := false, backpressured := false }
  | .interrupted => s
  | .load => { s with phase := .driven, backpressured := decide (maxInflightBatches ≤ s.inflight) }
  | .emit => s.emit
  | .trySend ok => s.trySend ok
  | .block => { s with phase := .polling }
  | .stop => { s with phase := .stopped }
  | .dequeue batch => s.dequeue batch

/-- When a thread can take the step. -/
def Enabled (s : Threads) : Action → Prop
  | .poll | .interrupted => s.phase = .polling
  | .load => s.phase = .polled ∧ s.emitting = none
  | .emit => s.phase ≠ .polling ∧ s.emitting = none
  | .trySend _ => s.emitting.isSome
  | .block => (s.phase = .starting ∨ s.phase = .driven) ∧ s.emitting = none
  | .stop => s.phase ≠ .polling ∧ s.emitting = none
  | .dequeue batch => batch ∈ s.queued

instance (s : Threads) : ∀ a, Decidable (s.Enabled a)
  | .poll | .interrupted => inferInstanceAs (Decidable (_ = _))
  | .load | .emit | .block | .stop => inferInstanceAs (Decidable (_ ∧ _))
  | .trySend _ => inferInstanceAs (Decidable (_ = true))
  | .dequeue _ => inferInstanceAs (Decidable (_ ∈ _))

/-- The emitted batches that were not released. -/
def outstanding (s : Threads) : List Nat := (List.range s.emitted).filter (· ∉ s.released)

/-- The loop sleeps on data that it withheld, and nothing is going to wake it. -/
def Stranded (s : Threads) : Prop :=
  s.phase = .polling ∧ s.backpressured = true ∧ s.inflight < maxInflightBatches ∧ s.woken = false

/-! ## The invariant -/

/-- The batches under way: the one `emit` is sending, and those in the channel. -/
def live (s : Threads) : List Nat := s.emitting.toList ++ s.queued

/-- A batch under way is counted, and no other; a release that clears the
backpressure of the iteration is remembered. -/
structure Balanced (s : Threads) : Prop where
  batches : (s.live ++ s.released).Perm (List.range s.emitted)
  counted : s.inflight = s.live.length
  remembered : s.backpressured = true → s.inflight < maxInflightBatches → s.woken = true

theorem balanced_start : Threads.start.Balanced where
  batches := .refl _
  counted := rfl
  remembered h _ := by cases h

/-- A release of the only copy of a batch under way. -/
theorem Balanced.release {s s' : Threads} {batch : Nat} (h : s.Balanced)
    (hlive : s.live.Perm (batch :: s'.live)) (hreleased : s'.released = s.released)
    (hemitted : s'.emitted = s.emitted) (hinflight : s'.inflight = s.inflight)
    (hbackpressured : s'.backpressured = s.backpressured) (hwoken : s'.woken = s.woken) :
    (s'.releaseInflightBatch batch).Balanced where
  batches := by
    change (s'.live ++ batch :: s'.released).Perm (List.range s'.emitted)
    rw [hreleased, hemitted]
    have hcons : (batch :: (s'.live ++ s.released)).Perm (List.range s.emitted) :=
      (hlive.append_right s.released).symm.trans h.batches
    exact List.perm_middle.trans hcons
  counted := by
    have hlength : s.live.length = s'.live.length + 1 := by simpa using hlive.length_eq
    have hcounted := h.counted
    change s'.inflight - 1 = s'.live.length
    omega
  remembered hpressed hlow := by
    change s'.inflight - 1 < maxInflightBatches at hlow
    change (s'.woken || decide (s'.inflight = maxInflightBatches)) = true
    -- Either this decrement is the crossing, or the counter was below the cap already.
    by_cases hcross : s'.inflight = maxInflightBatches
    · simp [hcross]
    · have hwas : s.woken = true := h.remembered (hbackpressured ▸ hpressed) (by omega)
      simp [hwoken, hwas]

theorem Balanced.emit {s : Threads} (h : s.Balanced) (hidle : s.emitting = none) :
    s.emit.Balanced where
  batches := by
    have hbatches := h.batches
    simp only [live, hidle, Option.toList_none, List.nil_append] at hbatches
    change (s.emitted :: (s.queued ++ s.released)).Perm (List.range (s.emitted + 1))
    rw [List.range_succ]
    exact (hbatches.cons _).trans (List.perm_append_singleton _ _).symm
  counted := by
    have hcounted := h.counted
    simp only [live, hidle, Option.toList_none, List.nil_append] at hcounted
    change s.inflight + 1 = ((s.emitted :: s.queued).length : Int)
    simp [hcounted]
  remembered hpressed hlow := by
    change s.inflight + 1 < maxInflightBatches at hlow
    exact h.remembered hpressed (by omega)

theorem Balanced.trySend {s : Threads} (h : s.Balanced) (ok : Bool) : (s.trySend ok).Balanced := by
  unfold Threads.trySend
  split
  · exact h
  next batch hemitting =>
    have hlive : s.live = batch :: s.queued := by simp [live, hemitting]
    split
    · have hmoved : (s.queued ++ [batch]).Perm s.live := hlive ▸ List.perm_append_singleton _ _
      refine ⟨(hmoved.append_right _).trans h.batches, ?_, h.remembered⟩
      exact h.counted.trans (congrArg Nat.cast hmoved.length_eq.symm)
    · exact h.release (.of_eq hlive) rfl rfl rfl rfl rfl

theorem Balanced.dequeue {s : Threads} (h : s.Balanced) {batch : Nat} (hqueued : batch ∈ s.queued) :
    (s.dequeue batch).Balanced := by
  have hlive : s.live.Perm (batch :: (s.emitting.toList ++ s.queued.erase batch)) :=
    ((List.perm_cons_erase hqueued).append_left _).trans List.perm_middle
  exact h.release hlive rfl rfl rfl rfl rfl

theorem Balanced.step {s : Threads} (h : s.Balanced) {a : Action} (ha : s.Enabled a) :
    (s.step a).Balanced := by
  cases a with
  | poll => exact ⟨h.batches, h.counted, fun hpressed => by cases hpressed⟩
  | load =>
      refine ⟨h.batches, h.counted, fun hpressed hlow => ?_⟩
      change s.inflight < maxInflightBatches at hlow
      have hhigh : maxInflightBatches ≤ s.inflight := of_decide_eq_true hpressed
      omega
  | emit => exact h.emit ha.2
  | trySend ok => exact h.trySend ok
  | dequeue batch => exact h.dequeue ha
  | interrupted => exact h
  | block | stop => exact ⟨h.batches, h.counted, h.remembered⟩

theorem Balanced.nodup {s : Threads} (h : s.Balanced) : (s.live ++ s.released).Nodup :=
  h.batches.nodup_iff.mpr List.nodup_range

/-- What is under way is what was emitted and not released. -/
theorem Balanced.outstanding {s : Threads} (h : s.Balanced) : s.outstanding.Perm s.live := by
  have hapart : ∀ b ∈ s.live, b ∉ s.released := fun b hb hr =>
    List.disjoint_of_nodup_append h.nodup hb hr
  have hlive : s.live.filter (· ∉ s.released) = s.live :=
    List.filter_eq_self.mpr fun b hb => decide_eq_true (hapart b hb)
  have hgone : s.released.filter (· ∉ s.released) = [] :=
    List.filter_eq_nil_iff.mpr fun b hb => by simpa using hb
  have hperm := h.batches.symm.filter (fun b => decide (b ∉ s.released))
  rwa [List.filter_append, hlive, hgone, List.append_nil] at hperm

theorem balanced_run {actions : List Action} (hrun : Along Threads.step Enabled start actions) :
    (execute Threads.step start actions).Balanced :=
  execute_invariant (I := Balanced) (fun _ _ h ha => Balanced.step h ha) balanced_start hrun

/-- A batch on its way when the loop goes to sleep under backpressure. -/
def sampleActions : List Action :=
  List.flatten (List.replicate 128 [.emit, .trySend true]) ++
    [.block, .poll, .load, .block, .dequeue 5]

end Threads

end RWebTransport.Backpressure
