import RWebTransport.Lib.Run
import Mathlib.Logic.Basic

/-!
# The socket and the poll of the server loop

The UDP socket, the readiness that `mio` reports for it, and the receive loop of
`run_inner` in `server.rs`.  Readiness is edge-triggered: an event is produced
when something arrives, and `poll` reports it once.

The receive loop ends at an empty socket, at a failed `recv_from`, or behind
`MAX_RECV_PER_WAKE` datagrams.  Only the first of these leaves nothing behind.
-/

namespace RWebTransport.Polling

/-- `MAX_RECV_PER_WAKE`. -/
def maxRecvPerWake : Nat := 1024

/-- What a `recv_from` can find in the socket. -/
inductive Arrival where
  | datagram (len : Nat)
  /-- A pending socket error. -/
  | error
deriving DecidableEq, Repr

/-- What `recv_from` returned. -/
inductive Received where
  | datagram (len : Nat)
  | error
  | wouldBlock
deriving DecidableEq, Repr

/-- The socket and the waker, as the loop thread meets them. -/
structure Inbox where
  /-- What the socket holds, oldest first. -/
  queue : List Arrival := []
  /-- A readiness event that no `poll` has returned. -/
  ready : Bool := false
  /-- A wake that no `poll` has returned. -/
  woken : Bool := false
  /-- What the last `recv_from` returned. -/
  last : Option Received := none
deriving DecidableEq, Repr

namespace Inbox

/-- Something arrives, or nothing. -/
def arrive (s : Inbox) (l : List Arrival) : Inbox :=
  { s with queue := s.queue ++ l, ready := s.ready || !l.isEmpty }

/-- `Waker::wake`: a command, or a batch that the JS thread released. -/
def wake (s : Inbox) (woken : Bool) : Inbox := { s with woken := s.woken || woken }

/-- `poll` returns: with the events there are, or without any when the timeout is
over. -/
def poll (s : Inbox) : Inbox := { s with ready := false, woken := false }

/-- `recv_from`. -/
def recvFrom (s : Inbox) : Inbox :=
  match s.queue with
  | [] => { s with last := some .wouldBlock }
  | .datagram len :: rest => { s with queue := rest, last := some (.datagram len) }
  | .error :: rest => { s with queue := rest, last := some .error }

/-- The receive loop.  The first of `arrivals` arrives in front of the next
`recv_from`, and what is left of them behind the loop. -/
def receive : Nat → List (List Arrival) → Inbox → Inbox
  | 0, arrivals, s => s.arrive arrivals.flatten
  | budget + 1, arrivals, s =>
      let s1 := (s.arrive (arrivals.headD [])).recvFrom
      match s1.last with
      | some (.datagram _) => receive budget arrivals.tail s1
      | _ => s1.arrive arrivals.tail.flatten

/-- What one iteration of the loop meets. -/
structure Iteration where
  /-- While the loop is in `poll`. -/
  before : List Arrival
  wakesBefore : Bool
  /-- `poll` fails. -/
  interrupted : Bool
  /-- In front of each `recv_from`, and behind the receive loop. -/
  during : List (List Arrival)
  /-- Behind `poll`, in front of the next one. -/
  wakesDuring : Bool

/-- The state in which `poll` returns. -/
def polling (s : Inbox) (i : Iteration) : Inbox := (s.arrive i.before).wake i.wakesBefore

/-- One iteration: a `poll` that fails is called again. -/
def iteration (s : Inbox) (i : Iteration) : Inbox :=
  if i.interrupted then s.polling i
  else (receive maxRecvPerWake i.during (s.polling i).poll).wake i.wakesDuring

/-- The loop is in `poll` with no event pending: nothing but another packet, a wake or
a timer ends that. -/
def Blocked (s : Inbox) : Prop := s.ready = false ∧ s.woken = false

/-- The last `recv_from`, if there was one, found the socket empty. -/
def Drained (s : Inbox) : Prop := s.last = none ∨ s.last = some .wouldBlock

/-- A loop that blocks has read everything. -/
def Awake (s : Inbox) : Prop := s.Blocked → s.Drained ∧ s.queue = []

/-- What the socket holds when `poll` returns fits the budget, and no error stands
in it. -/
def Fits (s : Inbox) (i : Iteration) : Prop :=
  (s.queue ++ i.before).length < maxRecvPerWake ∧ .error ∉ s.queue ++ i.before

/-- Something arrives behind the return of `poll`, or wakes the loop. -/
def Noticed (i : Iteration) : Prop := i.during.flatten ≠ [] ∨ i.wakesDuring = true

/-! ## The receive loop -/

@[simp] theorem arrive_nil (s : Inbox) : s.arrive [] = s := by
  simp [arrive]

@[simp] theorem arrive_woken (s : Inbox) (l : List Arrival) : (s.arrive l).woken = s.woken := rfl

@[simp] theorem recvFrom_ready (s : Inbox) : s.recvFrom.ready = s.ready := by
  unfold recvFrom
  split <;> rfl

@[simp] theorem recvFrom_woken (s : Inbox) : s.recvFrom.woken = s.woken := by
  unfold recvFrom
  split <;> rfl

theorem receive_woken (budget : Nat) (arrivals : List (List Arrival)) (s : Inbox) :
    (receive budget arrivals s).woken = s.woken := by
  induction budget generalizing arrivals s with
  | zero => rfl
  | succ budget ih =>
      rw [receive]
      split
      · rw [ih]
        simp
      · simp

/-- The loop leaves an event behind exactly if something arrives in it. -/
theorem receive_ready (budget : Nat) (arrivals : List (List Arrival)) (s : Inbox) :
    (receive budget arrivals s).ready = (s.ready || !arrivals.flatten.isEmpty) := by
  induction budget generalizing arrivals s with
  | zero => rfl
  | succ budget ih =>
      have hsplit : (!arrivals.flatten.isEmpty) =
          (!(arrivals.headD []).isEmpty || !arrivals.tail.flatten.isEmpty) := by
        cases arrivals with
        | nil => rfl
        | cons a rest => cases a <;> simp
      rw [receive, hsplit]
      split
      · rw [ih]
        simp [arrive, Bool.or_assoc]
      · simp [arrive, Bool.or_assoc]

theorem nothing_arrives {arrivals : List (List Arrival)} (h : arrivals.flatten = []) :
    arrivals.headD [] = [] ∧ arrivals.tail.flatten = [] := by
  cases arrivals with
  | nil => exact ⟨rfl, rfl⟩
  | cons a rest => exact List.append_eq_nil_iff.mp h

/-- With nothing new to read the loop ends at the empty socket if the budget and
the socket allow it, and only then. -/
theorem receive_last {budget : Nat} {arrivals : List (List Arrival)} {s : Inbox}
    (hnone : arrivals.flatten = []) (hlast : budget = 0 → s.last ≠ some .wouldBlock) :
    (receive budget arrivals s).last = some .wouldBlock ↔
      s.queue.length < budget ∧ .error ∉ s.queue := by
  induction budget generalizing arrivals s with
  | zero =>
      have hkept : (receive 0 arrivals s).last = s.last := rfl
      simp [hkept, hlast rfl]
  | succ budget ih =>
      obtain ⟨hhead, htail⟩ := nothing_arrives hnone
      simp only [receive, hhead, htail, arrive_nil]
      cases hqueue : s.queue with
      | nil => simp [recvFrom, hqueue]
      | cons found rest =>
          cases found with
          | error => simp [recvFrom, hqueue]
          | datagram len =>
              have hstep := ih (s := { s with queue := rest, last := some (.datagram len) })
                htail (by simp)
              simpa [recvFrom, hqueue] using hstep

theorem recvFrom_last (s : Inbox) : s.recvFrom.last ≠ none := by
  unfold recvFrom
  split <;> simp

/-- There is a first `recv_from`. -/
theorem receive_attempts {budget : Nat} {arrivals : List (List Arrival)} {s : Inbox}
    (h : budget ≠ 0 ∨ s.last ≠ none) : (receive budget arrivals s).last ≠ none := by
  induction budget generalizing arrivals s with
  | zero => exact h.elim (absurd rfl) id
  | succ budget ih =>
      rw [receive]
      split
      · exact ih (.inr (recvFrom_last _))
      · exact recvFrom_last _

theorem receive_queue {budget : Nat} {arrivals : List (List Arrival)} {s : Inbox}
    (hnone : arrivals.flatten = []) (hlast : budget = 0 → s.last ≠ some .wouldBlock)
    (hblock : (receive budget arrivals s).last = some .wouldBlock) :
    (receive budget arrivals s).queue = [] := by
  induction budget generalizing arrivals s with
  | zero => exact absurd hblock (hlast rfl)
  | succ budget ih =>
      obtain ⟨hhead, htail⟩ := nothing_arrives hnone
      simp only [receive, hhead, htail, arrive_nil] at hblock ⊢
      cases hqueue : s.queue with
      | nil => simp [recvFrom, hqueue]
      | cons found rest =>
          cases found with
          | error => simp [recvFrom, hqueue] at hblock
          | datagram len =>
              simp only [recvFrom, hqueue] at hblock ⊢
              exact ih htail (by simp) hblock

/-! ## Iterations -/

theorem blocked_polling {s : Inbox} {i : Iteration} (h : (s.polling i).Blocked) :
    s.Blocked ∧ s.polling i = s := by
  obtain ⟨hready, hwoken⟩ := h
  simp only [polling, wake, arrive, Bool.or_eq_false_iff, Bool.not_eq_false', List.isEmpty_iff]
    at hready hwoken
  refine ⟨⟨hready.1, hwoken.1⟩, ?_⟩
  simp [polling, wake, hready.2, hwoken.2]

theorem blocked_iteration {s : Inbox} {i : Iteration} (hpoll : i.interrupted = false) :
    (s.iteration i).Blocked ↔ ¬Noticed i := by
  have hready : (s.iteration i).ready = !i.during.flatten.isEmpty := by
    simp [iteration, hpoll, wake, receive_ready, poll]
  have hwoken : (s.iteration i).woken = i.wakesDuring := by
    simp [iteration, hpoll, wake, receive_woken, poll]
  simp [Blocked, hready, hwoken, Noticed]

/-- An iteration that nothing disturbs leaves the loop with everything read exactly
if what the socket held fits the budget. -/
theorem awake_iteration {s : Inbox} {i : Iteration} (h : s.Awake) :
    (s.iteration i).Awake ↔ i.interrupted = true ∨ Noticed i ∨ s.Fits i := by
  cases hpoll : i.interrupted with
  | true =>
      have heq : s.iteration i = s.polling i := by simp [iteration, hpoll]
      simp only [true_or, iff_true]
      intro hblocked
      rw [heq] at hblocked ⊢
      obtain ⟨hwas, hsame⟩ := blocked_polling hblocked
      rw [hsame]
      exact h hwas
  | false =>
      simp only [Bool.false_eq_true, false_or]
      by_cases hnoticed : Noticed i
      · simp only [hnoticed, true_or, iff_true]
        exact fun hblocked => absurd hnoticed ((blocked_iteration hpoll).mp hblocked)
      · have hblocked := (blocked_iteration (s := s) hpoll).mpr hnoticed
        have hnone : i.during.flatten = [] := not_not.mp (mt .inl hnoticed)
        have hbudget : maxRecvPerWake ≠ 0 := by decide
        have hlast : (s.iteration i).last = (receive maxRecvPerWake i.during (s.polling i).poll).last := by
          simp [iteration, hpoll, wake]
        have hqueue : (s.iteration i).queue =
            (receive maxRecvPerWake i.during (s.polling i).poll).queue := by
          simp [iteration, hpoll, wake]
        have hfits : (receive maxRecvPerWake i.during (s.polling i).poll).last = some .wouldBlock ↔
            s.Fits i := receive_last hnone (absurd · hbudget)
        simp only [hnoticed, false_or, ← hfits]
        constructor
        · intro hawake
          rcases (hawake hblocked).1 with hfirst | hblock
          · exact absurd (hlast ▸ hfirst) (receive_attempts (.inl hbudget))
          · exact hlast ▸ hblock
        · intro hblock _
          exact ⟨.inr (hlast.trans hblock),
            hqueue.trans (receive_queue hnone (absurd · hbudget) hblock)⟩

theorem awake_start : ({} : Inbox).Awake := fun _ => ⟨.inl rfl, rfl⟩

/-- Throughout a run, a loop that blocks has read everything exactly if no
iteration leaves its receive loop at the budget or at an error unnoticed. -/
theorem awake_throughout (run : List Iteration) :
    (∀ before after, run = before ++ after → (execute iteration {} before).Awake) ↔
      Along iteration (fun s i => i.interrupted = true ∨ Noticed i ∨ s.Fits i) {} run := by
  have hstates : (∀ before after, run = before ++ after → (execute iteration {} before).Awake) ↔
      Along iteration (fun s i => (s.iteration i).Awake) {} run := by
    rw [along_iff_forall]
    constructor
    · rintro h before i after rfl
      have hnext := h (before ++ [i]) after (by simp)
      rwa [execute_append] at hnext
    · rintro h before after rfl
      rcases List.eq_nil_or_concat before with rfl | ⟨front, i, rfl⟩
      · exact awake_start
      · rw [List.concat_eq_append, execute_append]
        exact h front i after (by simp)
  rw [hstates]
  exact along_iff (I := Awake) (A := fun _ _ => True) (fun s i h _ => awake_iteration h)
    (fun s i h _ hcond => (awake_iteration h).mpr hcond) awake_start (along_true iteration run {})

/-- One datagram more than the budget. -/
def burst : Iteration where
  before := List.replicate (maxRecvPerWake + 1) (.datagram 1200)
  wakesBefore := false
  interrupted := false
  during := []
  wakesDuring := false

theorem not_awake :
    ¬∀ (run : List Iteration), (∀ i ∈ run, .error ∉ i.before ∧ .error ∉ i.during.flatten) →
      (execute iteration {} run).Awake := by
  intro h
  have hnoError : ∀ i ∈ [burst], .error ∉ i.before ∧ .error ∉ i.during.flatten := by
    intro i hi
    obtain rfl := List.mem_singleton.mp hi
    refine ⟨fun hmem => ?_, List.not_mem_nil⟩
    cases List.eq_of_mem_replicate hmem
  have hawake := h [burst] hnoError
  rw [execute_cons, execute_nil, awake_iteration awake_start] at hawake
  rcases hawake with hinterrupted | hnoticed | hfits
  · cases hinterrupted
  · rcases hnoticed with hduring | hwakes
    · exact hduring rfl
    · cases hwakes
  · have hlength := hfits.1
    simp only [burst, List.nil_append, List.length_replicate] at hlength
    omega

end Inbox

end RWebTransport.Polling
