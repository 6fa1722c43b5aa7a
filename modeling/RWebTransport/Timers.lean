import RWebTransport.Polling

/-!
# The timers of the two loops

When the loops of `driver.rs` and `server.rs` call `on_timeout`.  The client's
loop does it in an iteration that nothing else woke; the server's loop does it
for every connection in every iteration.

What quiche makes of its timers is a parameter of each iteration: `recv` is the
effect of a packet on the deadline of its connection, `onTimeout` that of
`on_timeout`, and `rest` that of commands, of the session and of `send`.
-/

namespace RWebTransport.Timers

/-- `SOCKET_TOKEN` and `WAKER_TOKEN`. -/
inductive Token where
  | socket
  | waker
deriving DecidableEq, Repr

/-- How `poll` ends. -/
inductive Polled where
  /-- Without events when the timeout is over. -/
  | events (tokens : List Token)
  | interrupted
  | failed
deriving DecidableEq, Repr

/-- When quiche wants to be woken. -/
abbrev Deadline := Option Nat

/-- `Connection::timeout`. -/
def timeout (now : Nat) (deadline : Deadline) : Option Nat := deadline.map (· - now)

/-- The timer is due: `timeout` is zero. -/
def Due (now : Nat) (deadline : Deadline) : Prop := timeout now deadline = some 0

/-! ## The client's loop -/

structure Client where
  /-- The time at which the loop asks for `conn.timeout()`. -/
  now : Nat
  deadline : Deadline
  /-- How often `on_timeout` was called. -/
  timeouts : Nat := 0
  /-- The loop has returned. -/
  stopped : Bool := false

/-- What an iteration of the client's loop meets. -/
structure Iteration where
  polled : Polled
  /-- The lengths of the datagrams that `recv_from` returns, up to an error or
  `WouldBlock`. -/
  datagrams : List Nat
  recv : Nat → Deadline → Deadline
  onTimeout : Deadline → Deadline
  rest : Deadline → Deadline
  /-- `Command::Shutdown`, or a closed connection. -/
  stops : Bool
  elapsed : Nat

namespace Client

/-- The receive loop, with `got_packet`.  An empty datagram is skipped. -/
def receive (recv : Nat → Deadline → Deadline) : List Nat → Deadline → Bool → Deadline × Bool
  | [], deadline, gotPacket => (deadline, gotPacket)
  | len :: datagrams, deadline, gotPacket =>
      if len = 0 then receive recv datagrams deadline gotPacket
      else receive recv datagrams (recv len deadline) true

/-- One iteration of `run_inner`. -/
def iteration (s : Client) (i : Iteration) : Client :=
  if s.stopped then s
  else match i.polled with
    | .interrupted => { s with now := s.now + i.elapsed }
    | .failed => { s with stopped := true }
    | .events tokens =>
        let (deadline, gotPacket) := receive i.recv i.datagrams s.deadline false
        let s1 := { s with deadline := deadline }
        let s2 :=
          if !gotPacket && tokens.isEmpty then
            { s1 with deadline := i.onTimeout deadline, timeouts := s1.timeouts + 1 }
          else s1
        { s2 with deadline := i.rest s2.deadline, now := s.now + i.elapsed, stopped := i.stops }

/-- An iteration with a due timer calls `on_timeout` before the next `poll`. -/
def Fires (s : Client) (i : Iteration) : Prop :=
  s.stopped = false → Due s.now s.deadline →
    (s.iteration i).timeouts = s.timeouts + 1 ∨ i.polled = .failed

/-- Nothing but the timeout ends `poll`, and no datagram has a content. -/
def Quiet (i : Iteration) : Prop := i.polled = .events [] ∧ ∀ len ∈ i.datagrams, len = 0

theorem receive_gotPacket (recv : Nat → Deadline → Deadline) (datagrams : List Nat)
    (deadline : Deadline) (gotPacket : Bool) :
    (receive recv datagrams deadline gotPacket).2 = (gotPacket || datagrams.any (· ≠ 0)) := by
  induction datagrams generalizing deadline gotPacket with
  | nil => simp [receive]
  | cons len datagrams ih =>
      rw [receive]
      split
      next hlen => simp [ih, hlen]
      next hlen => simp [ih, hlen]

theorem iteration_timeouts {s : Client} (hrun : s.stopped = false) (i : Iteration) :
    (s.iteration i).timeouts = s.timeouts + 1 ↔ Quiet i := by
  rw [iteration, if_neg (by simp [hrun])]
  cases hpolled : i.polled with
  | interrupted => simp [Quiet, hpolled]
  | failed => simp [Quiet, hpolled]
  | events tokens =>
      have hgot := receive_gotPacket i.recv i.datagrams s.deadline false
      simp only [Bool.false_or] at hgot
      have hcalled : (!(receive i.recv i.datagrams s.deadline false).2 && tokens.isEmpty) = true ↔
          Quiet i := by
        rw [hgot]
        cases tokens <;> simp [Quiet, hpolled]
      by_cases hquiet : Quiet i
      · simp [hcalled.mpr hquiet, hquiet]
      · simp [mt hcalled.mp hquiet, hquiet]

theorem fires_iff (s : Client) (i : Iteration) :
    s.Fires i ↔ (s.stopped = false → Due s.now s.deadline → Quiet i ∨ i.polled = .failed) := by
  refine forall_congr' fun hrun => ?_
  rw [iteration_timeouts hrun]

end Client

/-! ## The server's loop -/

/-- A datagram in the receive loop, after the lookup in `routing`. -/
inductive Datagram where
  /-- No QUIC packet, not an Initial, answered with a Retry, ... -/
  | dropped
  /-- For the connection `key`, which `quiche::accept` makes if it is new. -/
  | packet (key : Nat)
deriving DecidableEq, Repr

structure Server where
  now : Nat
  clients : Nat → Option Deadline := fun _ => none
  /-- How often `on_timeout` was called on the connection under a key. -/
  timeouts : Nat → Nat := fun _ => 0
  stopped : Bool := false

/-- What an iteration of the server's loop meets. -/
structure ServerIteration where
  polled : Polled
  datagrams : List Datagram
  /-- The deadline of a new connection. -/
  accepted : Deadline
  recv : Nat → Deadline → Deadline
  onTimeout : Nat → Deadline → Deadline
  rest : Nat → Deadline → Deadline
  /-- `conn.is_closed()` at the end. -/
  closed : Nat → Bool
  shutdown : Bool
  elapsed : Nat

namespace Server

/-- A packet reaches its connection. -/
def deliver (i : ServerIteration) (clients : Nat → Option Deadline) : Datagram → Nat → Option Deadline
  | .dropped => clients
  | .packet key => fun k =>
      if k = key then some (i.recv k ((clients k).getD i.accepted)) else clients k

/-- One iteration of `run_inner`. -/
def iteration (s : Server) (i : ServerIteration) : Server :=
  if s.stopped then s
  else match i.polled with
    | .interrupted | .failed => { s with now := s.now + i.elapsed }
    | .events _ =>
        let clients := (i.datagrams.take Polling.maxRecvPerWake).foldl (deliver i) s.clients
        let s1 : Server :=
          { s with
            clients := fun k => (clients k).map (i.onTimeout k)
            timeouts := fun k => if (clients k).isSome then s.timeouts k + 1 else s.timeouts k }
        if i.shutdown then { s1 with stopped := true }
        else
          { s1 with
            clients := fun k => if i.closed k then none else (s1.clients k).map (i.rest k)
            now := s.now + i.elapsed }

/-- An iteration calls `on_timeout` on every connection whose timer is due, before
the next `poll`. -/
def Fires (s : Server) (i : ServerIteration) : Prop :=
  s.stopped = false → ∀ key deadline, s.clients key = some deadline → Due s.now deadline →
    (s.iteration i).timeouts key = s.timeouts key + 1

theorem deliver_isSome {i : ServerIteration} {clients : Nat → Option Deadline} {key : Nat}
    (h : (clients key).isSome) (datagram : Datagram) : (deliver i clients datagram key).isSome := by
  cases datagram with
  | dropped => exact h
  | packet k =>
      by_cases hk : key = k
      · simp [deliver, hk]
      · simpa [deliver, hk] using h

theorem foldl_deliver_isSome {i : ServerIteration} {key : Nat} (datagrams : List Datagram)
    {clients : Nat → Option Deadline} (h : (clients key).isSome) :
    (datagrams.foldl (deliver i) clients key).isSome := by
  induction datagrams generalizing clients with
  | nil => exact h
  | cons datagram datagrams ih => exact ih (deliver_isSome h datagram)

/-- Whatever arrives, every connection is asked. -/
theorem iteration_timeouts {s : Server} {i : ServerIteration} {key : Nat} (hrun : s.stopped = false)
    (hclient : (s.clients key).isSome) :
    (s.iteration i).timeouts key = s.timeouts key + 1 ↔ ∃ tokens, i.polled = .events tokens := by
  rw [iteration, if_neg (by simp [hrun])]
  cases hpolled : i.polled with
  | interrupted => simp
  | failed => simp
  | events tokens =>
      have hsome := foldl_deliver_isSome (i := i) (i.datagrams.take Polling.maxRecvPerWake) hclient
      cases i.shutdown <;> simp [hsome]

theorem fires_iff (s : Server) (i : ServerIteration) :
    s.Fires i ↔ (s.stopped = false → (∃ key deadline, s.clients key = some deadline ∧ Due s.now deadline) →
      ∃ tokens, i.polled = .events tokens) := by
  refine forall_congr' fun hrun => ?_
  constructor
  · rintro h ⟨key, deadline, hkey, hdue⟩
    exact (iteration_timeouts hrun (by simp [hkey])).mp (h key deadline hkey hdue)
  · intro h key deadline hkey hdue
    exact (iteration_timeouts hrun (by simp [hkey])).mpr (h ⟨key, deadline, hkey, hdue⟩)

end Server

/-! ## Runs -/

/-- In every run of the client's loop each due timer is fired exactly if each
iteration that begins with one is quiet; in every run of the server's loop each
due timer is fired, unless `poll` fails. -/
theorem timers_fire (client : Client) (iterations : List Iteration) (server : Server)
    (serverIterations : List ServerIteration) :
    (Along Client.iteration Client.Fires client iterations ↔
      Along Client.iteration (fun s i => s.stopped = false → Due s.now s.deadline →
        Client.Quiet i ∨ i.polled = .failed) client iterations) ∧
    (Along Server.iteration Server.Fires server serverIterations ↔
      Along Server.iteration (fun s i => s.stopped = false →
        (∃ key deadline, s.clients key = some deadline ∧ Due s.now deadline) →
        ∃ tokens, i.polled = .events tokens) server serverIterations) := by
  constructor
  · exact along_iff (I := fun _ => True) (fun s i _ _ => Client.fires_iff s i)
      (fun _ _ _ _ _ => trivial) trivial (along_true Client.iteration iterations client)
  · exact along_iff (I := fun _ => True) (fun s i _ _ => Server.fires_iff s i)
      (fun _ _ _ _ _ => trivial) trivial (along_true Server.iteration serverIterations server)

/-- A command in every iteration. -/
def busy : Iteration where
  polled := .events [.waker]
  datagrams := []
  recv _ := id
  onTimeout _ := none
  rest := id
  stops := false
  elapsed := 1

/-- However long a busy client runs, it does not fire the timer. -/
theorem busy_starves (n : Nat) {s : Client} (hdue : Due s.now s.deadline) :
    (execute Client.iteration s (List.replicate n busy)).timeouts = s.timeouts ∧
      Due (execute Client.iteration s (List.replicate n busy)).now
        (execute Client.iteration s (List.replicate n busy)).deadline := by
  induction n generalizing s with
  | zero => exact ⟨rfl, hdue⟩
  | succ n ih =>
      rw [List.replicate_succ, execute_cons]
      have hkept : (s.iteration busy).timeouts = s.timeouts ∧
          Due (s.iteration busy).now (s.iteration busy).deadline := by
        cases hrun : s.stopped with
        | true => simpa [Client.iteration, hrun] using hdue
        | false =>
            refine ⟨by simp [Client.iteration, hrun, busy, Client.receive], ?_⟩
            cases hdeadline : s.deadline with
            | none => simp [Due, timeout, hdeadline] at hdue
            | some deadline =>
                simp only [Due, timeout, hdeadline, Option.map_some, Option.some.injEq] at hdue
                simp [Client.iteration, hrun, busy, Client.receive, Due, timeout, hdeadline]
                omega
      obtain ⟨htimeouts, hdue'⟩ := ih hkept.2
      exact ⟨htimeouts.trans hkept.1, hdue'⟩

theorem not_fired :
    ¬∀ (s : Client) (run : List Iteration), (∀ i ∈ run, ∃ tokens, i.polled = .events tokens) →
      Along Client.iteration Client.Fires s run := by
  intro h
  have hfires := h ⟨5, some 3, 0, false⟩ [busy] fun i hi => by
    obtain rfl := List.mem_singleton.mp hi
    exact ⟨_, rfl⟩
  obtain ⟨htimeouts, -⟩ := busy_starves 1 (s := ⟨5, some 3, 0, false⟩) rfl
  rcases hfires.1 rfl rfl with hcalled | hfailed
  · exact absurd (hcalled.symm.trans htimeouts) (by decide)
  · cases hfailed

end RWebTransport.Timers
