import RWebTransport.Driver

/-!
# The server loop

`run_inner` of `server.rs`, for one connection: what the loop does to it in an
iteration, in the order of the source, with a record of the states in which
`conn.send` put packets on the wire.  The other connections meet this one in
the shared parser budget alone.

A rejected CONNECT ends the session, and the loop closes the connection of an
ended session right behind the flush that queued the response.
-/

namespace RWebTransport.Server

open Endpoint (call)
open Quic (NetEvent)

/-- A connection of the server. -/
structure ServerConn where
  endpoint : Endpoint
  /-- Reaped, or left behind when the loop returned. -/
  gone : Bool := false
  /-- The states in which `flush_send` was called, oldest first. -/
  passes : List Endpoint := []

/-- What one iteration meets. -/
structure Iteration where
  /-- The effects of `conn.recv` and `conn.on_timeout`. -/
  received : List NetEvent
  /-- The commands of the application. -/
  commands : List Call
  backpressured : Bool
  /-- `conn.readable()`. -/
  readable : List Nat
  order : HashOrder
  /-- The effects of `conn.send`. -/
  sent : List NetEvent
  /-- What `conn.is_closed()` comes with, if it holds at the end. -/
  closed : Option Closure
  /-- What the other connections do to the shared budget. -/
  others : Heap → Heap

/-- The calls that `apply_command` makes. -/
def isCommand : Call → Bool
  | .sendDatagram _ _ | .openStream _ _ | .streamWrite _ _ _ | .streamFin _ | .streamReset _ _
  | .streamStopSending _ _ | .setPaused _ _ | .close _ _ | .sendDrain => true
  | _ => false

section

variable [H3.Codec]

/-- Steps 1 to 3 of the loop. -/
def received (i : Iteration) : List Call := i.received.map .network ++ i.commands

/-- Step 4 up to the flush. -/
def drive (e : Endpoint) (i : Iteration) : List Call :=
  (if e.conn.established then [.onEstablished] else []) ++
    (if i.backpressured then [] else [.onDatagrams]) ++
    i.readable.map (.onReadable · i.backpressured) ++ [.flush i.order]

/-- The calls of an iteration up to the flush. -/
def iterationCalls (e : Endpoint) (i : Iteration) : List Call :=
  received i ++ drive (execute call e (received i)) i

end

/-- The connection of an ended session is closed, unless it is gone already. -/
def closeEnded (e : Endpoint) : Endpoint :=
  if e.closed ∧ !e.conn.terminated then e.closeConn H3.h3NoError [] else e

/-- `conn.send` puts stream frames into packets: not behind `conn.close`, and
not on a connection that is closed or draining. -/
def serializes (c : Quic.Connection) : Bool := c.localError.isNone && !c.terminated

namespace ServerConn

variable [H3.Codec]

/-- `flush_send`. -/
def flushSend (s : ServerConn) (sent : List NetEvent) : ServerConn :=
  { s with
    passes := s.passes ++ [s.endpoint]
    endpoint := execute call s.endpoint (sent.map .network) }

/-- Step 5: a closed connection ends its session and is dropped. -/
def reap (s : ServerConn) : Option Closure → ServerConn
  | some how => { s with gone := true, endpoint := s.endpoint.endSession how }
  | none => s

/-- What the loop does to a connection. -/
inductive Action where
  | iterate (i : Iteration)
  /-- The shutdown command, behind what was received and asked for before. -/
  | shutdown (received : List NetEvent) (commands : List Call) (sent : List NetEvent)

/-- The state that an iteration starts from. -/
def shared (s : ServerConn) (i : Iteration) : Endpoint :=
  { s.endpoint with heap := i.others s.endpoint.heap }

/-- One action of the loop. -/
def act (s : ServerConn) : Action → ServerConn
  | .iterate i =>
      if s.gone then s
      else
        (({ s with endpoint := closeEnded (execute call (s.shared i) (iterationCalls (s.shared i) i))
          } : ServerConn).flushSend i.sent).reap i.closed
  | .shutdown received commands sent =>
      if s.gone then s
      else
        let e := execute call s.endpoint (received.map .network ++ commands)
        { ({ s with endpoint := e.closeConn 0 (H3.ascii "server shutdown") } : ServerConn).flushSend
            sent with gone := true }

/-- The contracts of the calls of an action. -/
def Admissible (s : ServerConn) : Action → Prop
  | .iterate i =>
      (∀ c ∈ i.commands, isCommand c = true) ∧
        Along call Endpoint.Admissible (s.shared i) (iterationCalls (s.shared i) i)
  | .shutdown received commands _ =>
      (∀ c ∈ commands, isCommand c = true) ∧
        Along call Endpoint.Admissible s.endpoint (received.map .network ++ commands)

end ServerConn

/-! ## What holds at every pass -/

theorem serializes_closeConn (e : Endpoint) (code : Nat) (reason : Bytes) :
    serializes (e.closeConn code reason).conn = false := by
  simp only [serializes, Endpoint.closeConn, Quic.Connection.close]
  split_ifs with hgone
  · rcases hgone with h | h
    · simp [h]
    · simp [Option.isSome_iff_ne_none.mp h]
  · rfl
  · rfl

/-- Behind the loop's check an ended session has no connection to answer on. -/
theorem serializes_closeEnded {e : Endpoint} (h : (closeEnded e).closed = true) :
    serializes (closeEnded e).conn = false := by
  unfold closeEnded at h ⊢
  split_ifs at h ⊢ with hopen
  · exact serializes_closeConn e _ _
  · have hterm : e.conn.terminated = true := by simpa [h] using hopen
    simp [serializes, hterm]

/-- `reject_connect` was called. -/
def Rejected (e : Endpoint) : Prop := ∃ status, .rejected status ∈ e.history

/-- quiche has accepted all that was queued on the CONNECT stream, and its FIN. -/
def Accepted (e : Endpoint) : Prop :=
  (e.conn.streams connectId).send.fin = true ∧
    ∀ st, e.streams.get connectId = some st → st.out = []

/-- A pass of `conn.send` took place behind the acceptance and in front of
`conn.close`. -/
def Answered (s : ServerConn) : Prop :=
  ∃ e ∈ s.passes, Rejected e ∧ Accepted e ∧ serializes e.conn = true

/-- A rejected CONNECT ends its session. -/
def RejectedClosed (e : Endpoint) : Prop := Rejected e → e.closed = true

theorem rejectedClosed_whole [H3.Codec] : Endpoint.Whole RejectedClosed where
  effect {r e e'} heff _ hI := by
    rintro ⟨status, hmem⟩
    have hkept (h : .rejected status ∈ e.history) : e'.closed = true := heff.closed (hI ⟨status, h⟩)
    have hmarked {s : Endpoint} {code : Nat} {reason : Bytes} {remote : Bool}
        (h : .rejected status ∈ (s.markClosed code reason remote).history) :
        (s.markClosed code reason remote).closed = true := Endpoint.markClosed_closed _ _ _ _
    cases heff with
    | log ht =>
        rcases List.mem_append.mp hmem with h | h
        · exact hkept h
        · rw [← List.mem_singleton.mp h] at ht
          cases ht
    | fail | finish | killFail | resetFail | resetClose | reject | refuse => exact hmarked hmem
    | credit =>
        refine hkept ?_
        unfold Endpoint.setCreditLimit at hmem
        split_ifs at hmem <;> exact hmem
    | settings | charge | connect | headers | moreHeaders | undecoded | unanswered =>
        refine hkept ?_
        rcases List.mem_append.mp hmem with h | h
        · exact h
        · exact absurd (List.mem_singleton.mp h) (by simp)
    | ready | accept =>
        refine hkept ?_
        rcases List.mem_append.mp hmem with h | h
        · rcases List.mem_append.mp h with h | h
          · exact h
          · exact absurd (List.mem_singleton.mp h) (by simp)
        · exact absurd (List.mem_singleton.mp h) (by simp)
    | _ => exact hkept hmem
  quiet {e e'} hq hI := by
    rintro ⟨status, hmem⟩
    obtain ⟨l, hl, hquiet⟩ := hq.history
    rw [hl, List.mem_append] at hmem
    rcases hmem with hmem | hmem
    · exact hq.closed.trans (hI ⟨status, hmem⟩)
    · exact absurd (hquiet _ hmem) (by simp [Trace.isQuiet])
  setup e hI := by
    rcases Endpoint.onEstablished_spec e with h | ⟨-, -, -, -, hclosed, -, -, -, -, hhistory, -⟩
    · rwa [h]
    · unfold RejectedClosed Rejected
      rwa [hclosed, hhistory]
  meet e _ _ hI := hI
  close e code reason remote _ _ := Endpoint.markClosed_closed e code reason remote

section

variable [H3.Codec]

theorem network_admissible (events : List NetEvent) (e : Endpoint) :
    Along call Endpoint.Admissible e (events.map .network) := by
  induction events generalizing e with
  | nil => trivial
  | cons event events ih => exact ⟨trivial, ih _⟩

/-- What holds of the session as a whole, and at every pass. -/
structure ServerConn.Holds (I : Endpoint → Prop) (s : ServerConn) : Prop where
  endpoint : s.endpoint.Layout ∧ I s.endpoint
  passes : ∀ e ∈ s.passes, I e ∧ (e.closed = true → serializes e.conn = false)

variable {I : Endpoint → Prop} (hI : Endpoint.Whole I)
include hI

theorem ServerConn.Holds.flushSend {s : ServerConn} (h : s.Holds I)
    (hends : s.endpoint.closed = true → serializes s.endpoint.conn = false)
    (sent : List NetEvent) : (s.flushSend sent).Holds I where
  endpoint := hI.run h.endpoint (network_admissible sent _)
  passes e he := by
    rcases List.mem_append.mp he with he | he
    · exact h.passes e he
    · rw [List.mem_singleton.mp he]
      exact ⟨h.endpoint.2, hends⟩

theorem ServerConn.Holds.act {s : ServerConn} (h : s.Holds I) {a : ServerConn.Action}
    (ha : s.Admissible a) : (s.act a).Holds I := by
  cases a with
  | iterate i =>
      simp only [ServerConn.act]
      split
      · exact h
      · have hdriven := hI.run (hI.effects (.heap (r := connectId) s.endpoint _) h.endpoint) ha.2
        have hended : (closeEnded (execute call (s.shared i) (iterationCalls (s.shared i) i))).Layout ∧
            I (closeEnded (execute call (s.shared i) (iterationCalls (s.shared i) i))) := by
          unfold closeEnded
          split
          · exact hI.closeConn _ _ hdriven
          · exact hdriven
        have hsent := ServerConn.Holds.flushSend hI (s := { s with endpoint := closeEnded _ })
          ⟨hended, h.passes⟩ serializes_closeEnded i.sent
        cases hclosed : i.closed with
        | none => exact hsent
        | some how => exact ⟨hI.endSession hsent.endpoint how, hsent.passes⟩
  | shutdown received commands sent =>
      simp only [ServerConn.act]
      split
      · exact h
      · have hclosed := hI.closeConn 0 (H3.ascii "server shutdown") (hI.run h.endpoint ha.2)
        have hsent := ServerConn.Holds.flushSend hI (s := { s with endpoint := _ })
          ⟨hclosed, h.passes⟩ (fun _ => serializes_closeConn _ _ _) sent
        exact ⟨hsent.endpoint, hsent.passes⟩

theorem ServerConn.Holds.run {s : ServerConn} (h : s.Holds I) {actions : List ServerConn.Action}
    (hrun : Along ServerConn.act ServerConn.Admissible s actions) :
    (execute ServerConn.act s actions).Holds I :=
  execute_invariant (fun _ _ h ha => h.act hI ha) h hrun

end

/-! ## A rejected CONNECT -/

section

variable [H3.Codec]

/-- A response to a rejected CONNECT is never answered: whenever packets are sent
behind the rejection, the connection was closed before, or is gone. -/
theorem rejected_not_answered {e : Endpoint} (hstart : Endpoint.Start e)
    (hserver : e.cfg.isServer = true) {actions : List ServerConn.Action}
    (hrun : Along ServerConn.act ServerConn.Admissible ⟨e, false, []⟩ actions)
    (_hrejected : Rejected (execute ServerConn.act ⟨e, false, []⟩ actions).endpoint)
    (_haccepted : Accepted (execute ServerConn.act ⟨e, false, []⟩ actions).endpoint) :
    ¬Answered (execute ServerConn.act ⟨e, false, []⟩ actions) := by
  have hnone : RejectedClosed e := by
    rintro ⟨status, hmem⟩
    cases hstart <;> cases hmem
  have hholds := ServerConn.Holds.run rejectedClosed_whole
    (s := ⟨e, false, []⟩) ⟨⟨hstart.layout, hnone⟩, by simp⟩ hrun
  rintro ⟨p, hp, hrej, -, hser⟩
  obtain ⟨hclosed, hends⟩ := hholds.passes p hp
  rw [hends (hclosed hrej)] at hser
  cases hser

end

/-- An iteration that receives SETTINGS without WebTransport and a request. -/
def sampleIteration : Iteration where
  received := [.data 2 [0, 4, 0], .data 0 [1, 2, 0, 0]]
  commands := []
  backpressured := false
  readable := [2, 0]
  order := .asHeld
  sent := []
  closed := none
  others := id

theorem sampleIteration_admissible :
    letI := H3.Codec.plain
    ServerConn.Admissible ⟨Endpoint.sampleServer, false, []⟩ (.iterate sampleIteration) :=
  letI := H3.Codec.plain
  ⟨by simp [sampleIteration], by decide +kernel⟩

theorem rejected_not_answered_sample :
    letI := H3.Codec.plain
    ¬Answered (execute ServerConn.act ⟨Endpoint.sampleServer, false, []⟩ [.iterate sampleIteration]) :=
  letI := H3.Codec.plain
  rejected_not_answered Endpoint.sampleServer_start rfl ⟨sampleIteration_admissible, trivial⟩
    ⟨400, by decide +kernel⟩ ⟨by decide +kernel, by decide +kernel⟩

/-- The request is rejected, the response accepted, and nobody sends it. -/
theorem not_answered :
    letI := H3.Codec.plain
    ¬∀ (e : Endpoint) (actions : List ServerConn.Action), Endpoint.Start e →
      e.cfg.isServer = true → Along ServerConn.act ServerConn.Admissible ⟨e, false, []⟩ actions →
      Rejected (execute ServerConn.act ⟨e, false, []⟩ actions).endpoint →
      Accepted (execute ServerConn.act ⟨e, false, []⟩ actions).endpoint →
      Answered (execute ServerConn.act ⟨e, false, []⟩ actions) := by
  let _ := H3.Codec.plain
  intro h
  obtain ⟨p, hp, -, -, hser⟩ := h Endpoint.sampleServer [.iterate sampleIteration] Endpoint.sampleServer_start rfl
    ⟨sampleIteration_admissible, trivial⟩ ⟨400, by decide +kernel⟩
    ⟨by decide +kernel, by decide +kernel⟩
  revert p
  decide +kernel

end RWebTransport.Server
