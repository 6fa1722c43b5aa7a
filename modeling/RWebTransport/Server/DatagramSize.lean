import RWebTransport.Server.Consistency

/-!
# The datagram size of a server

The connections of a server share one atomic for the size that a session reads
as its `maxDatagramSize`.  The drive step of every connection that has a writable
datagram length overwrites it, and a connection that has lost its length leaves
it alone.  So a session reads its own size where the length that was measured
last, on whichever connection, is its own.
-/

namespace RWebTransport.Server

open Quic (NetEvent)

namespace Tables

/-- The length that the drive step measured last, on any connection. -/
def lastMeasured (s : Tables) : Nat := (s.measured.getLast?.map Prod.snd).getD 0

/-- The atomic holds what was measured last. -/
def Published (s : Tables) : Prop := s.maxDatagramSize = s.lastMeasured - 1

/-- Neither the atomic nor the measurements have changed. -/
def Unpublished (s s' : Tables) : Prop :=
  s'.maxDatagramSize = s.maxDatagramSize ∧ s'.measured = s.measured

theorem Published.of_unpublished {s s' : Tables} (h : s.Published) (hs : Unpublished s s') :
    s'.Published := by
  unfold Published lastMeasured at h ⊢
  rw [hs.1, hs.2]
  exact h

theorem Unpublished.refl (s : Tables) : Unpublished s s := ⟨rfl, rfl⟩

theorem Unpublished.visit (s : Tables) (cid : Nat) (f : Endpoint → Endpoint) :
    Unpublished s (s.visit cid f) := by
  unfold Tables.visit
  split
  · exact .refl s
  · exact ⟨rfl, rfl⟩

theorem Published.publish {s : Tables} (h : s.Published) (cid : Nat) : (s.publish cid).Published := by
  unfold Tables.publish
  split
  · simp [Published, lastMeasured]
  · exact h

theorem Published.phase {s : Tables} {α : Type} {step : Tables → α → Tables} (h : s.Published)
    (hstep : ∀ s a, s.Published → (step s a).Published) (l : List α) :
    (execute step s l).Published :=
  execute_invariant (I := Published) (fun s a hI _ => hstep s a hI) h (along_true step l s)

theorem Published.visit {s : Tables} (h : s.Published) (cid : Nat) (f : Endpoint → Endpoint) :
    (s.visit cid f).Published := h.of_unpublished (.visit s cid f)

section

variable [H3.Codec] {s : Tables}

theorem Published.receive (h : s.Published) (sha256 : Bytes → Bytes) (setup : Setup) (p : Packet) :
    (s.receive sha256 setup p).Published := by
  have hroute : (s.route sha256 setup p).1.Published := by
    unfold Tables.route
    split
    · exact h
    · split_ifs
      · exact h
      · exact h
      · exact h
      · split
        · exact h
        · split
          · exact h
          · exact h.of_unpublished ⟨rfl, rfl⟩
  unfold Tables.receive
  generalize s.route sha256 setup p = routed at hroute
  obtain ⟨s', scid⟩ := routed
  cases scid with
  | none => exact hroute
  | some scid => exact hroute.visit scid _

theorem Published.applyCommand (h : s.Published) (cmd : ServerCommand) :
    (s.applyCommand cmd).Published := by
  unfold Tables.applyCommand
  split
  · exact h
  · split
    · exact h
    · split <;> exact h.of_unpublished ⟨rfl, rfl⟩

theorem Published.commanded (h : s.Published) (sha256 : Bytes → Bytes) (setup : Setup) (r : Round) :
    (s.commanded sha256 setup r).Published := by
  have hpackets : (execute (Tables.receive sha256 setup) s r.packets).Published :=
    h.phase (fun _ p hs => hs.receive sha256 setup p) _
  have hreceived : (s.received sha256 setup r).Published :=
    hpackets.phase (fun _ cid hs => hs.visit cid _) _
  exact hreceived.phase (fun _ cmd hs => hs.applyCommand cmd) _

theorem Published.act (h : s.Published) (sha256 : Bytes → Bytes) (setup : Setup) (r : Round) :
    (s.act sha256 setup r).Published := by
  have hcommanded := h.commanded sha256 setup r
  unfold Tables.act
  split
  · exact h
  · split
    · have hclosed : ((s.commanded sha256 setup r).forClients r (Tables.closeClient r)).Published :=
        hcommanded.phase (fun _ cid hs => hs.visit cid _) _
      exact hclosed.of_unpublished ⟨rfl, rfl⟩
    · have hdriven : ((s.commanded sha256 setup r).forClients r (Tables.drive r)).Published :=
        hcommanded.phase (fun _ cid hs => ((hs.visit cid _).publish cid).visit cid _) _
      have hfinished : (((s.commanded sha256 setup r).forClients r (Tables.drive r)).forClients r
          (Tables.finish r)).Published := by
        refine hdriven.phase (fun s cid hs => ?_) _
        unfold Tables.finish
        split
        · split
          · exact hs
          · exact hs.of_unpublished ⟨rfl, rfl⟩
        · exact hs
      have hretained : ((((s.commanded sha256 setup r).forClients r (Tables.drive r)).forClients r
          (Tables.finish r)).forClients r (Tables.retain r)).Published := by
        refine hfinished.phase (fun s cid hs => ?_) _
        unfold Tables.retain
        split
        · exact hs.of_unpublished ⟨rfl, rfl⟩
        · exact hs
      exact hretained.of_unpublished ⟨rfl, rfl⟩

theorem published_run (sha256 : Bytes → Bytes) (setup : Setup) (allocator : Nat → Nat → Option Nat)
    (rounds : List Round) :
    (execute (Tables.act sha256 setup) (start allocator) rounds).Published :=
  Published.phase (show (start allocator).Published from rfl)
    (fun _ r hs => hs.act sha256 setup r) rounds

end

/-- A client with a token, on a path with this writable datagram length. -/
def samplePacket (dcid length : Nat) : Packet where
  dcid := dcid
  isInitial := true
  token := mintToken (fun _ => List.replicate 32 0) [] [] sampleSource
  source := sampleSource
  remote := ("192.0.2.1", 443)
  congested := false
  accept := some (Endpoint.sampleConnection true)
  received := [.dgramMaxWritableLen (some length)]

/-- The server after one round with these clients. -/
abbrev sampleServed (packets : List Packet) : Tables :=
  execute (@Tables.act H3.Codec.plain (fun _ => List.replicate 32 0) { tokenSecret := [] }) (start fun _ _ => some 0)
    [{ packets := packets }]

end Tables

/-- Two rounds agree on what concerns one connection and its session. -/
structure Agree (cid id : Nat) (r r' : Round) : Prop where
  packets : r.packets.filter (·.dcid == cid) = r'.packets.filter (·.dcid == cid)
  commands : r.commands.filter (·.session == id) = r'.commands.filter (·.session == id)
  timeouts : r.timeouts cid = r'.timeouts cid
  turns : r.turns cid = r'.turns cid
  closed : r.closed cid = r'.closed cid
  flags : r.shutdown = r'.shutdown ∧ r.backpressured = r'.backpressured

end RWebTransport.Server
