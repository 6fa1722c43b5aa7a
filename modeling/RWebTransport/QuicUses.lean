import Mathlib.Logic.Relation
import RWebTransport.QuicReading

/-!
# The calls a session makes on its connection

Between two packets a connection changes only by the calls of its session.
However they follow each other, what was read of a stream and what is buffered
behind it loses bytes only at its end (`Drawn`), and what was accepted of it
gets longer at its end until the FIN was accepted (`Poured`).
-/

namespace RWebTransport.Quic

/-- The stream whose receive side the event is for. -/
def NetEvent.delivers : NetEvent → Option Nat
  | .data id _ | .fin id | .reset id _ _ => some id
  | _ => none

/-- Bytes were read, or those behind them thrown away. -/
structure Drawn (r r' : RecvBuf) : Prop where
  got : r.got <+: r'.got
  text : r'.got ++ r'.data <+: r.got ++ r.data
  final : r'.finOff = r.finOff
  error : r'.error = r.error

/-- More was accepted, unless the FIN was. -/
structure Poured (s s' : SendBuf) : Prop where
  data : s.data <+: s'.data
  fin : s.fin = true → s'.fin = true ∧ s'.data = s.data
  resetCodes : s.resetCodes <+: s'.resetCodes

namespace Drawn

theorem refl (r : RecvBuf) : Drawn r r := ⟨List.prefix_rfl, List.prefix_rfl, rfl, rfl⟩

theorem trans {r r' r'' : RecvBuf} (h : Drawn r r') (h' : Drawn r' r'') : Drawn r r'' :=
  ⟨h.got.trans h'.got, h'.text.trans h.text, h'.final.trans h.final, h'.error.trans h.error⟩

theorem emit (r : RecvBuf) (cap : Nat) : Drawn r (r.emit cap) := by
  refine ⟨List.prefix_append _ _, ?_, rfl, rfl⟩
  show (r.got ++ r.data.take cap) ++ r.data.drop cap <+: _
  rw [List.append_assoc, List.take_append_drop]

/-- The buffer is emptied. -/
theorem emptied {r r' : RecvBuf} (hgot : r'.got = r.got) (hdata : r'.data = [])
    (hfinal : r'.finOff = r.finOff) (herror : r'.error = r.error) : Drawn r r' := by
  refine ⟨hgot ▸ List.prefix_rfl, ?_, hfinal, herror⟩
  rw [hgot, hdata, List.append_nil]
  exact List.prefix_append _ _

theorem shutdown (r : RecvBuf) (code : Nat) : Drawn r (r.shutdown code) := by
  unfold RecvBuf.shutdown
  split
  · exact refl r
  · simp only
    split <;> exact emptied rfl rfl rfl rfl

end Drawn

namespace Poured

variable {s s' : SendBuf}

theorem same (hdata : s'.data = s.data) (hfin : s'.fin = s.fin) (hcodes : s.resetCodes <+: s'.resetCodes) :
    Poured s s' := ⟨hdata ▸ List.prefix_rfl, fun h => ⟨hfin.trans h, hdata⟩, hcodes⟩

theorem refl (s : SendBuf) : Poured s s := same rfl rfl List.prefix_rfl

theorem trans {s'' : SendBuf} (h : Poured s s') (h' : Poured s' s'') : Poured s s'' where
  data := h.data.trans h'.data
  fin hfin := by
    obtain ⟨hfin', hdata⟩ := h.fin hfin
    obtain ⟨hfin'', hdata'⟩ := h'.fin hfin'
    exact ⟨hfin'', hdata'.trans hdata⟩
  resetCodes := h.resetCodes.trans h'.resetCodes

theorem reset (s : SendBuf) (code : Nat) : Poured s (s.reset code) :=
  same rfl rfl (List.prefix_append _ _)

theorem stop (s : SendBuf) (code : Nat) : Poured s (s.stop code) := by
  unfold SendBuf.stop
  split
  · exact refl s
  · exact same rfl rfl (List.prefix_append _ _)

theorem shutdown (s : SendBuf) (code : Nat) : Poured s (s.shutdown code) := by
  unfold SendBuf.shutdown
  split
  · exact refl s
  · exact same rfl rfl (List.prefix_append _ _)

/-- Nothing is accepted behind a FIN. -/
theorem accepted {bytes : Bytes} {fin : Bool} {n : Nat} (hwf : s.WellFormed)
    (h : Connection.Accepted s s' bytes fin n) : Poured s s' where
  data := h.data ▸ List.prefix_append _ _
  fin hfin := by
    obtain ⟨f, hf⟩ := Option.isSome_iff_exists.mp (hwf.ended.mpr (.inl hfin))
    have hn : n = 0 := by
      have hoff := hwf.final f hf
      have hbelow := (h.below f hf).1
      omega
    refine ⟨?_, by rw [h.data, hn, List.take_zero, List.append_nil]⟩
    rcases h.finish with ⟨-, hsame, -⟩ | ⟨-, -, -, htrue⟩
    · exact hsame.trans hfin
    · exact htrue
  resetCodes := h.resetCodes ▸ List.prefix_rfl

end Poured

namespace Connection

/-- A call that a session makes on its connection. -/
inductive Use (c : Connection) : Connection → Prop
  | same {c' : Connection} : c'.streams = c.streams → Use c c'
  | recv {c' : Connection} {id cap : Nat} {res : Except Error (Bytes × Bool)} :
      Recv c id cap res c' → Use c c'
  | send {c' : Connection} {id : Nat} {bytes : Bytes} {fin : Bool} {res : Except Error Nat} :
      Send c id bytes fin res c' → Use c c'
  | shutdownRead {c' : Connection} (id err : Nat) :
      c'.streams = (c.streamShutdownRead id err).streams → Use c c'
  | shutdownWrite (id err : Nat) : Use c (c.streamShutdownWrite id err)

/-- The calls of a session, one after the other. -/
abbrev Uses : Connection → Connection → Prop := Relation.ReflTransGen Use

variable {c c' : Connection} {i : Nat}

theorem WellFormed.congr (h : c.WellFormed) (hs : c'.streams = c.streams) : c'.WellFormed := by
  intro j
  rw [hs]
  exact h j

theorem Use.wellFormed (h : Use c c') (hwf : c.WellFormed) : c'.WellFormed := by
  cases h with
  | same hs => exact hwf.congr hs
  | recv hr => exact hr.wellFormed hwf
  | send hs => exact hs.wellFormed hwf
  | shutdownRead id err hs => exact (wellFormed_shutdownRead hwf err).congr hs
  | shutdownWrite id err => exact wellFormed_shutdownWrite hwf err

theorem Use.drawn (h : Use c c') (hwf : c.WellFormed) (i : Nat) :
    Drawn (c.streams i).recv (c'.streams i).recv := by
  cases h with
  | same hs =>
      rw [hs]
      exact .refl _
  | recv hr =>
      cases hr with
      | none => exact .refl _
      | @reset code cond =>
          rw [collectIf_recv, streams_set]
          split
          next hi =>
            rw [hi]
            exact .emptied rfl rfl rfl rfl
          · exact .refl _
      | read cond =>
          rw [collectIf_recv, streams_set]
          split
          next hi =>
            rw [hi]
            exact .emit _ _
          · exact .refl _
  | send hs =>
      rw [hs.recv (fun j => (hwf j).absent) i]
      exact .refl _
  | shutdownRead id err hs =>
      rw [hs]
      rcases streamShutdownRead_streams c id err i with hsame | ⟨rfl, -, -, hsame⟩
      · rw [hsame]
        exact .refl _
      · rw [hsame]
        exact .shutdown _ _
  | shutdownWrite id err =>
      rw [streamShutdownWrite_recv]
      exact .refl _

/-- A stream that a call creates had nothing on it. -/
theorem Reach.poured {id : Nat} (h : Reach c id c') (hwf : c.WellFormed) (i : Nat) :
    Poured (c.streams i).send (c'.streams i).send := by
  cases h with
  | live => exact .refl _
  | created hp =>
      rw [streams_set]
      split
      next hi =>
        rw [hi, (hwf id).absent hp]
        exact .same rfl rfl List.prefix_rfl
      · exact .refl _

theorem Use.poured (h : Use c c') (hwf : c.WellFormed) (i : Nat) :
    Poured (c.streams i).send (c'.streams i).send := by
  cases h with
  | same hs =>
      rw [hs]
      exact .refl _
  | recv hr =>
      rw [hr.send i]
      exact .refl _
  | send hs =>
      cases hs with
      | refused => exact .refl _
      | blocked _ hr _ _ hs =>
          rw [hs]
          exact hr.poured hwf i
      | stopped cond =>
          rw [collectIf_send]
          exact .refl _
      | @sent c1 n send txCap hr _ _ hacc =>
          refine (hr.poured hwf i).trans ?_
          simp only [streams_set]
          split
          next hi =>
            rw [hi]
            exact .accepted (hr.wellFormed hwf _).send hacc
          · exact .refl _
  | shutdownRead id err hs =>
      rw [hs, streamShutdownRead_send]
      exact .refl _
  | shutdownWrite id err =>
      rcases streamShutdownWrite_streams c id err i with hsame | ⟨rfl, -, -, hsame⟩
      · rw [hsame]
        exact .refl _
      · rw [hsame]
        exact .shutdown _ _

theorem Uses.wellFormed (h : Uses c c') (hwf : c.WellFormed) : c'.WellFormed := by
  induction h with
  | refl => exact hwf
  | tail _ huse ih => exact huse.wellFormed ih

theorem Uses.drawn (h : Uses c c') (hwf : c.WellFormed) (i : Nat) :
    Drawn (c.streams i).recv (c'.streams i).recv := by
  induction h with
  | refl => exact .refl _
  | tail hbefore huse ih => exact ih.trans (huse.drawn (Uses.wellFormed hbefore hwf) i)

theorem Uses.poured (h : Uses c c') (hwf : c.WellFormed) (i : Nat) :
    Poured (c.streams i).send (c'.streams i).send := by
  induction h with
  | refl => exact .refl _
  | tail hbefore huse ih => exact ih.trans (huse.poured (Uses.wellFormed hbefore hwf) i)

/-! ## Arrivals -/

/-- The network accepts nothing, but it may bring a STOP_SENDING. -/
theorem poured_net (hwf : c.WellFormed) (event : NetEvent) (i : Nat) :
    Poured (c.streams i).send ((c.net event).streams i).send := by
  have hstream : ∀ {s s' : QStream}, NetStream s s' → Poured s.send s'.send := by
    intro s s' hs
    cases hs with
    | stop code => exact .stop _ _
    | _ => exact .same rfl rfl List.prefix_rfl
  have hcreated : (c.streams i).phase = .absent → Poured (c.streams i).send (c.received i).send := by
    intro hp
    rw [(hwf i).absent hp]
    exact .same rfl rfl List.prefix_rfl
  have hnet := net_spec c event i
  generalize (c.net event).streams i = s at hnet
  cases hnet with
  | same => exact .refl _
  | created hp => exact hcreated hp
  | live _ hs => exact hstream hs
  | first hp _ hs => exact (hcreated hp).trans (hstream hs)

/-- What the peer's frame finds on its receive side. -/
theorem forPeer_recv (hwf : c.WellFormed) {id : Nat} {s : QStream} (h : c.forPeer id = some (c', s)) :
    s.recv = (c.streams id).recv ∧ (c'.streams id).recv = (c.streams id).recv ∧
      ∀ j, j ≠ id → c'.streams j = c.streams j := by
  obtain ⟨-, hne, hid, -, hcase⟩ := forPeer_spec h
  have hrecv : s.recv = (c.streams id).recv := by
    rcases hcase with hsame | ⟨habs, -, hnew⟩
    · rw [hsame]
    · rw [hnew, (hwf id).absent habs]
  exact ⟨hrecv, by rw [hid, hrecv], hne⟩

/-- The receive side changes only by what is for it. -/
theorem net_recv (hwf : c.WellFormed) {event : NetEvent} (h : event.delivers ≠ some i) :
    ((c.net event).streams i).recv = (c.streams i).recv := by
  have hset : ∀ {id : Nat} {c1 : Connection} {s s' : QStream}, c.forPeer id = some (c1, s) →
      i ≠ id ∨ s'.recv = s.recv → ((c1.set id s').streams i).recv = (c.streams i).recv := by
    intro id c1 s s' hpeer hs
    obtain ⟨hrecv, -, hne⟩ := forPeer_recv hwf hpeer
    rw [streams_set]
    split
    next hi =>
      subst hi
      exact (hs.resolve_left (by simp)).trans hrecv
    next hi => rw [hne i hi]
  have hkept : ∀ {id : Nat} {c1 : Connection} {s : QStream}, c.forPeer id = some (c1, s) →
      (c1.streams i).recv = (c.streams i).recv := by
    intro id c1 s hpeer
    obtain ⟨-, hid, hne⟩ := forPeer_recv hwf hpeer
    by_cases hi : i = id
    · rw [hi, hid]
    · rw [hne i hi]
  have hown : ∀ {id : Nat} {s' : QStream}, s'.recv = (c.streams id).recv →
      ((c.set id s').streams i).recv = (c.streams i).recv := by
    intro id s' hs
    rw [streams_set]
    split
    next hi => rw [hi, hs]
    · rfl
  cases event with
  | data id bytes | fin id | reset id code finalSize =>
      have hi : i ≠ id := fun heq => h (by rw [heq]; rfl)
      simp only [net]
      split
      · rfl
      · split
        · rfl
        next c1 s hpeer => split_ifs <;> first | exact hkept hpeer | exact hset hpeer (.inl hi)
  | stopSending id code =>
      simp only [net]
      split
      · rfl
      · split
        · rfl
        next c1 s hpeer => exact hset hpeer (.inr rfl)
  | serialize id n | maxStreamData id limit =>
      simp only [net]
      split
      · exact hown rfl
      · rfl
  | ack id =>
      simp only [net]
      split
      · rw [collectIf_recv]
        exact hown rfl
      · rfl
  | failure code => rw [net, close_streams]
  | _ => rfl

/-- Bytes that arrive are buffered behind the others, or only counted. -/
theorem net_arrives (hwf : c.WellFormed) (i : Nat) (bytes : Bytes) :
    ((c.net (.data i bytes)).streams i).recv = (c.streams i).recv ∨
      (c.streams i).recv.finOff = none ∧ (((c.net (.data i bytes)).streams i).recv =
          { (c.streams i).recv with off := (c.streams i).recv.off + bytes.length } ∨
        (c.streams i).recv.drain = false ∧ ((c.net (.data i bytes)).streams i).recv =
          { (c.streams i).recv with data := (c.streams i).recv.data ++ bytes }) := by
  simp only [net]
  split
  · exact .inl rfl
  · split
    · exact .inl rfl
    next c1 s hpeer =>
      obtain ⟨hrecv, hid, -⟩ := forPeer_recv hwf hpeer
      simp only [hrecv]
      split_ifs with hfin hdrain
      · exact .inl hid
      · exact .inr ⟨by simpa using hfin, .inl (by rw [streams_set, if_pos rfl])⟩
      · exact .inr ⟨by simpa using hfin, .inr ⟨by simpa using hdrain, by rw [streams_set, if_pos rfl]⟩⟩

/-- A FIN ends a stream behind what arrived before it. -/
theorem net_ends (hwf : c.WellFormed) (i : Nat) :
    ((c.net (.fin i)).streams i).recv = (c.streams i).recv ∨
      ∃ marker, ((c.net (.fin i)).streams i).recv = { (c.streams i).recv with
        finOff := some ((c.streams i).recv.off + (c.streams i).recv.data.length), marker := marker } := by
  simp only [net]
  split
  · exact .inl rfl
  · split
    · exact .inl rfl
    next c1 s hpeer =>
      obtain ⟨hrecv, hid, -⟩ := forPeer_recv hwf hpeer
      simp only [hrecv]
      split_ifs
      · exact .inl hid
      · exact .inr ⟨_, by rw [streams_set, if_pos rfl]⟩

/-- A RESET throws away what is buffered. -/
theorem net_aborts (hwf : c.WellFormed) (i code finalSize : Nat) :
    ((c.net (.reset i code finalSize)).streams i).recv = (c.streams i).recv ∨
      ∃ marker, ((c.net (.reset i code finalSize)).streams i).recv = { (c.streams i).recv with
        data := [], off := finalSize, finOff := some finalSize, error := some code, marker := marker } := by
  simp only [net]
  split
  · exact .inl rfl
  · split
    · exact .inl rfl
    next c1 s hpeer =>
      obtain ⟨hrecv, hid, -⟩ := forPeer_recv hwf hpeer
      simp only [hrecv]
      split_ifs
      · exact .inl hid
      · exact .inr ⟨_, by rw [streams_set, if_pos rfl]⟩

end Connection

end RWebTransport.Quic
