import RWebTransport.QuicLemmas

/-!
# Well-formed streams

The relations between the offsets and flags of a stream that every call and
every network event preserves.
-/

namespace RWebTransport.Quic

/-- The receive side: a final size lies behind the buffered bytes, and what was
shut down or has ended is not readable. -/
structure RecvBuf.WellFormed (r : RecvBuf) : Prop where
  final : ∀ f, r.finOff = some f → f = r.off + r.data.length
  drained : r.drain = true → r.data = [] ∧ r.marker = false
  done : r.ended = true → r.finOff = some r.off ∧ r.marker = false
  marked : r.marker = true → r.data = [] ∧ r.finOff = some r.off
  failed : r.error.isSome = true → r.data = [] ∧ r.finOff = some r.off

/-- The send side: a final size is the offset of the next byte, and it is there
exactly when the stream was finished, reset or stopped. -/
structure SendBuf.WellFormed (s : SendBuf) : Prop where
  final : ∀ f, s.finOff = some f → f = s.off
  ended : s.finOff.isSome = true ↔ s.fin = true ∨ s.shut = true ∨ s.error.isSome = true
  emitted : s.emitOff ≤ s.off
  stored : s.off ≤ s.data.length
  exact : s.shut = false → s.error = none → s.off = s.data.length

/-- A stream that was never touched is empty. -/
structure QStream.WellFormed (s : QStream) : Prop where
  absent : s.phase = .absent → s = {}
  recv : s.recv.WellFormed
  send : s.send.WellFormed

theorem RecvBuf.wellFormed_empty : RecvBuf.WellFormed {} :=
  ⟨by simp, by simp, by simp, by simp, by simp⟩

theorem SendBuf.wellFormed_empty (maxData : Nat) : SendBuf.WellFormed { maxData := maxData } :=
  ⟨by simp, by simp, by simp, by simp, by simp⟩

theorem QStream.wellFormed_empty : QStream.WellFormed {} :=
  ⟨fun _ => rfl, RecvBuf.wellFormed_empty, SendBuf.wellFormed_empty 0⟩

namespace RecvBuf.WellFormed

variable {r : RecvBuf}

/-- A stream that is over or shut down has nothing to read. -/
theorem not_ready (h : r.WellFormed) (hover : r.drain = true ∨ r.ended = true) :
    r.ready = false := by
  rcases hover with hd | he
  · obtain ⟨hdata, hmarker⟩ := h.drained hd
    simp [ready, hdata, hmarker]
  · obtain ⟨hfin, hmarker⟩ := h.done he
    have := h.final _ hfin
    have hdata : r.data = [] := List.eq_nil_of_length_eq_zero (by omega)
    simp [ready, hdata, hmarker]

theorem emit (h : r.WellFormed) (hr : r.ready = true) (herr : r.error = none) (cap : Nat) :
    (r.emit cap).WellFormed := by
  have hdrain : r.drain = false := by
    by_contra hd
    simp [h.not_ready (.inl (by simpa using hd))] at hr
  have hended : r.ended = false := by
    by_contra he
    simp [h.not_ready (.inr (by simpa using he))] at hr
  have hlen : (r.data.take cap).length + (r.data.drop cap).length = r.data.length := by
    rw [List.length_take, List.length_drop]
    omega
  refine ⟨?_, ?_, ?_, ?_, ?_⟩
  · intro f hf
    have := h.final f hf
    simp only [RecvBuf.emit]
    omega
  · simp [RecvBuf.emit, hdrain]
  · intro he
    refine ⟨?_, rfl⟩
    simpa [RecvBuf.emit, hended, isFin] using he
  · simp [RecvBuf.emit]
  · simp [RecvBuf.emit, herr]

/-- Reading a RESET. -/
theorem readReset (h : r.WellFormed) (herr : r.error.isSome = true) :
    RecvBuf.WellFormed { r with data := [], marker := false, ended := true } := by
  obtain ⟨hdata, hfin⟩ := h.failed herr
  exact ⟨fun f hf => by simpa [hfin] using hf.symm, fun _ => ⟨rfl, rfl⟩, fun _ => ⟨hfin, rfl⟩,
    by simp, fun _ => ⟨rfl, hfin⟩⟩

theorem shutdown (h : r.WellFormed) (code : Nat) : (r.shutdown code).WellFormed := by
  unfold RecvBuf.shutdown
  split
  · exact h
  next hd =>
    have hcore : RecvBuf.WellFormed { r with
        drain := true, data := [], marker := false, off := r.off + r.data.length } := by
      refine ⟨fun f hf => by simpa using h.final f hf, fun _ => ⟨rfl, rfl⟩, fun he => ⟨?_, rfl⟩,
        by simp, fun he => ⟨rfl, ?_⟩⟩
      · have hfin := (h.done he).1
        have hlen := h.final _ hfin
        simp only [hfin, Option.some.injEq]
        exact hlen
      · obtain ⟨hdata, hfin⟩ := h.failed he
        simpa [hdata] using hfin
    simp only
    split
    · exact hcore
    · exact ⟨hcore.final, hcore.drained, hcore.done, hcore.marked, hcore.failed⟩

end RecvBuf.WellFormed

namespace SendBuf.WellFormed

variable {s : SendBuf}

theorem accepted {s' : SendBuf} {bytes : Bytes} {fin : Bool} {n : Nat} (h : s.WellFormed)
    (hacc : Connection.Accepted s s' bytes fin n) : s'.WellFormed := by
  have hdata : s'.data.length = s.data.length + n := by
    rw [hacc.data, List.length_append, List.length_take]
    have := hacc.le
    omega
  have hoff := hacc.off
  have hemit := hacc.emitOff
  have hle := h.emitted
  have hstored := h.stored
  refine ⟨fun f hf => ?_, ?_, by omega, by omega, fun hshut herr => ?_⟩
  · rcases hacc.finish with ⟨hsame, -, -⟩ | ⟨-, -, hnew, -⟩
    · rw [hsame] at hf
      have := h.final f hf
      have := hacc.below f hf
      omega
    · rw [hnew] at hf
      exact (Option.some.inj hf).symm
  · rw [hacc.shut, hacc.error]
    rcases hacc.finish with ⟨hsame, hfin, -⟩ | ⟨-, -, hnew, hfin⟩
    · rw [hsame, hfin]
      exact h.ended
    · simp [hnew, hfin]
  · have := h.exact (hacc.shut ▸ hshut) (hacc.error ▸ herr)
    omega

theorem reset (h : s.WellFormed) (code : Nat) :
    (s.reset code).emitOff = s.emitOff ∧ (s.reset code).finOff = some s.emitOff ∧
      (s.reset code).off = s.emitOff ∧ s.emitOff ≤ s.data.length :=
  ⟨rfl, rfl, rfl, h.emitted.trans h.stored⟩

theorem stop (h : s.WellFormed) (code : Nat) : (s.stop code).WellFormed := by
  unfold SendBuf.stop
  split
  · exact h
  · exact ⟨fun f hf => (Option.some.inj hf).symm, by simp [SendBuf.reset], le_rfl,
      h.emitted.trans h.stored, by simp⟩

theorem shutdown (h : s.WellFormed) (code : Nat) : (s.shutdown code).WellFormed := by
  unfold SendBuf.shutdown
  split
  · exact h
  · exact ⟨fun f hf => (Option.some.inj hf).symm, by simp [SendBuf.reset], le_rfl,
      h.emitted.trans h.stored, by simp⟩

/-- Changes that touch neither the offsets nor the flags of the end. -/
theorem congr {s' : SendBuf} (h : s.WellFormed) (hdata : s'.data = s.data) (hoff : s'.off = s.off)
    (hemit : s'.emitOff ≤ s.off) (hfinOff : s'.finOff = s.finOff) (hfin : s'.fin = s.fin)
    (hshut : s'.shut = s.shut) (herr : s'.error = s.error) : s'.WellFormed :=
  ⟨by rw [hfinOff, hoff]; exact h.final, by rw [hfinOff, hfin, hshut, herr]; exact h.ended,
    by rw [hoff]; exact hemit, by rw [hoff, hdata]; exact h.stored,
    by rw [hshut, herr, hoff, hdata]; exact h.exact⟩

end SendBuf.WellFormed

namespace QStream.WellFormed

variable {s : QStream}

theorem net {s' : QStream} (h : s.WellFormed) (hlive : s.phase = .live)
    (hnet : Connection.NetStream s s') : s'.WellFormed := by
  have hphase : ∀ {t : QStream}, t.phase = s.phase → t.phase = .absent → t = {} := by
    intro t ht habs
    rw [ht, hlive] at habs
    cases habs
  cases hnet with
  | data bytes hfin hdrain =>
      refine ⟨hphase rfl, ⟨by simp [hfin], by simp [hdrain], ?_, ?_, ?_⟩, h.send⟩
      · intro he
        simpa [hfin] using (h.recv.done he).1
      · intro hm
        simpa [hfin] using (h.recv.marked hm).2
      · intro he
        simpa [hfin] using (h.recv.failed he).2
  | drained n hfin hdrain =>
      refine ⟨hphase rfl, ⟨by simp [hfin], fun _ => h.recv.drained hdrain, ?_, ?_, ?_⟩, h.send⟩
      · intro he
        simpa [hfin] using (h.recv.done he).1
      · intro hm
        simpa [hfin] using (h.recv.marked hm).2
      · intro he
        simpa [hfin] using (h.recv.failed he).2
  | fin hfin =>
      refine ⟨hphase rfl, ⟨fun f hf => (Option.some.inj hf).symm, ?_, ?_, ?_, ?_⟩, h.send⟩
      · intro hd
        have hd : s.recv.drain = true := hd
        exact ⟨(h.recv.drained hd).1, by simp [hd]⟩
      · intro he
        simpa [hfin] using (h.recv.done he).1
      · intro hm
        have hdata : s.recv.data = [] := by
          simp only [Bool.and_eq_true, List.isEmpty_iff] at hm
          exact hm.2
        simp [hdata]
      · intro he
        simpa [hfin] using (h.recv.failed he).2
  | reset code finalSize herr hle hsame =>
      refine ⟨hphase rfl, ⟨fun f hf => (Option.some.inj hf).symm, ?_, ?_, fun _ => ⟨rfl, rfl⟩,
        fun _ => ⟨rfl, rfl⟩⟩, h.send⟩
      · intro hd
        have hd : s.recv.drain = true := hd
        simp [hd]
      · intro he
        simp [(h.recv.done he).1]
  | stop code => exact ⟨hphase rfl, h.recv, h.send.stop code⟩
  | serialize n herr hshut =>
      refine ⟨hphase rfl, h.recv, h.send.congr rfl rfl ?_ rfl rfl rfl rfl⟩
      have := h.send.emitted
      simp only
      omega
  | ack phase hp hfin hemit =>
      refine ⟨fun habs => ?_, h.recv, h.send.congr rfl rfl h.send.emitted rfl rfl rfl rfl⟩
      rcases hp with hp | hp <;> simp [hp] at habs
  | maxStreamData limit =>
      exact ⟨hphase rfl, h.recv, h.send.congr rfl rfl h.send.emitted rfl rfl rfl rfl⟩

end QStream.WellFormed

namespace Connection

/-- All streams of a connection are well formed. -/
def WellFormed (c : Connection) : Prop := ∀ id, (c.streams id).WellFormed

theorem wellFormed_collectIf {c : Connection} (h : c.WellFormed) (id : Nat) (cond : Bool) :
    (c.collectIf id cond).WellFormed := by
  intro i
  rw [collectIf_streams]
  split
  · exact ⟨by simp, (h id).recv, (h id).send⟩
  · exact h i

theorem wellFormed_set {c : Connection} (h : c.WellFormed) {id : Nat} {s : QStream}
    (hs : s.WellFormed) : (c.set id s).WellFormed := by
  intro i
  rw [streams_set]
  split
  · exact hs
  · exact h i

variable {c c' : Connection} {id cap : Nat}

theorem Recv.wellFormed {r : Except Error (Bytes × Bool)} (hr : Recv c id cap r c')
    (h : c.WellFormed) : c'.WellFormed := by
  cases hr with
  | none => exact h
  | reset cond hc hready herr =>
      refine wellFormed_collectIf (wellFormed_set h ?_) _ _
      exact ⟨by simp [readable_live hready], (h id).recv.readReset (by simp [herr]), (h id).send⟩
  | read cond hc hready herr =>
      refine wellFormed_collectIf (wellFormed_set h ?_) _ _
      refine ⟨by simp [readable_live hready], ?_, (h id).send⟩
      simp only [Connection.readable, Bool.and_eq_true] at hready
      exact (h id).recv.emit hready.2 herr cap

theorem Reach.wellFormed (hr : Reach c id c') (h : c.WellFormed) : c'.WellFormed := by
  cases hr with
  | live => exact h
  | created =>
      exact wellFormed_set h ⟨by simp [Connection.created], RecvBuf.wellFormed_empty,
        SendBuf.wellFormed_empty _⟩

theorem Send.wellFormed {bytes : Bytes} {fin : Bool} {r : Except Error Nat}
    (hs : Send c id bytes fin r c') (h : c.WellFormed) : c'.WellFormed := by
  cases hs with
  | refused => exact h
  | blocked _ hreach _ _ hstreams => exact fun i => hstreams ▸ hreach.wellFormed h i
  | stopped => exact wellFormed_collectIf h _ _
  | @sent c1 n send txCap hreach hcan hstop hacc =>
      have h1 := hreach.wellFormed h
      have hset : (c1.set id { c1.streams id with send := send }).WellFormed := by
        refine wellFormed_set h1 ?_
        exact ⟨by simp [hreach.live_of], (h1 id).recv, (h1 id).send.accepted hacc⟩
      exact fun i => hset i

theorem wellFormed_shutdownRead (h : c.WellFormed) (err : Nat) :
    (c.streamShutdownRead id err).WellFormed := by
  intro i
  rcases streamShutdownRead_streams c id err i with hs | ⟨-, hlive, -, hs⟩ <;> rw [hs]
  · exact h i
  · exact ⟨by simp [hlive], (h id).recv.shutdown err, (h id).send⟩

theorem wellFormed_shutdownWrite (h : c.WellFormed) (err : Nat) :
    (c.streamShutdownWrite id err).WellFormed := by
  intro i
  rcases streamShutdownWrite_streams c id err i with hs | ⟨-, hlive, -, hs⟩ <;> rw [hs]
  · exact h i
  · exact ⟨by simp [hlive], (h id).recv, (h id).send.shutdown err⟩

theorem wellFormed_received (c : Connection) (id : Nat) : (c.received id).WellFormed :=
  ⟨by simp [received], RecvBuf.wellFormed_empty, SendBuf.wellFormed_empty _⟩

theorem wellFormed_net (h : c.WellFormed) (event : NetEvent) : (c.net event).WellFormed := by
  intro i
  generalize hs : (c.net event).streams i = s
  have hnet := net_spec c event i
  rw [hs] at hnet
  cases hnet with
  | same => exact h i
  | created => exact wellFormed_received c i
  | live hlive hn => exact (h i).net hlive hn
  | first _ _ hn => exact (wellFormed_received c i).net rfl hn

end Connection

/-! ## Streams without further input -/

/-- The reader was told the FIN. -/
def QStream.FinRead (s : QStream) : Prop := s.recv.isFin = true ∧ s.recv.error = none

/-- The reader was told of a RESET. -/
def QStream.ResetRead (s : QStream) : Prop := s.recv.error.isSome = true ∧ s.recv.ended = true

/-- Nothing becomes readable on the stream any more. -/
def QStream.Exhausted (s : QStream) : Prop :=
  s.phase = .collected ∨ s.recv.drain = true ∨ s.recv.finOff.isSome = true ∧ s.recv.ready = false

namespace QStream

variable {s : QStream}

theorem Exhausted.phase (h : s.Exhausted) (hs : s.WellFormed) : s.phase ≠ .absent := by
  intro habs
  rw [hs.absent habs] at h
  rcases h with h | h | h
  · cases h
  · cases h
  · simp at h

theorem Exhausted.congr {s' : QStream} (h : s.Exhausted) (hrecv : s'.recv = s.recv)
    (hphase : s.phase = .collected → s'.phase = .collected) : s'.Exhausted := by
  unfold Exhausted
  rw [hrecv]
  exact h.imp_left hphase

theorem Exhausted.shutdown (h : s.Exhausted) (code : Nat) :
    Exhausted { s with recv := s.recv.shutdown code } := by
  unfold RecvBuf.shutdown
  split
  · exact h
  · refine .inr (.inl ?_)
    simp only
    split <;> rfl

theorem Exhausted.net {s' : QStream} (h : s.Exhausted) (hlive : s.phase = .live)
    (hnet : Connection.NetStream s s') : s'.Exhausted := by
  have hnot : s.phase ≠ .collected := by simp [hlive]
  have hcase : s.recv.drain = true ∨ s.recv.finOff.isSome = true ∧ s.recv.ready = false :=
    h.resolve_left hnot
  cases hnet with
  | data bytes hfin hdrain => simp [hfin, hdrain] at hcase
  | drained n hfin hdrain => exact .inr (.inl hdrain)
  | fin hfin => exact .inr (.inl (by simpa [hfin] using hcase))
  | reset code finalSize =>
      refine .inr ?_
      rcases hcase with hd | ⟨hf, -⟩
      · exact .inl hd
      · refine .inr ⟨rfl, ?_⟩
        cases hfo : s.recv.finOff with
        | none => simp [hfo] at hf
        | some f => simp [RecvBuf.ready]
  | stop | serialize | maxStreamData => exact h.congr rfl fun h => absurd h hnot
  | ack => exact h.congr rfl fun h => absurd h hnot

end QStream

namespace Connection

variable {c c' : Connection} {id cap : Nat}

theorem not_readable_of_exhausted (h : (c.streams id).WellFormed)
    (hx : (c.streams id).Exhausted) : c.readable id = false := by
  rcases hx with hp | hd | ⟨-, hr⟩
  · simp [readable, hp]
  · simp [readable, h.recv.not_ready (.inl hd)]
  · simp [readable, hr]

theorem exhausted_net (h : c.WellFormed) {i : Nat} (hx : (c.streams i).Exhausted)
    (event : NetEvent) : ((c.net event).streams i).Exhausted := by
  have hphase := hx.phase (h i)
  have hnet := net_spec c event i
  generalize (c.net event).streams i = s at hnet
  cases hnet with
  | same => exact hx
  | created habs => exact absurd habs hphase
  | live hlive hn => exact hx.net hlive hn
  | first habs => exact absurd habs hphase

theorem exhausted_collectIf {i : Nat} (hx : (c.streams i).Exhausted) (cond : Bool) :
    ((c.collectIf id cond).streams i).Exhausted := by
  rw [collectIf_streams]
  split
  · exact .inl rfl
  · exact hx

/-- Reading takes nothing away from a stream without further input. -/
theorem Recv.exhausted {r : Except Error (Bytes × Bool)} (hr : Recv c id cap r c')
    (h : c.WellFormed) {i : Nat} (hx : (c.streams i).Exhausted) : (c'.streams i).Exhausted := by
  by_cases hi : i = id
  · subst hi
    have hno := not_readable_of_exhausted (h i) hx
    cases hr with
    | none => exact hx
    | reset cond hc hready => simp [hno] at hready
    | read cond hc hready => simp [hno] at hready
  · rw [hr.ne hi]
    exact hx

/-- A stream whose end was read has no further input. -/
theorem Recv.exhausted_of_fin {chunk : Bytes} (hr : Recv c id cap (.ok (chunk, true)) c')
    (h : c.WellFormed) : (c'.streams id).Exhausted := by
  generalize hres : (Except.ok (chunk, true) : Except Error (Bytes × Bool)) = res at hr
  cases hr with
  | none => cases hres
  | reset => cases hres
  | read cond hc hready herr =>
      simp only [Except.ok.injEq, Prod.mk.injEq] at hres
      have hfin := hres.2.symm
      refine exhausted_collectIf (.inr (.inr ?_)) cond
      simp only [Connection.readable, Bool.and_eq_true] at hready
      have hwf := (h id).recv.emit hready.2 herr cap
      simp only [RecvBuf.isFin, beq_iff_eq] at hfin
      have hlen := hwf.final _ hfin
      have hdata : ((c.streams id).recv.emit cap).data = [] :=
        List.eq_nil_of_length_eq_zero (by omega)
      simp only [streams_set, if_true]
      refine ⟨by rw [hfin]; rfl, ?_⟩
      have hmarker : ((c.streams id).recv.emit cap).marker = false := rfl
      simp [RecvBuf.ready, hdata, hmarker]

/-- A read that returns the FIN flag is the reading of a FIN. -/
theorem Recv.finRead {chunk : Bytes} (hr : Recv c id cap (.ok (chunk, true)) c') :
    (c'.streams id).FinRead := by
  generalize hres : (Except.ok (chunk, true) : Except Error (Bytes × Bool)) = res at hr
  cases hr with
  | none => cases hres
  | reset => cases hres
  | read cond hc hready herr =>
      simp only [Except.ok.injEq, Prod.mk.injEq] at hres
      have hrecv : ∀ c0 : Connection, ((c0.collectIf id cond).streams id).recv = (c0.streams id).recv := by
        intro c0
        unfold Connection.collectIf
        split <;> simp
      unfold QStream.FinRead
      rw [hrecv]
      simp only [streams_set, if_true]
      exact ⟨hres.2.symm, herr⟩

theorem Recv.resetRead {code : Nat} (hr : Recv c id cap (.error (.streamReset code)) c') :
    (c'.streams id).ResetRead := by
  generalize hres : (Except.error (.streamReset code) : Except Error (Bytes × Bool)) = res at hr
  cases hr with
  | none hne =>
      simp only [Except.error.injEq] at hres
      exact absurd hres.symm (hne code)
  | reset cond hc hready herr =>
      have hrecv : ∀ c0 : Connection, ((c0.collectIf id cond).streams id).recv = (c0.streams id).recv := by
        intro c0
        unfold Connection.collectIf
        split <;> simp
      unfold QStream.ResetRead
      rw [hrecv]
      simp only [streams_set, if_true]
      simp [herr]
  | read => cases hres

theorem Recv.exhausted_of_reset {code : Nat} (hr : Recv c id cap (.error (.streamReset code)) c')
    (h : c.WellFormed) : (c'.streams id).Exhausted := by
  generalize hres : (Except.error (.streamReset code) : Except Error (Bytes × Bool)) = res at hr
  cases hr with
  | none hne =>
      simp only [Except.error.injEq] at hres
      exact absurd hres.symm (hne code)
  | reset cond hc hready herr =>
      refine exhausted_collectIf (.inr (.inr ?_)) cond
      simp only [streams_set, if_true]
      exact ⟨by simp [((h id).recv.failed (by simp [herr])).2], rfl⟩
  | read => cases hres

theorem Reach.exhausted (hr : Reach c id c') (h : c.WellFormed) {i : Nat}
    (hx : (c.streams i).Exhausted) : (c'.streams i).Exhausted := by
  cases hr with
  | live => exact hx
  | created habs =>
      have hi : i ≠ id := by
        rintro rfl
        exact hx.phase (h i) habs
      simpa [hi] using hx

theorem Send.exhausted {bytes : Bytes} {fin : Bool} {r : Except Error Nat}
    (hs : Send c id bytes fin r c') (h : c.WellFormed) {i : Nat} (hx : (c.streams i).Exhausted) :
    (c'.streams i).Exhausted := by
  cases hs with
  | refused => exact hx
  | blocked _ hreach _ _ hstreams => rw [hstreams]; exact hreach.exhausted h hx
  | stopped => exact exhausted_collectIf hx _
  | @sent c1 n send txCap hreach =>
      have h1 := hreach.exhausted h hx
      by_cases hi : i = id
      · subst hi
        have hsend : ({ c1.streams i with send := send } : QStream).Exhausted := h1.congr rfl id
        simpa using hsend
      · simpa [hi] using h1

theorem exhausted_shutdownRead {i : Nat} (hx : (c.streams i).Exhausted) (err : Nat) :
    ((c.streamShutdownRead id err).streams i).Exhausted := by
  rcases streamShutdownRead_streams c id err i with hs | ⟨rfl, -, -, hs⟩ <;> rw [hs]
  · exact hx
  · exact hx.shutdown err

theorem exhausted_shutdownWrite {i : Nat} (hx : (c.streams i).Exhausted) (err : Nat) :
    ((c.streamShutdownWrite id err).streams i).Exhausted := by
  rcases streamShutdownWrite_streams c id err i with hs | ⟨rfl, -, -, hs⟩ <;> rw [hs]
  · exact hx
  · exact hx.congr rfl fun h => h

/-- A stream we shut down for reading has no further input, if it was ever
created. -/
theorem exhausted_of_shutdownRead (hcan : c.canRecv id = true)
    (hphase : (c.streams id).phase ≠ .absent) (err : Nat) :
    ((c.streamShutdownRead id err).streams id).Exhausted := by
  unfold streamShutdownRead
  cases hp : (c.streams id).phase with
  | absent => exact absurd hp hphase
  | collected =>
      rw [if_neg (by simp)]
      exact .inl hp
  | live =>
      refine .inr (.inl ?_)
      simp only [hcan, and_self, if_true, streams_set]
      unfold RecvBuf.shutdown
      split
      next hd => exact hd
      · simp only
        split <;> rfl

end Connection

end RWebTransport.Quic
