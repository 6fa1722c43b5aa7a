import RWebTransport.QuicInvariant

/-!
# Receive buffers between reads

The bytes handed to the reader change only when a stream is read.  Until a
stream is shut down or reset, its read offset counts them, so a FIN that was
read announces exactly the bytes that were handed out.
-/

namespace RWebTransport.Quic

namespace RecvBuf

/-- The read offset counts the bytes handed out, unless some were thrown away. -/
def Counted (r : RecvBuf) : Prop := r.drain = false → r.error = none → r.off = r.got.length

/-- Nothing was read in between. -/
structure Later (r r' : RecvBuf) : Prop where
  got : r'.got = r.got
  ended : r'.ended = r.ended
  final : ∀ f, r.finOff = some f → r'.finOff = some f
  failed : ∀ code, r.error = some code → r'.error = some code
  counted : r.Counted → r'.Counted

theorem Later.refl (r : RecvBuf) : Later r r := ⟨rfl, rfl, fun _ h => h, fun _ h => h, fun h => h⟩

theorem Later.trans {r s t : RecvBuf} (hrs : Later r s) (hst : Later s t) : Later r t where
  got := hst.got.trans hrs.got
  ended := hst.ended.trans hrs.ended
  final f h := hst.final f (hrs.final f h)
  failed code h := hst.failed code (hrs.failed code h)
  counted h := hst.counted (hrs.counted h)

theorem Later.shutdown (r : RecvBuf) (code : Nat) : Later r (r.shutdown code) := by
  unfold RecvBuf.shutdown
  split
  · exact .refl r
  · simp only
    split
    · exact ⟨rfl, rfl, fun _ h => h, fun _ h => h, fun _ hdrain => by cases hdrain⟩
    · exact ⟨rfl, rfl, fun _ h => h, fun _ h => h, fun _ hdrain => by cases hdrain⟩

end RecvBuf

namespace Connection

open RecvBuf (Later Counted)

variable {c c' : Connection} {id cap : Nat}

theorem NetStream.later {s s' : QStream} (h : NetStream s s') : Later s.recv s'.recv := by
  cases h with
  | data bytes hfin hdrain => exact ⟨rfl, rfl, fun _ h => h, fun _ h => h, fun h => h⟩
  | drained n hfin hdrain =>
      exact ⟨rfl, rfl, fun _ h => h, fun _ h => h, fun _ hno => by simp [hdrain] at hno⟩
  | fin hfin => exact ⟨rfl, rfl, fun f hf => by simp [hfin] at hf, fun _ h => h, fun h => h⟩
  | reset code finalSize herr hle hfinal =>
      exact ⟨rfl, rfl, fun f hf => by rw [hfinal f hf], fun _ h => by simp [herr] at h,
        fun _ _ hno => by cases hno⟩
  | stop | serialize | ack | maxStreamData => exact .refl _

/-- The network hands nothing to the reader. -/
theorem later_net (hwf : c.WellFormed) (event : NetEvent) (i : Nat) :
    Later (c.streams i).recv ((c.net event).streams i).recv := by
  have hspec := net_spec c event i
  generalize (c.net event).streams i = s at hspec
  cases hspec with
  | same => exact .refl _
  | live _ hn => exact hn.later
  | created habs =>
      rw [(hwf i).absent habs]
      exact .refl _
  | first habs _ hn =>
      rw [(hwf i).absent habs]
      exact hn.later

theorem later_shutdownRead (c : Connection) (id err i : Nat) :
    Later (c.streams i).recv ((c.streamShutdownRead id err).streams i).recv := by
  rcases streamShutdownRead_streams c id err i with hs | ⟨rfl, -, -, hs⟩
  · rw [hs]
    exact .refl _
  · rw [hs]
    exact .shutdown _ _

theorem Send.later {bytes : Bytes} {fin : Bool} {r : Except Error Nat} (h : Send c id bytes fin r c')
    (hwf : c.WellFormed) (i : Nat) : Later (c.streams i).recv (c'.streams i).recv := by
  rw [h.recv (fun i => (hwf i).absent) i]
  exact .refl _

/-- A read keeps the count. -/
theorem Recv.counted {r : Except Error (Bytes × Bool)} (h : Recv c id cap r c') {i : Nat}
    (hc : (c.streams i).recv.Counted) : (c'.streams i).recv.Counted := by
  cases h with
  | none => exact hc
  | reset cond _ _ herr =>
      rw [collectIf_recv, streams_set]
      split
      · exact fun _ hno => by simp [herr] at hno
      · exact hc
  | read cond _ _ herr =>
      rw [collectIf_recv, streams_set]
      split
      next hi =>
        subst hi
        intro hdrain _
        simp only [RecvBuf.emit, List.length_append, hc hdrain herr]
      · exact hc

/-- The FIN that is read is the end of the bytes handed out. -/
theorem Recv.final {chunk : Bytes} (h : Recv c id cap (.ok (chunk, true)) c') (hwf : c.WellFormed)
    (hc : (c.streams id).recv.Counted) :
    (c'.streams id).recv.finOff = some (c'.streams id).recv.got.length := by
  have hread := h.readable
  have hfin := h.finRead
  have hcounted := h.counted hc
  have hdrain : (c'.streams id).recv.drain = false := by
    have hno : (c.streams id).recv.drain = false := by
      by_contra hdrained
      have hready := (hwf id).recv.not_ready (.inl (by simpa using hdrained))
      simp [Connection.readable, hready] at hread
    generalize hres : (Except.ok (chunk, true) : Except Error (Bytes × Bool)) = res at h
    cases h with
    | none => cases hres
    | reset => cases hres
    | read cond =>
        rw [collectIf_recv, streams_set, if_pos rfl]
        exact hno
  rw [← hcounted hdrain hfin.2]
  simpa [RecvBuf.isFin] using hfin.1

/-- What a read that returns a RESET leaves. -/
theorem Recv.reset_error {code : Nat} (h : Recv c id cap (.error (.streamReset code)) c') :
    (c'.streams id).recv.error = some code ∧ (c'.streams id).recv.ended = true := by
  generalize hres : (Except.error (.streamReset code) : Except Error (Bytes × Bool)) = res at h
  cases h with
  | none hne =>
      cases hres
      exact absurd rfl (hne code)
  | reset cond _ _ herr =>
      cases hres
      rw [collectIf_recv, streams_set, if_pos rfl]
      exact ⟨herr, rfl⟩
  | read => cases hres

end Connection

end RWebTransport.Quic
