import RWebTransport.Quic

/-!
# What the connection's calls leave alone

Frame lemmas for the calls of `Quic`, and one inversion lemma for each of
`stream_recv` and `stream_send`.
-/

namespace RWebTransport.Quic.Connection

/-! ## Frames -/

theorem collectIf_streams (c : Connection) (id : Nat) (cond : Bool) (i : Nat) :
    (c.collectIf id cond).streams i =
      if cond ∧ i = id then { c.streams id with phase := .collected } else c.streams i := by
  unfold collectIf
  cases cond <;> simp

@[simp] theorem collectIf_isServer (c : Connection) (id : Nat) (cond : Bool) :
    (c.collectIf id cond).isServer = c.isServer := by
  unfold collectIf
  split <;> rfl

theorem collectIf_ne (c : Connection) {id i : Nat} (cond : Bool) (h : i ≠ id) :
    (c.collectIf id cond).streams i = c.streams i := by
  simp [collectIf_streams, h]

@[simp] theorem collectIf_send (c : Connection) (id : Nat) (cond : Bool) (i : Nat) :
    ((c.collectIf id cond).streams i).send = (c.streams i).send := by
  rw [collectIf_streams]
  split
  next h => rw [h.2]
  · rfl

@[simp] theorem collectIf_recv (c : Connection) (id : Nat) (cond : Bool) (i : Nat) :
    ((c.collectIf id cond).streams i).recv = (c.streams i).recv := by
  rw [collectIf_streams]
  split
  next h => rw [h.2]
  · rfl

theorem collectIf_phase {c : Connection} {id : Nat} {cond : Bool} {i : Nat}
    (h : (c.streams id).phase = .live) :
    ((c.collectIf id cond).streams i).phase = .absent ↔ (c.streams i).phase = .absent := by
  rw [collectIf_streams]
  split
  next hi => simp [hi.2, h]
  · rfl

/-! ## Reading -/

/-- The outcomes of `stream_recv`. -/
inductive Recv (c : Connection) (id cap : Nat) : Except Error (Bytes × Bool) → Connection → Prop
  /-- Nothing to read, or no such stream. -/
  | none {err : Error} : (∀ code, err ≠ .streamReset code) → c.readable id = false ∨
      c.canRecv id = false → Recv c id cap (.error err) c
  | reset {code : Nat} (cond : Bool) : c.canRecv id = true → c.readable id = true →
      (c.streams id).recv.error = some code →
      Recv c id cap (.error (.streamReset code))
        ((c.set id { c.streams id with recv :=
          { (c.streams id).recv with data := [], marker := false, ended := true } }).collectIf id cond)
  | read (cond : Bool) : c.canRecv id = true → c.readable id = true →
      (c.streams id).recv.error = none →
      Recv c id cap (.ok ((c.streams id).recv.data.take cap, ((c.streams id).recv.emit cap).isFin))
        ((c.set id { c.streams id with recv := (c.streams id).recv.emit cap }).collectIf id cond)

theorem streamRecv_spec (c : Connection) (id cap : Nat) :
    Recv c id cap (c.streamRecv id cap).1 (c.streamRecv id cap).2 := by
  unfold streamRecv
  split
  next h => exact .none (by simp) (.inr (by simpa using h))
  next hcan =>
    have hcan : c.canRecv id = true := by simpa using hcan
    simp only
    split
    next hp => exact .none (by simp) (.inl (by simp [readable, hp]))
    next hp => exact .none (by simp) (.inl (by simp [readable, hp]))
    next hp =>
      split
      next hr =>
        exact .none (by simp) (.inl (by simpa [readable, hp] using hr))
      next hr =>
        have hread : c.readable id = true := by simpa [readable, hp] using hr
        split
        next code herr => exact .reset _ hcan hread herr
        next herr => exact .read _ hcan hread herr

theorem readable_live {c : Connection} {id : Nat} (h : c.readable id = true) :
    (c.streams id).phase = .live := by
  simp only [readable, Bool.and_eq_true, beq_iff_eq] at h
  exact h.1

variable {c c' : Connection} {id cap : Nat}

theorem Recv.readable {chunk : Bytes} {fin : Bool} (h : Recv c id cap (.ok (chunk, fin)) c') :
    c.readable id = true := by
  generalize hres : (Except.ok (chunk, fin) : Except Error (Bytes × Bool)) = res at h
  cases h with
  | none => cases hres
  | reset _ _ hr => exact hr
  | read _ _ hr => exact hr

theorem Recv.isServer {r : Except Error (Bytes × Bool)} (h : Recv c id cap r c') :
    c'.isServer = c.isServer := by
  cases h with
  | none => rfl
  | reset => simp
  | read => simp

theorem Recv.ne {r : Except Error (Bytes × Bool)} (h : Recv c id cap r c') {i : Nat}
    (hi : i ≠ id) : c'.streams i = c.streams i := by
  cases h with
  | none => rfl
  | reset => rw [collectIf_ne _ _ hi]; simp [hi]
  | read => rw [collectIf_ne _ _ hi]; simp [hi]

theorem set_recv_send (c : Connection) (id : Nat) (r : RecvBuf) (i : Nat) :
    ((c.set id { c.streams id with recv := r }).streams i).send = (c.streams i).send := by
  rw [streams_set]
  split
  next h => rw [h]
  · rfl

theorem set_recv_phase (c : Connection) (id : Nat) (r : RecvBuf) (i : Nat) :
    ((c.set id { c.streams id with recv := r }).streams i).phase = (c.streams i).phase := by
  rw [streams_set]
  split
  next h => rw [h]
  · rfl

theorem Recv.send {r : Except Error (Bytes × Bool)} (h : Recv c id cap r c') (i : Nat) :
    (c'.streams i).send = (c.streams i).send := by
  cases h with
  | none => rfl
  | reset => rw [collectIf_send, set_recv_send]
  | read => rw [collectIf_send, set_recv_send]

theorem Recv.phase {r : Except Error (Bytes × Bool)} (h : Recv c id cap r c') (i : Nat) :
    (c'.streams i).phase = .absent ↔ (c.streams i).phase = .absent := by
  cases h with
  | none => rfl
  | reset cond hc hr => rw [collectIf_phase (by simpa using readable_live hr), set_recv_phase]
  | read cond hc hr => rw [collectIf_phase (by simpa using readable_live hr), set_recv_phase]

/-! ## Shutting down -/

theorem streamShutdownRead_streams (c : Connection) (id err i : Nat) :
    (c.streamShutdownRead id err).streams i = c.streams i ∨
      i = id ∧ (c.streams id).phase = .live ∧ c.canRecv id = true ∧
      (c.streamShutdownRead id err).streams i =
        { c.streams id with recv := (c.streams id).recv.shutdown err } := by
  unfold streamShutdownRead
  split
  next h =>
    by_cases hi : i = id
    · exact .inr ⟨hi, h.2, h.1, by simp [hi]⟩
    · exact .inl (by simp [hi])
  · exact .inl rfl

theorem streamShutdownRead_isServer (c : Connection) (id err : Nat) :
    (c.streamShutdownRead id err).isServer = c.isServer := by
  unfold streamShutdownRead
  split <;> rfl

theorem streamShutdownRead_send (c : Connection) (id err i : Nat) :
    ((c.streamShutdownRead id err).streams i).send = (c.streams i).send := by
  rcases streamShutdownRead_streams c id err i with h | ⟨rfl, -, -, h⟩ <;> rw [h]

theorem streamShutdownRead_phase (c : Connection) (id err i : Nat) :
    ((c.streamShutdownRead id err).streams i).phase = (c.streams i).phase := by
  rcases streamShutdownRead_streams c id err i with h | ⟨rfl, -, -, h⟩ <;> rw [h]

theorem streamShutdownWrite_streams (c : Connection) (id err i : Nat) :
    (c.streamShutdownWrite id err).streams i = c.streams i ∨
      i = id ∧ (c.streams id).phase = .live ∧ c.canSend id = true ∧
      (c.streamShutdownWrite id err).streams i =
        { c.streams id with send := (c.streams id).send.shutdown err } := by
  unfold streamShutdownWrite
  split
  next h =>
    by_cases hi : i = id
    · exact .inr ⟨hi, h.2, h.1, by simp [hi]⟩
    · exact .inl (by simp [hi])
  · exact .inl rfl

theorem streamShutdownWrite_isServer (c : Connection) (id err : Nat) :
    (c.streamShutdownWrite id err).isServer = c.isServer := by
  unfold streamShutdownWrite
  split <;> rfl

theorem streamShutdownWrite_recv (c : Connection) (id err i : Nat) :
    ((c.streamShutdownWrite id err).streams i).recv = (c.streams i).recv := by
  rcases streamShutdownWrite_streams c id err i with h | ⟨rfl, -, -, h⟩ <;> rw [h]

theorem streamShutdownWrite_data (c : Connection) (id err i : Nat) :
    ((c.streamShutdownWrite id err).streams i).send.data = (c.streams i).send.data := by
  rcases streamShutdownWrite_streams c id err i with h | ⟨rfl, -, -, h⟩ <;> rw [h]
  simp only [SendBuf.shutdown]
  split_ifs <;> rfl

theorem streamShutdownWrite_phase (c : Connection) (id err i : Nat) :
    ((c.streamShutdownWrite id err).streams i).phase = (c.streams i).phase := by
  rcases streamShutdownWrite_streams c id err i with h | ⟨rfl, -, -, h⟩ <;> rw [h]

@[simp] theorem close_streams (c : Connection) (app : Bool) (err : Nat) (reason : Bytes) :
    (c.close app err reason).streams = c.streams := by
  unfold close
  split_ifs <;> rfl

@[simp] theorem close_isServer (c : Connection) (app : Bool) (err : Nat) (reason : Bytes) :
    (c.close app err reason).isServer = c.isServer := by
  unfold close
  split_ifs <;> rfl

/-! ## Writing -/

/-- A stream as the first `stream_send` creates it. -/
def created (c : Connection) (id : Nat) : QStream :=
  { phase := .live, recv := {}, send := { maxData := c.initialMaxData (isBidi id) true } }

/-- What `get_or_create_stream` finds. -/
inductive Reach (c : Connection) (id : Nat) : Connection → Prop
  | live : (c.streams id).phase = .live → Reach c id c
  | created : (c.streams id).phase = .absent → isLocal id c.isServer = true →
      Reach c id (c.set id (c.created id))

theorem getOrCreate_ok {c c1 : Connection} {id : Nat} (h : c.getOrCreate id = .ok c1) :
    Reach c id c1 := by
  unfold getOrCreate at h
  split at h
  next hp =>
    cases h
    exact .live hp
  · cases h
  next hp =>
    split_ifs at h with hlocal hlimit
    cases h
    exact .created hp (by simpa using hlocal)

theorem getOrCreate_error {c : Connection} {id : Nat} {err : Error}
    (h : c.getOrCreate id = .error err) : ∀ code, err ≠ .streamStopped code := by
  unfold getOrCreate at h
  split at h
  · cases h
  · cases h; simp
  · split_ifs at h <;> cases h <;> simp

theorem Reach.live_of {c c1 : Connection} {id : Nat} (h : Reach c id c1) :
    (c1.streams id).phase = .live := by
  cases h with
  | live hp => exact hp
  | created => simp [Connection.created]

theorem Reach.ne {c c1 : Connection} {id i : Nat} (h : Reach c id c1) (hi : i ≠ id) :
    c1.streams i = c.streams i := by
  cases h with
  | live => rfl
  | created => simp [hi]

theorem Reach.isServer {c c1 : Connection} {id : Nat} (h : Reach c id c1) :
    c1.isServer = c.isServer := by
  cases h <;> rfl

/-- `n` bytes of a chunk were stored, and the FIN with the last of them. -/
structure Accepted (s s' : SendBuf) (bytes : Bytes) (fin : Bool) (n : Nat) : Prop where
  le : n ≤ bytes.length
  data : s'.data = s.data ++ bytes.take n
  off : s'.off = s.off + n
  emitOff : s'.emitOff = s.emitOff
  error : s'.error = s.error
  shut : s'.shut = s.shut
  complete : s'.complete = s.complete
  resetCodes : s'.resetCodes = s.resetCodes
  maxData : s'.maxData = s.maxData
  finish : s'.finOff = s.finOff ∧ s'.fin = s.fin ∧ (fin = true → n < bytes.length) ∨
    fin = true ∧ n = bytes.length ∧ s'.finOff = some s'.off ∧ s'.fin = true
  below : ∀ f, s.finOff = some f → s.off + n ≤ f ∧ (f = s.off + n → fin = true)

/-- The outcomes of `stream_send`. -/
inductive Send (c : Connection) (id : Nat) (bytes : Bytes) (fin : Bool) :
    Except Error Nat → Connection → Prop
  /-- No such stream. -/
  | refused {err : Error} : (∀ code, err ≠ .streamStopped code) → Send c id bytes fin (.error err) c
  /-- The stream is there, and nothing is taken. -/
  | blocked {err : Error} {c1 c2 : Connection} : (∀ code, err ≠ .streamStopped code) →
      Reach c id c1 → c.canSend id = true → (c1.streams id).send.error = none →
      c2.streams = c1.streams → c2.isServer = c1.isServer → Send c id bytes fin (.error err) c2
  | stopped {code : Nat} (cond : Bool) : (c.streams id).phase = .live → c.canSend id = true →
      (c.streams id).send.error = some code →
      Send c id bytes fin (.error (.streamStopped code)) (c.collectIf id cond)
  | sent {c1 : Connection} {n : Nat} {send : SendBuf} (txCap : Nat) : Reach c id c1 →
      c.canSend id = true → (c1.streams id).send.error = none →
      Accepted (c1.streams id).send send bytes fin n →
      Send c id bytes fin (.ok n) { c1.set id { c1.streams id with send := send } with txCap := txCap }

theorem write_accepted {s s' : SendBuf} {bytes : Bytes} {fin : Bool} {txCap n : Nat}
    (h : s.write (bytes.take (min txCap bytes.length)) (fin && decide (bytes.length ≤ txCap)) =
      .ok (s', n)) : Accepted s s' bytes fin n := by
  have hlen : (bytes.take (min txCap bytes.length)).length = min txCap bytes.length := by
    rw [List.length_take]
    omega
  simp only [SendBuf.write, hlen] at h
  generalize hfin2 : (fin && decide (bytes.length ≤ txCap) &&
    decide (min txCap bytes.length ≤ s.maxData - s.off)) = fin2 at h
  have hiff : fin2 = true ↔ fin = true ∧ bytes.length ≤ txCap ∧
      min txCap bytes.length ≤ s.maxData - s.off := by
    rw [← hfin2]
    simp only [Bool.and_eq_true, decide_eq_true_eq]
    tauto
  have hle : min (min (min txCap bytes.length) (s.maxData - s.off)) (min txCap bytes.length) =
      min (min txCap bytes.length) (s.maxData - s.off) := by omega
  split_ifs at h with hbad
  all_goals
    simp only [Except.ok.injEq, Prod.mk.injEq] at h
    obtain ⟨rfl, rfl⟩ := h
  · next htrue =>
    -- the FIN is stored as well
    obtain ⟨hfin, htx, hroom⟩ := hiff.mp htrue
    have hmin : min txCap bytes.length = bytes.length := by omega
    rw [hmin] at hroom
    refine ⟨by omega, ?_, rfl, rfl, rfl, rfl, rfl, rfl, rfl, .inr ⟨hfin, by omega, ?_, ?_⟩, ?_⟩
    · rw [List.take_take, hle]
    · simp only [Option.some.injEq]
      omega
    · simp [htrue]
    · intro f hf
      simp only [hf, Option.any_some, htrue, Bool.or_eq_true, decide_eq_true_eq] at hbad
      exact ⟨by simp at hbad; omega, fun _ => hfin⟩
  · next hfalse =>
    have hfalse : fin2 = false := by simpa using hfalse
    refine ⟨by omega, ?_, rfl, rfl, rfl, rfl, rfl, rfl, rfl,
      .inl ⟨rfl, by simp [hfalse], fun hf => ?_⟩, ?_⟩
    · rw [List.take_take, hle]
    · by_contra hge
      have : fin2 = true := hiff.mpr ⟨hf, by omega, by omega⟩
      simp [hfalse] at this
    · intro f hf
      simp only [hf, Option.any_some, hfalse] at hbad
      simp at hbad
      exact ⟨by omega, fun he => by omega⟩

/-- A chunk of which nothing was stored leaves the buffer as it was. -/
theorem Accepted.eq_of_zero {s s' : SendBuf} {bytes : Bytes} {fin : Bool}
    (h : Accepted s s' bytes fin 0) (hbytes : bytes ≠ []) : s' = s := by
  have hlen : bytes.length ≠ 0 := by simpa using hbytes
  rcases h.finish with ⟨hoff, hfin, -⟩ | ⟨-, hzero, -⟩
  · exact SendBuf.ext (by simpa using h.data) h.off h.emitOff h.maxData hoff hfin h.shut h.error
      h.resetCodes h.complete
  · exact absurd hzero.symm hlen

theorem set_self (c : Connection) (id : Nat) : (c.set id (c.streams id)).streams = c.streams := by
  funext i
  rw [streams_set]
  split
  next h => rw [h]
  · rfl

theorem streamSend_spec (c : Connection) (id : Nat) (bytes : Bytes) (fin : Bool) :
    Send c id bytes fin (c.streamSend id bytes fin).1 (c.streamSend id bytes fin).2 := by
  unfold streamSend
  split
  · exact .refused (by simp)
  next hcan =>
    have hcan : c.canSend id = true := by simpa using hcan
    split
    next err herr => exact .refused (getOrCreate_error herr)
    next c1 hok =>
      have hreach := getOrCreate_ok hok
      simp only
      split
      next code hcode =>
        cases hreach with
        | live hp => exact .stopped _ hp hcan hcode
        | created => simp [Connection.created] at hcode
      next hnone =>
        split
        · exact .blocked (by simp) hreach hcan hnone rfl rfl
        next htx =>
          split
          next err herr =>
            refine .blocked ?_ hreach hcan hnone rfl rfl
            unfold SendBuf.write at herr
            simp only at herr
            split_ifs at herr
            cases herr
            simp
          next send n hok =>
            have hacc := write_accepted hok
            split
            next hz =>
              -- nothing was stored, so the buffer is what it was
              have hbytes : bytes ≠ [] := by
                rintro rfl
                simp at hz
              have hsend : send = (c1.streams id).send := by
                rw [hz.1] at hacc
                exact hacc.eq_of_zero hbytes
              refine .blocked (by simp) hreach hcan hnone ?_ rfl
              simp only [hsend]
              exact set_self c1 id
            next hz => exact .sent _ hreach hcan hnone hacc

theorem Send.isServer {bytes : Bytes} {fin : Bool} {r : Except Error Nat}
    (h : Send c id bytes fin r c') : c'.isServer = c.isServer := by
  cases h with
  | refused => rfl
  | blocked _ hreach _ _ _ hs => exact hs.trans hreach.isServer
  | stopped => simp
  | sent _ hreach => exact hreach.isServer

theorem Send.ne {bytes : Bytes} {fin : Bool} {r : Except Error Nat}
    (h : Send c id bytes fin r c') {i : Nat} (hi : i ≠ id) : c'.streams i = c.streams i := by
  cases h with
  | refused => rfl
  | blocked _ hreach _ _ hs => rw [hs, hreach.ne hi]
  | stopped => exact collectIf_ne _ _ hi
  | sent _ hreach =>
      rw [← hreach.ne hi]
      simp [set, hi]

/-- A stream is created for a local id only. -/
theorem Send.phase {bytes : Bytes} {fin : Bool} {r : Except Error Nat}
    (h : Send c id bytes fin r c') {i : Nat} (habs : (c.streams i).phase = .absent) :
    (c'.streams i).phase = .absent ∨ i = id ∧ isLocal id c.isServer = true := by
  by_cases hi : i = id
  · subst hi
    cases h with
    | refused => exact .inl habs
    | blocked _ hreach =>
        cases hreach with
        | live hp => simp [hp] at habs
        | created _ hl => exact .inr ⟨rfl, hl⟩
    | stopped _ hp => simp [hp] at habs
    | sent _ hreach =>
        cases hreach with
        | live hp => simp [hp] at habs
        | created _ hl => exact .inr ⟨rfl, hl⟩
  · exact .inl (by rw [h.ne hi]; exact habs)

theorem Send.absent {bytes : Bytes} {fin : Bool} {r : Except Error Nat}
    (h : Send c id bytes fin r c') {i : Nat} (habs : (c'.streams i).phase = .absent) :
    (c.streams i).phase = .absent := by
  by_cases hi : i = id
  · subst hi
    cases h with
    | refused => exact habs
    | blocked _ hreach _ _ hs => rw [hs, hreach.live_of] at habs; cases habs
    | stopped cond hp => exact (collectIf_phase hp).mp habs
    | sent _ hreach => simp [hreach.live_of] at habs
  · rwa [h.ne hi] at habs

/-! ## The network -/

theorem forPeer_spec {c1 : Connection} {s : QStream} (h : c.forPeer id = some (c1, s)) :
    c1.isServer = c.isServer ∧ (∀ i, i ≠ id → c1.streams i = c.streams i) ∧ c1.streams id = s ∧
      s.phase = .live ∧ (c.streams id = s ∨
        (c.streams id).phase = .absent ∧ isLocal id c.isServer = false ∧
          s = { phase := .live, recv := {}
                send := { maxData := c.initialMaxData (isBidi id) false } }) := by
  unfold forPeer at h
  split at h
  next hp =>
    simp only [Option.some.injEq, Prod.mk.injEq] at h
    obtain ⟨rfl, rfl⟩ := h
    exact ⟨rfl, fun _ _ => rfl, rfl, hp, .inl rfl⟩
  · cases h
  next hp =>
    split_ifs at h with hlocal
    simp only [Option.some.injEq, Prod.mk.injEq] at h
    obtain ⟨rfl, rfl⟩ := h
    exact ⟨rfl, fun i hi => by simp [hi], by simp, rfl, .inr ⟨hp, by simpa using hlocal, rfl⟩⟩

/-- A stream as the peer's first frame creates it. -/
def received (c : Connection) (id : Nat) : QStream :=
  { phase := .live, recv := {}, send := { maxData := c.initialMaxData (isBidi id) false } }

/-- What the network does to a live stream. -/
inductive NetStream (s : QStream) : QStream → Prop
  | data (bytes : Bytes) : s.recv.finOff = none → s.recv.drain = false →
      NetStream s { s with recv := { s.recv with data := s.recv.data ++ bytes } }
  | drained (n : Nat) : s.recv.finOff = none → s.recv.drain = true →
      NetStream s { s with recv := { s.recv with off := s.recv.off + n } }
  | fin : s.recv.finOff = none →
      NetStream s { s with recv := { s.recv with
        finOff := some (s.recv.off + s.recv.data.length)
        marker := !s.recv.drain && s.recv.data.isEmpty } }
  | reset (code finalSize : Nat) : s.recv.error = none →
      s.recv.off + s.recv.data.length ≤ finalSize →
      (∀ f, s.recv.finOff = some f → f = finalSize) →
      NetStream s { s with recv := { s.recv with
        data := [], off := finalSize, finOff := some finalSize, error := some code
        marker := !s.recv.drain && s.recv.finOff.isNone } }
  | stop (code : Nat) : NetStream s { s with send := s.send.stop code }
  | serialize (n : Nat) : s.send.error = none → s.send.shut = false →
      NetStream s { s with send := { s.send with emitOff := max s.send.emitOff (min n s.send.off) } }
  | ack (phase : Phase) : phase = .live ∨ phase = .collected →
      s.send.finOff = some s.send.off → s.send.emitOff = s.send.off →
      NetStream s { s with phase := phase, send := { s.send with complete := true } }
  | maxStreamData (limit : Nat) :
      NetStream s { s with send := { s.send with maxData := max s.send.maxData limit } }

/-- What the network does to a stream: nothing, or one change of a live stream
that the peer may just have created. -/
inductive Net (c : Connection) (i : Nat) : QStream → Prop
  | same : Net c i (c.streams i)
  | created : (c.streams i).phase = .absent → isLocal i c.isServer = false → Net c i (c.received i)
  | live {s : QStream} : (c.streams i).phase = .live → NetStream (c.streams i) s → Net c i s
  | first {s : QStream} : (c.streams i).phase = .absent → isLocal i c.isServer = false →
      NetStream (c.received i) s → Net c i s

theorem net_isServer (c : Connection) (event : NetEvent) : (c.net event).isServer = c.isServer := by
  have hpeer : ∀ {id : Nat} {c1 : Connection} {s : QStream}, c.forPeer id = some (c1, s) →
      c1.isServer = c.isServer := fun h => (forPeer_spec h).1
  cases event with
  | data id bytes =>
      simp only [net]
      split
      · rfl
      · split
        · rfl
        next h =>
          have hserver := hpeer h
          split_ifs <;> exact hserver
  | fin id =>
      simp only [net]
      split
      · rfl
      · split
        · rfl
        next h =>
          have hserver := hpeer h
          split_ifs <;> exact hserver
  | reset id code finalSize =>
      simp only [net]
      split
      · rfl
      · split
        · rfl
        next h =>
          have hserver := hpeer h
          split_ifs <;> exact hserver
  | stopSending id code =>
      simp only [net]
      split
      · rfl
      · split
        · rfl
        next h =>
          have hserver := hpeer h
          exact hserver
  | serialize id n => simp only [net]; split <;> rfl
  | ack id => simp only [net]; split <;> simp
  | maxStreamData id limit => simp only [net]; split <;> rfl
  | failure code => simp only [net, close]; split_ifs <;> rfl
  | _ => rfl

/-- The effect of a frame that the peer sent for a stream. -/
theorem net_forPeer {c c1 c2 : Connection} {id i : Nat} {s s' : QStream}
    (h : c.forPeer id = some (c1, s)) (hs : NetStream s s')
    (h2 : c2 = c1.set id s' ∨ c2 = c1) : Net c i (c2.streams i) := by
  obtain ⟨-, hne, hid, -, hcase⟩ := forPeer_spec h
  by_cases hi : i = id
  · subst hi
    rcases hcase with hsame | ⟨habs, hl, hnew⟩
    · have hlive : (c.streams i).phase = .live := by
        rw [hsame]
        exact (forPeer_spec h).2.2.2.1
      rcases h2 with rfl | rfl
      · rw [streams_set, if_pos rfl]
        exact .live hlive (hsame ▸ hs)
      · rw [hid, ← hsame]
        exact .same
    · have hnew : s = c.received i := hnew
      rcases h2 with rfl | rfl
      · rw [streams_set, if_pos rfl]
        exact .first habs hl (hnew ▸ hs)
      · rw [hid, hnew]
        exact .created habs hl
  · rcases h2 with rfl | rfl
    · rw [streams_set, if_neg hi, hne i hi]
      exact .same
    · rw [hne i hi]
      exact .same

/-- The effect of an event on a live stream of the connection. -/
theorem net_set {c : Connection} {id i : Nat} {s' : QStream} (hlive : (c.streams id).phase = .live)
    (hs : NetStream (c.streams id) s') : Net c i ((c.set id s').streams i) := by
  by_cases hi : i = id
  · subst hi
    rw [streams_set, if_pos rfl]
    exact .live hlive hs
  · rw [streams_set, if_neg hi]
    exact .same

theorem net_spec (c : Connection) (event : NetEvent) (i : Nat) :
    Net c i ((c.net event).streams i) := by
  cases event with
  | data id bytes =>
      simp only [net]
      split
      · exact .same
      · split
        · exact .same
        next c1 s h =>
          split_ifs with hfin hdrain
          · exact net_forPeer h (.maxStreamData 0) (.inr rfl)
          · exact net_forPeer h (.drained bytes.length (by simpa using hfin) hdrain) (.inl rfl)
          · exact net_forPeer h (.data bytes (by simpa using hfin) (by simpa using hdrain)) (.inl rfl)
  | fin id =>
      simp only [net]
      split
      · exact .same
      · split
        · exact .same
        next c1 s h =>
          split_ifs with hfin
          · exact net_forPeer h (.maxStreamData 0) (.inr rfl)
          · exact net_forPeer h (.fin (by simpa using hfin)) (.inl rfl)
  | reset id code finalSize =>
      simp only [net]
      split
      · exact .same
      · split
        · exact .same
        next c1 s h =>
          split_ifs with hbad
          · exact net_forPeer h (.maxStreamData 0) (.inr rfl)
          · simp only [not_or, Option.isSome_iff_ne_none, ne_eq, Decidable.not_not, not_lt] at hbad
            refine net_forPeer h (.reset code finalSize hbad.1 hbad.2.2 fun f hf => ?_) (.inl rfl)
            have := hbad.2.1
            simpa [hf] using this
  | stopSending id code =>
      simp only [net]
      split
      · exact .same
      · split
        · exact .same
        next c1 s h => exact net_forPeer h (.stop code) (.inl rfl)
  | serialize id n =>
      simp only [net]
      split
      next h => exact net_set h.1 (.serialize n h.2.1 h.2.2)
      · exact .same
  | ack id =>
      simp only [net]
      split
      next h =>
        rw [collectIf_streams]
        split
        next hc =>
          rw [hc.2, streams_set, if_pos rfl]
          exact .live h.1 (.ack .collected (.inr rfl) h.2.1 h.2.2)
        · have hs := NetStream.ack (s := c.streams id) .live (.inl rfl) h.2.1 h.2.2
          rw [← h.1] at hs
          exact net_set h.1 hs
      · exact .same
  | maxStreamData id limit =>
      simp only [net]
      split
      next h => exact net_set h (.maxStreamData limit)
      · exact .same
  | failure code =>
      simp only [net, close]
      split_ifs <;> exact .same
  | _ => exact .same

/-- The network does not take a stream away. -/
theorem net_absent {c : Connection} {event : NetEvent} {i : Nat}
    (habs : ((c.net event).streams i).phase = .absent) : (c.streams i).phase = .absent := by
  have hstream : ∀ {s s' : QStream}, s.phase = .live → NetStream s s' → s'.phase ≠ .absent := by
    intro s s' hlive hs
    cases hs with
    | ack phase hp => rcases hp with hp | hp <;> simp [hp]
    | _ => simp [hlive]
  have hnet := net_spec c event i
  generalize (c.net event).streams i = s at hnet habs
  cases hnet with
  | same => exact habs
  | created hp => exact hp
  | live hlive hs => exact absurd habs (hstream hlive hs)
  | first hp => exact hp

/-! ## The flags of the two ends -/

/-- Sending does not touch the receive side. -/
theorem Send.recv {bytes : Bytes} {fin : Bool} {r : Except Error Nat} (h : Send c id bytes fin r c')
    (habs : ∀ i, (c.streams i).phase = .absent → c.streams i = {}) (i : Nat) :
    (c'.streams i).recv = (c.streams i).recv := by
  have hreach : ∀ {c1}, Reach c id c1 → (c1.streams i).recv = (c.streams i).recv := by
    intro c1 hr
    cases hr with
    | live => rfl
    | created hp =>
        rw [streams_set]
        split
        next hi => rw [hi, habs id hp]; rfl
        · rfl
  cases h with
  | refused => rfl
  | blocked _ hr _ _ hs => rw [hs]; exact hreach hr
  | stopped => rw [collectIf_recv]
  | sent _ hr =>
      rw [← hreach hr]
      simp only [streams_set]
      split
      next hi => rw [hi]
      · rfl

/-- Sending sets no flag of the send side but FIN, and that only when asked to. -/
theorem Send.flags {bytes : Bytes} {fin : Bool} {r : Except Error Nat} (h : Send c id bytes fin r c')
    (habs : ∀ i, (c.streams i).phase = .absent → c.streams i = {})
    (hfin : fin = false ∨ ∃ err, r = .error err) (i : Nat) :
    (c'.streams i).send.fin = (c.streams i).send.fin ∧
      (c'.streams i).send.shut = (c.streams i).send.shut ∧
      (c'.streams i).send.error = (c.streams i).send.error := by
  have hreach : ∀ {c1}, Reach c id c1 → (c1.streams i).send.fin = (c.streams i).send.fin ∧
      (c1.streams i).send.shut = (c.streams i).send.shut ∧
      (c1.streams i).send.error = (c.streams i).send.error := by
    intro c1 hr
    cases hr with
    | live => exact ⟨rfl, rfl, rfl⟩
    | created hp =>
        rw [streams_set]
        split
        next hi => rw [hi, habs id hp]; exact ⟨rfl, rfl, rfl⟩
        · exact ⟨rfl, rfl, rfl⟩
  cases h with
  | refused => exact ⟨rfl, rfl, rfl⟩
  | blocked _ hr _ _ hs => rw [hs]; exact hreach hr
  | stopped => rw [collectIf_send]; exact ⟨rfl, rfl, rfl⟩
  | @sent c1 n send txCap hr hcan herr hacc =>
      have h1 := hreach hr
      simp only [streams_set]
      split
      next hi =>
        subst hi
        rw [← h1.1, ← h1.2.1, ← h1.2.2]
        refine ⟨?_, hacc.shut, hacc.error⟩
        rcases hfin with rfl | ⟨err, herr⟩
        · rcases hacc.finish with ⟨-, hf, -⟩ | ⟨hf, -⟩
          · exact hf
          · cases hf
        · cases herr
      · exact h1

/-- What sending adds to what the streams accepted. -/
theorem Send.data {bytes : Bytes} {fin : Bool} {r : Except Error Nat} (h : Send c id bytes fin r c')
    (habs : ∀ i, (c.streams i).phase = .absent → c.streams i = {}) (i : Nat) :
    (c'.streams i).send.data = (c.streams i).send.data ∧ (i ≠ id ∨ ∃ err, r = .error err) ∨
      i = id ∧ ∃ n, r = .ok n ∧
        (c'.streams i).send.data = (c.streams i).send.data ++ bytes.take n := by
  have hreach : ∀ {c1}, Reach c id c1 → (c1.streams i).send.data = (c.streams i).send.data := by
    intro c1 hr
    cases hr with
    | live => rfl
    | created hp =>
        rw [streams_set]
        split
        next hi => rw [hi, habs id hp]; rfl
        · rfl
  cases h with
  | refused => exact .inl ⟨rfl, .inr ⟨_, rfl⟩⟩
  | blocked _ hr _ _ hs => exact .inl ⟨by rw [hs]; exact hreach hr, .inr ⟨_, rfl⟩⟩
  | stopped => exact .inl ⟨by rw [collectIf_send], .inr ⟨_, rfl⟩⟩
  | @sent c1 n send txCap hr hcan herr hacc =>
      have h1 := hreach hr
      simp only [streams_set]
      split
      next hi =>
        subst hi
        exact .inr ⟨rfl, n, rfl, by rw [← h1]; exact hacc.data⟩
      next hi => exact .inl ⟨h1, .inl hi⟩

/-- The network changes nothing of what we sent. -/
theorem net_data {c : Connection} (habs : ∀ i, (c.streams i).phase = .absent → c.streams i = {})
    (event : NetEvent) (i : Nat) :
    ((c.net event).streams i).send.data = (c.streams i).send.data := by
  have hstream : ∀ {s s' : QStream}, NetStream s s' → s'.send.data = s.send.data := by
    intro s s' hs
    cases hs with
    | stop code =>
        show (SendBuf.stop _ code).data = _
        unfold SendBuf.stop
        split <;> rfl
    | _ => rfl
  have hnet := net_spec c event i
  generalize (c.net event).streams i = s at hnet
  cases hnet with
  | same => rfl
  | created hp => rw [habs i hp]; rfl
  | live _ hs => exact hstream hs
  | first hp _ hs =>
      rw [habs i hp]
      exact hstream (s := c.received i) hs

/-- The network sets none of the flags we set ourselves. -/
theorem net_flags {c : Connection} (habs : ∀ i, (c.streams i).phase = .absent → c.streams i = {})
    (event : NetEvent) (i : Nat) :
    ((c.net event).streams i).recv.ended = (c.streams i).recv.ended ∧
      ((c.net event).streams i).recv.drain = (c.streams i).recv.drain ∧
      ((c.net event).streams i).send.fin = (c.streams i).send.fin ∧
      ((c.net event).streams i).send.shut = (c.streams i).send.shut := by
  have hstream : ∀ {s s' : QStream}, NetStream s s' → s'.recv.ended = s.recv.ended ∧
      s'.recv.drain = s.recv.drain ∧ s'.send.fin = s.send.fin ∧ s'.send.shut = s.send.shut := by
    intro s s' hs
    cases hs with
    | stop code =>
        refine ⟨rfl, rfl, ?_⟩
        unfold SendBuf.stop
        split <;> exact ⟨rfl, rfl⟩
    | _ => exact ⟨rfl, rfl, rfl, rfl⟩
  have hnet := net_spec c event i
  generalize (c.net event).streams i = s at hnet
  cases hnet with
  | same => exact ⟨rfl, rfl, rfl, rfl⟩
  | created hp => rw [habs i hp]; exact ⟨rfl, rfl, rfl, rfl⟩
  | live _ hs => exact hstream hs
  | first hp _ hs =>
      rw [habs i hp]
      exact hstream (s := c.received i) hs

/-- A stream stays stopped. -/
theorem net_stopped {c : Connection} (habs : ∀ i, (c.streams i).phase = .absent → c.streams i = {})
    (event : NetEvent) {i : Nat} (h : (c.streams i).send.error.isSome = true) :
    ((c.net event).streams i).send.error.isSome = true := by
  have hnet := net_spec c event i
  generalize (c.net event).streams i = s at hnet
  cases hnet with
  | same => exact h
  | created hp | first hp =>
      rw [habs i hp] at h
      cases h
  | live _ hs =>
      cases hs with
      | stop code =>
          show (SendBuf.stop _ code).error.isSome = true
          rw [SendBuf.stop, if_pos h]
          exact h
      | _ => exact h

end RWebTransport.Quic.Connection
