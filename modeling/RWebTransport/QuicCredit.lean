import RWebTransport.QuicRetransmission

/-!
# Credit

quiche's flow control of one stream (`flowcontrol.rs`, and its use in `lib.rs`):
what the reader consumed moves a limit ahead of it, which goes to the writer in
`MAX_STREAM_DATA` frames.  Such a frame may be lost or overtaken as well.  The writer
never runs over the limit the reader checks, and credit does not run dry: a reader
that has read everything and a writer that heard of every grant are never stuck.
-/

namespace RWebTransport.Quic

open RWebTransport.Ranges (Covers)

/-- `FlowControl`. -/
structure FlowControl where
  consumed : Nat := 0
  maxData : Nat
  window : Nat
  maxWindow : Nat
  lastUpdate : Option Nat := none
deriving DecidableEq, Repr

namespace FlowControl

/-- `new`. -/
def new (maxData window maxWindow : Nat) : FlowControl :=
  { maxData := maxData, window := min window maxWindow, maxWindow := maxWindow }

/-- `add_consumed`. -/
def addConsumed (f : FlowControl) (n : Nat) : FlowControl := { f with consumed := f.consumed + n }

/-- `should_update_max_data`. -/
def shouldUpdate (f : FlowControl) : Bool := decide (f.maxData - f.consumed < f.window / 2)

/-- `max_data_next`. -/
def next (f : FlowControl) : Nat := f.consumed + f.window

/-- `update_max_data`. -/
def update (f : FlowControl) (now : Nat) : FlowControl :=
  { f with maxData := f.next, lastUpdate := some now }

/-- `set_window`. -/
def setWindow (f : FlowControl) (window : Nat) : FlowControl := { f with window := min window f.maxWindow }

/-- `autotune_window`: two grants within two round trips double the window. -/
def autotune (f : FlowControl) (now rtt : Nat) : FlowControl :=
  match f.lastUpdate with
  | some last => if now - last < rtt * 2 then f.setWindow (f.window * 2) else f
  | none => f

end FlowControl

/-- One direction of a stream with the credit that comes back. -/
structure Channel where
  wire : Wire
  flow : FlowControl
  /-- The stream is in the set `almost_full`. -/
  flagged : Bool := false
  /-- The limits that were sent in `MAX_STREAM_DATA` frames. -/
  limits : List Nat := []

/-- What happens at either end and in between. -/
inductive ChannelOp where
  | write (bytes : Bytes) (fin : Bool)
  | emit (cap : Nat)
  | ack (i : Nat)
  | lose (i : Nat)
  | deliver (i : Nat)
  | read (cap : Nat)
  /-- A packet is filled, and takes a `MAX_STREAM_DATA` frame if one is due. -/
  | grant (now rtt : Nat)
  /-- A `MAX_STREAM_DATA` frame arrives, whether it did before or not. -/
  | deliverGrant (i : Nat)
  /-- A `MAX_STREAM_DATA` frame is declared lost. -/
  | loseGrant (i : Nat)

namespace Channel

/-- `RecvBuf::almost_full`. -/
def almostFull (s : Channel) : Bool := s.wire.recv.buf.finOff.isNone && s.flow.shouldUpdate

/-- `Connection::stream_recv`: what was read is consumed. -/
def read (s : Channel) (cap : Nat) : Channel :=
  match (s.wire.recv.buf.emit cap).1 with
  | some (bytes, _) =>
      let s := { s with wire := s.wire.step (.read cap), flow := s.flow.addConsumed bytes.length }
      { s with flagged := s.flagged || s.almostFull }
  | none => s

/-- The flow controller in front of a grant: it is not tuned for one that is sent
again. -/
def tuned (s : Channel) (now rtt : Nat) : FlowControl :=
  if s.almostFull then s.flow.autotune now rtt else s.flow

/-- The `MAX_STREAM_DATA` frames of `send_single`. -/
def grant (s : Channel) (now rtt : Nat) : Channel :=
  if s.flagged then
    let flow := s.tuned now rtt
    { wire := s.wire.step (.credit flow.next)
      flow := flow.update now
      flagged := false
      limits := s.limits ++ [flow.next] }
  else s

def step (s : Channel) : ChannelOp → Channel
  | .write bytes fin => { s with wire := s.wire.step (.send (.write bytes fin)) }
  | .emit cap => { s with wire := s.wire.step (.send (.emit cap)) }
  | .ack i => { s with wire := s.wire.step (.send (.ack i)) }
  | .lose i => { s with wire := s.wire.step (.send (.lose i)) }
  | .deliver i => { s with wire := s.wire.step (.deliver i) }
  | .read cap => s.read cap
  | .grant now rtt => s.grant now rtt
  | .deliverGrant i =>
      match s.limits[i]? with
      | some limit => { s with wire := s.wire.step (.send (.credit limit)) }
      | none => s
  | .loseGrant i => if i < s.limits.length then { s with flagged := true } else s

/-- A fresh stream: both ends begin with the limit of the transport parameters. -/
def start (limit window maxWindow : Nat) : Channel :=
  { wire := Wire.start limit limit, flow := .new limit window maxWindow }

/-- Only what arrived is acknowledged, and limits fit into the integers of the wire
format. -/
def Fair (s : Channel) : ChannelOp → Prop
  | .ack i => s.wire.Heard (.send (.ack i))
  | .grant now rtt => (s.tuned now rtt).next < 2 ^ 62
  | _ => True

instance decidableFair (s : Channel) : ∀ op, Decidable (s.Fair op)
  | .ack i => inferInstanceAs (Decidable (s.wire.Heard (.send (.ack i))))
  | .grant now rtt => inferInstanceAs (Decidable ((s.tuned now rtt).next < 2 ^ 62))
  | .write _ _ | .emit _ | .lose _ | .deliver _ | .read _ | .deliverGrant _ | .loseGrant _ => .isTrue trivial

end Channel

/-! ## What the steps leave alone -/

theorem RangeQueue.writeLoop_maxData : ∀ {n : Nat} {bufs : List RangeBuf} {q : RangeQueue},
    (writeLoop n bufs q).maxData = q.maxData := by
  intro n
  induction n with
  | zero =>
      intro bufs q
      rfl
  | succ n ih =>
      intro bufs q
      cases bufs with
      | nil => rfl
      | cons b rest =>
          rw [writeLoop, ih]
          cases (q.overlap (q.trim b)).1 with
          | none => rfl
          | some part =>
              show (q.store part).maxData = q.maxData
              rw [RangeQueue.store]
              split <;> rfl

theorem RangeQueue.write_maxData {q q' : RangeQueue} {b : RangeBuf} (h : q.write b = .ok q') :
    q'.maxData = q.maxData := by
  rw [RangeQueue.write] at h
  split at h
  · cases h
  · split at h
    · cases h
    · split at h
      · cases h
      · split at h
        · cases h
          rfl
        · dsimp only at h
          generalize hfin : (if b.fin = true then { q with finOff := some b.maxOff } else q) = q₁ at h
          have hmax : q₁.maxData = q.maxData := by
            rw [← hfin]
            split <;> rfl
          split at h
          · cases h
            exact hmax
          · split at h
            · cases h
              exact hmax
            · cases h
              exact writeLoop_maxData.trans hmax

theorem RangeQueue.emit_maxData {q : RangeQueue} {cap : Nat} : (q.emit cap).2.maxData = q.maxData := by
  rw [RangeQueue.emit]
  split <;> rfl

/-- Only a grant moves the limit of the reader. -/
theorem Reader.step_maxData {s : Reader} {op : ReaderOp} :
    (s.step op).buf.maxData = match op with
      | .credit limit => max s.buf.maxData limit
      | _ => s.buf.maxData := by
  cases op with
  | write b =>
      rw [Reader.step]
      split
      next buf hok => exact RangeQueue.write_maxData hok
      · rfl
  | emit cap =>
      have hmax : (s.buf.emit cap).2.maxData = s.buf.maxData := RangeQueue.emit_maxData
      rw [Reader.step]
      split
      next bytes fin buf heq =>
        rw [heq] at hmax
        exact hmax
      next buf heq =>
        rw [heq] at hmax
        exact hmax
  | credit limit => rfl

theorem SendQueue.write_maxData {q q' : SendQueue} {bytes : Bytes} {fin : Bool} {n : Nat}
    (h : q.write bytes fin = .ok (q', n)) : q'.maxData = q.maxData := by
  have hset : ∀ (b : Bool) (m : Nat), (q.setFin b m).maxData = q.maxData := by
    intro b m
    cases b <;> rfl
  rw [SendQueue.write] at h
  dsimp only at h
  split at h
  · cases h
  · split at h
    · cases h
      exact hset _ _
    · cases h
      exact hset _ _

/-- Only a grant moves the limit of the writer. -/
theorem Sender.step_maxData {s : Sender} {op : SenderOp} :
    (s.step op).buf.maxData = match op with
      | .credit limit => max s.buf.maxData limit
      | _ => s.buf.maxData := by
  cases op with
  | write bytes fin =>
      rw [Sender.step]
      split
      next buf n hok => exact SendQueue.write_maxData hok
      · rfl
  | emit cap => rfl
  | ack i =>
      rw [Sender.step]
      split
      · rw [SendQueue.ackAndDrop]
        dsimp only
        split <;> rfl
      · rfl
  | lose i =>
      rw [Sender.step]
      split
      · rw [SendQueue.retransmit]
        split <;> rfl
      · rfl
  | credit limit => rfl

/-- Where there is credit and no FIN was written, a write is accepted, if only in part. -/
theorem SendQueue.Sound.takes {text : Bytes} {q : SendQueue} (h : q.Sound text) (hopen : q.finOff = none)
    (hcredit : text.length < q.maxData) {bytes : Bytes} {fin : Bool} (hne : bytes ≠ []) :
    ∃ q' n, q.write bytes fin = .ok (q', n) ∧ 0 < n := by
  have hoff := h.off
  have hack := h.ackOff_le
  have hpos : 0 < bytes.length := List.length_pos_iff.2 hne
  have hsome : ¬ (q.off + bytes.length ≤ q.acked.ackOff ∨ min bytes.length (q.maxData - q.off) = 0) := by
    omega
  rw [SendQueue.write]
  simp only [hopen, Option.any_none, Bool.false_eq_true, if_false, setFin_acked, if_neg hsome]
  exact ⟨_, _, rfl, by omega⟩

/-! ## Credit in runs -/

theorem Wire.Shared.follows {limit : Nat} {s : Wire} (h : s.Shared limit) : s.recv.Follows s.send.text := by
  obtain ⟨ops, hrecv, hframes⟩ := h.replay
  rw [hrecv]
  refine execute_invariant (P := fun _ op => Reader.Sends s.send.text op) (I := Reader.Follows s.send.text)
    (fun _ _ h hop => h.step hop) (.start _ _) (along_of_forall fun op hop _ => ?_)
  cases op with
  | write b => exact h.accounts.cut b (hframes b hop)
  | _ => trivial

namespace Channel

/-- What holds of a stream and its credit. -/
structure Paced (limit window maxWindow : Nat) (s : Channel) : Prop where
  shared : s.wire.Shared limit
  consumed : s.flow.consumed = s.wire.recv.out.length
  maxData : s.flow.maxData = s.wire.recv.buf.maxData
  /-- The writer was granted no more than the reader allows. -/
  behind : s.wire.send.buf.maxData ≤ s.flow.maxData
  granted : limit ≤ s.wire.send.buf.maxData
  limits : ∀ l ∈ s.limits, l ≤ s.flow.maxData ∧ l < 2 ^ 62
  updated : s.limits ≠ [] → s.flow.lastUpdate ≠ none
  /-- Before the first grant the limit is that of the transport parameters; -/
  first : s.flow.lastUpdate = none → s.flow.maxData = limit
  /-- afterwards, and wherever a grant is due, it is no more than a window ahead. -/
  ahead : s.flow.lastUpdate ≠ none ∨ s.flagged = true → s.flow.maxData ≤ s.flow.next
  tunes : s.flow.window ≤ s.flow.maxWindow
  bound : s.flow.maxWindow = maxWindow
  floor : min window maxWindow ≤ s.flow.window
  /-- A grant that is due is noticed by the read that makes it so. -/
  due : s.almostFull = true → s.flagged = true ∨ s.flow.consumed = 0

variable {limit window maxWindow : Nat} {s : Channel}

theorem Paced.start (hlimit : limit < 2 ^ 62) :
    Paced limit window maxWindow (Channel.start limit window maxWindow) where
  shared := .start hlimit
  consumed := rfl
  maxData := rfl
  behind := Nat.le_refl _
  granted := Nat.le_refl _
  limits _ hl := absurd hl List.not_mem_nil
  updated h := absurd rfl h
  first _ := rfl
  ahead h := h.elim (fun h => absurd rfl h) fun h => nomatch h
  tunes := Nat.min_le_right _ _
  bound := rfl
  floor := Nat.le_refl _
  due _ := .inr rfl

/-- What is read was accepted, and that is within what was granted. -/
theorem Paced.le (h : s.Paced limit window maxWindow) :
    s.flow.consumed ≤ s.wire.send.text.length ∧ s.wire.send.text.length ≤ s.wire.send.buf.maxData := by
  have hout := h.shared.delivered.read.out.length_le
  have hsound := h.shared.accounts.sound
  exact ⟨h.consumed.trans_le hout, hsound.off ▸ hsound.credit⟩

/-- A step of either end that leaves the reader's limit and what it read alone. -/
theorem Paced.send (h : s.Paced limit window maxWindow) {op : SenderOp} (hop : s.wire.Heard (.send op))
    (hmax : (s.wire.send.step op).buf.maxData ≤ s.flow.maxData)
    (hge : limit ≤ (s.wire.send.step op).buf.maxData) :
    Paced limit window maxWindow { s with wire := s.wire.step (.send op) } :=
  { h with shared := h.shared.step hop, behind := hmax, granted := hge }

/-- The reader takes every frame: none is refused for flow control. -/
theorem Paced.accepts (h : s.Paced limit window maxWindow) {f : RangeBuf} (hf : f ∈ s.wire.send.frames) :
    ∃ buf, s.wire.recv.buf.write f = .ok buf ∧ RangeQueue.Stored s.wire.send.text f s.wire.recv.buf buf := by
  have hcut := h.shared.accounts.cut f hf
  have hle := h.le.2
  have hbehind := h.behind
  have hmax := h.maxData
  refine h.shared.follows.holds.write hcut ?_
  have hend := hcut.le
  omega

theorem Paced.deliver (h : s.Paced limit window maxWindow) (i : Nat) :
    Paced limit window maxWindow { s with wire := s.wire.step (.deliver i) } := by
  have hshared : (s.wire.step (.deliver i)).Shared limit := h.shared.step trivial
  cases hf : s.wire.send.frames[i]? with
  | none =>
      have hsame : s.wire.step (.deliver i) = s.wire := by
        rw [Wire.step, hf]
      rw [hsame]
      exact h
  | some f =>
      obtain ⟨buf, hok, hstored⟩ := h.accepts (List.mem_of_getElem? hf)
      have hstep : s.wire.step (.deliver i) =
          { s.wire with recv := { s.wire.recv with
              buf := buf
              arrived := s.wire.recv.arrived ++ [f] } } := by
        rw [Wire.step, hf]
        show { s.wire with recv := s.wire.recv.step (.write f) } = _
        rw [Reader.step, hok]
      rw [hstep] at hshared ⊢
      refine { h with shared := hshared, maxData := ?_, due := ?_ }
      · exact h.maxData.trans (RangeQueue.write_maxData hok).symm
      · intro hfull
        refine h.due ?_
        rw [almostFull, Bool.and_eq_true, Option.isNone_iff_eq_none] at hfull ⊢
        refine ⟨?_, hfull.2⟩
        have hnone : buf.finOff = none := hfull.1
        rw [hstored.final] at hnone
        split at hnone
        · cases hnone
        · exact hnone

theorem Paced.read (h : s.Paced limit window maxWindow) (cap : Nat) :
    (s.read cap).Paced limit window maxWindow := by
  rw [Channel.read]
  split
  next bytes fin hsome =>
    have hshared : (s.wire.step (.read cap)).Shared limit := h.shared.step trivial
    have hwire : s.wire.step (.read cap) = { s.wire with recv := { s.wire.recv with
        buf := (s.wire.recv.buf.emit cap).2
        out := s.wire.recv.out ++ bytes
        ended := s.wire.recv.ended || fin } } := by
      rw [Wire.step, Reader.step]
      cases hemit : s.wire.recv.buf.emit cap with
      | mk first buf =>
          rw [hemit] at hsome
          obtain rfl : first = some (bytes, fin) := hsome
          rfl
    have hmax : (s.wire.recv.buf.emit cap).2.maxData = s.wire.recv.buf.maxData := RangeQueue.emit_maxData
    rw [hwire] at hshared ⊢
    dsimp only
    refine ⟨hshared, ?_, h.maxData.trans hmax.symm, h.behind, h.granted, h.limits, h.updated, h.first, ?_,
      h.tunes, h.bound, h.floor, ?_⟩
    · show s.flow.consumed + bytes.length = (s.wire.recv.out ++ bytes).length
      rw [List.length_append, h.consumed]
    · intro hcase
      show s.flow.maxData ≤ s.flow.consumed + bytes.length + s.flow.window
      have hold : s.flow.lastUpdate ≠ none ∨ s.flagged = true →
          s.flow.maxData ≤ s.flow.consumed + s.flow.window := h.ahead
      rcases hcase with hlast | hflag
      · have hle := hold (.inl hlast)
        omega
      · change (s.flagged || _) = true at hflag
        rcases Bool.or_eq_true_iff.1 hflag with hset | hfull
        · have hle := hold (.inr hset)
          omega
        · -- less than half the window is left
          have hshould := (Bool.and_eq_true_iff.1 hfull).2
          rw [FlowControl.shouldUpdate, decide_eq_true_eq] at hshould
          change s.flow.maxData - (s.flow.consumed + bytes.length) < s.flow.window / 2 at hshould
          omega
    · intro hfull
      exact .inl (Bool.or_eq_true_iff.2 (.inr hfull))
  · exact h

/-- Tuning widens the window, within its bound. -/
theorem Paced.tuned (h : s.Paced limit window maxWindow) (now rtt : Nat) :
    (s.tuned now rtt).consumed = s.flow.consumed ∧ s.flow.window ≤ (s.tuned now rtt).window ∧
      (s.tuned now rtt).window ≤ (s.tuned now rtt).maxWindow ∧
      (s.tuned now rtt).maxWindow = s.flow.maxWindow := by
  have htunes := h.tunes
  rw [Channel.tuned]
  split
  · rw [FlowControl.autotune]
    split
    · split
      · refine ⟨rfl, ?_, ?_, rfl⟩
        · show s.flow.window ≤ min (s.flow.window * 2) s.flow.maxWindow
          omega
        · show min (s.flow.window * 2) s.flow.maxWindow ≤ s.flow.maxWindow
          omega
      · exact ⟨rfl, Nat.le_refl _, htunes, rfl⟩
    · exact ⟨rfl, Nat.le_refl _, htunes, rfl⟩
  · exact ⟨rfl, Nat.le_refl _, htunes, rfl⟩

/-- A grant never takes back what was granted. -/
theorem Paced.le_next (h : s.Paced limit window maxWindow) (hflag : s.flagged = true) (now rtt : Nat) :
    s.flow.maxData ≤ (s.tuned now rtt).next := by
  obtain ⟨hconsumed, hwindow, -, -⟩ := h.tuned now rtt
  have hahead : s.flow.maxData ≤ s.flow.consumed + s.flow.window := h.ahead (.inr hflag)
  show s.flow.maxData ≤ (s.tuned now rtt).consumed + (s.tuned now rtt).window
  omega

theorem Paced.grant (h : s.Paced limit window maxWindow) {now rtt : Nat}
    (hfits : (s.tuned now rtt).next < 2 ^ 62) : (s.grant now rtt).Paced limit window maxWindow := by
  rw [Channel.grant]
  split
  next hflag =>
    have hnext := h.le_next hflag now rtt
    obtain ⟨hconsumed, hwindow, htunes, hmaxWindow⟩ := h.tuned now rtt
    have hshared : (s.wire.step (.credit (s.tuned now rtt).next)).Shared limit := h.shared.step trivial
    have hfloor := h.floor
    have hmax := h.maxData
    refine ⟨hshared, hconsumed.trans h.consumed, ?_, h.behind.trans hnext, h.granted, fun l hl => ?_,
      fun _ => ?_, fun hlast => ?_, fun _ => Nat.le_refl _, htunes, hmaxWindow.trans h.bound, hfloor.trans hwindow,
      fun hfull => ?_⟩
    · show (s.tuned now rtt).next = max s.wire.recv.buf.maxData (s.tuned now rtt).next
      omega
    · rcases List.mem_append.1 hl with hl | hl
      · exact ⟨(h.limits l hl).1.trans hnext, (h.limits l hl).2⟩
      · obtain rfl := List.mem_singleton.1 hl
        exact ⟨Nat.le_refl _, hfits⟩
    · exact Option.some_ne_none now
    · exact absurd hlast (Option.some_ne_none now)
    · -- right after a grant the whole window is free
      have hshould := (Bool.and_eq_true_iff.1 hfull).2
      rw [FlowControl.shouldUpdate, decide_eq_true_eq] at hshould
      change (s.tuned now rtt).consumed + (s.tuned now rtt).window - (s.tuned now rtt).consumed <
        (s.tuned now rtt).window / 2 at hshould
      omega
  · exact h

theorem Paced.deliverGrant (h : s.Paced limit window maxWindow) (i : Nat) :
    (s.step (.deliverGrant i)).Paced limit window maxWindow := by
  rw [Channel.step]
  split
  next l hl =>
    obtain ⟨hle, hfits⟩ := h.limits l (List.mem_of_getElem? hl)
    have hmax : (s.wire.send.step (.credit l)).buf.maxData = max s.wire.send.buf.maxData l :=
      Sender.step_maxData
    have hbehind := h.behind
    have hgranted := h.granted
    exact h.send hfits (by omega) (by omega)
  · exact h

theorem Paced.loseGrant (h : s.Paced limit window maxWindow) (i : Nat) :
    (s.step (.loseGrant i)).Paced limit window maxWindow := by
  rw [Channel.step]
  split
  next hi =>
    have hsent : s.limits ≠ [] := List.ne_nil_of_length_pos (Nat.zero_lt_of_lt hi)
    exact { h with ahead := fun _ => h.ahead (.inl (h.updated hsent)), due := fun _ => .inl rfl }
  · exact h

theorem Paced.step (h : s.Paced limit window maxWindow) {op : ChannelOp} (hop : s.Fair op) :
    (s.step op).Paced limit window maxWindow := by
  cases op with
  | write bytes fin =>
      have hmax : (s.wire.send.step (.write bytes fin)).buf.maxData = s.wire.send.buf.maxData :=
        Sender.step_maxData
      exact h.send trivial (hmax.trans_le h.behind) (h.granted.trans_eq hmax.symm)
  | emit cap => exact h.send trivial h.behind h.granted
  | ack i =>
      have hmax : (s.wire.send.step (.ack i)).buf.maxData = s.wire.send.buf.maxData := Sender.step_maxData
      exact h.send hop (hmax.trans_le h.behind) (h.granted.trans_eq hmax.symm)
  | lose i =>
      have hmax : (s.wire.send.step (.lose i)).buf.maxData = s.wire.send.buf.maxData := Sender.step_maxData
      exact h.send trivial (hmax.trans_le h.behind) (h.granted.trans_eq hmax.symm)
  | deliver i => exact h.deliver i
  | read cap => exact h.read cap
  | grant now rtt => exact h.grant hop
  | deliverGrant i => exact h.deliverGrant i
  | loseGrant i => exact h.loseGrant i

/-- What flow control gives to both ends. -/
structure Governed (limit window maxWindow : Nat) (s : Channel) : Prop where
  delivered : s.wire.Delivered
  /-- No frame that was sent is ever refused for flow control. -/
  accepts : ∀ f ∈ s.wire.send.frames, ∃ buf, s.wire.recv.buf.write f = .ok buf
  /-- A grant never takes back what was granted. -/
  monotone : ∀ op, s.flow.maxData ≤ (s.step op).flow.maxData
  /-- What was sent and not read is bounded. -/
  bounded : s.wire.send.text.length ≤ max limit (s.wire.recv.out.length + maxWindow)
  /-- Where all that was accepted was read and the last grant arrived, the writer may go on. -/
  goes : s.wire.recv.out = s.wire.send.text → s.wire.recv.buf.finOff = none → s.flagged = false →
    s.wire.send.buf.maxData = s.flow.maxData → 0 < limit → 2 ≤ min window maxWindow →
      s.wire.send.buf.finOff = none → ∀ bytes fin, bytes ≠ [] →
        ∃ buf n, s.wire.send.buf.write bytes fin = .ok (buf, n) ∧ 0 < n

/-- A step never takes back a grant. -/
theorem Paced.monotone (h : s.Paced limit window maxWindow) (op : ChannelOp) :
    s.flow.maxData ≤ (s.step op).flow.maxData := by
  cases op with
  | read cap =>
      show s.flow.maxData ≤ (s.read cap).flow.maxData
      rw [Channel.read]
      split <;> exact Nat.le_refl _
  | grant now rtt =>
      show s.flow.maxData ≤ (s.grant now rtt).flow.maxData
      rw [Channel.grant]
      split
      next hflag => exact h.le_next hflag now rtt
      · exact Nat.le_refl _
  | deliverGrant i =>
      rw [Channel.step]
      split <;> exact Nat.le_refl _
  | loseGrant i =>
      rw [Channel.step]
      split <;> exact Nat.le_refl _
  | _ => exact Nat.le_refl _

/-- What was accepted is no more than a window ahead of what was read. -/
theorem Paced.bounded (h : s.Paced limit window maxWindow) :
    s.wire.send.text.length ≤ max limit (s.wire.recv.out.length + maxWindow) := by
  obtain ⟨hread, haccepted⟩ := h.le
  have hbehind := h.behind
  have hconsumed := h.consumed
  have htunes := h.tunes
  have hbound := h.bound
  cases hlast : s.flow.lastUpdate with
  | none =>
      have hfirst := h.first hlast
      omega
  | some last =>
      have hahead : s.flow.maxData ≤ s.flow.consumed + s.flow.window :=
        h.ahead (.inl (hlast ▸ Option.some_ne_none last))
      omega

/-- Where all was read and no grant is due, there is credit. -/
theorem Paced.credit_left (h : s.Paced limit window maxWindow) (hall : s.wire.recv.out = s.wire.send.text)
    (hfin : s.wire.recv.buf.finOff = none) (hflag : s.flagged = false)
    (hheard : s.wire.send.buf.maxData = s.flow.maxData) (hlimit : 0 < limit)
    (hwindow : 2 ≤ min window maxWindow) : s.wire.send.text.length < s.wire.send.buf.maxData := by
  have hconsumed : s.flow.consumed = s.wire.send.text.length := hall ▸ h.consumed
  have hfloor := h.floor
  have hgranted := h.granted
  by_cases hzero : s.flow.consumed = 0
  · omega
  · -- no grant is due, so half a window is free
    have hnot : s.almostFull = false := by
      rw [Bool.eq_false_iff]
      intro hfull
      rcases h.due hfull with hset | hnone
      · rw [hset] at hflag
        cases hflag
      · exact hzero hnone
    rw [almostFull, hfin, Option.isNone_none, Bool.true_and, FlowControl.shouldUpdate,
      decide_eq_false_iff_not] at hnot
    omega

theorem Paced.governed (h : s.Paced limit window maxWindow) : s.Governed limit window maxWindow where
  delivered := h.shared.delivered
  accepts := by
    intro f hf
    obtain ⟨buf, hok, -⟩ := h.accepts hf
    exact ⟨buf, hok⟩
  monotone := h.monotone
  bounded := h.bounded
  goes := by
    intro hall hfin hflag hheard hlimit hwindow hopen bytes fin hne
    exact h.shared.accounts.sound.takes hopen (h.credit_left hall hfin hflag hheard hlimit hwindow) hne

/-- However data, grants, acknowledgements and losses interleave, flow control refuses
no frame and takes back no grant, what is unread stays bounded, and the writer of a
stream that was read to where it stands has credit. -/
theorem never_stuck {limit window maxWindow : Nat} (hlimit : limit < 2 ^ 62) {ops : List ChannelOp}
    (hops : Along step Fair (start limit window maxWindow) ops) :
    (execute step (start limit window maxWindow) ops).Governed limit window maxWindow :=
  (execute_invariant (P := Fair) (I := Paced limit window maxWindow) (fun _ _ h hop => h.step hop)
    (.start hlimit) hops).governed

/-- The writer runs out of credit, and the frame with the grant is lost. -/
def exchange : List ChannelOp :=
  [.write [1, 2, 3, 4, 5, 6] false, .emit 9, .deliver 0, .read 9, .ack 0, .grant 5 10, .loseGrant 0,
    .grant 9 10, .deliverGrant 1, .write [5, 6] true, .emit 9, .deliver 1, .read 9, .ack 1]

theorem never_stuck_sample :
    (execute step (start 4 4 16) exchange).Governed 4 4 16 ∧
      (execute step (start 4 4 16) exchange).wire.recv.out = [1, 2, 3, 4, 5, 6] ∧
      (execute step (start 4 4 16) exchange).wire.send.buf.isComplete = true :=
  ⟨never_stuck (by decide) (by decide), by decide, by decide⟩

-- With a window of one byte no grant is ever due, and the writer stops for good.
example :
    let s := execute step (start 1 1 1) [.write [1] false, .emit 9, .deliver 0, .read 9]
    s.wire.recv.out = s.wire.send.text ∧ s.flagged = false ∧ s.wire.send.buf.maxData = 1 := by
  decide

end Channel

end RWebTransport.Quic
