import Mathlib.Data.List.TakeWhile
import RWebTransport.QuicReassembly
import RWebTransport.QuicRanges

/-!
# Retransmission of stream bytes

What quiche does below the send buffers of `Quic` (`stream/send_buf.rs`): what
was accepted is kept in chunks until it is acknowledged, and a chunk goes back to
what is to be sent when a packet with bytes of it was lost.  However the frames
are cut, lost and acknowledged, every frame is a piece of the text that was
accepted, and every byte of the text is acknowledged, on its way or still to be
sent.
-/

namespace RWebTransport.Quic

open RWebTransport.Ranges (Within Covers Tidy place covers_place)

/-- `RangeBuf` in a send buffer: the bytes from an offset on, of which the first
ones were sent. -/
structure SendChunk where
  off : Nat
  data : Bytes
  /-- How many of the bytes were sent. -/
  pos : Nat
deriving DecidableEq, Repr

namespace SendChunk

/-- `off()`: where what is left to be sent begins. -/
def front (b : SendChunk) : Nat := b.off + b.pos

/-- `max_off`. -/
def maxOff (b : SendChunk) : Nat := b.off + b.data.length

/-- `is_empty`: all of it was sent. -/
def spent (b : SendChunk) : Bool := decide (b.data.length ≤ b.pos)

/-- `split_off`, on both sides of the index. -/
def splitOff (b : SendChunk) (n : Nat) : SendChunk × SendChunk :=
  (⟨b.off, b.data.take n, min b.pos n⟩, ⟨b.off + n, b.data.drop n, b.pos - n⟩)

/-- What `retransmit` makes of `pos`, in a chunk that the lost range meets. -/
def rewound (b : SendChunk) (off : Nat) : SendChunk :=
  { b with pos := if b.off < off ∧ off ≤ b.maxOff then min b.pos (off - b.off) else 0 }

end SendChunk

/-- `SendBuf` of `send_buf.rs`. -/
structure SendQueue where
  data : List SendChunk := []
  /-- The index of the chunk to be sent next. -/
  pos : Nat := 0
  /-- The offset behind all that was accepted. -/
  off : Nat := 0
  maxData : Nat := 0
  finOff : Option Nat := none
  acked : RangeSet := RangeSet.new (2 ^ 64 - 1)

/-- The chunks a write is cut into (`chunks`). -/
def cutUp (size : Nat) : Nat → Nat → Bytes → List SendChunk
  | 0, _, _ => []
  | n + 1, off, bytes =>
      if bytes = [] then []
      else ⟨off, bytes.take size, 0⟩ :: cutUp size n (off + (bytes.take size).length) (bytes.drop size)

/-- `off_front`, from a chunk on. -/
def frontOf (off : Nat) (l : List SendChunk) : Nat :=
  match l.find? fun b => !b.spent with
  | some b => b.front
  | none => off

/-- The loop of `emit`: the bytes sent, the chunks behind it, and how many of them
the position went past. -/
def emitFrom (off maxData : Nat) : List SendChunk → Nat → Nat → Bytes × List SendChunk × Nat
  | [], _, _ => ([], [], 0)
  | b :: bs, next, cap =>
      if cap = 0 ∨ off ≤ frontOf off (b :: bs) ∨ frontOf off (b :: bs) ≠ next ∨
          maxData ≤ frontOf off (b :: bs) then ([], b :: bs, 0)
      else if b.spent then
        let rest := emitFrom off maxData bs next cap
        (rest.1, b :: rest.2.1, rest.2.2 + 1)
      else
        let n := min (b.data.length - b.pos) cap
        let out := (b.data.drop b.pos).take n
        if n < b.data.length - b.pos then (out, { b with pos := b.pos + n } :: bs, 0)
        else
          let rest := emitFrom off maxData bs (b.front + n) (cap - n)
          (out ++ rest.1, { b with pos := b.pos + n } :: rest.2.1, rest.2.2 + 1)

/-- The loop of `retransmit`, with the position. -/
def rewind (off maxOff : Nat) : Nat → List SendChunk → Nat → List SendChunk × Nat
  | _, [], pos => ([], pos)
  | i, b :: bs, pos =>
      if maxOff ≤ b.off then (b :: bs, pos)
      else if b.maxOff < off then
        let rest := rewind off maxOff (i + 1) bs pos
        (b :: rest.1, rest.2)
      else if maxOff < b.maxOff then
        -- the part behind the range starts where it ends, which ends the loop
        let parts := b.splitOff (maxOff - b.off)
        (parts.1.rewound off :: parts.2 :: bs, min pos i)
      else
        let rest := rewind off maxOff (i + 1) bs (min pos i)
        (b.rewound off :: rest.1, rest.2)

namespace SendQueue

/-- `off_front`. -/
def offFront (q : SendQueue) : Nat := frontOf q.off (q.data.drop q.pos)

/-- `is_flushable` of `stream/mod.rs`. -/
def flushable (q : SendQueue) : Bool :=
  decide (q.data ≠ [] ∧ q.offFront < q.off ∧ q.offFront < q.maxData)

/-- The final size is set where the FIN comes with the bytes. -/
def setFin (q : SendQueue) (fin : Bool) (maxOff : Nat) : SendQueue :=
  if fin then { q with finOff := some maxOff } else q

/-- `write`, on a buffer that was not stopped. -/
def write (q : SendQueue) (bytes : Bytes) (fin : Bool) : Except Error (SendQueue × Nat) :=
  let maxOff := q.off + bytes.length
  let cap := q.maxData - q.off
  let len := min bytes.length cap
  let fin := fin && decide (bytes.length ≤ cap)
  if q.finOff.any fun f => decide (f < maxOff) || (f == maxOff && !fin) then .error .finalSize
  else
    let q := q.setFin fin maxOff
    if maxOff ≤ q.acked.ackOff ∨ len = 0 then .ok (q, 0)
    else .ok ({ q with data := q.data ++ cutUp 4096 len q.off (bytes.take len), off := q.off + len }, len)

/-- `emit`: the frame, and the buffer behind it. -/
def emit (q : SendQueue) (cap : Nat) : RangeBuf × SendQueue :=
  let sent := emitFrom q.off q.maxData (q.data.drop q.pos) q.offFront cap
  (⟨q.offFront, sent.1, q.finOff == some (q.offFront + sent.1.length)⟩,
    { q with data := q.data.take q.pos ++ sent.2.1, pos := q.pos + sent.2.2 })

/-- `ack_and_drop`. -/
def ackAndDrop (q : SendQueue) (off len : Nat) : SendQueue :=
  let acked := q.acked.insert (off, off + len)
  if q.data = [] ∨ acked.ackOff < off then { q with acked := acked }
  else
    let n := (q.data.takeWhile fun b => decide (b.off < acked.ackOff ∧ b.maxOff ≤ acked.ackOff)).length
    { q with acked := acked, data := q.data.drop n, pos := q.pos - n }

/-- `retransmit`. -/
def retransmit (q : SendQueue) (off len : Nat) : SendQueue :=
  if q.data = [] ∨ off + len ≤ q.acked.ackOff then q
  else
    let rest := rewind off (off + len) 0 q.data q.pos
    { q with data := rest.1, pos := rest.2 }

/-- `is_complete`: the final size is known, and the acknowledged ranges are one range
up to it. -/
def isComplete (q : SendQueue) : Bool :=
  match q.finOff with
  | some f => decide (q.acked.iter = [(0, f)])
  | none => false

end SendQueue

/-! ## Chunks that lie side by side -/

/-- The chunk is cut from the text. -/
structure SendChunk.Piece (text : Bytes) (b : SendChunk) : Prop where
  data : b.data <+: text.drop b.off
  pos : b.pos ≤ b.data.length

/-- Chunks of the text from an offset up to another, without a gap. -/
inductive Tiles (text : Bytes) (off : Nat) : Nat → List SendChunk → Prop
  | nil : Tiles text off off []
  | cons {b : SendChunk} {bs : List SendChunk} : b.Piece text → Tiles text off b.maxOff bs →
      Tiles text off b.off (b :: bs)

/-- A byte is to be sent. -/
def Pends (l : List SendChunk) (o : Nat) : Prop := ∃ b ∈ l, b.front ≤ o ∧ o < b.maxOff

@[simp] theorem pends_nil {o : Nat} : ¬ Pends [] o := by
  rintro ⟨b, hb, -⟩
  exact List.not_mem_nil hb

@[simp] theorem pends_cons {b : SendChunk} {l : List SendChunk} {o : Nat} :
    Pends (b :: l) o ↔ (b.front ≤ o ∧ o < b.maxOff) ∨ Pends l o := by
  simp [Pends]

@[simp] theorem pends_append {l m : List SendChunk} {o : Nat} :
    Pends (l ++ m) o ↔ Pends l o ∨ Pends m o := by
  simp [Pends, or_and_right, exists_or]

section tiles

variable {text : Bytes} {off base mid o : Nat} {b : SendChunk} {l m : List SendChunk}

theorem SendChunk.spent_iff : b.spent = true ↔ b.maxOff ≤ b.front := by
  simp only [spent, decide_eq_true_eq, maxOff, front]
  omega

theorem Pends.unspent (h : Pends l o) : ∃ b ∈ l, b.spent = false := by
  obtain ⟨b, hb, hlo, hhi⟩ := h
  refine ⟨b, hb, ?_⟩
  rw [Bool.eq_false_iff, ne_eq, SendChunk.spent_iff]
  omega

theorem not_pends (h : ∀ b ∈ l, b.spent = true) : ¬ Pends l o := by
  intro hp
  obtain ⟨b, hb, hfalse⟩ := hp.unspent
  rw [h b hb] at hfalse
  cases hfalse

theorem Tiles.le (h : Tiles text off base l) : base ≤ off := by
  induction h with
  | nil => exact Nat.le_refl _
  | cons _ _ ih => exact (Nat.le_add_right _ _).trans ih

theorem Tiles.bounds (h : Tiles text off base l) : ∀ b ∈ l, base ≤ b.off ∧ b.maxOff ≤ off := by
  induction h with
  | nil =>
      intro b hb
      exact absurd hb List.not_mem_nil
  | cons hp hbs ih =>
      intro c hc
      rcases List.mem_cons.1 hc with rfl | hc
      · exact ⟨Nat.le_refl _, hbs.le⟩
      · exact ⟨(Nat.le_add_right _ _).trans (ih c hc).1, (ih c hc).2⟩

/-- The chunks are none, or the last of them ends at the end. -/
theorem Tiles.last (h : Tiles text off base l) : base = off ∨ ∃ b ∈ l, b.maxOff = off := by
  induction h with
  | nil => exact .inl rfl
  | @cons b bs _ _ ih =>
      rcases ih with heq | ⟨c, hc, heq⟩
      · exact .inr ⟨b, List.mem_cons_self, heq⟩
      · exact .inr ⟨c, List.mem_cons_of_mem _ hc, heq⟩

theorem Tiles.append (h : Tiles text mid base l) (hm : Tiles text off mid m) :
    Tiles text off base (l ++ m) := by
  induction h with
  | nil => exact hm
  | cons hp _ ih => exact .cons hp ih

theorem Tiles.split : ∀ {l : List SendChunk} {base : Nat}, Tiles text off base (l ++ m) →
    ∃ mid, Tiles text mid base l ∧ Tiles text off mid m := by
  intro l
  induction l with
  | nil =>
      intro base h
      exact ⟨base, .nil, h⟩
  | cons b bs ih =>
      intro base h
      cases h with
      | cons hp hbs =>
          obtain ⟨mid, hl, hm⟩ := ih hbs
          exact ⟨mid, .cons hp hl, hm⟩

theorem Tiles.grow {more : Bytes} (h : Tiles text off base l) : Tiles (text ++ more) off base l := by
  induction h with
  | nil => exact .nil
  | cons hp _ ih => exact .cons ⟨hp.data.trans ((List.prefix_append text more).drop _), hp.pos⟩ ih

theorem drop_piece {size n : Nat} {bytes : Bytes} (h : bytes <+: text.drop n) :
    bytes.drop size <+: text.drop (n + (bytes.take size).length) := by
  rcases Nat.le_total size bytes.length with hle | hle
  · rw [List.length_take, Nat.min_eq_left hle, ← List.drop_drop]
    exact h.drop size
  · rw [List.drop_eq_nil_of_le hle]
    exact List.nil_prefix

theorem length_take_drop {size : Nat} (bytes : Bytes) :
    (bytes.take size).length + (bytes.drop size).length = bytes.length := by
  rw [← List.length_append, List.take_append_drop]

/-- What a write is cut into. -/
theorem cutUp_tiles {size : Nat} (hsize : 0 < size) : ∀ {n off : Nat} {bytes : Bytes}, bytes.length ≤ n →
    bytes <+: text.drop off → Tiles text (off + bytes.length) off (cutUp size n off bytes) := by
  intro n
  induction n with
  | zero =>
      intro off bytes hn _
      obtain rfl := List.length_eq_zero_iff.1 (Nat.le_zero.1 hn)
      exact .nil
  | succ n ih =>
      intro off bytes hn hpre
      rw [cutUp]
      split
      next hnil =>
        subst hnil
        exact .nil
      next hne =>
        have hpos : 0 < bytes.length := List.length_pos_iff.2 hne
        have hparts : (bytes.take size).length + (bytes.drop size).length = bytes.length :=
          length_take_drop bytes
        have hdrop : (bytes.drop size).length = bytes.length - size := List.length_drop
        have hle : (bytes.drop size).length ≤ n := by omega
        have htiles := ih hle (drop_piece hpre)
        rw [Nat.add_assoc, hparts] at htiles
        exact .cons (b := ⟨off, bytes.take size, 0⟩) ⟨(List.take_prefix _ _).trans hpre, Nat.zero_le _⟩
          htiles

theorem cutUp_pends {size : Nat} (hsize : 0 < size) : ∀ {n off : Nat} {bytes : Bytes}, bytes.length ≤ n →
    (Pends (cutUp size n off bytes) o ↔ off ≤ o ∧ o < off + bytes.length) := by
  intro n
  induction n with
  | zero =>
      intro off bytes hn
      obtain rfl := List.length_eq_zero_iff.1 (Nat.le_zero.1 hn)
      exact ⟨fun hp => absurd hp pends_nil, fun ho => absurd ho.2 (Nat.not_lt.2 ho.1)⟩
  | succ n ih =>
      intro off bytes hn
      rw [cutUp]
      split
      next hnil =>
        subst hnil
        exact ⟨fun hp => absurd hp pends_nil, fun ho => absurd ho.2 (Nat.not_lt.2 ho.1)⟩
      next hne =>
        have hpos : 0 < bytes.length := List.length_pos_iff.2 hne
        have hparts : (bytes.take size).length + (bytes.drop size).length = bytes.length :=
          length_take_drop bytes
        have hdrop : (bytes.drop size).length = bytes.length - size := List.length_drop
        have hle : (bytes.drop size).length ≤ n := by omega
        rw [pends_cons, ih hle]
        simp only [SendChunk.front, SendChunk.maxOff]
        omega

/-! ## The front -/

/-- Nothing in front of the front is to be sent. -/
theorem Tiles.frontOf_le (h : Tiles text off base l) (hp : Pends l o) : frontOf off l ≤ o := by
  induction h with
  | nil => exact absurd hp pends_nil
  | @cons b bs hpiece hbs ih =>
      rw [frontOf]
      by_cases hs : b.spent = true
      · rw [List.find?_cons_of_neg (by simp [hs])]
        refine ih ?_
        rcases pends_cons.1 hp with hin | hin
        · rw [SendChunk.spent_iff] at hs
          omega
        · exact hin
      · rw [List.find?_cons_of_pos (by simpa using hs)]
        rcases pends_cons.1 hp with hin | ⟨c, hc, hin, -⟩
        · exact hin.1
        · have hbound := (hbs.bounds c hc).1
          have hpos := hpiece.pos
          simp only [SendChunk.front, SendChunk.maxOff] at *
          omega

theorem Tiles.base_le_frontOf (h : Tiles text off base l) : base ≤ frontOf off l ∧ frontOf off l ≤ off := by
  induction h with
  | nil => exact ⟨Nat.le_refl _, Nat.le_refl _⟩
  | @cons b bs hpiece hbs ih =>
      rw [frontOf]
      by_cases hs : b.spent = true
      · rw [List.find?_cons_of_neg (by simp [hs])]
        exact ⟨(Nat.le_add_right _ _).trans ih.1, ih.2⟩
      · rw [List.find?_cons_of_pos (by simpa using hs)]
        have hpos := hpiece.pos
        have hle := hbs.le
        simp only [SendChunk.front, SendChunk.maxOff] at *
        omega

theorem Tiles.le_of_pends (h : Tiles text off base l) (hp : Pends l o) : base ≤ o :=
  h.base_le_frontOf.1.trans (h.frontOf_le hp)

end tiles

/-! ## Sending -/

/-- What the loop of `emit` does to the chunks it looks at. -/
structure Emits (text : Bytes) (off base next cap : Nat) (l : List SendChunk)
    (r : Bytes × List SendChunk × Nat) : Prop where
  tiles : Tiles text off base r.2.1
  piece : r.1 <+: text.drop next
  room : r.1.length ≤ cap
  /-- What was to be sent is in the frame or still to be sent. -/
  pends : ∀ o, Pends l o ↔ (next ≤ o ∧ o < next + r.1.length) ∨ Pends r.2.1 o
  /-- What is in the frame is not to be sent any more. -/
  sent : ∀ o, next ≤ o → o < next + r.1.length → ¬ Pends r.2.1 o
  within : r.2.2 ≤ r.2.1.length
  spent : ∀ b ∈ r.2.1.take r.2.2, b.spent = true

section emitting

variable {text : Bytes} {off maxData base next cap : Nat} {b : SendChunk} {l bs : List SendChunk}

theorem Emits.stop (h : Tiles text off base l) : Emits text off base next cap l ([], l, 0) where
  tiles := h
  piece := List.nil_prefix
  room := Nat.zero_le _
  pends _ := ⟨.inr, fun ho => ho.elim (fun hin => absurd hin.2 (Nat.not_lt.2 hin.1)) id⟩
  sent _ hlo hhi := absurd hhi (Nat.not_lt.2 hlo)
  within := Nat.zero_le _
  spent _ hb := absurd hb List.not_mem_nil

theorem SendChunk.Piece.rest (h : b.Piece text) : b.data.drop b.pos <+: text.drop b.front := by
  rw [SendChunk.front, ← List.drop_drop]
  exact h.data.drop b.pos

theorem append_piece {p r t : Bytes} (hp : p <+: t) (hr : r <+: t.drop p.length) : p ++ r <+: t := by
  obtain ⟨s, rfl⟩ := hp
  rw [List.drop_left] at hr
  exact (List.prefix_append_right_inj p).2 hr

/-- A chunk that was sent whole is passed over. -/
theorem Emits.skip {r : Bytes × List SendChunk × Nat} (hb : b.Piece text) (hs : b.spent = true)
    (h : Emits text off b.maxOff next cap bs r) :
    Emits text off b.off next cap (b :: bs) (r.1, b :: r.2.1, r.2.2 + 1) where
  tiles := .cons hb h.tiles
  piece := h.piece
  room := h.room
  pends o := by
    rw [pends_cons, pends_cons, h.pends o, or_left_comm]
  sent o hlo hhi hp := by
    rcases pends_cons.1 hp with hin | hin
    · rw [SendChunk.spent_iff] at hs
      omega
    · exact h.sent o hlo hhi hin
  within := Nat.succ_le_succ h.within
  spent c hc := by
    rw [List.take_succ_cons] at hc
    rcases List.mem_cons.1 hc with rfl | hc
    · exact hs
    · exact h.spent c hc

/-- A part of a chunk is sent, which ends the frame. -/
theorem Emits.part {n : Nat} (hb : b.Piece text) (hbs : Tiles text off b.maxOff bs)
    (hn : n < b.data.length - b.pos) (hcap : n ≤ cap) :
    Emits text off b.off b.front cap (b :: bs)
      ((b.data.drop b.pos).take n, { b with pos := b.pos + n } :: bs, 0) := by
  have hlen : ((b.data.drop b.pos).take n).length = n := by
    rw [List.length_take, List.length_drop]
    omega
  refine ⟨.cons (b := { b with pos := b.pos + n }) ⟨hb.data, by show b.pos + n ≤ b.data.length; omega⟩ hbs,
    (List.take_prefix _ _).trans hb.rest, hlen.trans_le hcap, fun o => ?_, fun o hlo hhi hp => ?_,
    Nat.zero_le _, fun c hc => ?_⟩
  · rw [pends_cons, pends_cons, hlen, ← or_assoc]
    refine or_congr_left ?_
    simp only [SendChunk.front, SendChunk.maxOff]
    omega
  · rw [hlen] at hhi
    rcases pends_cons.1 hp with hin | hin
    · simp only [SendChunk.front, SendChunk.maxOff] at *
      omega
    · have hfar := hbs.le_of_pends hin
      simp only [SendChunk.front, SendChunk.maxOff] at *
      omega
  · exact absurd hc List.not_mem_nil

/-- What is left of a chunk is sent, and the frame goes on with the next one. -/
theorem Emits.whole {r : Bytes × List SendChunk × Nat} (hb : b.Piece text)
    (hcap : b.data.length - b.pos ≤ cap)
    (h : Emits text off b.maxOff b.maxOff (cap - (b.data.length - b.pos)) bs r) :
    Emits text off b.off b.front cap (b :: bs)
      (b.data.drop b.pos ++ r.1, { b with pos := b.data.length } :: r.2.1, r.2.2 + 1) := by
  have hpos := hb.pos
  have hlen : (b.data.drop b.pos).length = b.data.length - b.pos := List.length_drop
  have hend : b.front + (b.data.length - b.pos) = b.maxOff := by
    simp only [SendChunk.front, SendChunk.maxOff]
    omega
  refine ⟨.cons (b := { b with pos := b.data.length }) ⟨hb.data, Nat.le_refl _⟩ h.tiles, ?_, ?_, fun o => ?_,
    fun o hlo hhi hp => ?_, Nat.succ_le_succ h.within, fun c hc => ?_⟩
  · refine append_piece hb.rest ?_
    rw [List.drop_drop, hlen, hend]
    exact h.piece
  · have hroom := h.room
    rw [List.length_append, hlen]
    omega
  · rw [pends_cons, pends_cons, h.pends o, List.length_append, hlen, ← Nat.add_assoc, hend]
    have hnone : ¬ (b.off + b.data.length ≤ o ∧ o < b.off + b.data.length) := by omega
    simp only [SendChunk.front, SendChunk.maxOff] at hend ⊢
    constructor
    · rintro (hin | hin | hin)
      · exact .inl (by omega)
      · exact .inl (by omega)
      · exact .inr (.inr hin)
    · rintro (hin | hin | hin)
      · by_cases hlt : o < b.off + b.data.length
        · exact .inl ⟨hin.1, hlt⟩
        · exact .inr (.inl (by omega))
      · exact absurd hin hnone
      · exact .inr (.inr hin)
  · rw [List.length_append, hlen, ← Nat.add_assoc, hend] at hhi
    rcases pends_cons.1 hp with hin | hin
    · simp only [SendChunk.front, SendChunk.maxOff] at *
      omega
    · exact h.sent o (h.tiles.le_of_pends hin) hhi hin
  · rw [List.take_succ_cons] at hc
    rcases List.mem_cons.1 hc with rfl | hc
    · exact SendChunk.spent_iff.2 (Nat.le_refl _)
    · exact h.spent c hc

theorem frontOf_cons_spent (hs : b.spent = true) : frontOf off (b :: bs) = frontOf off bs := by
  rw [frontOf, List.find?_cons_of_neg (by simp [hs]), ← frontOf]

theorem frontOf_cons_unspent (hs : ¬ b.spent = true) : frontOf off (b :: bs) = b.front := by
  rw [frontOf, List.find?_cons_of_pos (by simpa using hs)]

/-- The loop of `emit`. -/
theorem emitFrom_emits (h : Tiles text off base l) : ∀ next cap,
    Emits text off base next cap l (emitFrom off maxData l next cap) := by
  induction h with
  | nil =>
      intro next cap
      exact .stop .nil
  | @cons b bs hb hbs ih =>
      intro next cap
      rw [emitFrom]
      split
      · exact .stop (.cons hb hbs)
      next hgo =>
        have hnext : frontOf off (b :: bs) = next := by
          by_contra hne
          exact hgo (.inr (.inr (.inl hne)))
        split
        next hs => exact .skip hb hs (ih next cap)
        next hs =>
          rw [frontOf_cons_unspent hs] at hnext
          subst hnext
          dsimp only
          split
          next hlt => exact .part hb hbs hlt (Nat.min_le_right _ _)
          next hge =>
            have hmin : min (b.data.length - b.pos) cap = b.data.length - b.pos := by omega
            have hpos := hb.pos
            have hfull : b.pos + (b.data.length - b.pos) = b.data.length := by omega
            have hend : b.front + (b.data.length - b.pos) = b.maxOff := by
              simp only [SendChunk.front, SendChunk.maxOff]
              omega
            have htake : (b.data.drop b.pos).take (b.data.length - b.pos) = b.data.drop b.pos :=
              List.take_of_length_le List.length_drop.le
            rw [hmin, htake, hfull, hend]
            exact .whole hb (by omega) (ih b.maxOff _)

/-- Where something is to be sent and there is room, something is sent. -/
theorem emitFrom_ne_nil (h : Tiles text off base l) (hmax : off ≤ maxData) (hlt : frontOf off l < off)
    (hcap : 0 < cap) : (emitFrom off maxData l (frontOf off l) cap).1 ≠ [] := by
  induction h with
  | nil => exact absurd hlt (Nat.lt_irrefl _)
  | @cons b bs hb hbs ih =>
      have hgo : ¬ (cap = 0 ∨ off ≤ frontOf off (b :: bs) ∨ frontOf off (b :: bs) ≠ frontOf off (b :: bs) ∨
          maxData ≤ frontOf off (b :: bs)) := by
        omega
      rw [emitFrom, if_neg hgo]
      by_cases hs : b.spent = true
      · rw [if_pos hs, frontOf_cons_spent hs]
        rw [frontOf_cons_spent hs] at hlt
        exact ih hlt
      · have hout : (b.data.drop b.pos).take (min (b.data.length - b.pos) cap) ≠ [] := by
          rw [SendChunk.spent, decide_eq_true_eq] at hs
          rw [ne_eq, ← List.length_eq_zero_iff, List.length_take, List.length_drop]
          omega
        rw [if_neg hs]
        dsimp only
        split
        · exact hout
        · exact List.append_ne_nil_of_left_ne_nil hout _

end emitting

/-! ## Losing -/

section rewinding

variable {text : Bytes} {fin base off maxOff o n : Nat} {b : SendChunk} {l bs : List SendChunk}

theorem SendChunk.Piece.rewound (h : b.Piece text) : (b.rewound off).Piece text where
  data := h.data
  pos := by
    have hpos := h.pos
    show (if b.off < off ∧ off ≤ b.maxOff then min b.pos (off - b.off) else 0) ≤ b.data.length
    split <;> omega

/-- What is to be sent of a chunk that the lost range reaches. -/
theorem SendChunk.rewound_pends (hle : off ≤ b.maxOff) :
    ((b.rewound off).front ≤ o ∧ o < (b.rewound off).maxOff) ↔
      (b.front ≤ o ∧ o < b.maxOff) ∨ (off ≤ o ∧ b.off ≤ o ∧ o < b.maxOff) := by
  have hmax : (b.rewound off).maxOff = b.maxOff := rfl
  have hfront : (b.rewound off).front = if b.off < off then min b.front off else b.off := by
    simp only [front, SendChunk.rewound, hle, and_true]
    split <;> omega
  have hlo : b.off ≤ b.front := Nat.le_add_right _ _
  rw [hmax, hfront]
  split <;> omega

/-- The two parts of a chunk, and what is to be sent of them. -/
theorem SendChunk.Piece.splitOff (h : b.Piece text) (hn : n ≤ b.data.length) :
    (b.splitOff n).1.Piece text ∧ (b.splitOff n).2.Piece text ∧ (b.splitOff n).1.maxOff = b.off + n ∧
      (b.splitOff n).2.maxOff = b.maxOff ∧
      ((b.front ≤ o ∧ o < b.maxOff) ↔ ((b.splitOff n).1.front ≤ o ∧ o < b.off + n) ∨
        ((b.splitOff n).2.front ≤ o ∧ o < b.maxOff)) := by
  have hpos := h.pos
  refine ⟨⟨(List.take_prefix _ _).trans h.data, ?_⟩, ⟨?_, ?_⟩, ?_, ?_, ?_⟩
  · show min b.pos n ≤ (b.data.take n).length
    rw [List.length_take]
    omega
  · show b.data.drop n <+: text.drop (b.off + n)
    rw [← List.drop_drop]
    exact h.data.drop n
  · show b.pos - n ≤ (b.data.drop n).length
    rw [List.length_drop]
    omega
  · show b.off + (b.data.take n).length = _
    rw [List.length_take]
    omega
  · show b.off + n + (b.data.drop n).length = b.off + b.data.length
    rw [List.length_drop]
    omega
  · simp only [front, maxOff, SendChunk.splitOff]
    omega

/-- What the loop of `retransmit` does to the chunks it looks at. -/
structure Rewinds (text : Bytes) (fin off maxOff i base : Nat) (l : List SendChunk) (pos : Nat)
    (r : List SendChunk × Nat) : Prop where
  tiles : Tiles text fin base r.1
  longer : l.length ≤ r.1.length
  /-- Exactly the range is to be sent again. -/
  pends : ∀ o, Pends r.1 o ↔ Pends l o ∨ (off ≤ o ∧ o < maxOff ∧ base ≤ o ∧ o < fin)
  le : r.2 ≤ pos
  spent : (∀ b ∈ l.take (pos - i), b.spent = true) → ∀ b ∈ r.1.take (r.2 - i), b.spent = true

theorem Rewinds.stop {i pos : Nat} (h : Tiles text fin base l) (hfar : maxOff ≤ base) :
    Rewinds text fin off maxOff i base l pos (l, pos) where
  tiles := h
  longer := Nat.le_refl _
  pends _ := ⟨.inl, fun ho => ho.elim id fun hin => absurd hin.2.1 (Nat.not_lt.2 (hfar.trans hin.2.2.1))⟩
  le := Nat.le_refl _
  spent h := h

/-- A chunk in front of the range stays as it is. -/
theorem Rewinds.skip {i pos : Nat} {r : List SendChunk × Nat} (hb : b.Piece text) (hbefore : b.maxOff < off)
    (h : Rewinds text fin off maxOff (i + 1) b.maxOff bs pos r) :
    Rewinds text fin off maxOff i b.off (b :: bs) pos (b :: r.1, r.2) := by
  have hlo : b.off ≤ b.maxOff := Nat.le_add_right _ _
  refine ⟨.cons hb h.tiles, Nat.succ_le_succ h.longer, fun o => ?_, h.le, fun hs c hc => ?_⟩
  · rw [pends_cons, pends_cons, h.pends o, or_assoc]
    refine or_congr_right (or_congr_right ?_)
    omega
  · -- the position is behind the chunk, or the rest does not matter
    have hle := h.le
    change c ∈ (b :: r.1).take (r.2 - i) at hc
    rcases Nat.lt_or_ge i r.2 with hlt | hge
    · have hsucc : r.2 - i = r.2 - (i + 1) + 1 := by omega
      have hpos : pos - i = pos - (i + 1) + 1 := by omega
      rw [hsucc, List.take_succ_cons] at hc
      rw [hpos, List.take_succ_cons] at hs
      rcases List.mem_cons.1 hc with rfl | hc
      · exact hs c List.mem_cons_self
      · exact h.spent (fun d hd => hs d (List.mem_cons_of_mem _ hd)) c hc
    · rw [Nat.sub_eq_zero_of_le hge] at hc
      exact absurd hc List.not_mem_nil

/-- A chunk that the range reaches to its end. -/
theorem Rewinds.reach {i pos : Nat} {r : List SendChunk × Nat} (hb : b.Piece text) (hlo : off ≤ b.maxOff)
    (hhi : b.maxOff ≤ maxOff) (h : Rewinds text fin off maxOff (i + 1) b.maxOff bs (min pos i) r) :
    Rewinds text fin off maxOff i b.off (b :: bs) pos (b.rewound off :: r.1, r.2) := by
  have hoff : b.off ≤ b.maxOff := Nat.le_add_right _ _
  have hend := h.tiles.le
  have hle := h.le
  refine ⟨.cons (b := b.rewound off) hb.rewound h.tiles, Nat.succ_le_succ h.longer, fun o => ?_,
    hle.trans (Nat.min_le_left _ _), fun _ c hc => ?_⟩
  · rw [pends_cons, pends_cons, SendChunk.rewound_pends hlo, h.pends o, or_assoc, or_assoc]
    refine or_congr_right ?_
    rw [or_left_comm]
    refine or_congr_right ?_
    omega
  · have hzero : r.2 - i = 0 := by omega
    rw [hzero] at hc
    exact absurd hc List.not_mem_nil

/-- A chunk that the range ends in. -/
theorem Rewinds.part {i pos : Nat} (hb : b.Piece text) (hbs : Tiles text fin b.maxOff bs)
    (hle : off ≤ maxOff) (hlo : b.off < maxOff) (hhi : maxOff < b.maxOff) :
    Rewinds text fin off maxOff i b.off (b :: bs) pos
      ((b.splitOff (maxOff - b.off)).1.rewound off :: (b.splitOff (maxOff - b.off)).2 :: bs,
        min pos i) := by
  have hn : maxOff - b.off ≤ b.data.length := by
    unfold SendChunk.maxOff at hhi
    omega
  have hmid : b.off + (maxOff - b.off) = maxOff := by omega
  have hend := hbs.le
  obtain ⟨hfront, hrear, hmax, hmax', -⟩ := hb.splitOff (o := 0) hn
  have hoff : (b.splitOff (maxOff - b.off)).2.off = maxOff := hmid
  rw [hmid] at hmax
  have htiles : Tiles text fin (b.splitOff (maxOff - b.off)).1.maxOff
      ((b.splitOff (maxOff - b.off)).2 :: bs) := by
    have hsecond := Tiles.cons hrear (hmax'.symm ▸ hbs)
    rw [hoff] at hsecond
    rwa [hmax]
  refine ⟨.cons (b := (b.splitOff (maxOff - b.off)).1.rewound off) hfront.rewound htiles, ?_, fun o => ?_,
    Nat.min_le_left _ _, fun _ c hc => ?_⟩
  · simp only [List.length_cons]
    omega
  · obtain ⟨-, -, -, -, hpends⟩ := hb.splitOff (o := o) hn
    have hfirst : (b.splitOff (maxOff - b.off)).1.off = b.off := rfl
    rw [pends_cons, pends_cons, pends_cons, SendChunk.rewound_pends (hmax.symm ▸ hle), hpends, hmax, hmax',
      hmid, hfirst, or_assoc, or_assoc, or_assoc]
    refine or_congr_right ?_
    rw [or_left_comm]
    refine or_congr_right ?_
    rw [or_comm]
    refine or_congr_right ?_
    omega
  · have hzero : min pos i - i = 0 := by omega
    rw [hzero] at hc
    exact absurd hc List.not_mem_nil

theorem rewind_rewinds (hle : off ≤ maxOff) (h : Tiles text fin base l) : ∀ i pos,
    Rewinds text fin off maxOff i base l pos (rewind off maxOff i l pos) := by
  induction h with
  | nil =>
      intro i pos
      refine ⟨.nil, Nat.le_refl _, fun o => ⟨.inl, fun ho => ho.elim id fun hin => ?_⟩, Nat.le_refl _,
        fun h => h⟩
      omega
  | @cons b bs hb hbs ih =>
      intro i pos
      rw [rewind]
      split
      next hfar => exact .stop (.cons hb hbs) hfar
      next hnear =>
        split
        next hbefore => exact .skip hb hbefore (ih _ _)
        next hreach =>
          split
          next hin => exact .part hb hbs hle (Nat.not_le.1 hnear) hin
          next hover => exact .reach hb (Nat.not_lt.1 hreach) (Nat.not_lt.1 hover) (ih _ _)

end rewinding

/-! ## The buffer -/

namespace SendQueue

/-- What holds of a send buffer that a text was written to. -/
structure Sound (text : Bytes) (q : SendQueue) : Prop where
  off : q.off = text.length
  credit : q.off ≤ q.maxData
  limit : q.maxData < 2 ^ 62
  fin : ∀ f, q.finOff = some f → f = text.length
  /-- What is kept begins in what was acknowledged. -/
  tiles : ∃ base, base ≤ q.acked.ackOff ∧ Tiles text q.off base q.data
  pos : q.pos ≤ q.data.length
  spent : ∀ b ∈ q.data.take q.pos, b.spent = true
  kept : q.acked.Kept
  capacity : q.acked.capacity = 2 ^ 64 - 1
  starts : ∀ r ∈ q.acked.iter, r.1 ≤ text.length
  /-- Only what was accepted is acknowledged. -/
  only : ∀ o, Covers q.acked.iter o → o < text.length

variable {text : Bytes} {q : SendQueue}

theorem Sound.ackOff_le (h : q.Sound text) : q.acked.ackOff ≤ text.length := by
  by_contra hlt
  have hcov := (RangeSet.le_ackOff_iff h.kept.tidy).1 (Nat.le_refl _) text.length (Nat.not_le.1 hlt)
  exact Nat.lt_irrefl _ (h.only _ hcov)

theorem Sound.covers (h : q.Sound text) {o : Nat} (ho : o < q.acked.ackOff) : Covers q.acked.iter o :=
  (RangeSet.le_ackOff_iff h.kept.tidy).1 (Nat.le_refl _) o ho

/-- What a write does. -/
structure Wrote (text : Bytes) (q q' : SendQueue) (n : Nat) : Prop where
  sound : q'.Sound text
  acked : q'.acked = q.acked
  pends : ∀ o, Pends q'.data o ↔ Pends q.data o ∨ (q.off ≤ o ∧ o < q.off + n)
  /-- Nothing is accepted behind the end. -/
  ended : ∀ f, q.finOff = some f → n = 0 ∧ q'.finOff = some f

@[simp] theorem setFin_data (fin : Bool) (n : Nat) : (q.setFin fin n).data = q.data := by
  cases fin <;> rfl

@[simp] theorem setFin_off (fin : Bool) (n : Nat) : (q.setFin fin n).off = q.off := by
  cases fin <;> rfl

@[simp] theorem setFin_acked (fin : Bool) (n : Nat) : (q.setFin fin n).acked = q.acked := by
  cases fin <;> rfl

theorem Sound.setFin (h : q.Sound text) {fin : Bool} {n : Nat} (hn : fin = true → n = text.length) :
    (q.setFin fin n).Sound text := by
  cases fin with
  | false => exact h
  | true =>
      refine { h with fin := ?_ }
      intro f hf
      cases hf
      exact hn rfl

/-- Bytes are queued behind the others. -/
theorem Sound.queue (h : q.Sound text) {bytes : Bytes} (hopen : q.finOff = none)
    (hroom : bytes.length ≤ q.maxData - q.off) :
    { q with
      data := q.data ++ cutUp 4096 bytes.length q.off bytes
      off := q.off + bytes.length }.Sound (text ++ bytes) := by
  have hlen : (text ++ bytes).length = text.length + bytes.length := List.length_append
  have hoff := h.off
  have hcredit := h.credit
  have hpos := h.pos
  have hpiece : bytes <+: (text ++ bytes).drop q.off := by
    rw [hoff, List.drop_left]
  have hcut : Tiles (text ++ bytes) (q.off + bytes.length) q.off (cutUp 4096 bytes.length q.off bytes) :=
    cutUp_tiles (by decide) (Nat.le_refl _) hpiece
  obtain ⟨base, hbase, htiles⟩ := h.tiles
  refine ⟨?_, ?_, h.limit, ?_, ⟨base, hbase, htiles.grow.append hcut⟩, ?_, ?_, h.kept, h.capacity, ?_, ?_⟩
  · show q.off + bytes.length = (text ++ bytes).length
    omega
  · show q.off + bytes.length ≤ q.maxData
    omega
  · intro f hf
    rw [show q.finOff = some f from hf] at hopen
    cases hopen
  · show q.pos ≤ (q.data ++ cutUp 4096 bytes.length q.off bytes).length
    rw [List.length_append]
    omega
  · show ∀ b ∈ (q.data ++ cutUp 4096 bytes.length q.off bytes).take q.pos, b.spent = true
    rw [List.take_append_of_le_length hpos]
    exact h.spent
  · intro r hr
    exact (h.starts r hr).trans (by omega)
  · intro o ho
    exact (h.only o ho).trans_le (by omega)

theorem Sound.write (h : q.Sound text) {bytes : Bytes} {fin : Bool} {q' : SendQueue} {n : Nat}
    (hw : q.write bytes fin = .ok (q', n)) : Wrote (text ++ bytes.take n) q q' n := by
  have hoff := h.off
  have hack := h.ackOff_le
  simp only [SendQueue.write, setFin_acked, setFin_data, setFin_off] at hw
  split at hw
  · cases hw
  next hopen =>
    -- behind a final size that is known nothing can be written
    have hknown : ∀ f, q.finOff = some f → bytes = [] := by
      intro f hf
      have hlen := h.fin f hf
      rw [hf, Option.any_some, Bool.not_eq_true, Bool.or_eq_false_iff, decide_eq_false_iff_not] at hopen
      refine List.length_eq_zero_iff.1 ?_
      omega
    have hkeep : ∀ f, q.finOff = some f →
        (q.setFin (fin && decide (bytes.length ≤ q.maxData - q.off)) (q.off + bytes.length)).finOff =
          some f := by
      intro f hf
      have hlen := h.fin f hf
      rw [SendQueue.setFin, hknown f hf]
      split
      · rw [List.length_nil, Nat.add_zero, hoff, hlen]
      · exact hf
    split at hw
    next hnone =>
      -- nothing is queued
      cases hw
      rw [List.take_zero, List.append_nil]
      refine ⟨h.setFin fun hfin => ?_, setFin_acked _ _, fun o => ?_, fun f hf => ⟨rfl, hkeep f hf⟩⟩
      · rw [Bool.and_eq_true, decide_eq_true_eq] at hfin
        omega
      · rw [setFin_data]
        exact ⟨.inl, fun ho => ho.elim id fun hin => by omega⟩
    next hsome =>
      cases hw
      obtain ⟨-, hpos⟩ := not_or.1 hsome
      have hnofin : q.finOff = none := by
        refine Option.eq_none_iff_forall_ne_some.2 fun f hf => hpos ?_
        rw [hknown f hf, List.length_nil, Nat.zero_min]
      generalize hn : min bytes.length (q.maxData - q.off) = n at hpos ⊢
      have hlen : (bytes.take n).length = n := by
        rw [List.length_take]
        omega
      have hqueued := h.queue hnofin (show (bytes.take n).length ≤ q.maxData - q.off by omega)
      rw [hlen] at hqueued
      refine ⟨?_, rfl, fun o => ?_, fun f hf => ?_⟩
      · -- the final size and the bytes are set in either order
        have hend : (fin && decide (bytes.length ≤ q.maxData - q.off)) = true →
            q.off + bytes.length = (text ++ bytes.take n).length := by
          intro hfin
          rw [Bool.and_eq_true, decide_eq_true_eq] at hfin
          rw [List.length_append, hlen]
          omega
        have hfinal := hqueued.setFin hend
        generalize (fin && decide (bytes.length ≤ q.maxData - q.off)) = b at hfinal ⊢
        cases b with
        | false => exact hfinal
        | true => exact hfinal
      · rw [pends_append, cutUp_pends (by decide) hlen.le, hlen]
      · rw [hf] at hnofin
        cases hnofin

/-- What an emit does. -/
structure Sent (text : Bytes) (cap : Nat) (q : SendQueue) (frame : RangeBuf) (q' : SendQueue) : Prop where
  sound : q'.Sound text
  cut : Cut text frame
  room : frame.data.length ≤ cap
  acked : q'.acked = q.acked
  finOff : q'.finOff = q.finOff
  /-- The frame is what is no more to be sent. -/
  pends : ∀ o, Pends q.data o ↔ frame.Has o ∨ Pends q'.data o
  apart : ∀ o, frame.Has o → ¬ Pends q'.data o
  /-- The FIN goes with the last byte. -/
  fin : frame.fin = true ↔ q.finOff = some frame.maxOff
  /-- The frame begins with the first byte that is to be sent. -/
  front : ∀ o, Pends q.data o → frame.off ≤ o
  /-- Where there is something to be sent, something is sent. -/
  some : 0 < cap → (∃ o, Pends q.data o) → frame.data ≠ []

/-- What is to be sent lies behind the position. -/
theorem Sound.pends_drop (h : q.Sound text) {o : Nat} : Pends q.data o ↔ Pends (q.data.drop q.pos) o := by
  have hnone : ¬ Pends (q.data.take q.pos) o := not_pends h.spent
  conv_lhs => rw [← List.take_append_drop q.pos q.data, pends_append]
  exact or_iff_right hnone

theorem Sound.emit (h : q.Sound text) (cap : Nat) : Sent text cap q (q.emit cap).1 (q.emit cap).2 := by
  obtain ⟨base, hbase, htiles⟩ := h.tiles
  obtain ⟨mid, hfront, hrest⟩ := (show Tiles text q.off base (q.data.take q.pos ++ q.data.drop q.pos) by
    rwa [List.take_append_drop]).split
  have hemits : Emits text q.off mid q.offFront cap (q.data.drop q.pos)
      (emitFrom q.off q.maxData (q.data.drop q.pos) q.offFront cap) := emitFrom_emits hrest q.offFront cap
  have hle : q.offFront ≤ q.off := hrest.base_le_frontOf.2
  have hoff := h.off
  have htake : (q.data.take q.pos).length = q.pos := List.length_take_of_le h.pos
  have hmax : q.offFront + (emitFrom q.off q.maxData (q.data.drop q.pos) q.offFront cap).1.length ≤
      text.length := by
    have hlen := hemits.piece.length_le
    rw [List.length_drop] at hlen
    omega
  have hwithin := hemits.within
  have hpends : ∀ o, Pends (q.data.take q.pos ++
      (emitFrom q.off q.maxData (q.data.drop q.pos) q.offFront cap).2.1) o ↔
        Pends (emitFrom q.off q.maxData (q.data.drop q.pos) q.offFront cap).2.1 o := by
    intro o
    rw [pends_append]
    exact or_iff_right (not_pends h.spent)
  refine ⟨⟨hoff, h.credit, h.limit, h.fin, ⟨base, hbase, hfront.append hemits.tiles⟩, ?_, ?_, h.kept,
    h.capacity, h.starts, h.only⟩, ⟨hmax, hemits.piece, ?_⟩, hemits.room, rfl, rfl, fun o => ?_,
    fun o ho hp => ?_, ?_, fun o ho => ?_, fun hcap hsome => ?_⟩
  · show q.pos + _ ≤ (q.data.take q.pos ++ _).length
    rw [List.length_append, htake]
    omega
  · show ∀ b ∈ (q.data.take q.pos ++ _).take (q.pos + _), b.spent = true
    intro b hb
    have hsum : q.pos + (emitFrom q.off q.maxData (q.data.drop q.pos) q.offFront cap).2.2 =
        (q.data.take q.pos).length + (emitFrom q.off q.maxData (q.data.drop q.pos) q.offFront cap).2.2 := by
      rw [htake]
    rw [hsum, List.take_length_add_append] at hb
    rcases List.mem_append.1 hb with hb | hb
    · exact h.spent b hb
    · exact hemits.spent b hb
  · intro hfin
    exact h.fin _ (beq_iff_eq.1 hfin)
  · rw [h.pends_drop, hemits.pends o]
    exact or_congr_right (hpends o).symm
  · exact hemits.sent o ho.1 ho.2 ((hpends o).1 hp)
  · exact beq_iff_eq
  · exact hrest.frontOf_le (h.pends_drop.1 ho)
  · obtain ⟨o, ho⟩ := hsome
    have hlt : frontOf q.off (q.data.drop q.pos) < q.off := by
      have hfirst := hrest.frontOf_le (h.pends_drop.1 ho)
      obtain ⟨b, hb, -, hhi⟩ := ho
      have hend := (htiles.bounds b hb).2
      omega
    exact emitFrom_ne_nil hrest h.credit hlt hcap

/-- What an acknowledgement does. -/
structure Acked (text : Bytes) (off len : Nat) (q q' : SendQueue) : Prop where
  sound : q'.Sound text
  finOff : q'.finOff = q.finOff
  acked : q'.acked = q.acked.insert (off, off + len)
  covers : ∀ o, Covers q'.acked.iter o ↔ (off ≤ o ∧ o < off + len) ∨ Covers q.acked.iter o
  /-- What was acknowledged in front need not be sent any more. -/
  pends : ∀ o, Pends q.data o → Pends q'.data o ∨ Covers q'.acked.iter o
  only : ∀ o, Pends q'.data o → Pends q.data o

/-- An acknowledgement of what was accepted. -/
theorem Sound.insert (h : q.Sound text) {off len : Nat} (hle : off + len ≤ text.length) :
    (q.acked.insert (off, off + len)).iter = place (off, off + len) q.acked.iter ∧
      { q with acked := q.acked.insert (off, off + len) }.Sound text := by
  have hoff := h.off
  have hcredit := h.credit
  have hlimit := h.limit
  have hitem : (off, off + len).1 ≤ (off, off + len).2 := Nat.le_add_right _ _
  have hstep := h.kept.insert (h.capacity ▸ by decide) hitem
  have hroom : q.acked.iter.length < q.acked.capacity := by
    have hcount := h.kept.tidy.length_le (b := 0) fun r hr => ⟨Nat.zero_le _, h.starts r hr⟩
    rw [h.capacity]
    omega
  have hiter := hstep.whole hroom
  have hcovers : ∀ o, Covers (q.acked.insert (off, off + len)).iter o →
      (off ≤ o ∧ o < off + len) ∨ Covers q.acked.iter o := fun o ho => hstep.covers h.kept hitem ho
  have hmono : q.acked.ackOff ≤ (q.acked.insert (off, off + len)).ackOff := by
    rw [RangeSet.le_ackOff_iff hstep.kept.tidy]
    intro o ho
    rw [hiter, covers_place h.kept.tidy hitem]
    exact .inr (h.covers ho)
  obtain ⟨base, hbase, htiles⟩ := h.tiles
  refine ⟨hiter, h.off, h.credit, h.limit, h.fin, ⟨base, hbase.trans hmono, htiles⟩, h.pos, h.spent,
    hstep.kept, RangeSet.capacity_insert.trans h.capacity, fun r hr => ?_, fun o ho => ?_⟩
  · change r ∈ (q.acked.insert (off, off + len)).iter at hr
    rw [hiter] at hr
    rcases Ranges.place_starts r hr with heq | ⟨s, hs, heq⟩
    · rw [heq]
      exact (Nat.le_add_right _ _).trans hle
    · rw [← heq]
      exact h.starts s hs
  · rcases hcovers o ho with hin | hin
    · omega
    · exact h.only o hin

theorem Sound.ackAndDrop (h : q.Sound text) {off len : Nat} (hle : off + len ≤ text.length) :
    Acked text off len q (q.ackAndDrop off len) := by
  obtain ⟨hiter, hs⟩ := h.insert hle
  have hitem : (off, off + len).1 ≤ (off, off + len).2 := Nat.le_add_right _ _
  have hcovers : ∀ o, Covers (q.acked.insert (off, off + len)).iter o ↔
      (off ≤ o ∧ o < off + len) ∨ Covers q.acked.iter o := fun o => by
    rw [hiter, covers_place h.kept.tidy hitem]
    exact Iff.rfl
  rw [SendQueue.ackAndDrop]
  dsimp only
  split
  · exact ⟨hs, rfl, rfl, hcovers, fun o ho => .inl ho, fun o ho => ho⟩
  · generalize hacked : q.acked.insert (off, off + len) = acked at *
    -- the chunks that go end in what was acknowledged
    have hgone : ∀ b ∈ q.data.take
        (q.data.takeWhile fun b => decide (b.off < acked.ackOff ∧ b.maxOff ≤ acked.ackOff)).length,
        b.maxOff ≤ acked.ackOff := by
      rw [← List.prefix_iff_eq_take.1 (List.takeWhile_prefix _)]
      intro b hb
      have hcond := List.mem_takeWhile_imp hb
      rw [decide_eq_true_eq] at hcond
      exact hcond.2
    generalize (q.data.takeWhile fun b => decide (b.off < acked.ackOff ∧ b.maxOff ≤ acked.ackOff)).length = n
      at hgone ⊢
    obtain ⟨base, hbase, htiles⟩ := hs.tiles
    change Tiles text q.off base q.data at htiles
    change base ≤ acked.ackOff at hbase
    have hparts := List.take_append_drop n q.data
    rw [← hparts] at htiles
    obtain ⟨mid, hfirst, hrest⟩ := htiles.split
    have hmid : mid ≤ acked.ackOff := by
      rcases hfirst.last with heq | ⟨b, hb, heq⟩
      · exact heq ▸ hbase
      · exact heq ▸ hgone b hb
    have hpos := h.pos
    refine ⟨⟨hs.off, hs.credit, hs.limit, hs.fin, ⟨mid, hmid, hrest⟩, ?_, ?_, hs.kept, hs.capacity,
      hs.starts, hs.only⟩, rfl, hacked.symm, hcovers, fun o ho => ?_, fun o ho => ?_⟩
    · show q.pos - n ≤ (q.data.drop n).length
      rw [List.length_drop]
      omega
    · show ∀ b ∈ (q.data.drop n).take (q.pos - n), b.spent = true
      intro b hb
      refine h.spent b ?_
      rw [← List.drop_take] at hb
      exact List.mem_of_mem_drop hb
    · rw [← hparts, pends_append] at ho
      rcases ho with ⟨b, hb, -, hhi⟩ | ho
      · exact .inr (hs.covers (hhi.trans_le (hgone b hb)))
      · exact .inl ho
    · rw [← hparts, pends_append]
      exact .inr ho

/-- What a loss does. -/
structure Lost (text : Bytes) (off len : Nat) (q q' : SendQueue) : Prop where
  sound : q'.Sound text
  acked : q'.acked = q.acked
  finOff : q'.finOff = q.finOff
  /-- What was lost is to be sent again, as far as it was not acknowledged. -/
  again : ∀ o, off ≤ o → o < off + len → Pends q'.data o ∨ Covers q.acked.iter o
  pends : ∀ o, Pends q.data o → Pends q'.data o
  /-- Nothing else is. -/
  only : ∀ o, Pends q'.data o → Pends q.data o ∨ (off ≤ o ∧ o < off + len)

theorem Sound.retransmit (h : q.Sound text) {off len : Nat} (hle : off + len ≤ text.length) :
    Lost text off len q (q.retransmit off len) := by
  have hoff := h.off
  obtain ⟨base, hbase, htiles⟩ := h.tiles
  rw [SendQueue.retransmit]
  split
  next hnone =>
    refine ⟨h, rfl, rfl, fun o hlo hhi => .inr (h.covers ?_), fun o ho => ho, fun o ho => .inl ho⟩
    rcases hnone with hnil | hacked
    · rw [hnil] at htiles
      cases htiles
      omega
    · omega
  next =>
    dsimp only
    have hrew := rewind_rewinds (Nat.le_add_right off len) htiles 0 q.pos
    have hshort := hrew.le
    have hlonger := hrew.longer
    have hpos := h.pos
    refine ⟨⟨h.off, h.credit, h.limit, h.fin, ⟨base, hbase, hrew.tiles⟩, ?_, ?_, h.kept, h.capacity,
      h.starts, h.only⟩, rfl, rfl, fun o hlo hhi => ?_, fun o ho => (hrew.pends o).2 (.inl ho), fun o ho => ?_⟩
    · exact hshort.trans (hpos.trans hlonger)
    · exact hrew.spent h.spent
    · by_cases hb : base ≤ o
      · exact .inl ((hrew.pends o).2 (.inr ⟨hlo, hhi, hb, by omega⟩))
      · exact .inr (h.covers (by omega))
    · rcases (hrew.pends o).1 ho with hin | hin
      · exact .inl hin
      · exact .inr ⟨hin.1, hin.2.1⟩

end SendQueue

/-! ## Runs -/

/-- A stream as its writer sees it. -/
structure Sender where
  buf : SendQueue
  /-- The bytes that were accepted. -/
  text : Bytes := []
  /-- The frames that were sent. -/
  frames : List RangeBuf := []
  /-- Those of them that were not declared lost. -/
  live : List RangeBuf := []

/-- What happens to a stream. -/
inductive SenderOp where
  | write (bytes : Bytes) (fin : Bool)
  | emit (cap : Nat)
  /-- One of the frames sent is acknowledged, though it may have been declared lost. -/
  | ack (i : Nat)
  /-- One of the frames on its way is declared lost. -/
  | lose (i : Nat)
  /-- The peer gives more credit. -/
  | credit (limit : Nat)

namespace Sender

def step (s : Sender) : SenderOp → Sender
  | .write bytes fin =>
      match s.buf.write bytes fin with
      | .ok (buf, n) => { s with buf := buf, text := s.text ++ bytes.take n }
      | .error _ => s
  | .emit cap =>
      let sent := s.buf.emit cap
      { s with buf := sent.2, frames := s.frames ++ [sent.1], live := s.live ++ [sent.1] }
  | .ack i =>
      match s.frames[i]? with
      | some f => { s with buf := s.buf.ackAndDrop f.off f.data.length }
      | none => s
  | .lose i =>
      match s.live[i]? with
      | some f => { s with buf := s.buf.retransmit f.off f.data.length, live := s.live.eraseIdx i }
      | none => s
  | .credit limit => { s with buf := { s.buf with maxData := max s.buf.maxData limit } }

/-- Offsets fit into the integers of the wire format. -/
def Fits : SenderOp → Prop
  | .credit limit => limit < 2 ^ 62
  | _ => True

/-- Every byte that was accepted is accounted for. -/
structure Accounts (s : Sender) : Prop where
  sound : s.buf.Sound s.text
  /-- Every frame is a piece of what was accepted, and a FIN is at its end. -/
  cut : ∀ f ∈ s.frames, Cut s.text f
  ended : ∀ f ∈ s.frames, f.fin = true → s.buf.finOff = some s.text.length
  live : ∀ f ∈ s.live, f ∈ s.frames
  /-- A byte was acknowledged, or is to be sent, or is on its way. -/
  whole : ∀ o, o < s.text.length →
    Covers s.buf.acked.iter o ∨ Pends s.buf.data o ∨ ∃ f ∈ s.live, f.Has o
  /-- A byte on its way is so once, and is not sent again before it is lost. -/
  apart : s.live.Pairwise fun f g => ∀ o, ¬ (f.Has o ∧ g.Has o)
  idle : ∀ f ∈ s.live, ∀ o, f.Has o → ¬ Pends s.buf.data o
  /-- Only what was sent is acknowledged. -/
  acked : ∀ o, Covers s.buf.acked.iter o → ∃ f ∈ s.frames, f.Has o

variable {s : Sender}

theorem Accounts.start {limit : Nat} (hlimit : limit < 2 ^ 62) :
    Accounts { buf := { maxData := limit } } where
  sound :=
    { off := rfl
      credit := Nat.zero_le _
      limit := hlimit
      fin := by
        intro f hf
        cases hf
      tiles := ⟨0, Nat.zero_le _, .nil⟩
      pos := Nat.le_refl _
      spent := by
        intro b hb
        exact absurd hb List.not_mem_nil
      kept := .new
      capacity := rfl
      starts := by
        intro r hr
        exact absurd hr List.not_mem_nil
      only := by
        intro o ho
        exact absurd ho Ranges.covers_nil }
  cut f hf := absurd hf List.not_mem_nil
  ended f hf := absurd hf List.not_mem_nil
  live f hf := absurd hf List.not_mem_nil
  whole o ho := absurd ho (Nat.not_lt_zero o)
  apart := .nil
  idle f hf := absurd hf List.not_mem_nil
  acked o ho := absurd ho Ranges.covers_nil

theorem Accounts.write (h : s.Accounts) (bytes : Bytes) (fin : Bool) :
    (s.step (.write bytes fin)).Accounts := by
  rw [step]
  split
  next buf n hok =>
    have hw := h.sound.write hok
    have hoff := h.sound.off
    have hlen : (s.text ++ bytes.take n).length = s.text.length + (bytes.take n).length :=
      List.length_append
    have htake : (bytes.take n).length ≤ n := List.length_take_le _ _
    have hgrown := hw.sound.off
    -- behind a FIN nothing more was accepted
    have hended : ∀ f ∈ s.frames, f.fin = true →
        n = 0 ∧ buf.finOff = some (s.text ++ bytes.take n).length := by
      intro f hf hfin
      obtain ⟨hzero, hkeep⟩ := hw.ended _ (h.ended f hf hfin)
      refine ⟨hzero, ?_⟩
      rw [hkeep, hzero, List.take_zero, List.append_nil]
    refine ⟨hw.sound, fun f hf => ?_, fun f hf hfin => (hended f hf hfin).2, h.live, fun o ho => ?_,
      h.apart, fun f hf o ho hp => ?_, fun o ho => ?_⟩
    · have hcut := h.cut f hf
      refine ⟨hcut.le.trans (hlen ▸ Nat.le_add_right _ _),
        hcut.data.trans ((List.prefix_append _ _).drop _), fun hfin => ?_⟩
      rw [(hended f hf hfin).1, List.take_zero, List.append_nil]
      exact hcut.fin hfin
    · change o < (s.text ++ bytes.take n).length at ho
      show Covers buf.acked.iter o ∨ Pends buf.data o ∨ _
      rw [hw.acked, hw.pends o]
      by_cases hold : o < s.text.length
      · rcases h.whole o hold with hin | hin | hin
        · exact .inl hin
        · exact .inr (.inl (.inl hin))
        · exact .inr (.inr hin)
      · exact .inr (.inl (.inr (by omega)))
    · rcases (hw.pends o).1 hp with hin | hin
      · exact h.idle f hf o ho hin
      · have hle := (h.cut f (h.live f hf)).le
        have hlt := ho.2
        omega
    · change Covers buf.acked.iter o at ho
      rw [hw.acked] at ho
      exact h.acked o ho
  · exact h

theorem Accounts.emit (h : s.Accounts) (cap : Nat) : (s.step (.emit cap)).Accounts := by
  have hs := h.sound.emit cap
  rw [step]
  generalize s.buf.emit cap = sent at hs ⊢
  obtain ⟨frame, buf⟩ := sent
  have hfin : frame.fin = true → buf.finOff = some s.text.length := by
    intro hfin
    rw [hs.finOff, hs.fin.1 hfin, hs.cut.fin hfin]
  refine ⟨hs.sound, fun f hf => ?_, fun f hf hfin' => ?_, fun f hf => ?_, fun o ho => ?_, ?_,
    fun f hf o ho hp => ?_, fun o ho => ?_⟩
  · rcases List.mem_append.1 hf with hf | hf
    · exact h.cut f hf
    · exact List.mem_singleton.1 hf ▸ hs.cut
  · rcases List.mem_append.1 hf with hf | hf
    · exact hs.finOff.trans (h.ended f hf hfin')
    · obtain rfl := List.mem_singleton.1 hf
      exact hfin hfin'
  · rcases List.mem_append.1 hf with hf | hf
    · exact List.mem_append_left _ (h.live f hf)
    · exact List.mem_append_right _ hf
  · show Covers buf.acked.iter o ∨ Pends buf.data o ∨ ∃ f ∈ s.live ++ [frame], f.Has o
    rw [hs.acked]
    rcases h.whole o ho with hin | hin | ⟨f, hf, hin⟩
    · exact .inl hin
    · rcases (hs.pends o).1 hin with hsent | hleft
      · exact .inr (.inr ⟨frame, List.mem_append_right _ (List.mem_singleton_self frame), hsent⟩)
      · exact .inr (.inl hleft)
    · exact .inr (.inr ⟨f, List.mem_append_left _ hf, hin⟩)
  · show (s.live ++ [frame]).Pairwise _
    refine List.pairwise_append.2 ⟨h.apart, List.pairwise_singleton _ _, fun f hf g hg o hboth => ?_⟩
    obtain rfl := List.mem_singleton.1 hg
    exact h.idle f hf o hboth.1 ((hs.pends o).2 (.inl hboth.2))
  · rcases List.mem_append.1 hf with hf | hf
    · exact h.idle f hf o ho ((hs.pends o).2 (.inr hp))
    · exact hs.apart o (List.mem_singleton.1 hf ▸ ho) hp
  · rw [show buf.acked = s.buf.acked from hs.acked] at ho
    obtain ⟨f, hf, hin⟩ := h.acked o ho
    exact ⟨f, List.mem_append_left _ hf, hin⟩

theorem Accounts.ack (h : s.Accounts) (i : Nat) : (s.step (.ack i)).Accounts := by
  rw [step]
  split
  next f hf =>
    have hmem : f ∈ s.frames := List.mem_of_getElem? hf
    have hle : f.off + f.data.length ≤ s.text.length := (h.cut f hmem).le
    have ha := h.sound.ackAndDrop hle
    generalize s.buf.ackAndDrop f.off f.data.length = buf at ha ⊢
    refine ⟨ha.sound, h.cut, fun g hg hfin => ha.finOff.trans (h.ended g hg hfin), h.live, fun o ho => ?_,
      h.apart, fun g hg o hin hp => h.idle g hg o hin (ha.only o hp), fun o ho => ?_⟩
    · rcases h.whole o ho with hin | hin | hin
      · exact .inl ((ha.covers o).2 (.inr hin))
      · rcases ha.pends o hin with hp | hc
        · exact .inr (.inl hp)
        · exact .inl hc
      · exact .inr (.inr hin)
    · rcases (ha.covers o).1 ho with hin | hin
      · exact ⟨f, hmem, hin⟩
      · exact h.acked o hin
  · exact h

theorem Accounts.lose (h : s.Accounts) (i : Nat) : (s.step (.lose i)).Accounts := by
  rw [step]
  split
  next f hf =>
    obtain ⟨hi, hget⟩ := List.getElem?_eq_some_iff.1 hf
    have hmem : f ∈ s.live := List.mem_of_getElem? hf
    have hle : f.off + f.data.length ≤ s.text.length := (h.cut f (h.live f hmem)).le
    have hl := h.sound.retransmit hle
    have hperm : (f :: s.live.eraseIdx i).Perm s.live := hget ▸ List.getElem_cons_eraseIdx_perm hi
    -- no other frame on its way has bytes of the one that was lost
    have hapart : (f :: s.live.eraseIdx i).Pairwise fun f g => ∀ o, ¬ (f.Has o ∧ g.Has o) :=
      (hperm.pairwise_iff fun hfg o hboth => hfg o ⟨hboth.2, hboth.1⟩).2 h.apart
    have hsub : ∀ g ∈ s.live.eraseIdx i, g ∈ s.live := fun g hg => hperm.subset (List.mem_cons_of_mem _ hg)
    generalize s.buf.retransmit f.off f.data.length = buf at hl ⊢
    refine ⟨hl.sound, h.cut, fun g hg hfin => hl.finOff.trans (h.ended g hg hfin),
      fun g hg => h.live g (hsub g hg), fun o ho => ?_, hapart.of_cons, fun g hg o hin hp => ?_, fun o ho => ?_⟩
    · show Covers buf.acked.iter o ∨ Pends buf.data o ∨ ∃ g ∈ s.live.eraseIdx i, g.Has o
      rw [hl.acked]
      rcases h.whole o ho with hin | hin | ⟨g, hg, hin⟩
      · exact .inl hin
      · exact .inr (.inl (hl.pends o hin))
      · rcases List.mem_cons.1 (hperm.symm.subset hg) with rfl | hg
        · rcases hl.again o hin.1 hin.2 with hp | hc
          · exact .inr (.inl hp)
          · exact .inl hc
        · exact .inr (.inr ⟨g, hg, hin⟩)
    · rcases hl.only o hp with hold | hlost
      · exact h.idle g (hsub g hg) o hin hold
      · exact List.rel_of_pairwise_cons hapart hg o ⟨hlost, hin⟩
    · rw [show buf.acked = s.buf.acked from hl.acked] at ho
      exact h.acked o ho
  · exact h

theorem Accounts.credit (h : s.Accounts) {limit : Nat} (hlimit : limit < 2 ^ 62) :
    (s.step (.credit limit)).Accounts := by
  have hs := h.sound
  refine { h with sound := { hs with credit := ?_, limit := ?_ } }
  · exact hs.credit.trans (Nat.le_max_left _ _)
  · exact max_lt hs.limit hlimit

theorem Accounts.step (h : s.Accounts) {op : SenderOp} (hop : Fits op) : (s.step op).Accounts := by
  cases op with
  | write bytes fin => exact h.write bytes fin
  | emit cap => exact h.emit cap
  | ack i => exact h.ack i
  | lose i => exact h.lose i
  | credit limit => exact h.credit hop

end Sender

/-! ## What a writer can rely on -/

/-- A stream is complete when its end is known and every byte was acknowledged.  The
FIN itself need not be. -/
theorem SendQueue.Sound.isComplete_iff {text : Bytes} {q : SendQueue} (h : q.Sound text) (hne : text ≠ []) :
    q.isComplete = true ↔ q.finOff = some text.length ∧ ∀ o, o < text.length → Covers q.acked.iter o := by
  have hpos : 0 < text.length := List.length_pos_iff.2 hne
  have htidy := h.kept.tidy
  have hstarts := h.starts
  have honly := h.only
  rw [SendQueue.isComplete]
  constructor
  · intro hc
    split at hc
    next f hf =>
      rw [decide_eq_true_eq] at hc
      have heq := h.fin f hf
      refine ⟨hf.trans (congrArg some heq), fun o ho => ?_⟩
      rw [hc]
      exact ⟨(0, f), List.mem_singleton_self _, Nat.zero_le _, heq ▸ ho⟩
    · cases hc
  · rintro ⟨hf, hall⟩
    rw [hf]
    show decide (q.acked.iter = [(0, text.length)]) = true
    rw [decide_eq_true_eq]
    cases hiter : q.acked.iter with
    | nil =>
        have hzero := hall 0 hpos
        rw [hiter] at hzero
        exact absurd hzero Ranges.covers_nil
    | cons r rs =>
        rw [hiter] at htidy hall hstarts honly
        have hfirst : r.1 = 0 := by
          obtain ⟨s, hs, hlo, hhi⟩ := hall 0 hpos
          rcases List.mem_cons.1 hs with rfl | hs
          · exact Nat.le_zero.1 hlo
          · have hgap := htidy.gap s hs
            omega
        have hlast : r.2 = text.length := by
          refine Nat.le_antisymm (Nat.not_lt.1 fun hlt => ?_) (Nat.not_lt.1 fun hlt => ?_)
          · exact Nat.lt_irrefl _ (honly _ ⟨r, List.mem_cons_self, hfirst ▸ Nat.zero_le _, hlt⟩)
          · exact htidy.not_covers_end (hall _ hlt)
        have hrest : rs = [] := by
          refine List.eq_nil_iff_forall_not_mem.2 fun s hs => ?_
          have hgap := htidy.gap s hs
          have hstart := hstarts s (List.mem_cons_of_mem _ hs)
          omega
        rw [hrest, ← hfirst, ← hlast]

namespace Sender

variable {s : Sender}

/-- No byte that was accepted is forgotten. -/
structure Reliable (s : Sender) : Prop where
  accounts : s.Accounts
  /-- As long as a byte is to be sent the stream is scheduled, and a packet with room
  takes the first such byte. -/
  flows : (∃ o, Pends s.buf.data o) → s.buf.flushable = true ∧ ∀ cap, 0 < cap →
    Pends s.buf.data (s.buf.emit cap).1.off ∧ (s.buf.emit cap).1.Has (s.buf.emit cap).1.off ∧
      ∀ o, Pends s.buf.data o → (s.buf.emit cap).1.off ≤ o
  complete : s.text ≠ [] → (s.buf.isComplete = true ↔
    s.buf.finOff = some s.text.length ∧ ∀ o, o < s.text.length → Covers s.buf.acked.iter o)

theorem Accounts.reliable (h : s.Accounts) : s.Reliable := by
  refine ⟨h, fun hsome => ⟨?_, fun cap hcap => ?_⟩, h.sound.isComplete_iff⟩
  · obtain ⟨o, ho⟩ := hsome
    have hcredit := h.sound.credit
    obtain ⟨base, -, htiles⟩ := h.sound.tiles
    have hdrop := h.sound.pends_drop.1 ho
    obtain ⟨mid, -, hrest⟩ := (show Tiles s.text s.buf.off base (s.buf.data.take s.buf.pos ++
      s.buf.data.drop s.buf.pos) by rwa [List.take_append_drop]).split
    have hfront : s.buf.offFront ≤ o := hrest.frontOf_le hdrop
    obtain ⟨b, hb, -, hhi⟩ := ho
    have hend := (htiles.bounds b hb).2
    rw [SendQueue.flushable, decide_eq_true_eq]
    exact ⟨List.ne_nil_of_mem hb, by omega, by omega⟩
  · have hs := h.sound.emit cap
    have hlt := RangeBuf.off_lt (hs.some hcap hsome)
    have hhas : (s.buf.emit cap).1.Has (s.buf.emit cap).1.off := ⟨Nat.le_refl _, hlt⟩
    exact ⟨(hs.pends _).2 (.inl hhas), hhas, hs.front⟩

/-- However bytes are written, cut into frames, acknowledged and lost, every frame is
a piece of what was accepted, and every byte is acknowledged, on its way or to be sent. -/
theorem loses_nothing {limit : Nat} (hlimit : limit < 2 ^ 62) {ops : List SenderOp}
    (hops : ∀ op ∈ ops, Fits op) : (execute step { buf := { maxData := limit } } ops).Reliable :=
  (execute_invariant (P := fun _ op => Fits op) (I := Accounts) (fun _ _ h hop => h.step hop) (.start hlimit)
    (along_of_forall fun op hop _ => hops op hop)).reliable

/-- A frame is lost and sent again in two parts, and the acknowledgement comes late. -/
def traffic : List SenderOp :=
  [.write [1, 2, 3, 4, 5] false, .emit 4, .emit 4, .lose 0, .emit 3, .write [6] true, .ack 0, .emit 9,
    .emit 9, .ack 1]

theorem loses_nothing_sample : (execute step { buf := { maxData := 9 } } traffic).Reliable :=
  loses_nothing (by decide) (by
    intro op hop
    simp only [traffic, List.mem_cons, List.not_mem_nil, or_false] at hop
    rcases hop with rfl | rfl | rfl | rfl | rfl | rfl | rfl | rfl | rfl | rfl <;> trivial)

/-! ## To the other end -/

theorem mem_frames_step {f : RangeBuf} (hf : f ∈ s.frames) (op : SenderOp) : f ∈ (s.step op).frames := by
  cases op with
  | write bytes fin =>
      rw [step]
      split <;> exact hf
  | emit cap => exact List.mem_append_left _ hf
  | ack i =>
      rw [step]
      split <;> exact hf
  | lose i =>
      rw [step]
      split <;> exact hf
  | credit limit => exact hf

/-- Only an acknowledgement acknowledges. -/
theorem Accounts.acked_step (h : s.Accounts) {op : SenderOp} {o : Nat}
    (ho : Covers (s.step op).buf.acked.iter o) : Covers s.buf.acked.iter o ∨ ∃ i f, op = .ack i ∧ s.frames[i]? = some f ∧ f.Has o := by
  cases op with
  | write bytes fin =>
      rw [Sender.step] at ho
      split at ho
      next buf n hok => exact .inl ((h.sound.write hok).acked ▸ ho)
      · exact .inl ho
  | emit cap => exact .inl ((h.sound.emit cap).acked ▸ ho)
  | ack i =>
      rw [Sender.step] at ho
      split at ho
      next f hf =>
        have hle : f.off + f.data.length ≤ s.text.length := (h.cut f (List.mem_of_getElem? hf)).le
        rcases ((h.sound.ackAndDrop hle).covers o).1 ho with hin | hin
        · exact .inr ⟨i, f, rfl, hf, hin⟩
        · exact .inl hin
      · exact .inl ho
  | lose i =>
      rw [Sender.step] at ho
      split at ho
      next f hf =>
        have hle : f.off + f.data.length ≤ s.text.length :=
          (h.cut f (h.live f (List.mem_of_getElem? hf))).le
        exact .inl ((h.sound.retransmit hle).acked ▸ ho)
      · exact .inl ho
  | credit limit => exact .inl ho

end Sender

theorem Reader.mem_arrived_step {s : Reader} {b : RangeBuf} (hb : b ∈ s.arrived) (op : ReaderOp) :
    b ∈ (s.step op).arrived := by
  cases op with
  | write c =>
      rw [Reader.step]
      split
      · exact List.mem_append_left _ hb
      · exact hb
  | emit cap =>
      rw [Reader.step]
      split <;> exact hb
  | credit limit => exact hb

/-- One direction of a stream, from its writer to its reader. -/
structure Wire where
  send : Sender
  recv : Reader

/-- What happens at either end and in between. -/
inductive WireOp where
  | send (op : SenderOp)
  /-- A frame arrives, whether it did before or was declared lost. -/
  | deliver (i : Nat)
  | read (cap : Nat)
  | credit (limit : Nat)

namespace Wire

/-- A fresh stream, with the credit of its writer and the window of its reader. -/
def start (sendLimit recvLimit : Nat) : Wire :=
  ⟨{ buf := { maxData := sendLimit } }, { buf := { maxData := recvLimit } }⟩

def step (s : Wire) : WireOp → Wire
  | .send op => { s with send := s.send.step op }
  | .deliver i =>
      match s.send.frames[i]? with
      | some f => { s with recv := s.recv.step (.write f) }
      | none => s
  | .read cap => { s with recv := s.recv.step (.emit cap) }
  | .credit limit => { s with recv := s.recv.step (.credit limit) }

/-- Only what arrived is acknowledged. -/
def Heard (s : Wire) : WireOp → Prop
  | .send (.ack i) => ∀ f ∈ s.send.frames[i]?, f ∈ s.recv.arrived
  | .send op => Sender.Fits op
  | _ => True

instance decidableHeard (s : Wire) : ∀ op, Decidable (s.Heard op)
  | .send (.ack i) => inferInstanceAs (Decidable (∀ f ∈ s.send.frames[i]?, f ∈ s.recv.arrived))
  | .send (.credit limit) => inferInstanceAs (Decidable (limit < 2 ^ 62))
  | .send (.write _ _) | .send (.emit _) | .send (.lose _) => .isTrue trivial
  | .deliver _ | .read _ | .credit _ => .isTrue trivial

/-- What the two ends have in common. -/
structure Shared (limit : Nat) (s : Wire) : Prop where
  accounts : s.send.Accounts
  /-- The reader saw nothing but frames of the writer. -/
  replay : ∃ ops, s.recv = execute Reader.step { buf := { maxData := limit } } ops ∧
    ∀ b, ReaderOp.write b ∈ ops → b ∈ s.send.frames
  heard : ∀ o, Covers s.send.buf.acked.iter o → ∃ f ∈ s.recv.arrived, f.Has o

variable {limit : Nat} {s : Wire}

theorem Shared.start {sendLimit : Nat} (hlimit : sendLimit < 2 ^ 62) :
    Shared limit (Wire.start sendLimit limit) where
  accounts := .start hlimit
  replay := by
    refine ⟨[], rfl, fun b hb => ?_⟩
    exact absurd hb List.not_mem_nil
  heard := by
    intro o ho
    exact absurd ho Ranges.covers_nil

theorem Shared.recv (h : s.Shared limit) {op : ReaderOp} (hop : ∀ b, op = .write b → b ∈ s.send.frames) :
    ({ s with recv := s.recv.step op } : Wire).Shared limit := by
  obtain ⟨ops, hrecv, hframes⟩ := h.replay
  refine ⟨h.accounts, ⟨ops ++ [op], ?_, fun b hb => ?_⟩, fun o ho => ?_⟩
  · rw [execute_append, ← hrecv]
    rfl
  · rcases List.mem_append.1 hb with hb | hb
    · exact hframes b hb
    · exact hop b (List.mem_singleton.1 hb).symm
  · obtain ⟨f, hf, hin⟩ := h.heard o ho
    exact ⟨f, Reader.mem_arrived_step hf op, hin⟩

theorem Shared.send (h : s.Shared limit) {op : SenderOp} (hop : s.Heard (.send op)) :
    ({ s with send := s.send.step op } : Wire).Shared limit := by
  obtain ⟨ops, hrecv, hframes⟩ := h.replay
  have hfits : Sender.Fits op := by
    cases op with
    | credit limit => exact hop
    | _ => trivial
  refine ⟨h.accounts.step hfits, ⟨ops, hrecv, fun b hb => Sender.mem_frames_step (hframes b hb) op⟩,
    fun o ho => ?_⟩
  rcases h.accounts.acked_step ho with hold | ⟨i, f, rfl, hf, hin⟩
  · exact h.heard o hold
  · exact ⟨f, hop f hf, hin⟩

theorem Shared.step (h : s.Shared limit) {op : WireOp} (hop : s.Heard op) : (s.step op).Shared limit := by
  cases op with
  | send op => exact h.send hop
  | deliver i =>
      rw [Wire.step]
      split
      next f hf =>
        refine h.recv fun b hb => ?_
        cases hb
        exact List.mem_of_getElem? hf
      · exact h
  | read cap => exact h.recv fun b hb => by cases hb
  | credit limit => exact h.recv fun b hb => by cases hb

/-- The text comes to the other end. -/
structure Delivered (s : Wire) : Prop where
  /-- What is read there is what was accepted here, as far as it arrived without a gap. -/
  read : s.recv.Reassembled s.send.text
  /-- Once the stream is complete, all of it was read or can be. -/
  complete : s.send.text ≠ [] → s.send.buf.isComplete = true →
    s.send.buf.finOff = some s.send.text.length ∧ s.recv.out ++ s.recv.buf.readable = s.send.text

theorem Shared.delivered (h : s.Shared limit) : s.Delivered := by
  obtain ⟨ops, hrecv, hframes⟩ := h.replay
  have hread : s.recv.Reassembled s.send.text := by
    rw [hrecv]
    refine Reader.reassembles s.send.text limit fun op hop => ?_
    cases op with
    | write b => exact h.accounts.cut b (hframes b hop)
    | _ => trivial
  refine ⟨hread, fun hne hcomplete => ?_⟩
  obtain ⟨hfin, hall⟩ := (h.accounts.sound.isComplete_iff hne).1 hcomplete
  exact ⟨hfin, hread.next.eq_of_length_le (hread.reaches _ fun o ho => h.heard o (hall o ho))⟩

/-- Whatever is lost, comes twice or out of order on the way, and however writes,
reads, acknowledgements and losses interleave: the reader reads a front of what the
writer wrote, without a gap, and the writer takes the stream for complete only when
the reader can read all of it. -/
theorem reliably_carried {sendLimit recvLimit : Nat} (hlimit : sendLimit < 2 ^ 62) {ops : List WireOp}
    (hops : Along step Heard (start sendLimit recvLimit) ops) :
    (execute step (start sendLimit recvLimit) ops).Delivered :=
  (execute_invariant (P := Heard) (I := Shared recvLimit) (fun _ _ h hop => h.step hop) (.start hlimit)
    hops).delivered

/-- The first frame is lost; the second one arrives twice and before it. -/
def crossing : List WireOp :=
  [.send (.write [1, 2, 3, 4, 5] false), .send (.emit 3), .send (.emit 3), .deliver 1, .deliver 1,
    .send (.lose 0), .send (.write [6] true), .send (.emit 4), .read 9, .send (.emit 4), .deliver 2, .read 9,
    .deliver 3, .read 9, .send (.ack 1), .send (.ack 2), .send (.ack 3)]

theorem reliably_carried_sample :
    (execute step (start 9 9) crossing).Delivered ∧
      (execute step (start 9 9) crossing).recv.out = [1, 2, 3, 4, 5, 6] ∧
      (execute step (start 9 9) crossing).send.buf.isComplete = true :=
  ⟨reliably_carried (by decide) (by decide), by decide, by decide⟩

-- A stream may be complete though no FIN arrived: the end was written behind the last
-- byte was sent, and only the bytes were acknowledged.
example :
    let s := execute step (start 9 9) [.send (.write [1] false), .send (.emit 9), .send (.write [] true),
      .send (.emit 9), .deliver 0, .send (.ack 0)]
    s.send.buf.isComplete = true ∧ s.recv.buf.finOff = none := by
  decide

end Wire

end RWebTransport.Quic
