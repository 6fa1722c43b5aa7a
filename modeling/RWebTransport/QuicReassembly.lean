import RWebTransport.Quic
import RWebTransport.Lib.Run

/-!
# Reassembly of stream bytes

What quiche does below the receive buffers of `Quic` (`stream/recv_buf.rs`,
`range_buf.rs`): STREAM frames come in any order, some twice and some
overlapping, and are kept in a map from the offset behind a chunk to the chunk.
However a peer cuts its text, what is read is the text from its beginning,
nothing that arrived is lost, and the peer is not accused of a wrong final size.
-/

namespace RWebTransport.Quic

/-- `RangeBuf`: the bytes of a stream from an offset on. -/
structure RangeBuf where
  off : Nat
  data : Bytes
  /-- The chunk holds the end of the stream. -/
  fin : Bool
deriving DecidableEq, Repr

namespace RangeBuf

/-- `max_off`. -/
def maxOff (b : RangeBuf) : Nat := b.off + b.data.length

/-- `split_off`: what stays in front of the index, and what is behind it. -/
def splitOff (b : RangeBuf) (n : Nat) : RangeBuf × RangeBuf :=
  ({ b with data := b.data.take n, fin := false },
    { b with off := b.off + n, data := b.data.drop n })

end RangeBuf

/-- What `write` refuses. -/
inductive WriteError where
  | flowControl
  | finalSize
deriving DecidableEq, Repr

/-- `RecvBuf` of `recv_buf.rs`. -/
structure RangeQueue where
  /-- The chunks that were not read yet, in the order of their keys. -/
  data : List RangeBuf := []
  /-- The read offset. -/
  off : Nat := 0
  /-- The offset behind everything received. -/
  len : Nat := 0
  /-- The limit of the flow controller. -/
  maxData : Nat := 0
  finOff : Option Nat := none
  drain : Bool := false

/-- `BTreeMap::insert` at the offset behind the chunk. -/
def insertBuf (b : RangeBuf) : List RangeBuf → List RangeBuf
  | [] => [b]
  | c :: cs =>
      if b.maxOff < c.maxOff then b :: c :: cs
      else if b.maxOff = c.maxOff then b :: cs
      else c :: insertBuf b cs

/-- The loop of `write` over the chunks that may overlap the new one: what is to
be stored of it, if anything, and the parts to be looked at again. -/
def fit : List RangeBuf → RangeBuf → Option RangeBuf × List RangeBuf
  | [], buf => (some buf, [])
  | b :: bs, buf =>
      if buf.maxOff < b.off then (some buf, [])
      -- contained in a chunk that is there
      else if b.off ≤ buf.off ∧ buf.maxOff ≤ b.maxOff then (none, [])
      else
        let buf1 := if b.off ≤ buf.off ∧ buf.off < b.maxOff then (buf.splitOff (b.maxOff - buf.off)).2
          else buf
        if buf.off < b.off ∧ b.off < buf1.maxOff then
          let parts := buf1.splitOff (b.off - buf.off)
          let rest := fit bs parts.1
          (rest.1, parts.2 :: rest.2)
        else fit bs buf1

namespace RangeQueue

/-- A part that overlaps nothing is stored, or only counted. -/
def store (q : RangeQueue) (buf : RangeBuf) : RangeQueue :=
  let len := max q.len buf.maxOff
  if q.drain then { q with len := len, off := len }
  else { q with len := len, data := insertBuf buf q.data }

/-- What is behind the read offset. -/
def trim (q : RangeQueue) (buf : RangeBuf) : RangeBuf :=
  if buf.off < q.off then (buf.splitOff (q.off - buf.off)).2 else buf

/-- A part held against the chunks that are there. -/
def overlap (q : RangeQueue) (buf : RangeBuf) : Option RangeBuf × List RangeBuf :=
  if buf.off < q.len ∨ buf.data = [] then fit (q.data.filter fun b => decide (buf.off ≤ b.maxOff)) buf
  else (some buf, [])

/-- The loop of `write` over `tmp_bufs`. -/
def writeLoop : Nat → List RangeBuf → RangeQueue → RangeQueue
  | 0, _, q => q
  | _ + 1, [], q => q
  | n + 1, buf :: rest, q =>
      let parts := q.overlap (q.trim buf)
      writeLoop n (rest ++ parts.2) (match parts.1 with
        | none => q
        | some part => q.store part)

/-- `write`. -/
def write (q : RangeQueue) (buf : RangeBuf) : Except WriteError RangeQueue :=
  if q.maxData < buf.maxOff then .error .flowControl
  else if q.finOff.any fun f => decide (f < buf.maxOff) || (buf.fin && f != buf.maxOff) then .error .finalSize
  else if buf.fin ∧ buf.maxOff < q.len then .error .finalSize
  else if q.finOff.isSome ∧ buf.data = [] then .ok q
  else
    let q := if buf.fin then { q with finOff := some buf.maxOff } else q
    if buf.fin = false ∧ buf.data = [] then .ok q
    -- every byte of it was read
    else if buf.maxOff ≤ q.off ∧ buf.data ≠ [] then .ok q
    else .ok (writeLoop (buf.data.length + 1) [buf] q)

/-- `ready`. -/
def ready (q : RangeQueue) : Bool := q.data.head?.any fun b => b.off == q.off

/-- The loop of `emit_or_discard`: the bytes taken, and what is left behind them. -/
def emitLoop : List RangeBuf → Nat → Nat → Bytes × List RangeBuf
  | [], _, _ => ([], [])
  | b :: bs, off, cap =>
      if cap = 0 ∨ b.off ≠ off then ([], b :: bs)
      else if cap < b.data.length then
        (b.data.take cap, { b with off := b.off + cap, data := b.data.drop cap } :: bs)
      else
        let rest := emitLoop bs (off + b.data.length) (cap - b.data.length)
        (b.data ++ rest.1, rest.2)

/-- `emit` on a buffer that was not reset: the bytes read and the FIN flag, unless
there is nothing to read. -/
def emit (q : RangeQueue) (cap : Nat) : Option (Bytes × Bool) × RangeQueue :=
  if !q.ready then (none, q)
  else
    let taken := emitLoop q.data q.off cap
    let off := q.off + taken.1.length
    (some (taken.1, q.finOff == some off), { q with data := taken.2, off := off })

end RangeQueue

/-! ## Chunks of one text -/

/-- The chunk is cut from the text. -/
structure Cut (text : Bytes) (b : RangeBuf) : Prop where
  le : b.maxOff ≤ text.length
  data : b.data <+: text.drop b.off
  fin : b.fin = true → b.maxOff = text.length

/-- The chunk has a byte at the offset. -/
def RangeBuf.Has (b : RangeBuf) (o : Nat) : Prop := b.off ≤ o ∧ o < b.maxOff

/-- One of the chunks has a byte at the offset. -/
def Spans (l : List RangeBuf) (o : Nat) : Prop := ∃ b ∈ l, b.Has o

/-- The first chunk ends where the second one begins, or before. -/
structure Before (b c : RangeBuf) : Prop where
  off : b.maxOff ≤ c.off
  key : b.maxOff < c.maxOff

section

variable {text : Bytes} {b c buf : RangeBuf} {n : Nat}

theorem RangeBuf.off_le (b : RangeBuf) : b.off ≤ b.maxOff := Nat.le_add_right _ _

theorem RangeBuf.maxOff_of_empty (h : b.data = []) : b.maxOff = b.off := by simp [maxOff, h]

theorem RangeBuf.off_lt (h : b.data ≠ []) : b.off < b.maxOff := by
  have hpos := List.length_pos_iff.mpr h
  unfold maxOff
  omega

theorem RangeBuf.ne_nil_of_lt (h : b.off < b.maxOff) : b.data ≠ [] := by
  intro hnil
  rw [maxOff_of_empty hnil] at h
  exact absurd h (lt_irrefl _)

theorem RangeBuf.length_data (b : RangeBuf) : b.data.length = b.maxOff - b.off := by
  unfold maxOff
  omega

/-- The two parts of a chunk meet. -/
theorem RangeBuf.maxOff_splitOff (hn : b.off + n ≤ b.maxOff) :
    (b.splitOff n).1.maxOff = b.off + n ∧ (b.splitOff n).2.maxOff = b.maxOff := by
  unfold maxOff at hn
  simp only [splitOff, maxOff, List.length_take, List.length_drop]
  omega

theorem Cut.front (h : Cut text b) (hn : b.off + n ≤ b.maxOff) : Cut text (b.splitOff n).1 where
  le := by
    rw [(RangeBuf.maxOff_splitOff hn).1]
    exact hn.trans h.le
  data := (List.take_prefix _ _).trans h.data
  fin := nofun

theorem Cut.rear (h : Cut text b) (hn : b.off + n ≤ b.maxOff) : Cut text (b.splitOff n).2 where
  le := (RangeBuf.maxOff_splitOff hn).2.symm ▸ h.le
  data := by
    show b.data.drop n <+: text.drop (b.off + n)
    rw [← List.drop_drop]
    exact h.data.drop n
  fin hfin := (RangeBuf.maxOff_splitOff hn).2.trans (h.fin hfin)

end

/-! ## Fitting a chunk in -/

/-- What `fit` makes of a chunk. -/
structure Fitted (text : Bytes) (bs : List RangeBuf) (buf : RangeBuf) (r : Option RangeBuf × List RangeBuf) :
    Prop where
  part : ∀ h, r.1 = some h → Cut text h ∧ buf.off ≤ h.off ∧ h.maxOff ≤ buf.maxOff ∧
    (buf.data ≠ [] → h.data ≠ []) ∧ ∀ b ∈ bs, h.maxOff ≤ b.off ∨ b.maxOff ≤ h.off
  parts : ∀ t ∈ r.2, Cut text t ∧ buf.off ≤ t.off ∧ t.data ≠ []
  size : (r.2.map fun t => t.data.length).sum < max 1 buf.data.length
  all : ∀ o, buf.Has o → (∃ h, r.1 = some h ∧ h.Has o) ∨ Spans r.2 o ∨ Spans bs o

variable {text : Bytes}

/-- What is left of a chunk is apart from the chunks that are there, and nothing of
it is lost. -/
theorem fit_fitted {buf : RangeBuf} : ∀ {bs : List RangeBuf}, bs.Pairwise Before → Cut text buf →
    Fitted text bs buf (fit bs buf) := by
  intro bs
  induction bs generalizing buf with
  | nil =>
      intro _ hcut
      refine ⟨fun h hh => ?_, by simp [fit], by simp [fit], fun o ho => .inl ⟨buf, rfl, ho⟩⟩
      obtain rfl := Option.some.inj hh
      exact ⟨hcut, le_rfl, le_rfl, id, by simp⟩
  | cons b bs ih =>
      intro hchain hcut
      obtain ⟨hbefore, hrest⟩ := List.pairwise_cons.mp hchain
      -- what remains after `b` was taken account of
      have hnext : ∀ {next : RangeBuf}, Cut text next → buf.off ≤ next.off → next.maxOff ≤ buf.maxOff →
          (buf.data ≠ [] → next.data ≠ []) → (next.maxOff ≤ b.off ∨ b.maxOff ≤ next.off) →
          (∀ o, buf.Has o → next.Has o ∨ b.Has o) → next.data.length ≤ buf.data.length →
          Fitted text (b :: bs) buf (fit bs next) := by
        intro next hcut' hoff hmax hne hapart hall hlen
        have hf := ih hrest hcut'
        refine ⟨fun h hh => ?_, fun t ht => ?_, ?_, fun o ho => ?_⟩
        · obtain ⟨hc, ho, hm, hn, hd⟩ := hf.part h hh
          refine ⟨hc, hoff.trans ho, hm.trans hmax, fun hbuf => hn (hne hbuf), fun c hc' => ?_⟩
          rcases List.mem_cons.mp hc' with rfl | hc'
          · exact hapart.imp (hm.trans ·) (le_trans · ho)
          · exact hd c hc'
        · obtain ⟨hc, ho, hn⟩ := hf.parts t ht
          exact ⟨hc, hoff.trans ho, hn⟩
        · exact hf.size.trans_le (max_le_max le_rfl hlen)
        · rcases hall o ho with hnext | hb
          · rcases hf.all o hnext with hh | ht | ⟨c, hc, hs⟩
            · exact .inl hh
            · exact .inr (.inl ht)
            · exact .inr (.inr ⟨c, List.mem_cons_of_mem _ hc, hs⟩)
          · exact .inr (.inr ⟨b, List.mem_cons_self, hb⟩)
      have hlen := buf.length_data
      have hbuf := buf.off_le
      rw [fit]
      split
      next hpast =>
        refine ⟨fun h hh => ?_, by simp, by simp, fun o ho => .inl ⟨buf, rfl, ho⟩⟩
        obtain rfl := Option.some.inj hh
        refine ⟨hcut, le_rfl, le_rfl, id, fun c hc => .inl ?_⟩
        rcases List.mem_cons.mp hc with rfl | hc
        · exact hpast.le
        · exact hpast.le.trans (b.off_le.trans (hbefore c hc).off)
      next hnear =>
        split
        next hinside =>
          exact ⟨nofun, by simp, by simp, fun o ho => .inr (.inr ⟨b, List.mem_cons_self,
            hinside.1.trans ho.1, ho.2.trans_le hinside.2⟩)⟩
        next hinside =>
          by_cases hstart : b.off ≤ buf.off ∧ buf.off < b.maxOff
          · -- the beginning is there already
            have hn : buf.off + (b.maxOff - buf.off) ≤ buf.maxOff := by omega
            have hmax := (RangeBuf.maxOff_splitOff hn).2
            have hoff : (buf.splitOff (b.maxOff - buf.off)).2.off = b.maxOff := by
              simp only [RangeBuf.splitOff]
              omega
            have hlen' := (buf.splitOff (b.maxOff - buf.off)).2.length_data
            simp only [if_pos hstart]
            rw [if_neg (by omega)]
            refine hnext (hcut.rear hn) (by omega) hmax.le (fun _ => RangeBuf.ne_nil_of_lt (by omega))
              (.inr hoff.ge) (fun o ho => ?_) (by omega)
            by_cases ho' : o < b.maxOff
            · exact .inr ⟨hstart.1.trans ho.1, ho'⟩
            · exact .inl ⟨by omega, hmax.symm ▸ ho.2⟩
          · simp only [if_neg hstart]
            split
            next hend =>
              -- the end is looked at again
              have hn : buf.off + (b.off - buf.off) ≤ buf.maxOff := by omega
              obtain ⟨hmax1, hmax2⟩ := RangeBuf.maxOff_splitOff hn
              have hoff2 : (buf.splitOff (b.off - buf.off)).2.off = b.off := by
                simp only [RangeBuf.splitOff]
                omega
              have hlen1 := (buf.splitOff (b.off - buf.off)).1.length_data
              have hlen2 := (buf.splitOff (b.off - buf.off)).2.length_data
              have hoff1 : (buf.splitOff (b.off - buf.off)).1.off = buf.off := rfl
              have hf := ih hrest (hcut.front hn)
              refine ⟨fun h hh => ?_, fun t ht => ?_, ?_, fun o ho => ?_⟩
              · obtain ⟨hc, ho, hm, hne, hd⟩ := hf.part h hh
                refine ⟨hc, ho, by omega, fun _ => hne (RangeBuf.ne_nil_of_lt (by omega)), fun c hc' => ?_⟩
                rcases List.mem_cons.mp hc' with rfl | hc'
                · exact .inl (by omega)
                · exact hd c hc'
              · rcases List.mem_cons.mp ht with rfl | ht
                · exact ⟨hcut.rear hn, by omega, RangeBuf.ne_nil_of_lt (by omega)⟩
                · obtain ⟨hc, ho, hne⟩ := hf.parts t ht
                  exact ⟨hc, ho, hne⟩
              · have hsize := hf.size
                rw [List.map_cons, List.sum_cons]
                omega
              · by_cases ho' : o < b.off
                · rcases hf.all o ⟨ho.1, by omega⟩ with hh | ⟨t, ht, hs⟩ | ⟨c, hc, hs⟩
                  · exact .inl hh
                  · exact .inr (.inl ⟨t, List.mem_cons_of_mem _ ht, hs⟩)
                  · exact .inr (.inr ⟨c, List.mem_cons_of_mem _ hc, hs⟩)
                · exact .inr (.inl ⟨_, List.mem_cons_self, by omega, hmax2.symm ▸ ho.2⟩)
            next hend =>
              have hb := b.off_le
              exact hnext hcut le_rfl le_rfl id (by omega) (fun o ho => .inl ho) le_rfl

/-- An empty chunk at the end of the text is stored only where nothing reaches it. -/
theorem fit_empty {buf b : RangeBuf} {bs : List RangeBuf} (hempty : buf.data = []) (hle : b.maxOff ≤ buf.off)
    (hge : buf.off ≤ b.maxOff) : fit (b :: bs) buf = (none, []) := by
  have hb := b.off_le
  have hmax := RangeBuf.maxOff_of_empty hempty
  rw [fit, if_neg (by omega), if_pos (by omega)]

/-! ## Storing a chunk -/

/-- The chunk may be stored next to the other one; an empty one gives way to it. -/
inductive Beside (h c : RangeBuf) : Prop
  | after : Before c h → Beside h c
  | before : Before h c → Beside h c
  | instead : c.data = [] → c.maxOff = h.maxOff → h.maxOff ≤ c.off → Beside h c

theorem Beside.of_apart {h c : RangeBuf} (hne : h.data ≠ []) (hapart : h.maxOff ≤ c.off ∨ c.maxOff ≤ h.off) :
    Beside h c := by
  have hlt := RangeBuf.off_lt hne
  have hc := c.off_le
  rcases hapart with hle | hle
  · by_cases hkey : h.maxOff < c.maxOff
    · exact .before ⟨hle, hkey⟩
    · refine .instead ?_ (by omega) hle
      by_contra hdata
      have hlt' := RangeBuf.off_lt hdata
      omega
  · exact .after ⟨hle, by omega⟩

/-- A chunk finds its place among the others. -/
theorem insertBuf_spec {h : RangeBuf} : ∀ {l : List RangeBuf}, l.Pairwise Before → (∀ c ∈ l, Beside h c) →
    (insertBuf h l).Pairwise Before ∧ (∀ c ∈ insertBuf h l, c = h ∨ c ∈ l) ∧ h ∈ insertBuf h l ∧
      ∀ c ∈ l, c.data ≠ [] → c ∈ insertBuf h l := by
  intro l
  induction l with
  | nil => intro _ _; simp [insertBuf]
  | cons c cs ih =>
      intro hchain hbeside
      obtain ⟨hbefore, hrest⟩ := List.pairwise_cons.mp hchain
      have hc := c.off_le
      have hh := h.off_le
      rw [insertBuf]
      split
      next hlt =>
        have hfirst : Before h c := by
          rcases hbeside c List.mem_cons_self with ⟨hoff, hkey⟩ | hb | ⟨-, hkey, -⟩
          · omega
          · exact hb
          · omega
        refine ⟨List.pairwise_cons.mpr ⟨fun d hd => ?_, hchain⟩, by simp, List.mem_cons_self,
          fun d hd _ => List.mem_cons_of_mem _ hd⟩
        rcases List.mem_cons.mp hd with rfl | hd
        · exact hfirst
        · have hd' := hbefore d hd
          exact ⟨hfirst.off.trans (hc.trans hd'.off), hfirst.key.trans hd'.key⟩
      next hge =>
        split
        next heq =>
          have hempty : c.data = [] := by
            rcases hbeside c List.mem_cons_self with ⟨hoff, hkey⟩ | ⟨hoff, hkey⟩ | ⟨hdata, -, -⟩
            · omega
            · omega
            · exact hdata
          refine ⟨List.pairwise_cons.mpr ⟨fun d hd => ?_, hrest⟩, fun d hd => ?_, List.mem_cons_self,
            fun d hd hne => ?_⟩
          · have hd' := hbefore d hd
            exact ⟨heq ▸ hd'.off, heq ▸ hd'.key⟩
          · rcases List.mem_cons.mp hd with rfl | hd
            · exact .inl rfl
            · exact .inr (List.mem_cons_of_mem _ hd)
          · rcases List.mem_cons.mp hd with rfl | hd
            · exact absurd hempty hne
            · exact List.mem_cons_of_mem _ hd
        next hne =>
          have hlast : Before c h := by
            rcases hbeside c List.mem_cons_self with hb | ⟨hoff, hkey⟩ | ⟨-, hkey, -⟩
            · exact hb
            · omega
            · omega
          obtain ⟨hchain', hmem, hin, hkept⟩ := ih hrest fun d hd => hbeside d (List.mem_cons_of_mem _ hd)
          refine ⟨List.pairwise_cons.mpr ⟨fun d hd => ?_, hchain'⟩, fun d hd => ?_,
            List.mem_cons_of_mem _ hin, fun d hd hdata => ?_⟩
          · rcases hmem d hd with rfl | hd
            · exact hlast
            · exact hbefore d hd
          · rcases List.mem_cons.mp hd with rfl | hd
            · exact .inr List.mem_cons_self
            · exact (hmem d hd).imp_right (List.mem_cons_of_mem _)
          · rcases List.mem_cons.mp hd with rfl | hd
            · exact List.mem_cons_self
            · exact List.mem_cons_of_mem _ (hkept d hd hdata)

/-! ## The queue between writes -/

namespace RangeQueue

/-- A queue that holds pieces of one text, in order and apart from each other, in
front of which everything was read. -/
structure Holds (text : Bytes) (q : RangeQueue) : Prop where
  cut : ∀ b ∈ q.data, Cut text b
  chain : q.data.Pairwise Before
  front : ∀ b ∈ q.data, q.off ≤ b.off
  behind : ∀ b ∈ q.data, b.maxOff ≤ q.len
  off : q.off ≤ q.len
  len : q.len ≤ text.length
  /-- Only the end of the text may be held by an empty chunk. -/
  empty : ∀ b ∈ q.data, b.data = [] → b.off = text.length
  final : ∀ f, q.finOff = some f → f = text.length
  drain : q.drain = false

/-- The byte at the offset was read or is held. -/
def Covers (q : RangeQueue) (o : Nat) : Prop := o < q.off ∨ Spans q.data o

variable {q : RangeQueue} {text : Bytes}

/-- A part that is beside all others is added to them. -/
theorem Holds.store (h : q.Holds text) {part : RangeBuf} (hcut : Cut text part) (hoff : q.off ≤ part.off)
    (hempty : part.data = [] → part.off = text.length) (hbeside : ∀ c ∈ q.data, Beside part c) :
    (q.store part).Holds text ∧ (q.store part).off = q.off ∧ (q.store part).finOff = q.finOff ∧
      ∀ o, q.Covers o ∨ part.Has o → (q.store part).Covers o := by
  obtain ⟨hchain, hmem, hin, hkept⟩ := insertBuf_spec h.chain hbeside
  have hstore : q.store part = { q with len := max q.len part.maxOff, data := insertBuf part q.data } := by
    rw [RangeQueue.store, h.drain]
    rfl
  rw [hstore]
  refine ⟨⟨fun b hb => ?_, hchain, fun b hb => ?_, fun b hb => ?_, le_max_of_le_left h.off,
    max_le h.len hcut.le, fun b hb hdata => ?_, h.final, h.drain⟩, rfl, rfl, fun o ho => ?_⟩
  · rcases hmem b hb with rfl | hb
    · exact hcut
    · exact h.cut b hb
  · rcases hmem b hb with rfl | hb
    · exact hoff
    · exact h.front b hb
  · rcases hmem b hb with rfl | hb
    · exact le_max_right _ _
    · exact le_max_of_le_left (h.behind b hb)
  · rcases hmem b hb with rfl | hb
    · exact hempty hdata
    · exact h.empty b hb hdata
  · rcases ho with (hread | ⟨b, hb, hs⟩) | hpart
    · exact .inl hread
    · exact .inr ⟨b, hkept b hb (RangeBuf.ne_nil_of_lt (hs.1.trans_lt hs.2)), hs⟩
    · exact .inr ⟨part, hin, hpart⟩

/-- A chunk that is to be stored: it has bytes that were not read, or it is the end
of the text. -/
structure Storable (text : Bytes) (off : Nat) (b : RangeBuf) : Prop where
  cut : Cut text b
  unread : b.data ≠ [] ∧ off < b.maxOff ∨ b.data = [] ∧ b.off = text.length

/-- What is behind the read offset of a chunk. -/
theorem Holds.trim (h : q.Holds text) {buf : RangeBuf} (hs : Storable text q.off buf) :
    Cut text (q.trim buf) ∧ q.off ≤ (q.trim buf).off ∧
      ((q.trim buf).data = [] → (q.trim buf).off = text.length) ∧
      (q.trim buf).data.length ≤ buf.data.length ∧ ∀ o, buf.Has o → o < q.off ∨ (q.trim buf).Has o := by
  have hlen := h.off.trans h.len
  unfold RangeQueue.trim
  split
  next hlt =>
    rcases hs.unread with ⟨-, hunread⟩ | ⟨-, hend⟩
    · have hn : buf.off + (q.off - buf.off) ≤ buf.maxOff := by omega
      have hmax := (RangeBuf.maxOff_splitOff hn).2
      have hoff : (buf.splitOff (q.off - buf.off)).2.off = q.off := by
        simp only [RangeBuf.splitOff]
        omega
      refine ⟨hs.cut.rear hn, hoff.ge, fun hdata => ?_, by simp [RangeBuf.splitOff], fun o ho => ?_⟩
      · have hsame := RangeBuf.maxOff_of_empty hdata
        omega
      · by_cases ho' : o < q.off
        · exact .inl ho'
        · exact .inr ⟨by omega, hmax.symm ▸ ho.2⟩
    · omega
  next hge =>
    refine ⟨hs.cut, by omega, fun hdata => ?_, le_rfl, fun o ho => .inr ho⟩
    rcases hs.unread with ⟨hne, -⟩ | ⟨-, hend⟩
    · exact absurd hdata hne
    · exact hend

/-- What is made of a chunk behind the read offset. -/
theorem Holds.overlap (h : q.Holds text) {buf : RangeBuf} (hcut : Cut text buf)
    (hempty : buf.data = [] → buf.off = text.length) :
    Fitted text q.data buf (q.overlap buf) ∧
      ∀ part, (q.overlap buf).1 = some part → ∀ c ∈ q.data, Beside part c := by
  unfold RangeQueue.overlap
  split
  next hnear =>
    have hsub := List.filter_sublist (p := fun b : RangeBuf => decide (buf.off ≤ b.maxOff)) (l := q.data)
    have hf := fit_fitted (h.chain.sublist hsub) hcut
    have hgone : ∀ c ∈ q.data, c ∈ q.data.filter (fun b => decide (buf.off ≤ b.maxOff)) ∨ c.maxOff < buf.off := by
      intro c hc
      by_cases hle : buf.off ≤ c.maxOff
      · exact .inl (List.mem_filter.mpr ⟨hc, by simpa using hle⟩)
      · exact .inr (by omega)
    have hapart : ∀ part, (fit (q.data.filter fun b => decide (buf.off ≤ b.maxOff)) buf).1 = some part →
        ∀ c ∈ q.data, part.maxOff ≤ c.off ∨ c.maxOff ≤ part.off := by
      intro part hpart c hc
      obtain ⟨-, hoff, -, -, hd⟩ := hf.part part hpart
      rcases hgone c hc with hc | hlt
      · exact hd c hc
      · exact .inr (by omega)
    refine ⟨⟨fun part hpart => ?_, hf.parts, hf.size, fun o ho => ?_⟩, fun part hpart c hc => ?_⟩
    · obtain ⟨hc, ho, hm, hne, -⟩ := hf.part part hpart
      exact ⟨hc, ho, hm, hne, hapart part hpart⟩
    · rcases hf.all o ho with hh | ht | ⟨b, hb, hs⟩
      · exact .inl hh
      · exact .inr (.inl ht)
      · exact .inr (.inr ⟨b, hsub.subset hb, hs⟩)
    · by_cases hdata : buf.data = []
      · -- the end of the text is marked only where nothing reaches it
        have hnone : q.data.filter (fun b => decide (buf.off ≤ b.maxOff)) = [] := by
          cases hfilter : q.data.filter (fun b => decide (buf.off ≤ b.maxOff)) with
          | nil => rfl
          | cons b bs =>
              have hb : b ∈ q.data.filter (fun b => decide (buf.off ≤ b.maxOff)) := by simp [hfilter]
              obtain ⟨hbin, hge⟩ := List.mem_filter.mp hb
              have hle := (h.cut b hbin).le
              rw [hfilter, fit_empty hdata ((hempty hdata).symm ▸ hle) (by simpa using hge)] at hpart
              cases hpart
        rw [hnone] at hpart
        obtain rfl := Option.some.inj hpart
        rcases hgone c hc with hc' | hlt
        · rw [hnone] at hc'
          cases hc'
        · exact .after ⟨hlt.le, hlt.trans_le buf.off_le⟩
      · obtain ⟨-, -, -, hne, -⟩ := hf.part part hpart
        exact .of_apart (hne hdata) (hapart part hpart c hc)
  next hfar =>
    obtain ⟨hoff, hdata⟩ := not_or.mp hfar
    have hapart : ∀ c ∈ q.data, c.maxOff ≤ buf.off := fun c hc => (h.behind c hc).trans (by omega)
    refine ⟨⟨fun part hpart => ?_, by simp, by simp, fun o ho => .inl ⟨buf, rfl, ho⟩⟩,
      fun part hpart c hc => ?_⟩
    · obtain rfl := Option.some.inj hpart
      exact ⟨hcut, le_rfl, le_rfl, id, fun c hc => .inr (hapart c hc)⟩
    · obtain rfl := Option.some.inj hpart
      exact .of_apart hdata (.inr (hapart c hc))

/-- The size of what is still to be looked at. -/
def toDo (bufs : List RangeBuf) : Nat := (bufs.map fun b => max 1 b.data.length).sum

theorem toDo_append (l m : List RangeBuf) : toDo (l ++ m) = toDo l + toDo m := by
  simp [toDo]

theorem toDo_full {l : List RangeBuf} (h : ∀ b ∈ l, b.data ≠ []) :
    toDo l = (l.map fun b => b.data.length).sum := by
  unfold toDo
  congr 1
  refine List.map_congr_left fun b hb => max_eq_right ?_
  exact List.length_pos_iff.mpr (h b hb)

/-- The loop of `write` stores what is missing of the chunks. -/
theorem Holds.writeLoop : ∀ {n : Nat} {bufs : List RangeBuf} {q : RangeQueue}, q.Holds text →
    (∀ b ∈ bufs, Storable text q.off b) → toDo bufs ≤ n →
    (writeLoop n bufs q).Holds text ∧ (writeLoop n bufs q).off = q.off ∧
      (writeLoop n bufs q).finOff = q.finOff ∧
      ∀ o, q.Covers o ∨ Spans bufs o → (writeLoop n bufs q).Covers o := by
  intro n
  induction n with
  | zero =>
      intro bufs q h hbufs hn
      have hnil : bufs = [] := by
        cases bufs with
        | nil => rfl
        | cons b bs =>
            simp only [toDo, List.map_cons, List.sum_cons] at hn
            omega
      subst hnil
      exact ⟨h, rfl, rfl, fun o ho => ho.resolve_right fun ⟨b, hb, _⟩ => by cases hb⟩
  | succ n ih =>
      intro bufs q h hbufs hn
      cases bufs with
      | nil => exact ⟨h, rfl, rfl, fun o ho => ho.resolve_right fun ⟨b, hb, _⟩ => by cases hb⟩
      | cons buf rest =>
          obtain ⟨hcut, hoff, hempty, hlen, hhas⟩ := h.trim (hbufs buf List.mem_cons_self)
          obtain ⟨hf, hbeside⟩ := h.overlap hcut hempty
          have hsmall : toDo (rest ++ (q.overlap (q.trim buf)).2) ≤ n := by
            have hsize := hf.size
            rw [← toDo_full fun t ht => (hf.parts t ht).2.2] at hsize
            rw [toDo_append]
            simp only [toDo, List.map_cons, List.sum_cons] at hn hsize ⊢
            omega
          have hparts : ∀ b ∈ rest ++ (q.overlap (q.trim buf)).2, Storable text q.off b := by
            intro b hb
            rcases List.mem_append.mp hb with hb | hb
            · exact hbufs b (List.mem_cons_of_mem _ hb)
            · obtain ⟨hc, ho, hne⟩ := hf.parts b hb
              exact ⟨hc, .inl ⟨hne, (hoff.trans ho).trans_lt (RangeBuf.off_lt hne)⟩⟩
          -- every byte of the chunk was read, is stored now, or is in a part to be looked at
          have hall : ∀ o, Spans (buf :: rest) o → o < q.off ∨
              (∃ part, (q.overlap (q.trim buf)).1 = some part ∧ part.Has o) ∨
              Spans (rest ++ (q.overlap (q.trim buf)).2) o ∨ Spans q.data o := by
            rintro o ⟨b, hb, hs⟩
            rcases List.mem_cons.mp hb with rfl | hb
            · rcases hhas o hs with hread | hs
              · exact .inl hread
              · rcases hf.all o hs with hpart | ⟨t, ht, hs⟩ | hheld
                · exact .inr (.inl hpart)
                · exact .inr (.inr (.inl ⟨t, List.mem_append_right _ ht, hs⟩))
                · exact .inr (.inr (.inr hheld))
            · exact .inr (.inr (.inl ⟨b, List.mem_append_left _ hb, hs⟩))
          rw [RangeQueue.writeLoop]
          cases hpart : (q.overlap (q.trim buf)).1 with
          | none =>
              obtain ⟨hholds, hsame, hfin, hcov⟩ := ih h hparts hsmall
              refine ⟨hholds, hsame, hfin, fun o ho => ?_⟩
              rcases ho with ho | ho
              · exact hcov o (.inl ho)
              · rcases hall o ho with hread | ⟨part, hsome, -⟩ | ht | hheld
                · exact hcov o (.inl (.inl hread))
                · rw [hpart] at hsome
                  cases hsome
                · exact hcov o (.inr ht)
                · exact hcov o (.inl (.inr hheld))
          | some part =>
              obtain ⟨hc, ho, -, hne, -⟩ := hf.part part hpart
              have hend : part.data = [] → part.off = text.length := by
                intro hdata
                have hnil : (q.trim buf).data = [] := by
                  by_contra hdata'
                  exact hne hdata' hdata
                have hat := hempty hnil
                have h1 := RangeBuf.maxOff_of_empty hdata
                have h2 := hc.le
                omega
              obtain ⟨hstored, hoff', hfin', hcov'⟩ := h.store hc (hoff.trans ho) hend (hbeside part hpart)
              obtain ⟨hholds, hsame, hfin, hcov⟩ := ih hstored (hoff'.symm ▸ hparts) hsmall
              refine ⟨hholds, hsame.trans hoff', hfin.trans hfin', fun o ho => ?_⟩
              rcases ho with ho | ho
              · exact hcov o (.inl (hcov' o (.inl ho)))
              · rcases hall o ho with hread | ⟨part', hsome, hs⟩ | ht | hheld
                · exact hcov o (.inl (hcov' o (.inl (.inl hread))))
                · rw [hpart] at hsome
                  obtain rfl := Option.some.inj hsome
                  exact hcov o (.inl (hcov' o (.inr hs)))
                · exact hcov o (.inr ht)
                · exact hcov o (.inl (hcov' o (.inl (.inr hheld))))

/-- What a chunk of the text does to the queue, unless flow control refuses it. -/
structure Stored (text : Bytes) (b : RangeBuf) (q q' : RangeQueue) : Prop where
  holds : q'.Holds text
  off : q'.off = q.off
  covers : ∀ o, q.Covers o ∨ b.Has o → q'.Covers o
  final : q'.finOff = if b.fin then some text.length else q.finOff

/-- A chunk of the text is refused by flow control only, and nothing of it is lost. -/
theorem Holds.write (h : q.Holds text) {b : RangeBuf} (hcut : Cut text b) (hcredit : b.maxOff ≤ q.maxData) :
    ∃ q', q.write b = .ok q' ∧ Stored text b q q' := by
  have hlen := h.off.trans h.len
  have hle := hcut.le
  have hany : (q.finOff.any fun f => decide (f < b.maxOff) || (b.fin && f != b.maxOff)) = false := by
    cases hfin : q.finOff with
    | none => rfl
    | some f =>
        have hf := h.final f hfin
        simp only [Option.any_some, Bool.or_eq_false_iff, decide_eq_false_iff_not, Bool.and_eq_false_iff,
          bne_eq_false_iff_eq]
        refine ⟨by omega, ?_⟩
        cases hb : b.fin with
        | false => exact .inl rfl
        | true => exact .inr (hf.trans (hcut.fin hb).symm)
  unfold RangeQueue.write
  rw [if_neg (by omega), hany, if_neg (by simp), if_neg (by
    rintro ⟨hb, hlt⟩
    have hend := hcut.fin hb
    have hq := h.len
    omega)]
  have hnothing : b.data = [] → ∀ o, ¬b.Has o := by
    intro hdata o ho
    have hsame := RangeBuf.maxOff_of_empty hdata
    have h1 := ho.1
    have h2 := ho.2
    omega
  split
  next hknown =>
    refine ⟨q, rfl, h, rfl, fun o ho => ho.resolve_right (hnothing hknown.2 o), ?_⟩
    split
    · obtain ⟨f, hf⟩ := Option.isSome_iff_exists.mp hknown.1
      rw [hf, h.final f hf]
    · rfl
  next hnew =>
    -- the final size is kept first
    have hfin : ∀ {q1 : RangeQueue}, q1 = (if b.fin then { q with finOff := some b.maxOff } else q) →
        q1.Holds text ∧ q1.off = q.off ∧ q1.data = q.data ∧
          q1.finOff = if b.fin then some text.length else q.finOff := by
      rintro q1 rfl
      split
      next hb =>
        refine ⟨⟨h.cut, h.chain, h.front, h.behind, h.off, h.len, h.empty, fun f hf => ?_, h.drain⟩,
          rfl, rfl, by rw [hcut.fin hb]⟩
        exact (Option.some.inj hf).symm.trans (hcut.fin hb)
      · exact ⟨h, rfl, rfl, rfl⟩
    obtain ⟨hholds, hoff, hdata, hfinal⟩ := hfin rfl
    generalize (if b.fin then { q with finOff := some b.maxOff } else q) = q1 at hholds hoff hdata hfinal ⊢
    have hcov : ∀ o, q.Covers o → q1.Covers o := fun o ho => by rwa [Covers, hoff, hdata]
    simp only
    split
    next hskip =>
      exact ⟨q1, rfl, hholds, hoff, fun o ho => hcov o (ho.resolve_right (hnothing hskip.2 o)), hfinal⟩
    next hkeep =>
      split
      next hread =>
        refine ⟨q1, rfl, hholds, hoff, fun o ho => ?_, hfinal⟩
        rcases ho with ho | ho
        · exact hcov o ho
        · exact .inl (ho.2.trans_le hread.1)
      next hunread =>
        have hstorable : ∀ c ∈ [b], Storable text q1.off c := by
          intro c hc
          obtain rfl := List.mem_singleton.mp hc
          refine ⟨hcut, ?_⟩
          by_cases hnil : c.data = []
          · have hend : c.fin = true := by
              by_contra hno
              exact hkeep ⟨by simpa using hno, hnil⟩
            exact .inr ⟨hnil, (RangeBuf.maxOff_of_empty hnil).symm.trans (hcut.fin hend)⟩
          · exact .inl ⟨hnil, by
              by_contra hle'
              exact hunread ⟨by omega, hnil⟩⟩
        have htodo : toDo [b] ≤ b.data.length + 1 := by
          simp only [toDo, List.map_cons, List.map_nil, List.sum_cons, List.sum_nil]
          omega
        obtain ⟨hholds', hoff', hfin', hcov'⟩ := hholds.writeLoop hstorable htodo
        refine ⟨_, rfl, hholds', hoff'.trans hoff, fun o ho => hcov' o ?_, hfin'.trans hfinal⟩
        exact ho.imp (hcov o) fun hb => ⟨b, List.mem_singleton_self b, hb⟩

/-! ## Reading -/

/-- The bytes that stand one behind the other from the offset on. -/
def contiguous : Nat → List RangeBuf → Bytes
  | _, [] => []
  | off, b :: bs => if b.off = off then b.data ++ contiguous (off + b.data.length) bs else []

/-- What can be read. -/
def readable (q : RangeQueue) : Bytes := contiguous q.off q.data

theorem contiguous_text : ∀ {l : List RangeBuf} {off : Nat}, (∀ b ∈ l, Cut text b) →
    contiguous off l <+: text.drop off := by
  intro l
  induction l with
  | nil => exact fun _ => List.nil_prefix
  | cons b bs ih =>
      intro off hcut
      rw [contiguous]
      split
      next heq =>
        have hb := (hcut b List.mem_cons_self).data
        have hrest : contiguous (off + b.data.length) bs <+: text.drop (off + b.data.length) :=
          ih fun c hc => hcut c (List.mem_cons_of_mem _ hc)
        rw [heq] at hb
        obtain ⟨rest, htext⟩ := hb
        rw [← List.drop_drop, ← htext, List.drop_left] at hrest
        rw [← htext]
        exact (List.prefix_append_right_inj _).mpr hrest
      · exact List.nil_prefix

/-- A byte that can be read is held. -/
theorem spans_of_contiguous : ∀ {l : List RangeBuf} {off o : Nat}, off ≤ o →
    o < off + (contiguous off l).length → Spans l o := by
  intro l
  induction l with
  | nil =>
      intro off o hle hlt
      simp only [contiguous, List.length_nil] at hlt
      omega
  | cons b bs ih =>
      intro off o hle hlt
      rw [contiguous] at hlt
      split at hlt
      next heq =>
        rw [List.length_append] at hlt
        by_cases hin : o < off + b.data.length
        · exact ⟨b, List.mem_cons_self, heq.trans_le hle, by rw [RangeBuf.maxOff, heq]; exact hin⟩
        · have hbehind : off + b.data.length ≤ o := by omega
          obtain ⟨c, hc, hs⟩ := ih hbehind (by omega)
          exact ⟨c, List.mem_cons_of_mem _ hc, hs⟩
      · simp only [List.length_nil] at hlt
        omega

/-- Up to the first byte that is missing all can be read. -/
theorem contiguous_reaches {n : Nat} : ∀ {l : List RangeBuf} {off : Nat}, l.Pairwise Before →
    (∀ b ∈ l, off ≤ b.off) → (∀ o, off ≤ o → o < n → Spans l o) → n ≤ off + (contiguous off l).length := by
  intro l
  induction l with
  | nil =>
      intro off _ _ hall
      by_contra hlt
      obtain ⟨b, hb, -⟩ := hall off le_rfl (by simp only [contiguous, List.length_nil] at hlt; omega)
      cases hb
  | cons b bs ih =>
      intro off hchain hfront hall
      obtain ⟨hbefore, hrest⟩ := List.pairwise_cons.mp hchain
      rw [contiguous]
      split
      next heq =>
        have hmax : b.maxOff = off + b.data.length := by rw [RangeBuf.maxOff, heq]
        have hnext : n ≤ off + b.data.length + (contiguous (off + b.data.length) bs).length :=
          ih hrest (fun c hc => hmax ▸ (hbefore c hc).off) fun o hle hlt => by
            obtain ⟨c, hc, hs⟩ := hall o (by omega) hlt
            rcases List.mem_cons.mp hc with rfl | hc
            · have h2 := hs.2
              omega
            · exact ⟨c, hc, hs⟩
        rw [List.length_append]
        omega
      next hne =>
        by_contra hlt
        obtain ⟨c, hc, hs⟩ := hall off le_rfl (by simp only [List.length_nil] at hlt; omega)
        have hb := hfront b List.mem_cons_self
        have h1 := hs.1
        rcases List.mem_cons.mp hc with rfl | hc
        · omega
        · have h2 := (hbefore c hc).off
          have h3 := b.off_le
          omega

theorem Holds.readable_text (h : q.Holds text) : q.readable <+: text.drop q.off := contiguous_text h.cut

theorem Holds.reaches (h : q.Holds text) {n : Nat} (hall : ∀ o, o < n → q.Covers o) :
    n ≤ q.off + q.readable.length :=
  contiguous_reaches h.chain h.front fun o hle hlt => (hall o hlt).resolve_left (by omega)

theorem covers_of_readable {o : Nat} (ho : o < q.off + q.readable.length) : q.Covers o := by
  by_cases hread : o < q.off
  · exact .inl hread
  · exact .inr (spans_of_contiguous (by omega) ho)

/-- What could be read before a chunk arrived can be read behind it as well. -/
theorem Stored.readable {b : RangeBuf} {q' : RangeQueue} (hs : Stored text b q q') (h : q.Holds text) :
    q.readable <+: q'.readable := by
  have hlen : q.off + q.readable.length ≤ q'.off + q'.readable.length :=
    hs.holds.reaches fun o ho => hs.covers o (.inl (covers_of_readable ho))
  refine List.prefix_of_prefix_length_le h.readable_text ?_ (by rw [hs.off] at hlen; omega)
  exact hs.off ▸ hs.holds.readable_text

/-- The loop of `emit` takes the bytes that can be read from their beginning. -/
theorem emitLoop_spec : ∀ {l : List RangeBuf} {off cap : Nat}, l.Pairwise Before → (∀ b ∈ l, Cut text b) →
    (∀ b ∈ l, off ≤ b.off) → let taken := emitLoop l off cap
    taken.1 = (contiguous off l).take cap ∧
      contiguous (off + taken.1.length) taken.2 = (contiguous off l).drop cap ∧
      taken.2.Pairwise Before ∧ (∀ b ∈ taken.2, off + taken.1.length ≤ b.off) ∧
      (∀ b ∈ taken.2, Cut text b ∧ (∃ c ∈ l, b.maxOff = c.maxOff ∧ (b.data = [] → c.data = []))) ∧
      ∀ o, Spans l o → o < off + taken.1.length ∨ Spans taken.2 o := by
  intro l
  induction l with
  | nil => intro off cap _ _ _; simp [emitLoop, contiguous, Spans]
  | cons b bs ih =>
      intro off cap hchain hcut hfront
      obtain ⟨hbefore, hrest⟩ := List.pairwise_cons.mp hchain
      simp only [emitLoop]
      split
      next hstop =>
        have hnone : (contiguous off (b :: bs)).take cap = [] ∧
            (contiguous off (b :: bs)).drop cap = contiguous off (b :: bs) := by
          rcases hstop with hcap | hne
          · rw [hcap]
            exact ⟨rfl, rfl⟩
          · rw [contiguous, if_neg hne]
            exact ⟨List.take_nil, List.drop_nil⟩
        refine ⟨hnone.1.symm, hnone.2.symm, hchain, hfront, fun c hc => ⟨hcut c hc, c, hc, rfl, id⟩,
          fun o ho => .inr ho⟩
      next hgo =>
        obtain ⟨hcap, heq⟩ := not_or.mp hgo
        obtain rfl : b.off = off := not_not.mp heq
        have hcutb := hcut b List.mem_cons_self
        split
        next hpart =>
          have hlen : (b.data.take cap).length = cap := by rw [List.length_take]; omega
          have hmax : ({ b with off := b.off + cap, data := b.data.drop cap } : RangeBuf).maxOff = b.maxOff := by
            simp only [RangeBuf.maxOff, List.length_drop]
            omega
          have hn : b.off + cap ≤ b.maxOff := by rw [RangeBuf.maxOff]; omega
          simp only [contiguous, ↓reduceIte, hlen]
          refine ⟨(List.take_append_of_le_length hpart.le).symm, ?_, ?_, ?_, fun c hc => ?_, fun o ho => ?_⟩
          · rw [List.drop_append_of_le_length hpart.le]
            congr 2
          · exact List.pairwise_cons.mpr ⟨fun c hc => ⟨hmax.trans_le (hbefore c hc).off,
              hmax.trans_lt (hbefore c hc).key⟩, hrest⟩
          · intro c hc
            rcases List.mem_cons.mp hc with rfl | hc
            · exact le_rfl
            · have h1 := (hbefore c hc).off
              omega
          · rcases List.mem_cons.mp hc with rfl | hc
            · refine ⟨hcutb.rear hn, b, List.mem_cons_self, hmax, fun hdata => ?_⟩
              have hzero := congrArg List.length hdata
              simp only [List.length_drop, List.length_nil] at hzero
              omega
            · exact ⟨hcut c (List.mem_cons_of_mem _ hc), c, List.mem_cons_of_mem _ hc, rfl, id⟩
          · obtain ⟨c, hc, hs⟩ := ho
            rcases List.mem_cons.mp hc with rfl | hc
            · by_cases hlt : o < c.off + cap
              · exact .inl hlt
              · exact .inr ⟨_, List.mem_cons_self, by simp only; omega, hs.2.trans_eq hmax.symm⟩
            · exact .inr ⟨c, List.mem_cons_of_mem _ hc, hs⟩
        next hwhole =>
          have hmax : b.maxOff = b.off + b.data.length := rfl
          have hle : b.data.length ≤ cap := by omega
          obtain ⟨htake, hdrop, hchain', hfront', hcut', hspan'⟩ :=
            @ih (b.off + b.data.length) (cap - b.data.length) hrest
              (fun c hc => hcut c (List.mem_cons_of_mem _ hc)) fun c hc => (hbefore c hc).off
          simp only [contiguous, ↓reduceIte, List.length_append]
          rw [← Nat.add_assoc]
          refine ⟨?_, ?_, hchain', hfront', fun c hc => ?_, fun o ho => ?_⟩
          · rw [htake, List.take_append, List.take_of_length_le hle]
          · rw [hdrop, List.drop_append, List.drop_of_length_le hle, List.nil_append]
          · obtain ⟨hc', d, hd, hsame, hnil⟩ := hcut' c hc
            exact ⟨hc', d, List.mem_cons_of_mem _ hd, hsame, hnil⟩
          · obtain ⟨c, hc, hs⟩ := ho
            rcases List.mem_cons.mp hc with rfl | hc
            · have h2 := hs.2
              exact .inl (by omega)
            · exact hspan' o ⟨c, hc, hs⟩

/-- A read takes what can be read from its beginning, and leaves the rest. -/
structure Taken (text : Bytes) (cap : Nat) (q q' : RangeQueue) (out : Bytes) : Prop where
  holds : q'.Holds text
  bytes : out = q.readable.take cap
  off : q'.off = q.off + out.length
  rest : q'.readable = q.readable.drop cap
  covers : ∀ o, q.Covers o → q'.Covers o
  final : q'.finOff = q.finOff

theorem Holds.emit (h : q.Holds text) (cap : Nat) :
    q.emit cap = (none, q) ∧ q.readable = [] ∨
      ∃ out q', q.emit cap = (some (out, q.finOff == some q'.off), q') ∧ Taken text cap q q' out := by
  unfold RangeQueue.emit
  split
  next hready =>
    refine .inl ⟨rfl, ?_⟩
    have hready : q.ready = false := by simpa using hready
    rw [readable]
    cases hdata : q.data with
    | nil => rfl
    | cons b bs =>
        have hne : b.off ≠ q.off := by simpa [ready, hdata] using hready
        rw [contiguous, if_neg hne]
  next hready =>
    obtain ⟨htake, hdrop, hchain, hfront, hcut, hspan⟩ := @emitLoop_spec text q.data q.off cap h.chain h.cut h.front
    have hout : (emitLoop q.data q.off cap).1.length ≤ q.readable.length := by
      rw [htake, List.length_take]
      exact Nat.min_le_right _ _
    -- the last byte taken was held
    have hlen : q.off + (emitLoop q.data q.off cap).1.length ≤ q.len := by
      by_contra hlt
      have hoff := h.off
      rcases covers_of_readable (q := q) (o := q.off + (emitLoop q.data q.off cap).1.length - 1) (by omega) with hread | ⟨b, hb, hs⟩
      · omega
      · have h1 := h.behind b hb
        have h2 := hs.2
        omega
    refine .inr ⟨(emitLoop q.data q.off cap).1, { q with
      data := (emitLoop q.data q.off cap).2
      off := q.off + (emitLoop q.data q.off cap).1.length }, rfl, ?_, htake, rfl, hdrop, fun o ho => ?_, rfl⟩
    · refine ⟨fun b hb => (hcut b hb).1, hchain, hfront, fun b hb => ?_, hlen, h.len, fun b hb hdata => ?_,
        h.final, h.drain⟩
      · obtain ⟨-, c, hc, hsame, -⟩ := hcut b hb
        exact hsame.trans_le (h.behind c hc)
      · obtain ⟨-, c, hc, hsame, hnil⟩ := hcut b hb
        have hc' := h.empty c hc (hnil hdata)
        have h1 := RangeBuf.maxOff_of_empty hdata
        have h2 := RangeBuf.maxOff_of_empty (hnil hdata)
        omega
    · rcases ho with hread | hheld
      · exact .inl (Nat.lt_add_right _ hread)
      · exact hspan o hheld

end RangeQueue

/-! ## Runs -/

/-- A stream as its reader sees it. -/
structure Reader where
  buf : RangeQueue
  /-- The chunks that arrived. -/
  arrived : List RangeBuf := []
  /-- The bytes that were read. -/
  out : Bytes := []
  /-- A read returned the FIN flag. -/
  ended : Bool := false

/-- What happens to a stream. -/
inductive ReaderOp where
  | write (b : RangeBuf)
  | emit (cap : Nat)
  /-- The flow controller gives more credit. -/
  | credit (limit : Nat)

namespace Reader

def step (s : Reader) : ReaderOp → Reader
  | .write b =>
      match s.buf.write b with
      | .ok buf => { s with buf := buf, arrived := s.arrived ++ [b] }
      | .error _ => s
  | .emit cap =>
      match s.buf.emit cap with
      | (some (bytes, fin), buf) => { s with buf := buf, out := s.out ++ bytes, ended := s.ended || fin }
      | (none, buf) => { s with buf := buf }
  | .credit limit => { s with buf := { s.buf with maxData := max s.buf.maxData limit } }

/-- What the connection makes of the stream. -/
def view (s : Reader) : RecvBuf := { data := s.buf.readable, off := s.buf.off, got := s.out }

/-- The peer sends pieces of one text, and the end of the stream with the last byte. -/
def Sends (text : Bytes) : ReaderOp → Prop
  | .write b => Cut text b
  | _ => True

/-- The text arrives piece by piece. -/
structure Follows (text : Bytes) (s : Reader) : Prop where
  holds : s.buf.Holds text
  out : s.out = text.take s.buf.off
  ended : s.ended = true → s.buf.off = text.length
  covers : ∀ b ∈ s.arrived, ∀ o, b.Has o → s.buf.Covers o
  fin : ∀ b ∈ s.arrived, b.fin = true → s.buf.finOff = some text.length

variable {text : Bytes} {s : Reader}

theorem Follows.write (h : s.Follows text) {b : RangeBuf} (hcut : Cut text b) :
    (s.step (.write b)).Follows text ∧
      ∃ bytes, (s.step (.write b)).view = { s.view with data := s.view.data ++ bytes } := by
  by_cases hcredit : b.maxOff ≤ s.buf.maxData
  · obtain ⟨buf, hok, hs⟩ := h.holds.write hcut hcredit
    have hstep : s.step (.write b) = { s with buf := buf, arrived := s.arrived ++ [b] } := by
      rw [step, hok]
    rw [hstep]
    refine ⟨⟨hs.holds, hs.off.symm ▸ h.out, fun hend => hs.off.trans (h.ended hend), fun c hc o ho => ?_,
      fun c hc hfin => ?_⟩, ?_⟩
    · refine hs.covers o ?_
      rcases List.mem_append.mp hc with hc | hc
      · exact .inl (h.covers c hc o ho)
      · exact .inr (List.mem_singleton.mp hc ▸ ho)
    · show buf.finOff = _
      rw [hs.final]
      split
      · rfl
      next hno =>
        rcases List.mem_append.mp hc with hc | hc
        · exact h.fin c hc hfin
        · exact absurd (List.mem_singleton.mp hc ▸ hfin) hno
    · obtain ⟨bytes, hbytes⟩ := hs.readable h.holds
      exact ⟨bytes, by simp only [view, hs.off, hbytes]⟩
  · have hstep : s.step (.write b) = s := by
      rw [step, RangeQueue.write, if_pos (by omega)]
    rw [hstep]
    exact ⟨h, [], by rw [List.append_nil]⟩

theorem Follows.emit (h : s.Follows text) (cap : Nat) :
    (s.step (.emit cap)).Follows text ∧ (s.step (.emit cap)).view = s.view.emit cap := by
  rcases h.holds.emit cap with ⟨hnone, hempty⟩ | ⟨bytes, buf, hsome, ht⟩
  · have hstep : s.step (.emit cap) = s := by rw [step, hnone]
    rw [hstep]
    exact ⟨h, by simp [view, hempty, RecvBuf.emit, RecvBuf.isFin]⟩
  · have hstep : s.step (.emit cap) = { s with
        buf := buf, out := s.out ++ bytes, ended := s.ended || (s.buf.finOff == some buf.off) } := by
      rw [step, hsome]
    have hpart : s.out ++ bytes = text.take buf.off := by
      obtain ⟨rest, hrest⟩ := h.holds.readable_text
      have hbytes : bytes = (text.drop s.buf.off).take bytes.length := by
        have hlen : bytes.length ≤ s.buf.readable.length := by
          rw [ht.bytes, List.length_take]
          exact Nat.min_le_right _ _
        rw [← hrest, List.take_append_of_le_length hlen]
        conv_rhs => rw [ht.bytes, List.length_take]
        rw [ht.bytes, List.take_eq_take_min]
      rw [h.out, ht.off, List.take_add]
      exact congrArg _ hbytes
    rw [hstep]
    refine ⟨⟨ht.holds, hpart, fun hend => ?_, fun c hc o ho => ht.covers o (h.covers c hc o ho),
      fun c hc hfin => ht.final.trans (h.fin c hc hfin)⟩, ?_⟩
    · rcases Bool.or_eq_true_iff.mp hend with hbefore | hnow
      · have h1 := h.ended hbefore
        have h2 := ht.holds.off.trans ht.holds.len
        have h3 := ht.off
        show buf.off = _
        omega
      · have hfinal := beq_iff_eq.mp hnow
        exact h.holds.final _ hfinal
    · simp only [view, RecvBuf.emit, RecvBuf.isFin, ht.rest, ht.off, ht.bytes]
      rfl

/-- What is read of a text that arrives piece by piece. -/
structure Reassembled (text : Bytes) (s : Reader) : Prop where
  /-- It is the text from its beginning, -/
  out : s.out <+: text
  ended : s.ended = true → s.out = text
  next : s.out ++ s.buf.readable <+: text
  /-- up to the first byte that is missing, -/
  reaches : ∀ n, (∀ o, o < n → ∃ b ∈ s.arrived, b.Has o) → n ≤ (s.out ++ s.buf.readable).length
  /-- and its end comes with the last byte. -/
  finish : (∀ o, o < text.length → ∃ b ∈ s.arrived, b.Has o) → (∃ b ∈ s.arrived, b.fin = true) →
    s.out ≠ text → ∀ cap, text.length ≤ cap →
      (s.step (.emit cap)).out = text ∧ (s.step (.emit cap)).ended = true
  /-- No piece of it is taken for a wrong final size. -/
  accepted : ∀ b, Cut text b → s.buf.write b ≠ .error .finalSize

theorem Follows.reassembled (h : s.Follows text) : s.Reassembled text := by
  have hlen := h.holds.off.trans h.holds.len
  have hout : s.out.length = s.buf.off := by rw [h.out, List.length_take, min_eq_left hlen]
  have hnext : s.out ++ s.buf.readable <+: text := by
    obtain ⟨rest, hrest⟩ := h.holds.readable_text
    refine ⟨rest, ?_⟩
    rw [h.out, List.append_assoc, hrest, List.take_append_drop]
  have hreaches : ∀ n, (∀ o, o < n → ∃ b ∈ s.arrived, b.Has o) → n ≤ (s.out ++ s.buf.readable).length := by
    intro n hall
    rw [List.length_append, hout]
    refine h.holds.reaches fun o ho => ?_
    obtain ⟨b, hb, hs⟩ := hall o ho
    exact h.covers b hb o hs
  refine ⟨h.out ▸ List.take_prefix _ _, fun hend => ?_, hnext, hreaches, fun hall hfin hne cap hcap => ?_,
    fun b hb => ?_⟩
  · rw [h.out, h.ended hend, List.take_length]
  · have hwhole : s.out ++ s.buf.readable = text := hnext.eq_of_length_le (hreaches _ hall)
    obtain ⟨c, hc, hcfin⟩ := hfin
    have hfinal := h.fin c hc hcfin
    rcases h.holds.emit cap with ⟨-, hempty⟩ | ⟨bytes, buf, hsome, ht⟩
    · rw [hempty, List.append_nil] at hwhole
      exact absurd hwhole hne
    · have hall' : bytes = s.buf.readable := by
        rw [ht.bytes]
        refine List.take_of_length_le ?_
        have hle := congrArg List.length hwhole
        rw [List.length_append] at hle
        omega
      have hread : s.out ++ bytes = text := hall' ▸ hwhole
      have hoff : buf.off = text.length := by rw [ht.off, ← hout, ← List.length_append, hread]
      rw [step, hsome]
      exact ⟨hread, by simp [hfinal, hoff]⟩
  · by_cases hcredit : b.maxOff ≤ s.buf.maxData
    · obtain ⟨buf, hok, -⟩ := h.holds.write hb hcredit
      simp [hok]
    · rw [RangeQueue.write, if_pos (by omega)]
      simp

theorem Follows.start (text : Bytes) (limit : Nat) : Follows text { buf := { maxData := limit } } :=
  ⟨⟨by simp, List.Pairwise.nil, by simp, by simp, le_rfl, Nat.zero_le _, by simp, by simp, rfl⟩, rfl, by simp,
    by simp, by simp⟩

theorem Follows.step (h : s.Follows text) {op : ReaderOp} (hop : Sends text op) : (s.step op).Follows text := by
  cases op with
  | write b => exact (h.write hop).1
  | emit cap => exact (h.emit cap).1
  | credit limit =>
      have hh := h.holds
      exact ⟨⟨hh.cut, hh.chain, hh.front, hh.behind, hh.off, hh.len, hh.empty, hh.final, hh.drain⟩,
        h.out, h.ended, h.covers, h.fin⟩

/-- However the peer cuts its text, and in whatever order and however often the
pieces arrive and are read, they are put together again. -/
theorem reassembles (text : Bytes) (limit : Nat) {ops : List ReaderOp} (hops : ∀ op ∈ ops, Sends text op) :
    (execute step { buf := { maxData := limit } } ops).Reassembled text :=
  (execute_invariant (P := fun _ op => Sends text op) (I := Follows text) (fun _ _ h hop => h.step hop)
    (.start text limit) (along_of_forall fun op hop _ => hops op hop)).reassembled

/-- What the connection sees of it: bytes that become contiguous, and reads. -/
theorem seen_as_stream (text : Bytes) (limit : Nat) {ops : List ReaderOp} (hops : ∀ op ∈ ops, Sends text op)
    {op : ReaderOp} (hop : Sends text op) :
    let s := execute step { buf := { maxData := limit } } ops
    (∃ bytes, (s.step op).view = { s.view with data := s.view.data ++ bytes }) ∨
      ∃ cap, (s.step op).view = s.view.emit cap := by
  have hfollows : Follows text (execute step { buf := { maxData := limit } } ops) :=
    execute_invariant (P := fun _ op => Sends text op) (I := Follows text) (fun _ _ h hop => h.step hop)
      (.start text limit) (along_of_forall fun op hop _ => hops op hop)
  cases op with
  | write b => exact .inl (hfollows.write hop).2
  | emit cap => exact .inr ⟨cap, (hfollows.emit cap).2⟩
  | credit limit => exact .inl ⟨[], by rw [List.append_nil]; rfl⟩

/-- Three pieces of which the second one comes first and the last one overlaps. -/
def pieces : List ReaderOp :=
  [.write ⟨2, [3, 4], false⟩, .emit 9, .write ⟨0, [1, 2, 3], false⟩, .emit 3, .write ⟨1, [2, 3, 4, 5], true⟩]

theorem reassembles_sample :
    (execute step { buf := { maxData := 5 } } pieces).Reassembled [1, 2, 3, 4, 5] :=
  reassembles _ _ (by
    intro op hop
    simp only [pieces, List.mem_cons, List.not_mem_nil, or_false] at hop
    rcases hop with rfl | rfl | rfl | rfl | rfl
    · exact ⟨by decide, by decide, by decide⟩
    · trivial
    · exact ⟨by decide, by decide, by decide⟩
    · trivial
    · exact ⟨by decide, by decide, by decide⟩)

-- A FIN that comes with bytes that were all read before is kept, but it makes nothing
-- readable: the reader is not told of it.
example : (execute step { buf := { maxData := 5 } } [.write ⟨0, [1], false⟩, .emit 9,
    .write ⟨0, [1], true⟩]).buf.finOff = some 1 ∧
  (execute step { buf := { maxData := 5 } } [.write ⟨0, [1], false⟩, .emit 9,
    .write ⟨0, [1], true⟩]).buf.ready = false := by
  decide

end Reader

end RWebTransport.Quic
