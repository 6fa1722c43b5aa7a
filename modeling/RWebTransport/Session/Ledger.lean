import RWebTransport.Accounting
import RWebTransport.Session.Sending

/-!
# What a session has charged

A session charges its budget, and everything above it, with the capacities of its
buffers: the capsule buffer, two buffers for each stream, and the copies of a frame
or a capsule that are alive while it is handled.  `Ledger base n e` says so relative
to `base`, the counters without this session, where `n` is what the copies take.

Every operation keeps the ledger, whatever is refused on the way.  Behind
`mark_closed` nothing is charged but the copies, and no operation on a closed session
charges anything.
-/

namespace RWebTransport

/-! ## Charges -/

namespace Heap

/-- The counters are those of `base`, with `k` more along the path of a budget. -/
def Charged (base : List ParserMemory) (m k : Nat) (h : Heap) : Prop :=
  h.nodes = shift base (path base m) (· + k)

variable {base : List ParserMemory} {m k : Nat} {h h' : Heap}

theorem Charged.rooted (hc : Charged base m k h) (hroot : Rooted base) : Rooted h.nodes :=
  hc ▸ rooted_shift hroot _ _

theorem Charged.of_nodes (hc : Charged base m k h) (hn : h'.nodes = h.nodes) : Charged base m k h' :=
  hn.trans hc

/-- A further change along the path. -/
theorem Charged.shifted (hc : Charged base m k h) {f : Nat → Nat} {k' : Nat}
    (hf : ∀ u, f (u + k) = u + k')
    (hn : h'.nodes = shift h.nodes (path h.nodes m) f) : Charged base m k' h' := by
  unfold Charged at hc ⊢
  rw [hn, hc, path_shift, shift_shift]
  exact congrArg _ (funext hf)

theorem Charged.release {n : Nat} (hc : Charged base m (k + n) h) (hroot : Rooted base) :
    Charged base m k (h.release m n) := by
  refine hc.shifted (f := (· - n)) (fun u => ?_) (by rw [release_eq (hc.rooted hroot)])
  omega

/-- One release after the other. -/
theorem Charged.releases {g : Nat → Heap → Heap} {c : Nat → Nat} : ∀ {l : List Nat} {h : Heap},
    (∀ i ∈ l, ∀ k h, Charged base m (k + c i) h → Charged base m k (g i h)) →
    Charged base m (k + (l.map c).sum) h → Charged base m k (l.foldl (fun h i => g i h) h)
  | [], h, _, hc => hc
  | i :: l, h, hg, hc => by
      refine Charged.releases (l := l) (fun j hj => hg j (List.mem_cons_of_mem i hj))
        (hg i List.mem_cons_self _ h ?_)
      rw [List.map_cons, List.sum_cons] at hc
      convert hc using 1
      omega

end Heap

namespace ParserBuffer

open Heap (Charged Rooted)

variable {base : List ParserMemory} {m k : Nat} {h h' : Heap} {b b' : ParserBuffer}

theorem charged_extend {bytes : Bytes} (hroot : Rooted base)
    (hc : Charged base b.memory (k + b.capacity) h)
    (hx : b.extendFromSlice h bytes = (some b', h')) :
    b'.memory = b.memory ∧ Charged base b.memory (k + b'.capacity) h' := by
  obtain ⟨hmemory, hnodes, -⟩ := extendFromSlice_some (hc.rooted hroot) hx
  refine ⟨hmemory, hc.shifted (fun u => ?_) hnodes⟩
  omega

theorem charged_refused {bytes : Bytes} (hroot : Rooted base) (hc : Charged base m k h)
    (hx : b.extendFromSlice h bytes = (none, h')) : Charged base m k h' :=
  hc.of_nodes (extendFromSlice_none (hc.rooted hroot) hx)

theorem charged_copy {start stop : Nat} (hroot : Rooted base) (hc : Charged base b.memory k h)
    (hx : b.copyRange h start stop = (some b', h')) :
    b'.memory = b.memory ∧ Charged base b.memory (k + b'.capacity) h' :=
  charged_extend (b := .new b.memory) hroot hc hx

theorem charged_consume (n : Nat) (hroot : Rooted base)
    (hc : Charged base b.memory (k + b.capacity) h) :
    (b.consume h n).1.memory = b.memory ∧
      Charged base b.memory (k + (b.consume h n).1.capacity) (b.consume h n).2 := by
  unfold consume
  split
  · exact ⟨rfl, hc.release hroot⟩
  · exact ⟨rfl, hc⟩

theorem consume_capacity_le (b : ParserBuffer) (h : Heap) (n : Nat) :
    (b.consume h n).1.capacity ≤ b.capacity := by
  unfold consume
  split
  · exact Nat.zero_le _
  · exact Nat.le_refl _

end ParserBuffer

namespace FrameParser

open Heap (Charged Rooted)

variable {base : List ParserMemory} {k : Nat} {h : Heap}

theorem charged_push (p : FrameParser) (bytes : Bytes) (hroot : Rooted base)
    (hc : Charged base p.buf.memory (k + p.buf.capacity) h) :
    (p.push h bytes).1.buf.memory = p.buf.memory ∧
      Charged base p.buf.memory (k + (p.push h bytes).1.buf.capacity) (p.push h bytes).2 := by
  unfold push
  split
  · exact ⟨rfl, hc⟩
  · split
    next buf h' hx => exact ParserBuffer.charged_extend hroot hc hx
    next h' hx => exact ⟨rfl, ParserBuffer.charged_refused hroot hc hx⟩

/-- What a frame parser and the copy it hands out are charged. -/
structure Hands (base : List ParserMemory) (k : Nat) (p : FrameParser)
    (r : Option (Nat × ParserBuffer) × FrameParser × Heap) : Prop where
  memory : r.2.1.buf.memory = p.buf.memory
  copy : ∀ f ∈ r.1, f.2.memory = p.buf.memory
  charged : Charged base p.buf.memory
    (k + r.2.1.buf.capacity + (r.1.map fun f => f.2.capacity).getD 0) r.2.2
  shrinks : r.2.1.buf.capacity ≤ p.buf.capacity

theorem charged_nextFrame (p : FrameParser) (hroot : Rooted base)
    (hc : Charged base p.buf.memory (k + p.buf.capacity) h) :
    Hands base k p (p.nextFrame h) := by
  have hnone : ∀ error, Hands base k p (none, { p with error := error }, h) := fun error =>
    ⟨rfl, fun f hf => (by cases hf), hc, Nat.le_refl _⟩
  unfold nextFrame
  split
  · exact hnone p.error
  · split
    · exact hnone p.error
    · split
      · exact hnone p.error
      · simp only
        split
        · exact hnone true
        · split
          · exact hnone p.error
          · split
            next h' hx =>
              exact ⟨rfl, fun f hf => (by cases hf), ParserBuffer.charged_refused hroot hc hx,
                Nat.le_refl _⟩
            next payload h' hx =>
              obtain ⟨hmemory, hcopy⟩ := ParserBuffer.charged_copy hroot hc hx
              have hconsumed := fun n => ParserBuffer.charged_consume (b := p.buf) (h := h')
                (k := k + payload.capacity) n hroot (by convert hcopy using 1; omega)
              refine ⟨(hconsumed _).1, fun f hf => ?_, ?_, ParserBuffer.consume_capacity_le _ _ _⟩
              · obtain rfl := Option.some.inj hf
                exact hmemory
              · convert (hconsumed _).2 using 1
                simp only [Option.map_some, Option.getD_some]
                omega

end FrameParser

namespace Stream

open Heap (Charged Rooted)

/-- What the buffers of a stream are charged. -/
def charge (st : Stream) : Nat := st.frames.buf.capacity + st.classBuf.capacity

/-- The buffers of a stream belong to a budget. -/
structure Attached (m : Nat) (st : Stream) : Prop where
  frames : st.frames.buf.memory = m
  classBuf : st.classBuf.memory = m

/-- The buffers of a stream. -/
def buffers (st : Stream) : FrameParser × ParserBuffer := (st.frames, st.classBuf)

variable {base : List ParserMemory} {m k : Nat} {h : Heap} {st st' : Stream}

theorem charged_release (hroot : Rooted base) (ha : st.Attached m)
    (hc : Charged base m (k + st.charge) h) : Charged base m k (st.release h) := by
  unfold release
  rw [ha.frames, ha.classBuf]
  refine Charged.release (Charged.release ?_ hroot) hroot
  unfold charge at hc
  convert hc using 1
  omega

theorem attached_new (role : Role) (m : Nat) : (Stream.new role m).Attached m := ⟨rfl, rfl⟩

theorem attached_withPrefix (role : Role) (bytes : Bytes) (m : Nat) :
    (Stream.withPrefix role bytes m).Attached m := ⟨rfl, rfl⟩

theorem charge_congr (hb : st'.buffers = st.buffers) : st'.charge = st.charge := by
  obtain ⟨hframes, hclass⟩ := Prod.mk.inj hb
  rw [charge, charge, hframes, hclass]

theorem Attached.congr (hb : st'.buffers = st.buffers) (ha : st.Attached m) : st'.Attached m := by
  obtain ⟨hframes, hclass⟩ := Prod.mk.inj hb
  exact ⟨hframes ▸ ha.frames, hclass ▸ ha.classBuf⟩

@[simp] theorem charge_dead (st : Stream) : st.dead.charge = 0 := rfl

theorem Attached.dead (ha : st.Attached m) : st.dead.Attached m := ⟨ha.frames, ha.classBuf⟩

end Stream

/-! ## The ledger of a session -/

namespace Endpoint

open Heap (Charged Rooted path shift)

/-- What the buffers of a session are charged. -/
def charge (e : Endpoint) : Nat := e.capsuleBuf.capacity + e.streams.total Stream.charge

/-- The same without one stream. -/
def chargeBut (e : Endpoint) (id : Nat) : Nat :=
  e.capsuleBuf.capacity + (e.streams.erase id).total Stream.charge

/-- The counters hold what the session has charged, and `n` for copies. -/
structure Ledger (base : List ParserMemory) (m n : Nat) (e : Endpoint) : Prop where
  memory : e.parserMemory = m
  charged : Charged base m (e.charge + n) e.heap
  capsule : e.capsuleBuf.memory = m
  streams : ∀ id st, e.streams.get id = some st → st.Attached m
  closed : e.closed = true → e.charge = 0

/-- Nothing has changed that concerns memory. -/
structure SameMemory (e e' : Endpoint) : Prop where
  heap : e'.heap = e.heap
  capsule : e'.capsuleBuf = e.capsuleBuf
  memory : e'.parserMemory = e.parserMemory
  buffers : ∀ id, (e'.streams.get id).map Stream.buffers = (e.streams.get id).map Stream.buffers
  closed : e'.closed = e.closed

namespace SameMemory

theorem refl (e : Endpoint) : SameMemory e e := ⟨rfl, rfl, rfl, fun _ => rfl, rfl⟩

theorem trans {a b c : Endpoint} (hab : SameMemory a b) (hbc : SameMemory b c) : SameMemory a c where
  heap := hbc.heap.trans hab.heap
  capsule := hbc.capsule.trans hab.capsule
  memory := hbc.memory.trans hab.memory
  buffers id := (hbc.buffers id).trans (hab.buffers id)
  closed := hbc.closed.trans hab.closed

theorem modify {e e' : Endpoint} {id : Nat} {f : Stream → Stream}
    (hstreams : e'.streams = e.streams.modify id f) (hf : ∀ st, (f st).buffers = st.buffers)
    (hheap : e'.heap = e.heap) (hcapsule : e'.capsuleBuf = e.capsuleBuf)
    (hmemory : e'.parserMemory = e.parserMemory) (hclosed : e'.closed = e.closed) :
    SameMemory e e' where
  heap := hheap
  capsule := hcapsule
  memory := hmemory
  buffers i := by
    rw [hstreams, Table.get_modify]
    split
    · rw [Option.map_map]
      exact congrArg (Option.map · _) (funext hf)
    · rfl
  closed := hclosed

theorem modifyStream (e : Endpoint) (id : Nat) {f : Stream → Stream}
    (hf : ∀ st, (f st).buffers = st.buffers) : SameMemory e (e.modifyStream id f) :=
  modify rfl hf rfl rfl rfl rfl

theorem charge {e e' : Endpoint} (h : SameMemory e e') : e'.charge = e.charge := by
  refine congrArg₂ (· + ·) (congrArg ParserBuffer.capacity h.capsule) ?_
  refine Table.total_congr_get fun i => ?_
  have hb := h.buffers i
  cases hst : e.streams.get i with
  | none =>
      have hnone : e'.streams.get i = none := by simpa [hst] using hb
      simp [hnone]
  | some st =>
      rw [hst, Option.map_some, Option.map_eq_some_iff] at hb
      obtain ⟨st', hst', hsame⟩ := hb
      simp [hst', Stream.charge_congr hsame]

end SameMemory

section

variable {base : List ParserMemory} {m n : Nat} {e e' : Endpoint}

theorem Ledger.same (h : Ledger base m n e) (hs : SameMemory e e') : Ledger base m n e' where
  memory := hs.memory.trans h.memory
  charged := by
    rw [hs.heap, hs.charge]
    exact h.charged
  capsule := by rw [hs.capsule, h.capsule]
  streams id st hst := by
    have hb := hs.buffers id
    rw [hst, Option.map_some] at hb
    obtain ⟨st0, hst0, hsame⟩ := Option.map_eq_some_iff.mp hb.symm
    exact (h.streams id st0 hst0).congr hsame.symm
  closed hc := hs.charge.trans (h.closed (hs.closed.symm.trans hc))

theorem charge_split {id : Nat} {st : Stream} (hst : e.streams.get id = some st) :
    e.charge = st.charge + e.chargeBut id := by
  rw [charge, chargeBut, Table.total_split hst]
  omega

theorem chargeBut_of_none {id : Nat} (hst : e.streams.get id = none) :
    e.chargeBut id = e.charge := by
  rw [charge, chargeBut, Table.total_erase_of_none hst]

/-- One stream gets other buffers, and the counters follow. -/
theorem Ledger.exchange (h : Ledger base m n e) {id n' : Nat} {st : Stream} {f : Stream → Stream}
    (hst : e.streams.get id = some st) {heap : Heap} (ha : (f st).Attached m)
    (hcharged : Charged base m ((f st).charge + e.chargeBut id + n') heap)
    (hclosed : e.closed = true → (f st).charge ≤ st.charge) :
    Ledger base m n' { e with streams := e.streams.modify id f, heap := heap } := by
  have hcharge : charge { e with streams := e.streams.modify id f, heap := heap } =
      (f st).charge + e.chargeBut id := by
    show e.capsuleBuf.capacity + (e.streams.modify id f).total Stream.charge = _
    rw [Table.total_modify hst, chargeBut]
    omega
  refine ⟨h.memory, hcharge ▸ hcharged, h.capsule, fun i st' hst' => ?_, fun hc => ?_⟩
  · simp only [Table.get_modify] at hst'
    split at hst'
    next hi =>
      rw [hi, hst, Option.map_some] at hst'
      exact Option.some.inj hst' ▸ ha
    · exact h.streams i st' hst'
  · have hle := hclosed hc
    have hzero := h.closed hc
    rw [charge_split hst] at hzero
    rw [hcharge]
    omega

/-- A stream gives its buffers back. -/
theorem Ledger.release (h : Ledger base m n e) {id : Nat} {st : Stream}
    (hst : e.streams.get id = some st) (hroot : Rooted base) :
    Charged base m (e.chargeBut id + n) (st.release e.heap) := by
  refine Stream.charged_release hroot (h.streams id st hst) ?_
  have hc := h.charged
  rw [charge_split hst] at hc
  convert hc using 1
  omega

theorem Ledger.insertStream (h : Ledger base m n e) (id : Nat) {st : Stream}
    (ha : st.Attached m) (hzero : st.charge = 0) (hroot : Rooted base) :
    Ledger base m n (e.insertStream id st) := by
  have hcharge : (e.insertStream id st).charge = e.chargeBut id := by
    rw [charge, chargeBut, Endpoint.insertStream, Table.total_insert, hzero, Nat.zero_add]
  refine ⟨h.memory, ?_, h.capsule, fun i st' hst' => ?_, fun hc => ?_⟩
  · rw [hcharge]
    unfold Endpoint.insertStream
    simp only
    cases hst : e.streams.get id with
    | none =>
        rw [chargeBut_of_none hst]
        exact h.charged
    | some old => exact h.release hst hroot
  · simp only [Endpoint.insertStream, Table.get_insert] at hst'
    split at hst'
    · exact Option.some.inj hst' ▸ ha
    · exact h.streams i st' hst'
  · have hall := h.closed hc
    rw [hcharge]
    cases hst : e.streams.get id with
    | none => rw [chargeBut_of_none hst, hall]
    | some old =>
        rw [charge_split hst] at hall
        omega

theorem Ledger.removeStream (h : Ledger base m n e) (id : Nat) (hroot : Rooted base) :
    Ledger base m n (e.removeStream id) := by
  have hcharge : (e.removeStream id).charge = e.chargeBut id := rfl
  refine ⟨h.memory, ?_, h.capsule, fun i st' hst' => ?_, fun hc => ?_⟩
  · rw [hcharge]
    unfold Endpoint.removeStream
    simp only
    cases hst : e.streams.get id with
    | none =>
        rw [chargeBut_of_none hst]
        exact h.charged
    | some old => exact h.release hst hroot
  · simp only [Endpoint.removeStream, Table.get_erase] at hst'
    split at hst'
    · cases hst'
    · exact h.streams i st' hst'
  · have hall := h.closed hc
    rw [hcharge]
    cases hst : e.streams.get id with
    | none => rw [chargeBut_of_none hst, hall]
    | some old =>
        rw [charge_split hst] at hall
        omega

/-- A copy is dropped. -/
theorem Ledger.dropBuffer {b : ParserBuffer} (h : Ledger base m (n + b.capacity) e)
    (hb : b.memory = m) (hroot : Rooted base) : Ledger base m n (e.dropBuffer b) where
  memory := h.memory
  charged := by
    have hc := h.charged
    rw [← Nat.add_assoc] at hc
    have hrel := hc.release hroot
    rw [← hb] at hrel
    exact hb ▸ hrel
  capsule := h.capsule
  streams := h.streams
  closed := h.closed

/-- All buffers are given back. -/
theorem Ledger.releases (h : Ledger base m n e) (hroot : Rooted base) {g : Nat → Heap → Heap}
    (hg : ∀ id st, e.streams.get id = some st → ∀ heap, g id heap = st.release heap) :
    Charged base m n (e.streams.keys.foldl (fun h id => g id h)
      (e.heap.release e.capsuleBuf.memory e.capsuleBuf.capacity)) := by
  refine Charged.releases (c := fun id => ((e.streams.get id).map Stream.charge).getD 0)
    (fun id hid k heap hc => ?_) ?_
  · obtain ⟨st, hst⟩ := Table.exists_get_of_mem_keys hid
    rw [hg id st hst]
    simp only [hst, Option.map_some, Option.getD_some] at hc
    exact Stream.charged_release hroot (h.streams id st hst) hc
  · rw [h.capsule]
    refine Charged.release ?_ hroot
    have hc := h.charged
    unfold charge Table.total at hc
    convert hc using 1
    omega

/-- Behind `mark_closed` only the copies are charged. -/
theorem Ledger.markClosed (h : Ledger base m n e) (code : Nat) (reason : Bytes) (remote : Bool)
    (hroot : Rooted base) : Ledger base m n (e.markClosed code reason remote) := by
  unfold Endpoint.markClosed
  split
  · exact h
  · have hzero : (e.streams.map Stream.dead).total Stream.charge = 0 := by
      refine Table.total_zero fun i st hst => ?_
      rw [Table.get_map, Option.map_eq_some_iff] at hst
      obtain ⟨st0, -, rfl⟩ := hst
      exact Stream.charge_dead st0
    refine ⟨h.memory, ?_, h.capsule, fun i st hst => ?_, fun _ => ?_⟩
    · show Charged base m (0 + (e.streams.map Stream.dead).total Stream.charge + n) _
      rw [hzero, Nat.zero_add]
      exact h.releases hroot fun id st hst heap => by rw [hst]
    · simp only [Table.get_map, Option.map_eq_some_iff] at hst
      obtain ⟨st0, hst0, rfl⟩ := hst
      exact (h.streams i st0 hst0).dead
    · simp only [charge, hzero]
      rfl

theorem Ledger.killRecv (h : Ledger base m n e) (id : Nat) (hroot : Rooted base) :
    Ledger base m n (e.killRecv id) := by
  unfold Endpoint.killRecv
  cases hst : e.streams.get id with
  | none =>
      refine h.same ⟨rfl, rfl, rfl, fun i => ?_, rfl⟩
      simp only [shutdownRead, Table.get_modify]
      split
      next hi => rw [hi, hst]; rfl
      · rfl
  | some st =>
      have hex : Ledger base m n { e with
          streams := e.streams.modify id Stream.dead, heap := st.release e.heap } :=
        h.exchange hst (h.streams id st hst).dead (by simpa using h.release hst hroot)
          (fun _ => Nat.zero_le _)
      exact hex.same ⟨rfl, rfl, rfl, fun _ => rfl, rfl⟩

/-- The session ends behind an error. -/
theorem Ledger.fail (h : Ledger base m n e) (message : String) (code : Nat) (reason : Bytes)
    (remote : Bool) (hroot : Rooted base) :
    Ledger base m n ((e.emit (.error message)).markClosed code reason remote) := by
  have hemit : Ledger base m n (e.emit (.error message)) := h.same ⟨rfl, rfl, rfl, fun _ => rfl, rfl⟩
  exact hemit.markClosed code reason remote hroot

theorem Ledger.parserLimitExceeded (h : Ledger base m n e) (hroot : Rooted base) :
    Ledger base m n e.parserLimitExceeded := by
  unfold Endpoint.parserLimitExceeded
  split
  · exact h
  · exact h.fail _ _ _ _ hroot

theorem Ledger.flowError (h : Ledger base m n e) (message : String) (hroot : Rooted base) :
    Ledger base m n (e.flowError message) := by
  unfold Endpoint.flowError
  split
  · exact h
  · have hset : Ledger base m n { e with terminalError := some (0x045d4487, message) } :=
      h.same ⟨rfl, rfl, rfl, fun _ => rfl, rfl⟩
    exact hset.fail _ _ _ _ hroot

theorem Ledger.closeConn (h : Ledger base m n e) (code : Nat) (reason : Bytes) :
    Ledger base m n (e.closeConn code reason) := h.same ⟨rfl, rfl, rfl, fun _ => rfl, rfl⟩

theorem Ledger.protocolError (h : Ledger base m n e) (code : Nat) (message : String)
    (hroot : Rooted base) : Ledger base m n (e.protocolError code message) := by
  unfold Endpoint.protocolError
  split
  · exact h
  · exact (h.fail _ _ _ _ hroot).closeConn _ _

/-! ## Reading -/

theorem Ledger.nextFrame (h : Ledger base m n e) (id : Nat) (hroot : Rooted base) :
    Ledger base m (n + ((e.nextFrame id).1.map fun f => f.2.capacity).getD 0) (e.nextFrame id).2 ∧
      ∀ f ∈ (e.nextFrame id).1, f.2.memory = m := by
  unfold Endpoint.nextFrame
  cases hst : e.streams.get id with
  | none => exact ⟨h, fun f hf => (by cases hf)⟩
  | some st =>
      have ha := h.streams id st hst
      have hc := h.charged
      rw [charge_split hst, Stream.charge] at hc
      have hands := st.frames.charged_nextFrame (h := e.heap)
        (k := e.chargeBut id + st.classBuf.capacity + n) hroot
        (by rw [ha.frames]; convert hc using 1; omega)
      simp only
      generalize st.frames.nextFrame e.heap = r at hands ⊢
      obtain ⟨frame, frames, heap⟩ := r
      refine ⟨h.exchange hst ⟨hands.memory.trans ha.frames, ha.classBuf⟩ ?_ fun _ => ?_,
        fun f hf => (hands.copy f hf).trans ha.frames⟩
      · have hcharged := hands.charged
        rw [ha.frames] at hcharged
        convert hcharged using 1
        simp only [Stream.charge]
        omega
      · have hle : frames.buf.capacity ≤ st.frames.buf.capacity := hands.shrinks
        simp only [Stream.charge]
        omega

theorem Ledger.pushFrames (h : Ledger base m n e) (hopen : e.closed = false) (id : Nat)
    (chunk : Bytes) (hroot : Rooted base) : Ledger base m n (e.pushFrames id chunk) := by
  unfold Endpoint.pushFrames
  cases hst : e.streams.get id with
  | none => exact h
  | some st =>
      have ha := h.streams id st hst
      have hc := h.charged
      rw [charge_split hst, Stream.charge] at hc
      obtain ⟨hmemory, hcharged⟩ := st.frames.charged_push (h := e.heap)
        (k := e.chargeBut id + st.classBuf.capacity + n) chunk hroot
        (by rw [ha.frames]; convert hc using 1; omega)
      simp only
      generalize st.frames.push e.heap chunk = r at hmemory hcharged ⊢
      obtain ⟨frames, heap⟩ := r
      refine h.exchange hst ⟨hmemory.trans ha.frames, ha.classBuf⟩ ?_ fun hc => ?_
      · rw [ha.frames] at hcharged
        convert hcharged using 1
        simp only [Stream.charge]
        omega
      · exact absurd (hopen.symm.trans hc) (by simp)

/-- Another capsule buffer. -/
theorem Ledger.setCapsule {n' : Nat} (h : Ledger base m n e) {buf : ParserBuffer} {heap : Heap}
    (hbuf : buf.memory = m)
    (hcharged : Charged base m (buf.capacity + e.streams.total Stream.charge + n') heap)
    (hopen : e.closed = false) :
    Ledger base m n' { e with capsuleBuf := buf, heap := heap } where
  memory := h.memory
  charged := hcharged
  capsule := hbuf
  streams := h.streams
  closed hc := absurd (hopen.symm.trans hc) (by simp)

/-- Another heap, with other copies. -/
theorem Ledger.setHeap {n' : Nat} (h : Ledger base m n e) {heap : Heap}
    (hcharged : Charged base m (e.charge + n') heap) : Ledger base m n' { e with heap := heap } where
  memory := h.memory
  charged := hcharged
  capsule := h.capsule
  streams := h.streams
  closed := h.closed

theorem Ledger.handleCapsule (h : Ledger base m n e) (ty : Nat) (value : Bytes)
    (hroot : Rooted base) : Ledger base m n (e.handleCapsule ty value).1 := by
  unfold Endpoint.handleCapsule
  split
  · exact h.markClosed _ _ _ hroot
  · split
    · exact h.same ⟨rfl, rfl, rfl, fun _ => rfl, rfl⟩
    · split
      · split
        · exact h.flowError _ hroot
        · split
          · exact h.flowError _ hroot
          · split
            · exact h
            · split
              · exact h.flowError _ hroot
              · refine h.same ?_
                unfold setCreditLimit
                split_ifs <;> exact ⟨rfl, rfl, rfl, fun _ => rfl, rfl⟩
      · exact h

theorem Ledger.capsuleStep (h : Ledger base m n e) (hroot : Rooted base) :
    Ledger base m n (capsuleStep e).1 := by
  unfold Endpoint.capsuleStep
  split
  · exact h
  next hopen =>
    have hopen : e.closed = false := by simpa using hopen
    split
    · exact h
    · split
      · exact h
      · simp only
        split
        · exact h.fail _ _ _ _ hroot
        · split
          · exact h
          · have hc := h.charged
            rw [← h.capsule] at hc
            split
            next heap hx =>
              refine Ledger.parserLimitExceeded (h.setHeap ?_) hroot
              rw [← h.capsule]
              exact ParserBuffer.charged_refused (b := .new e.capsuleBuf.memory) hroot hc hx
            next value heap hx =>
              obtain ⟨hmemory, hcopy⟩ := ParserBuffer.charged_copy hroot hc hx
              have hconsumed := fun len => ParserBuffer.charged_consume (b := e.capsuleBuf) (h := heap)
                (k := e.streams.total Stream.charge + n + value.capacity) len hroot
                (by convert hcopy using 1; unfold charge; omega)
              have htaken : ∀ len, Ledger base m (n + value.capacity) { e with
                  capsuleBuf := (e.capsuleBuf.consume heap len).1
                  heap := (e.capsuleBuf.consume heap len).2 } := fun len =>
                h.setCapsule ((hconsumed len).1.trans h.capsule)
                  (by rw [← h.capsule]; convert (hconsumed len).2 using 1; omega) hopen
              refine Ledger.dropBuffer (Ledger.handleCapsule ?_ _ _ hroot) (hmemory.trans h.capsule) hroot
              exact (htaken _).same ⟨rfl, rfl, rfl, fun _ => rfl, rfl⟩

theorem Ledger.scanCapsules (h : Ledger base m n e) (payload : Bytes) (hroot : Rooted base) :
    Ledger base m n (e.scanCapsules payload) := by
  unfold Endpoint.scanCapsules
  split
  · exact h
  next hopen =>
    have hc := h.charged
    rw [← h.capsule] at hc
    split
    next heap hx =>
      refine Ledger.parserLimitExceeded (h.setHeap ?_) hroot
      rw [← h.capsule]
      exact ParserBuffer.charged_refused hroot hc hx
    next buf heap hx =>
      obtain ⟨hmemory, hcharged⟩ := ParserBuffer.charged_extend
        (k := e.streams.total Stream.charge + n) hroot (by convert hc using 1; unfold charge; omega) hx
      refine iterate_invariant (fun e he => he.capsuleStep hroot) _
        (h.setCapsule (hmemory.trans h.capsule) ?_ (by simpa using hopen))
      rw [← h.capsule]
      convert hcharged using 1
      omega

/-! ## Handshakes -/

theorem Ledger.modify (h : Ledger base m n e) (id : Nat) {f : Stream → Stream}
    (hf : ∀ st, (f st).buffers = st.buffers) : Ledger base m n (e.modifyStream id f) :=
  h.same (.modifyStream e id hf)

theorem Ledger.emit (h : Ledger base m n e) (v : Ev) : Ledger base m n (e.emit v) :=
  h.same ⟨rfl, rfl, rfl, fun _ => rfl, rfl⟩

theorem Ledger.log (h : Ledger base m n e) (t : Trace) : Ledger base m n (e.log t) :=
  h.same ⟨rfl, rfl, rfl, fun _ => rfl, rfl⟩

variable [H3.Codec]

theorem Ledger.connectResponse (h : Ledger base m n e) (headers : List H3.Header)
    (hroot : Rooted base) : Ledger base m n (e.connectResponse headers) := by
  unfold Endpoint.connectResponse
  simp only
  split
  · split
    · exact h
    · split
      · exact h.protocolError _ _ hroot
      · have hready : Ledger base m n e.becomeReady := h.same ⟨rfl, rfl, rfl, fun _ => rfl, rfl⟩
        exact hready.emit _
  · exact (h.fail _ _ _ _ hroot).closeConn _ _

theorem Ledger.rejectConnect (h : Ledger base m n e) (id status : Nat) (hroot : Rooted base) :
    Ledger base m n (e.rejectConnect id status) := by
  unfold Endpoint.rejectConnect
  simp only
  refine Ledger.markClosed (Ledger.log ?_ _) _ _ _ hroot
  cases H3.encodeHeadersFrame [⟨H3.ascii ":status", H3.asBytes (toString status)⟩] with
  | error _ =>
      simp only
      split
      · exact h.emit _
      · exact h
  | ok frame =>
      have hqueued := h.modify id (f := fun st => { st.push frame none with finQueued := true })
        fun _ => rfl
      simp only
      split
      · exact hqueued.emit _
      · exact hqueued

theorem Ledger.acceptConnect (h : Ledger base m n e) (id : Nat) (headers : List H3.Header)
    (hroot : Rooted base) : Ledger base m n (e.acceptConnect id headers) := by
  unfold Endpoint.acceptConnect
  simp only
  split
  · exact h.rejectConnect _ _ hroot
  · split
    · exact h.rejectConnect _ _ hroot
    · split
      next frame _ =>
        have hpushed := h.modify id (f := fun st => st.push frame none) fun _ => rfl
        have hready : Ledger base m n (e.modifyStream id fun st => st.push frame none).becomeReady :=
          hpushed.same ⟨rfl, rfl, rfl, fun _ => rfl, rfl⟩
        exact hready.emit _
      · exact h.emit _

omit [H3.Codec] in
/-- One pass of a loop that takes a frame and drops its copy. -/
theorem Ledger.frameLoop (h : Ledger base m n e) (id : Nat) (hroot : Rooted base)
    {frame : Option (Nat × ParserBuffer)} {e1 : Endpoint} (hnext : e.nextFrame id = (frame, e1)) :
    (frame = none → Ledger base m n e1) ∧ ∀ ty payload, frame = some (ty, payload) →
      Ledger base m (n + payload.capacity) e1 ∧ payload.memory = m := by
  have hframe := h.nextFrame id hroot
  rw [hnext] at hframe
  constructor
  · rintro rfl
    exact hframe.1
  · rintro ty payload rfl
    exact ⟨hframe.1, hframe.2 _ rfl⟩

theorem Ledger.connectStep (h : Ledger base m n e) (id : Nat) (hroot : Rooted base) :
    Ledger base m n (connectStep id e).1 := by
  unfold Endpoint.connectStep
  split
  · exact h
  · split
    next e1 hnext => exact (h.frameLoop id hroot hnext).1 rfl
    next ty payload e1 hnext =>
      obtain ⟨htaken, hmemory⟩ := (h.frameLoop id hroot hnext).2 ty payload rfl
      refine Ledger.dropBuffer ?_ hmemory hroot
      have hlog := htaken.log (.connectFrame ty payload.data)
      split
      · have hset := hlog.modify id (f := fun st => { st with headersDone := true }) fun _ => rfl
        split
        · exact Ledger.connectResponse hset _ hroot
        · exact Ledger.emit hset _
      · split
        · exact hlog.scanCapsules _ hroot
        · exact hlog

theorem Ledger.serverConnectStep (h : Ledger base m n e) (id : Nat) (hroot : Rooted base) :
    Ledger base m n (serverConnectStep id e).1 := by
  unfold Endpoint.serverConnectStep
  split
  · exact h
  · split
    next e1 hnext => exact (h.frameLoop id hroot hnext).1 rfl
    next ty payload e1 hnext =>
      obtain ⟨htaken, hmemory⟩ := (h.frameLoop id hroot hnext).2 ty payload rfl
      refine Ledger.dropBuffer ?_ hmemory hroot
      have hlog := htaken.log (.connectFrame ty payload.data)
      split
      · have hset := hlog.modify id (f := fun st => { st with headersDone := true }) fun _ => rfl
        split
        · exact Ledger.acceptConnect hset _ _ hroot
        · exact Ledger.rejectConnect (Ledger.emit hset _) _ _ hroot
      · split
        · exact hlog.scanCapsules _ hroot
        · exact hlog

theorem Ledger.parseConnectFrames (h : Ledger base m n e) (id : Nat) (hroot : Rooted base) :
    Ledger base m n (e.parseConnectFrames id) :=
  iterate_invariant (fun _ he => he.connectStep id hroot) _ h

theorem Ledger.parseServerConnectFrames (h : Ledger base m n e) (id : Nat) (hroot : Rooted base) :
    Ledger base m n (e.parseServerConnectFrames id) := by
  unfold Endpoint.parseServerConnectFrames
  split
  · exact h
  · split
    · exact h.rejectConnect _ _ hroot
    · exact iterate_invariant (fun _ he => he.serverConnectStep id hroot) _ h

theorem Ledger.queueConnect (h : Ledger base m n e) (hroot : Rooted base) :
    Ledger base m n e.queueConnect := by
  unfold Endpoint.queueConnect
  split
  · exact (h.log _).insertStream _ (h.memory ▸ Stream.attached_withPrefix _ _ _) rfl hroot
  · exact h.emit _

theorem Ledger.releaseConnect (h : Ledger base m n e) (settings : H3.PeerSettings)
    (hroot : Rooted base) : Ledger base m n (e.releaseConnect settings) := by
  unfold Endpoint.releaseConnect
  split
  · have hset : Ledger base m n { e with connectPending := false } :=
      h.same ⟨rfl, rfl, rfl, fun _ => rfl, rfl⟩
    simp only
    split
    · exact hset.queueConnect hroot
    · exact hset.fail _ _ _ _ hroot
  · exact h

theorem Ledger.applySettings (h : Ledger base m n e) (settings : H3.PeerSettings)
    (hroot : Rooted base) : Ledger base m n (e.applySettings settings) := by
  unfold Endpoint.applySettings
  have hseed : Ledger base m n (e.seedLimits settings) := h.same ⟨rfl, rfl, rfl, fun _ => rfl, rfl⟩
  have hreleased := hseed.releaseConnect settings hroot
  simp only
  split
  · exact hreleased.parseServerConnectFrames _ hroot
  · exact hreleased

theorem Ledger.handleControlFrame (h : Ledger base m n e) (id : Nat) (first : Bool) (ty : Nat)
    (payload : Bytes) (hroot : Rooted base) :
    Ledger base m n (e.handleControlFrame id first ty payload) := by
  unfold Endpoint.handleControlFrame
  split
  · exact h.protocolError _ _ hroot
  · split
    · split
      · exact h.protocolError _ _ hroot
      · have hset := h.modify id (f := fun st => { st with headersDone := true }) fun _ => rfl
        simp only
        split
        · exact Ledger.applySettings hset _ hroot
        · exact Ledger.protocolError hset _ _ hroot
    · split
      · exact h.protocolError _ _ hroot
      · split
        · exact h.same ⟨rfl, rfl, rfl, fun _ => rfl, rfl⟩
        · exact h

theorem Ledger.controlStep (h : Ledger base m n e) (id : Nat) (hroot : Rooted base) :
    Ledger base m n (controlStep id e).1 := by
  unfold Endpoint.controlStep
  split
  · exact h
  · split
    next e1 hnext => exact (h.frameLoop id hroot hnext).1 rfl
    next ty payload e1 hnext =>
      obtain ⟨htaken, hmemory⟩ := (h.frameLoop id hroot hnext).2 ty payload rfl
      exact Ledger.dropBuffer (Ledger.handleControlFrame (htaken.log _) _ _ _ _ hroot) hmemory hroot

theorem Ledger.parseControlFrames (h : Ledger base m n e) (id : Nat) (hroot : Rooted base) :
    Ledger base m n (e.parseControlFrames id) :=
  iterate_invariant (fun _ he => he.controlStep id hroot) _ h

theorem Ledger.recvControl (h : Ledger base m n e) (hopen : e.closed = false) (id : Nat)
    (chunk : Bytes) (fin : Bool) (hroot : Rooted base) :
    Ledger base m n (e.recvControl id chunk fin) := by
  unfold Endpoint.recvControl
  have hparsed := (h.pushFrames hopen id chunk hroot).parseControlFrames id hroot
  generalize (e.pushFrames id chunk).parseControlFrames id = e1 at hparsed
  have hended : Ledger base m n (if fin ∧ !e1.closed then
      e1.protocolError 0x104 "peer closed the HTTP/3 control stream"
    else e1) := by
    split
    · exact hparsed.protocolError _ _ hroot
    · exact hparsed
  simp only
  generalize (if fin ∧ !e1.closed then
      e1.protocolError 0x104 "peer closed the HTTP/3 control stream"
    else e1) = e2 at hended
  split
  · split
    · exact hended.killRecv id hroot
    · exact ((hended.killRecv id hroot).fail _ _ _ _ hroot).closeConn _ _
  · exact hended

theorem Ledger.recvConnect (h : Ledger base m n e) (hopen : e.closed = false) (id : Nat)
    (chunk : Bytes) (fin : Bool) (hroot : Rooted base) :
    Ledger base m n (e.recvConnect id chunk fin) := by
  unfold Endpoint.recvConnect
  have hpushed := h.pushFrames hopen id chunk hroot
  have hparsed : Ledger base m n (if (e.pushFrames id chunk).cfg.isServer then
      (e.pushFrames id chunk).parseServerConnectFrames id
    else (e.pushFrames id chunk).parseConnectFrames id) := by
    split
    · exact hpushed.parseServerConnectFrames id hroot
    · exact hpushed.parseConnectFrames id hroot
  simp only
  generalize (if (e.pushFrames id chunk).cfg.isServer then
      (e.pushFrames id chunk).parseServerConnectFrames id
    else (e.pushFrames id chunk).parseConnectFrames id) = e2 at hparsed
  have hchecked : Ledger base m n (if e2.frameError id ∧ !e2.closed then
      (((e2.killRecv id).emit (.error "malformed HTTP/3 CONNECT stream")).markClosed 0 [] true
        ).closeConn 0 (H3.ascii "h3 connect error")
    else e2) := by
    split
    · exact ((hparsed.killRecv id hroot).fail _ _ _ _ hroot).closeConn _ _
    · exact hparsed
  generalize (if e2.frameError id ∧ !e2.closed then
      (((e2.killRecv id).emit (.error "malformed HTTP/3 CONNECT stream")).markClosed 0 [] true
        ).closeConn 0 (H3.ascii "h3 connect error")
    else e2) = e3 at hchecked
  split
  · split
    · exact Ledger.protocolError (hchecked.log _) _ _ hroot
    · exact Ledger.markClosed (hchecked.log _) _ _ _ hroot
  · exact hchecked

/-! ## Streams -/

omit [H3.Codec] in
theorem Ledger.accountReceive (h : Ledger base m n e) (id amount : Nat) (hroot : Rooted base) :
    Ledger base m n (e.accountReceive id amount).1 := by
  unfold Endpoint.accountReceive
  have hcharged : Ledger base m n (e.chargeStream id amount) :=
    h.same (.modify rfl (fun _ => rfl) rfl rfl rfl rfl)
  simp only
  split
  · exact hcharged.flowError _ hroot
  · exact hcharged

omit [H3.Codec] in
theorem Ledger.accountIncoming (h : Ledger base m n e) (bidi : Bool) (hroot : Rooted base) :
    Ledger base m n (e.accountIncoming bidi).1 := by
  unfold Endpoint.accountIncoming
  have hcounted : Ledger base m n (e.countStream bidi) := h.same ⟨rfl, rfl, rfl, fun _ => rfl, rfl⟩
  simp only
  split
  · exact hcounted.flowError _ hroot
  · exact hcounted

omit [H3.Codec] in
theorem Ledger.surfaceData (h : Ledger base m n e) (id : Nat) (chunk : Bytes) (fin : Bool) :
    Ledger base m n (e.surfaceData id chunk fin) := by
  have hdata : Ledger base m n (if chunk.isEmpty then e else e.emit (.streamData id chunk)) := by
    split
    · exact h
    · exact h.emit _
  unfold Endpoint.surfaceData
  simp only
  split
  · have hdead := hdata.modify id (f := fun st => { st with recvDead := true }) fun _ => rfl
    exact Ledger.emit hdead _
  · exact hdata

omit [H3.Codec] in
theorem Ledger.recvData (h : Ledger base m n e) (id : Nat) (chunk : Bytes) (fin : Bool)
    (hroot : Rooted base) : Ledger base m n (e.recvData id chunk fin) := by
  have hreceived := h.accountReceive id chunk.length hroot
  unfold Endpoint.recvData
  split
  next e1 hx => rwa [hx] at hreceived
  next e1 hx =>
    rw [hx] at hreceived
    exact hreceived.surfaceData id chunk fin

omit [H3.Codec] in
theorem Ledger.pushClass (h : Ledger base m n e) (hopen : e.closed = false) (id : Nat)
    (chunk : Bytes) (hroot : Rooted base) : Ledger base m n (e.pushClass id chunk).1 := by
  unfold Endpoint.pushClass
  cases hst : e.streams.get id with
  | none => exact h
  | some st =>
      have ha := h.streams id st hst
      have hc := h.charged
      rw [charge_split hst, Stream.charge] at hc
      simp only
      split
      next heap hx =>
        refine Ledger.parserLimitExceeded (h.setHeap ?_) hroot
        exact ParserBuffer.charged_refused hroot h.charged hx
      next buf heap hx =>
        obtain ⟨hmemory, hcharged⟩ := ParserBuffer.charged_extend
          (k := e.chargeBut id + st.frames.buf.capacity + n) hroot
          (by rw [ha.classBuf]; convert hc using 1; omega) hx
        refine h.exchange hst ⟨ha.frames, hmemory.trans ha.classBuf⟩ ?_ fun hc => ?_
        · rw [ha.classBuf] at hcharged
          convert hcharged using 1
          simp only [Stream.charge]
          omega
        · exact absurd (hopen.symm.trans hc) (by simp)

omit [H3.Codec] in
theorem pushClass_open (hopen : e.closed = false) {id : Nat} {chunk buf : Bytes} {e1 : Endpoint}
    (hx : e.pushClass id chunk = (e1, some buf)) : e1.closed = false := by
  unfold Endpoint.pushClass at hx
  split at hx
  · cases hx
  · split at hx
    · cases hx
    · cases hx
      exact hopen

omit [H3.Codec] in
theorem Ledger.classify (h : Ledger base m n e) (id : Nat) (role : Role) (hroot : Rooted base) :
    Ledger base m n (e.classify id role) := by
  unfold Endpoint.classify
  cases hst : e.streams.get id with
  | none =>
      refine h.same ⟨rfl, rfl, rfl, fun i => ?_, rfl⟩
      rw [Table.get_modify]
      split
      next hi => rw [hi, hst]; rfl
      · rfl
  | some st =>
      have ha := h.streams id st hst
      have hc := h.charged
      rw [charge_split hst, Stream.charge] at hc
      refine h.exchange hst ⟨ha.frames, ha.classBuf⟩ ?_ fun _ => ?_
      · simp only
        rw [ha.classBuf]
        refine Charged.release ?_ hroot
        convert hc using 1
        simp only [Stream.charge, ParserBuffer.new]
        omega
      · simp only [Stream.charge, ParserBuffer.new]
        omega

omit [H3.Codec] in
theorem Ledger.surfaceStream (h : Ledger base m n e) (id : Nat) (bidi : Bool) (buf : Bytes)
    (header : Nat) (fin : Bool) (hroot : Rooted base) :
    Ledger base m n (e.surfaceStream id bidi buf header fin) := by
  have hresolved := (h.classify id (.wtData bidi) hroot).modify id
    (f := fun st => { st with recvPrefix := header }) fun _ => rfl
  have hcounted := Ledger.accountIncoming hresolved bidi hroot
  unfold Endpoint.surfaceStream
  simp only
  split
  next e2 hx => rwa [hx] at hcounted
  next e2 hx =>
    rw [hx] at hcounted
    have hreceived := hcounted.accountReceive id (buf.drop header).length hroot
    split
    next e3 hy => rwa [hy] at hreceived
    next e3 hy =>
      rw [hy] at hreceived
      exact (hreceived.emit _).surfaceData _ _ _

omit [H3.Codec] in
theorem Ledger.forgetIf (h : Ledger base m n e) (id : Nat) (fin : Bool) (hroot : Rooted base) :
    Ledger base m n (e.forgetIf id fin) := by
  unfold Endpoint.forgetIf
  split
  · exact h.removeStream id hroot
  · exact h

omit [H3.Codec] in
theorem Ledger.shutdownRead (h : Ledger base m n e) (id err : Nat) :
    Ledger base m n (e.shutdownRead id err) := h.same ⟨rfl, rfl, rfl, fun _ => rfl, rfl⟩

theorem Ledger.resolvePendingUni (h : Ledger base m n e) (hopen : e.closed = false) (id : Nat)
    (chunk : Bytes) (fin : Bool) (hroot : Rooted base) :
    Ledger base m n (e.resolvePendingUni id chunk fin) := by
  have hpushed := h.pushClass hopen id chunk hroot
  unfold Endpoint.resolvePendingUni
  split
  next e1 hx => rwa [hx] at hpushed
  next e1 buf hx =>
    have hopen1 := pushClass_open hopen hx
    rw [hx] at hpushed
    split
    · exact hpushed.forgetIf id fin hroot
    · split
      · split
        · exact hpushed.protocolError _ _ hroot
        · exact (hpushed.classify id _ hroot).recvControl hopen1 _ _ _ hroot
      · split
        · simp only
          split
          · exact hpushed.protocolError _ _ hroot
          · split
            · exact (hpushed.classify id _ hroot).protocolError _ _ hroot
            · exact hpushed.classify id _ hroot
        · split
          · split
            · exact hpushed.forgetIf id fin hroot
            · split
              · exact (hpushed.shutdownRead id 0).classify id _ hroot
              · exact hpushed.surfaceStream _ _ _ _ _ hroot
          · exact hpushed.classify id _ hroot

omit [H3.Codec] in
theorem Ledger.resolvePendingBidi (h : Ledger base m n e) (hopen : e.closed = false) (id : Nat)
    (chunk : Bytes) (fin : Bool) (hroot : Rooted base) :
    Ledger base m n (e.resolvePendingBidi id chunk fin) := by
  have hpushed := h.pushClass hopen id chunk hroot
  unfold Endpoint.resolvePendingBidi
  split
  next e1 hx => rwa [hx] at hpushed
  next e1 buf hx =>
    rw [hx] at hpushed
    split
    · exact hpushed.forgetIf id fin hroot
    · split
      · exact (hpushed.shutdownRead id 0).classify id _ hroot
      · split
        · exact hpushed.forgetIf id fin hroot
        · split
          · exact (hpushed.shutdownRead id 0).classify id _ hroot
          · exact hpushed.surfaceStream _ _ _ _ _ hroot

theorem Ledger.processRecv (h : Ledger base m n e) (hopen : e.closed = false) (id : Nat)
    (chunk : Bytes) (fin : Bool) (hroot : Rooted base) :
    Ledger base m n (e.processRecv id chunk fin) := by
  unfold Endpoint.processRecv
  split
  · exact h
  · exact h
  · split
    · exact h.protocolError _ _ hroot
    · exact h
  · split
    · exact h.modify id fun _ => rfl
    · exact h
  · exact h.recvControl hopen id chunk fin hroot
  · exact h.recvConnect hopen id chunk fin hroot
  · exact h.recvData id chunk fin hroot
  · exact h.resolvePendingUni hopen id chunk fin hroot
  · exact h.resolvePendingBidi hopen id chunk fin hroot

omit [H3.Codec] in
theorem Ledger.surfaceReset (h : Ledger base m n e) (id code : Nat) (hroot : Rooted base) :
    Ledger base m n (e.surfaceReset id code) := by
  have hdead : Ledger base m n (e.setRecvDead id) := h.modify id fun _ => rfl
  unfold Endpoint.surfaceReset
  simp only
  split
  · exact hdead.emit _
  · exact hdead.protocolError _ _ hroot
  · exact hdead.protocolError _ _ hroot
  · split
    · exact hdead
    · split
      · exact hdead.markClosed _ _ _ hroot
      · exact (hdead.emit _).markClosed _ _ _ hroot
  · exact hdead

omit [H3.Codec] in
theorem Ledger.recvReset (h : Ledger base m n e) (id code : Nat) (finalSize : Option Nat)
    (hroot : Rooted base) : Ledger base m n (e.recvReset id code finalSize) := by
  unfold Endpoint.recvReset
  split
  next size st _ =>
    split
    · have hreceived := h.accountReceive id (size - st.recvPrefix - st.recvPayload) hroot
      split
      next e1 hx => rwa [hx] at hreceived
      next e1 hx =>
        rw [hx] at hreceived
        exact hreceived.surfaceReset _ _ hroot
    · exact h.surfaceReset _ _ hroot
  · exact h.surfaceReset _ _ hroot

theorem Ledger.readStep (h : Ledger base m n e) (hopen : e.closed = false) (id : Nat)
    (backpressured : Bool) (hroot : Rooted base) :
    Ledger base m n (readStep id backpressured e).1 := by
  have hconn : ∀ conn, Ledger base m n { e with conn := conn } := fun _ =>
    h.same ⟨rfl, rfl, rfl, fun _ => rfl, rfl⟩
  unfold Endpoint.readStep
  split
  · exact h
  · split
    · exact h
    · simp only
      split
      next chunk fin conn _ => exact (hconn conn).processRecv hopen id chunk fin hroot
      next code conn _ => exact (hconn conn).recvReset id code _ hroot
      next conn _ _ => exact hconn conn

omit [H3.Codec] in
theorem Ledger.touch (h : Ledger base m n e) (id : Nat) (hroot : Rooted base) :
    Ledger base m n (e.touch id) := by
  unfold Endpoint.touch
  split
  · exact h
  · exact h.insertStream id (h.memory ▸ Stream.attached_new _ _) rfl hroot

end

/-! ## Everything else -/

namespace SameMemory

variable {e : Endpoint}

/-- Fields that have nothing to do with memory. -/
theorem of_eq {e e' : Endpoint} (hheap : e'.heap = e.heap) (hcapsule : e'.capsuleBuf = e.capsuleBuf)
    (hmemory : e'.parserMemory = e.parserMemory) (hstreams : e'.streams = e.streams)
    (hclosed : e'.closed = e.closed) : SameMemory e e' :=
  ⟨hheap, hcapsule, hmemory, fun id => by rw [hstreams], hclosed⟩

theorem queueOnConnect (e : Endpoint) (body : Bytes) : SameMemory e (e.queueOnConnect body) :=
  modifyStream e connectId fun _ => rfl

theorem raiseDataLimit (e : Endpoint) (limit : Nat) : SameMemory e (e.raiseDataLimit limit) :=
  modify rfl (fun _ => rfl) rfl rfl rfl rfl

theorem raiseStreamsLimit (e : Endpoint) (bidi : Bool) (limit : Nat) :
    SameMemory e (e.raiseStreamsLimit bidi limit) :=
  modify rfl (fun _ => rfl) rfl rfl rfl rfl

theorem replenish (e : Endpoint) : SameMemory e e.replenish := by
  have hdata : ∀ e : Endpoint, SameMemory e e.replenishData := by
    intro e
    unfold replenishData
    split
    · simp only
      split
      · exact raiseDataLimit e _
      · exact refl e
    · exact refl e
  have hstreams : ∀ (e : Endpoint) (bidi : Bool), SameMemory e (e.replenishStreams bidi) := by
    intro e bidi
    unfold replenishStreams
    split
    · simp only
      split
      · exact raiseStreamsLimit e bidi _
      · exact refl e
    · exact refl e
  unfold Endpoint.replenish
  split
  · exact (hdata e).trans ((hstreams _ false).trans (hstreams _ true))
  · exact refl e

theorem grantCredit (e : Endpoint) : SameMemory e e.grantCredit := by
  unfold Endpoint.grantCredit
  split
  · refine trans (trans (trans ?_ (queueOnConnect _ _)) (queueOnConnect _ _)) (queueOnConnect _ _)
    exact of_eq rfl rfl rfl rfl rfl
  · exact refl e

theorem takeTerminalError (e : Endpoint) : SameMemory e e.takeTerminalError := by
  unfold Endpoint.takeTerminalError
  split
  · exact of_eq rfl rfl rfl rfl rfl
  · exact refl e

theorem queueClose (e : Endpoint) : SameMemory e e.queueClose := by
  unfold Endpoint.queueClose
  split
  · exact refl e
  · split
    · exact refl e
    · simp only
      split
      · exact modify rfl (fun _ => rfl) rfl rfl rfl rfl
      · exact of_eq rfl rfl rfl rfl rfl

theorem signalFlowControlBlocked (e : Endpoint) : SameMemory e e.signalFlowControlBlocked := by
  have hdata : ∀ e : Endpoint, SameMemory e e.signalDataBlocked := by
    intro e
    unfold signalDataBlocked
    split
    · exact (queueOnConnect e _).trans (of_eq rfl rfl rfl rfl rfl)
    · exact refl e
  have hstreams : ∀ (e : Endpoint) (bidi : Bool), SameMemory e (e.signalStreamsBlocked bidi) := by
    intro e bidi
    unfold signalStreamsBlocked
    simp only
    split
    · split
      · exact (queueOnConnect e _).trans (of_eq rfl rfl rfl rfl rfl)
      · exact (queueOnConnect e _).trans (of_eq rfl rfl rfl rfl rfl)
    · exact refl e
  unfold Endpoint.signalFlowControlBlocked
  split
  · exact refl e
  · exact (hdata e).trans ((hstreams _ true).trans (hstreams _ false))

theorem gracefulClose (e : Endpoint) : SameMemory e e.gracefulClose := by
  have harm : SameMemory e e.armQuicClose := by
    unfold armQuicClose
    split
    · split
      · exact of_eq rfl rfl rfl rfl rfl
      · exact refl e
    · exact refl e
  unfold Endpoint.gracefulClose
  split
  · exact refl e
  · simp only
    split
    · split
      · exact harm.trans (of_eq rfl rfl rfl rfl rfl)
      · exact harm.trans (of_eq rfl rfl rfl rfl rfl)
    · exact harm

theorem reconcileSendFinalSize (e : Endpoint) (id : Nat) :
    SameMemory e (e.reconcileSendFinalSize id) := by
  unfold Endpoint.reconcileSendFinalSize
  split
  · simp only
    split
    · exact modify rfl (fun _ => rfl) rfl rfl rfl rfl
    · exact refl e
  · exact refl e

theorem dropQueue (e : Endpoint) (id : Nat) : SameMemory e (e.dropQueue id) := by
  unfold Endpoint.dropQueue
  split
  · exact refl e
  · exact modify rfl (fun _ => rfl) rfl rfl rfl rfl

theorem streamReset (e : Endpoint) (id code : Nat) : SameMemory e (e.streamReset id code) := by
  unfold Endpoint.streamReset
  split
  · refine trans (trans (trans ?_ (reconcileSendFinalSize _ id)) (dropQueue _ id))
      (modifyStream _ id fun _ => rfl)
    exact of_eq rfl rfl rfl rfl rfl
  · exact refl e

theorem streamStopSending (e : Endpoint) (id code : Nat) :
    SameMemory e (e.streamStopSending id code) := by
  unfold Endpoint.streamStopSending
  split
  · exact modify rfl (fun _ => rfl) rfl rfl rfl rfl
  · exact refl e

theorem streamWrite (e : Endpoint) (id : Nat) (data : Bytes) (requestId : Nat) :
    SameMemory e (e.streamWrite id data requestId) := by
  unfold Endpoint.streamWrite
  simp only
  split
  · exact modify rfl (fun _ => rfl) rfl rfl rfl rfl
  · exact of_eq rfl rfl rfl rfl rfl

theorem sendDrain (e : Endpoint) : SameMemory e e.sendDrain := by
  unfold Endpoint.sendDrain
  split
  · exact refl e
  · split
    · exact (queueOnConnect e _).trans (of_eq rfl rfl rfl rfl rfl)
    · exact refl e

theorem close (e : Endpoint) (code : Nat) (reason : Bytes) : SameMemory e (e.close code reason) := by
  unfold Endpoint.close
  split
  · exact of_eq rfl rfl rfl rfl rfl
  · exact refl e

theorem of_sending {id : Nat} {e e' : Endpoint} (h : Sending id e e') : SameMemory e e' := by
  cases h with
  | refused => exact of_eq rfl rfl rfl rfl rfl
  | returned | sent | stopped | fin => exact modify rfl (fun _ => rfl) rfl rfl rfl rfl

theorem flushStream (e : Endpoint) (id : Nat) : SameMemory e (e.flushStream id) :=
  flushStream_invariant (fun _ _ hs h => h.trans (of_sending hs)) (refl e)

theorem onDatagrams (e : Endpoint) : SameMemory e e.onDatagrams := by
  refine iterate_rel (I := fun _ => True) refl trans (fun e _ => ⟨?_, trivial⟩) _ trivial
  unfold datagramStep
  split
  · exact of_eq rfl rfl rfl rfl rfl
  · simp only
    split
    · exact of_eq rfl rfl rfl rfl rfl
    · split <;> exact of_eq rfl rfl rfl rfl rfl

end SameMemory

section

variable {base : List ParserMemory} {m n : Nat} {e : Endpoint}

theorem Ledger.onEstablished (h : Ledger base m n e) (hroot : Rooted base) :
    Ledger base m n e.onEstablished := by
  have hlocal : ∀ {e : Endpoint} (id : Nat) (bytes : Bytes), Ledger base m n e →
      Ledger base m n (e.insertLocal id bytes) := fun id bytes h =>
    h.insertStream id (h.memory ▸ Stream.attached_withPrefix _ _ _) rfl hroot
  unfold Endpoint.onEstablished
  split
  · exact h
  · have hset : Ledger base m n { e with setupSent := true } := h.same (.of_eq rfl rfl rfl rfl rfl)
    have hall := hlocal (qpackDecId e.cfg.isServer) (H3.putVarint H3.qpackDecoderStreamType)
      (hlocal (qpackEncId e.cfg.isServer) (H3.putVarint H3.qpackEncoderStreamType)
        (hlocal (controlId e.cfg.isServer) H3.controlStreamPrefix hset))
    simp only
    split
    · exact hall
    · exact hall.same (.of_eq rfl rfl rfl rfl rfl)

theorem onEstablished_closed (e : Endpoint) : e.onEstablished.closed = e.closed := by
  unfold Endpoint.onEstablished
  split
  · rfl
  · simp only
    split <;> rfl

theorem Ledger.allocateStream (h : Ledger base m n e) (bidi : Bool) (requestId : Nat)
    (hroot : Rooted base) : Ledger base m n (e.allocateStream bidi requestId) := by
  have hnext : Ledger base m n (if bidi then { e with nextBidi := e.nextBidi + 4 }
      else { e with nextUni := e.nextUni + 4 }) := by
    split <;> exact h.same (.of_eq rfl rfl rfl rfl rfl)
  exact (hnext.insertStream _ (h.memory ▸ Stream.attached_withPrefix _ _ _) rfl hroot).emit _

theorem Ledger.releasePendingOpens (h : Ledger base m n e) (hroot : Rooted base) :
    Ledger base m n e.releasePendingOpens :=
  releasePendingOpens_invariant (I := Ledger base m n)
    (fun _ _ h => h.same (.of_eq rfl rfl rfl rfl rfl))
    (fun _ bidi requestId _ _ _ h => h.allocateStream bidi requestId hroot) h

/-- A pruned stream gives its buffers back. -/
theorem Ledger.prune (h : Ledger base m n e) (hroot : Rooted base) : Ledger base m n e.prune := by
  have hsplit := Table.total_filter e.streams (retains e.cfg.isServer) Stream.charge
  refine ⟨h.memory, ?_, h.capsule, fun i st hst => ?_, fun hc => ?_⟩
  · unfold Endpoint.prune
    refine Charged.releases (c := fun id => ((e.streams.get id).map fun st =>
      if retains e.cfg.isServer id st then 0 else st.charge).getD 0) (fun id hid k heap hc => ?_) ?_
    · obtain ⟨st, hst⟩ := Table.exists_get_of_mem_keys hid
      simp only [hst, Option.map_some, Option.getD_some] at hc ⊢
      split at hc
      next hkeep => rwa [if_pos hkeep]
      next hkeep =>
        rw [if_neg hkeep]
        exact Stream.charged_release hroot (h.streams id st hst) hc
    · have hc := h.charged
      unfold charge at hc ⊢
      convert hc using 1
      simp only
      omega
  · exact h.streams i st (Option.filter_eq_some_iff.mp hst).1
  · have hzero := h.closed hc
    unfold charge at hzero ⊢
    simp only [Endpoint.prune]
    omega

variable [H3.Codec]

/-- The steps that insert an entry, drop one or give buffers back. -/
def Step.allocates : Step → Bool
  | .onEstablished | .touch _ | .read _ _ | .openStream _ _ | .releasePendingOpens | .prune
  | .markClosed _ _ _ => true
  | _ => false

/-- The others have nothing to do with memory. -/
theorem step_sameMemory (e : Endpoint) {s : Step} (hs : Step.allocates s = false) :
    SameMemory e (e.step s) := by
  cases s with
  | onEstablished | touch | read | openStream | releasePendingOpens | prune | markClosed => cases hs
  | onDatagrams => exact .onDatagrams e
  | streamWrite id data requestId => exact .streamWrite e id data requestId
  | streamFin id | setPaused id paused => exact .modifyStream e id fun _ => rfl
  | streamReset id code => exact .streamReset e id code
  | streamStopSending id code => exact .streamStopSending e id code
  | close code reason => exact .close e code reason
  | sendDrain => exact .sendDrain e
  | takeTerminalError => exact .takeTerminalError e
  | grantCredit => exact .grantCredit e
  | replenish => exact .replenish e
  | queueClose => exact .queueClose e
  | flushStream id => exact .flushStream e id
  | signalFlowControlBlocked => exact .signalFlowControlBlocked e
  | gracefulClose => exact .gracefulClose e
  | sendDatagram data requestId | commitSent | network event => exact .of_eq rfl rfl rfl rfl rfl

theorem Ledger.step (h : Ledger base m n e) {s : Step}
    (hread : ∀ id backpressured, s = .read id backpressured → e.closed = false)
    (hroot : Rooted base) : Ledger base m n (e.step s) := by
  cases hs : Step.allocates s with
  | false => exact h.same (step_sameMemory e hs)
  | true =>
      cases s with
      | onEstablished => exact h.onEstablished hroot
      | touch id => exact h.touch id hroot
      | read id backpressured => exact h.readStep (hread _ _ rfl) id backpressured hroot
      | openStream bidi requestId =>
          exact Ledger.releasePendingOpens (h.same (.of_eq rfl rfl rfl rfl rfl)) hroot
      | releasePendingOpens => exact h.releasePendingOpens hroot
      | prune => exact h.prune hroot
      | markClosed code reason remote => exact h.markClosed code reason remote hroot
      | _ => cases hs

/-- Only the passes of `on_readable` read, and they do so while the session is open. -/
theorem steps_read (e : Endpoint) (c : Call) : Along Endpoint.step
    (fun e s => ∀ id backpressured, s = .read id backpressured → e.closed = false) e (e.steps c) := by
  have hnone : ∀ {l : List Step} (e : Endpoint), (∀ s ∈ l, ∀ id b, s ≠ .read id b) →
      Along Endpoint.step
        (fun e s => ∀ id backpressured, s = .read id backpressured → e.closed = false) e l :=
    fun e h => along_of_forall fun s hs _ id b heq => absurd heq (h s hs id b)
  cases c with
  | onReadable id backpressured =>
      simp only [steps]
      split
      · trivial
      next hclosed =>
        refine ⟨fun _ _ h => (by cases h), ?_⟩
        split
        · refine along_imp (I := fun _ => True) (fun e s _ hs => ⟨fun id b heq => ?_, trivial⟩) trivial
            (reads_admissible id backpressured _ _ (by simpa [Endpoint.step, touch_closed] using hclosed))
          rw [heq] at hs
          exact hs
        · trivial
  | flush order =>
      refine hnone e fun s hs id b heq => ?_
      subst heq
      simp [steps, flushHead, flushTail] at hs
  | _ => exact hnone e (by simp [steps])

/-- A closed session stays closed. -/
theorem step_stays_closed (hc : e.closed = true) {s : Step}
    (hread : ∀ id backpressured, s ≠ .read id backpressured) : (e.step s).closed = true := by
  cases hs : Step.allocates s with
  | false => exact (step_sameMemory e hs).closed.trans hc
  | true =>
      cases s with
      | onEstablished => exact (onEstablished_closed e).trans hc
      | touch id => exact (touch_closed e id).trans hc
      | read id backpressured => exact absurd rfl (hread id backpressured)
      | openStream bidi requestId | releasePendingOpens =>
          unfold Endpoint.step
          simp only [openStream, Endpoint.releasePendingOpens, hc, or_true, if_true]
      | prune => exact hc
      | markClosed code reason remote =>
          unfold Endpoint.step Endpoint.markClosed
          simp only [hc, if_true]
      | _ => cases hs

theorem call_stays_closed (hc : e.closed = true) (c : Call) : (e.call c).closed = true := by
  rw [call_eq]
  exact execute_invariant (I := fun e => e.closed = true)
    (fun e s hc hs => step_stays_closed hc fun id b heq =>
      absurd (hc.symm.trans (hs id b heq)) (by simp))
    hc (steps_read e c)

/-- Every call keeps the ledger. -/
theorem Ledger.call (h : Ledger base m n e) (c : Call) (hroot : Rooted base) :
    Ledger base m n (e.call c) := by
  rw [call_eq]
  exact execute_invariant (I := Ledger base m n) (fun _ _ he hs => he.step hs hroot) h
    (steps_read e c)

omit [H3.Codec] in
/-- A session starts with nothing charged. -/
theorem Ledger.fresh (hcapsule : e.capsuleBuf = .new e.parserMemory) (hstreams : e.streams = .empty) :
    Ledger e.heap.nodes e.parserMemory 0 e ∧ e.charge = 0 := by
  have hzero : e.charge = 0 := by
    rw [charge, hcapsule, hstreams]
    rfl
  refine ⟨⟨rfl, ?_, by rw [hcapsule]; rfl, fun id st hst => ?_, fun _ => hzero⟩, hzero⟩
  · rw [hzero]
    exact (Heap.shift_id _ _ fun _ => rfl).symm
  · rw [hstreams] at hst
    cases hst

end

end Endpoint

end RWebTransport
