import RWebTransport.Session.Allocation
import RWebTransport.Session.Discipline

/-!
# What a well-behaved peer makes a session allocate

The peer has a control stream and the CONNECT stream, and whatever it sends on them is
cut into frames and capsules of bounded length.  `Quota` bounds the capacities of the
buffers of the session while it reads them, and says that no allocation was refused; each
operation keeps it, since at each growth the old and the new allocation fit the budget
together with everything else.
-/

namespace RWebTransport.Endpoint

open Heap (Charged Rooted Roomy Exact)

/-! ## Sizes -/

/-- The capacities of an open session: the capsule buffer, the frame buffer of the CONNECT
stream, and those of the one unidirectional stream of the peer. -/
structure Sized (ctl j : Nat) (e : Endpoint) : Prop where
  allocator : e.heap.Exact
  capsule : Rounded 21 e.capsuleBuf.capacity
  connect : ∀ st, e.streams.get connectId = some st →
    Rounded j st.frames.buf.capacity ∧ st.classBuf.capacity = 0
  control : ∀ st, e.streams.get ctl = some st → Rounded 21 st.frames.buf.capacity ∧
    Rounded 15 st.classBuf.capacity ∧ (st.frames.buf.capacity = 0 ∨ st.classBuf.capacity = 0)
  others : ∀ id st, id ≠ connectId → id ≠ ctl → e.streams.get id = some st → st.charge = 0

/-- What one stream is charged. -/
def part (e : Endpoint) (id : Nat) : Nat := ((e.streams.get id).map Stream.charge).getD 0

section

variable {base : List ParserMemory} {m ctl j n : Nat} {e e' : Endpoint}

theorem Sized.same (h : Sized ctl j e) (hs : SameMemory e e') : Sized ctl j e' := by
  have hentry : ∀ id st', e'.streams.get id = some st' →
      ∃ st, e.streams.get id = some st ∧ st.buffers = st'.buffers := by
    intro id st' hst'
    have hb := hs.buffers id
    rw [hst', Option.map_some] at hb
    exact Option.map_eq_some_iff.mp hb.symm
  refine ⟨hs.heap ▸ h.allocator, hs.capsule ▸ h.capsule, fun st' hst' => ?_, fun st' hst' => ?_,
    fun id st' hconnect hctl hst' => ?_⟩
  · obtain ⟨st, hst, hsame⟩ := hentry _ st' hst'
    obtain ⟨hframes, hclass⟩ := Prod.mk.inj hsame
    exact hframes ▸ hclass ▸ h.connect st hst
  · obtain ⟨st, hst, hsame⟩ := hentry _ st' hst'
    obtain ⟨hframes, hclass⟩ := Prod.mk.inj hsame
    exact hframes ▸ hclass ▸ h.control st hst
  · obtain ⟨st, hst, hsame⟩ := hentry _ st' hst'
    rw [Stream.charge_congr hsame.symm]
    exact h.others id st hconnect hctl hst

theorem Sized.mono {j' : Nat} (h : Sized ctl j e) (hle : j ≤ j') : Sized ctl j' e :=
  { h with connect := fun st hst => ⟨(h.connect st hst).1.mono hle, (h.connect st hst).2⟩ }

theorem charge_eq_parts (h : Sized ctl j e) (hctl : ctl ≠ connectId) :
    e.charge = e.capsuleBuf.capacity + (e.part connectId + e.part ctl) := by
  have hzero : ((e.streams.erase connectId).erase ctl).total Stream.charge = 0 := by
    refine Table.total_zero fun id st hst => ?_
    simp only [Table.get_erase] at hst
    split at hst
    · cases hst
    next hid =>
      split at hst
      · cases hst
      next hid' => exact h.others id st hid' hid hst
  have hrest : (e.streams.erase connectId).get ctl = e.streams.get ctl := by
    rw [Table.get_erase, if_neg hctl]
  rw [charge, part, part, Table.total_erase e.streams connectId,
    Table.total_erase (e.streams.erase connectId) ctl, hzero, hrest, Nat.add_zero]

theorem Sized.part_connect (h : Sized ctl j e) : e.part connectId ≤ 2 ^ j := by
  unfold part
  cases hst : e.streams.get connectId with
  | none => exact Nat.zero_le _
  | some st =>
      obtain ⟨hframes, hclass⟩ := h.connect st hst
      simp only [Option.map_some, Option.getD_some, Stream.charge, hclass, Nat.add_zero]
      exact hframes.le

theorem Sized.part_control (h : Sized ctl j e) : e.part ctl ≤ 2 ^ 21 := by
  unfold part
  cases hst : e.streams.get ctl with
  | none => exact Nat.zero_le _
  | some st =>
      obtain ⟨hframes, hclass, hone⟩ := h.control st hst
      simp only [Option.map_some, Option.getD_some, Stream.charge]
      have hframes := hframes.le
      have hclass := hclass.le
      have hpow : 2 ^ 15 ≤ 2 ^ 21 := by decide
      omega

/-- Everything together. -/
theorem Sized.charge_le (h : Sized ctl j e) (hctl : ctl ≠ connectId) :
    e.charge ≤ 2 ^ 22 + 2 ^ j := by
  have hcapsule := h.capsule.le
  have hconnect := h.part_connect
  have hcontrol := h.part_control
  rw [charge_eq_parts h hctl]
  have hpow : 2 ^ 22 = 2 * 2 ^ 21 := by decide
  omega

/-- A frame buffer that keeps its capacity or is given back. -/
theorem Sized.setFrames (h : Sized ctl j e) {id : Nat} {st : Stream} {p : FrameParser} {heap : Heap}
    (hst : e.streams.get id = some st) (hexact : heap.Exact)
    (hp : p.buf.capacity = st.frames.buf.capacity ∨ p.buf.capacity = 0) :
    Sized ctl j { e with streams := e.streams.modify id fun s => { s with frames := p }, heap := heap } := by
  have hentry : ∀ i st', (e.streams.modify id fun s => { s with frames := p }).get i = some st' →
      ∃ st0, e.streams.get i = some st0 ∧ st'.classBuf = st0.classBuf ∧
        (st'.frames.buf.capacity = st0.frames.buf.capacity ∨ st'.frames.buf.capacity = 0) := by
    intro i st' hst'
    rw [Table.get_modify] at hst'
    split at hst'
    next hi =>
      subst hi
      rw [hst, Option.map_some] at hst'
      obtain rfl := Option.some.inj hst'
      exact ⟨st, hst, rfl, hp⟩
    · exact ⟨st', hst', rfl, .inl rfl⟩
  have hrounded : ∀ {i : Nat} {st' st0 : Stream}, Rounded i st0.frames.buf.capacity →
      (st'.frames.buf.capacity = st0.frames.buf.capacity ∨ st'.frames.buf.capacity = 0) →
      Rounded i st'.frames.buf.capacity := by
    rintro i st' st0 ht (heq | hzero)
    · exact heq ▸ ht
    · exact .inl hzero
  refine ⟨hexact, h.capsule, fun st' hst' => ?_, fun st' hst' => ?_, fun i st' hconnect hctl hst' => ?_⟩
  · obtain ⟨st0, hst0, hclass, hcap⟩ := hentry _ st' hst'
    obtain ⟨hframes, hzero⟩ := h.connect st0 hst0
    exact ⟨hrounded hframes hcap, hclass ▸ hzero⟩
  · obtain ⟨st0, hst0, hclass, hcap⟩ := hentry _ st' hst'
    obtain ⟨hframes, hsmall, hone⟩ := h.control st0 hst0
    refine ⟨hrounded hframes hcap, hclass ▸ hsmall, ?_⟩
    rw [hclass]
    rcases hcap with heq | hzero
    · exact heq ▸ hone
    · exact .inl hzero
  · obtain ⟨st0, hst0, hclass, hcap⟩ := hentry _ st' hst'
    have hzero := h.others i st0 hconnect hctl hst0
    simp only [Stream.charge] at hzero ⊢
    rw [hclass]
    omega

/-- The frame buffer of one of the two streams grows. -/
theorem Sized.growFrames (h : Sized ctl j e) {id : Nat} {st : Stream} {p : FrameParser} {heap : Heap}
    (hst : e.streams.get id = some st) (hexact : heap.Exact) (hctl : ctl ≠ connectId)
    (hid : id = connectId ∧ Rounded j p.buf.capacity ∨
      id = ctl ∧ Rounded 21 p.buf.capacity ∧ st.classBuf.capacity = 0) :
    Sized ctl j { e with streams := e.streams.modify id fun s => { s with frames := p }, heap := heap } := by
  have hother : ∀ i, i ≠ id → (e.streams.modify id fun s => { s with frames := p }).get i =
      e.streams.get i := fun i hi => Table.get_modify_ne hi
  have hself : (e.streams.modify id fun s => { s with frames := p }).get id =
      some { st with frames := p } := by simp [hst]
  refine ⟨hexact, h.capsule, fun st' hst' => ?_, fun st' hst' => ?_, fun i st' hconnect hne hst' => ?_⟩
  · rcases hid with ⟨rfl, hrounded⟩ | ⟨rfl, -, -⟩
    · obtain rfl := Option.some.inj (hself.symm.trans hst')
      exact ⟨hrounded, (h.connect st hst).2⟩
    · exact h.connect st' ((hother _ hctl.symm).symm.trans hst')
  · rcases hid with ⟨rfl, -⟩ | ⟨rfl, hrounded, hclass⟩
    · exact h.control st' ((hother _ hctl).symm.trans hst')
    · obtain rfl := Option.some.inj (hself.symm.trans hst')
      exact ⟨hrounded, .inl hclass, .inr hclass⟩
  · refine h.others i st' hconnect hne ((hother i ?_).symm.trans hst')
    rcases hid with ⟨rfl, -⟩ | ⟨rfl, -, -⟩
    · exact hconnect
    · exact hne

/-- The counters are right, nothing was refused, and an open session is of bounded size;
`n` is what copies take. -/
structure Quota (base : List ParserMemory) (m ctl j n : Nat) (e : Endpoint) : Prop where
  ledger : Ledger base m n e
  unrefused : e.Unrefused
  sized : e.closed = false → Sized ctl j e

theorem Quota.mild (h : Quota base m ctl j n e) (hl : Ledger base m n e') (hm : Mild e e') :
    Quota base m ctl j n e' where
  ledger := hl
  unrefused := hm.unrefused h.unrefused
  sized hopen := by
    have hsame := hm.same hopen
    exact (h.sized (hsame.closed.symm.trans hopen)).same hsame

theorem Quota.same (h : Quota base m ctl j n e) (hs : SameMemory e e')
    (hev : ∀ v ∈ e'.ev, v ∈ e.ev ∨ v ≠ limitExceeded) : Quota base m ctl j n e' where
  ledger := h.ledger.same hs
  unrefused := h.unrefused.same hs hev
  sized hopen := (h.sized (hs.closed.symm.trans hopen)).same hs

theorem Quota.mono {j' : Nat} (h : Quota base m ctl j n e) (hle : j ≤ j') : Quota base m ctl j' n e where
  ledger := h.ledger
  unrefused := h.unrefused
  sized hopen := (h.sized hopen).mono hle

theorem Quota.dropBuffer {b : ParserBuffer} (h : Quota base m ctl j (n + b.capacity) e)
    (hb : b.memory = m) (hroot : Rooted base) : Quota base m ctl j n (e.dropBuffer b) where
  ledger := h.ledger.dropBuffer hb hroot
  unrefused := ⟨h.unrefused.quiet, h.unrefused.parsers⟩
  sized hopen := by
    have hs := h.sized hopen
    exact ⟨hs.allocator.release _ _, hs.capsule, hs.connect, hs.control,
      hs.others⟩

end

/-! ## Frames -/

section

variable {base : List ParserMemory} {m ctl j n : Nat} {e e' : Endpoint}

/-- What the frame parser of a stream holds. -/
def frameBytes (e : Endpoint) (id : Nat) : Bytes :=
  ((e.streams.get id).map fun st => st.frames.buf.data).getD []

theorem framesLength_eq (e : Endpoint) (id : Nat) : e.framesLength id = (e.frameBytes id).length := by
  unfold framesLength frameBytes
  cases e.streams.get id <;> rfl

theorem SameMemory.frameBytes (h : SameMemory e e') (id : Nat) :
    e'.frameBytes id = e.frameBytes id := by
  have hb := congrArg (Option.map fun b : FrameParser × ParserBuffer => b.1.buf.data) (h.buffers id)
  simp only [Option.map_map] at hb
  exact congrArg (Option.getD · []) hb

theorem nextFrame_kept (e : Endpoint) (id : Nat) : (e.nextFrame id).2.closed = e.closed ∧
    (e.nextFrame id).2.capsuleBuf = e.capsuleBuf ∧ (e.nextFrame id).2.conn = e.conn := by
  unfold Endpoint.nextFrame
  cases e.streams.get id <;> exact ⟨rfl, rfl, rfl⟩

theorem nextFrame_elsewhere (e : Endpoint) {id i : Nat} (hi : i ≠ id) :
    (e.nextFrame id).2.streams.get i = e.streams.get i := by
  unfold Endpoint.nextFrame
  split
  · rfl
  · exact Table.get_modify_ne hi

theorem nextFrame_pending (e : Endpoint) (id : Nat) :
    (e.nextFrame id).2.connectPending = e.connectPending := by
  unfold Endpoint.nextFrame
  cases e.streams.get id <;> rfl

theorem nextFrame_headersDone (e : Endpoint) (id : Nat) :
    (e.nextFrame id).2.headersDone id = e.headersDone id := by
  unfold Endpoint.nextFrame Endpoint.headersDone
  cases hst : e.streams.get id with
  | none => simp [hst]
  | some st => simp [hst]

theorem nextFrame_bare {id : Nat}
    (h : ∀ st, e.streams.get id = some st → st.classBuf.capacity = 0) :
    ∀ st, (e.nextFrame id).2.streams.get id = some st → st.classBuf.capacity = 0 := by
  unfold Endpoint.nextFrame
  cases hst : e.streams.get id with
  | none => exact h
  | some st0 =>
      intro st hst'
      simp only [Table.get_modify_self, hst, Option.map_some, Option.some.injEq] at hst'
      rw [← hst']
      exact h st0 hst

/-- A frame is found, or there is none, as long as none is too long: the copy is not refused. -/
theorem Quota.nextFrame (h : Quota base m ctl j n e) (hroomy : Roomy base m (2 ^ 23))
    (hctl : ctl ≠ connectId) (hopen : e.closed = false) (hn : n + 2 ^ j ≤ 2 ^ 21) {id : Nat}
    (hfine : frameHead (e.frameBytes id) ≠ .oversized) :
    match e.nextFrame id with
    | (none, e1) => Quota base m ctl j n e1 ∧ e1.frameBytes id = e.frameBytes id ∧
        frameHead (e.frameBytes id) = .incomplete
    | (some (ty, payload), e1) => Quota base m ctl j (n + payload.capacity) e1 ∧
        payload.memory = m ∧ Rounded 20 payload.capacity ∧
        frameHead (e.frameBytes id) = .frame ty payload.data (e1.frameBytes id) := by
  have hledger := h.ledger.nextFrame id hroomy.rooted
  have hs := h.sized hopen
  unfold Endpoint.nextFrame at hledger ⊢
  cases hst : e.streams.get id with
  | none =>
      have hbytes : e.frameBytes id = [] := by simp [frameBytes, hst]
      exact ⟨h, rfl, by rw [hbytes]; rfl⟩
  | some st =>
      have hbytes : e.frameBytes id = st.frames.buf.data := by simp [frameBytes, hst]
      have hmemory := (h.ledger.streams id st hst).frames
      have hc := h.ledger.charged
      rw [← hmemory] at hc
      have htotal := hs.charge_le hctl
      have hpow : (2 : Nat) ^ 23 = 2 ^ 22 + 2 ^ 21 + 2 ^ 20 + 2 ^ 20 := by decide
      have hnext := st.frames.nextFrame_fits
        (show Roomy base st.frames.buf.memory (2 ^ 23) from hmemory ▸ hroomy) hs.allocator hc
        (h.unrefused.parsers id st hst) (hbytes ▸ hfine) (by omega)
      simp only [hst] at hledger ⊢
      generalize st.frames.nextFrame e.heap = r at hnext hledger ⊢
      obtain ⟨frame, p, heap⟩ := r
      have hself : (e.streams.modify id fun s => { s with frames := p }).get id =
          some { st with frames := p } := by simp [hst]
      have hunrefused : p.error = false → Unrefused { e with
          streams := e.streams.modify id fun s => { s with frames := p }, heap := heap } := by
        refine fun hok => ⟨h.unrefused.quiet, fun i st' hst' => ?_⟩
        simp only [Table.get_modify] at hst'
        split at hst'
        next hi =>
          rw [hi, hst, Option.map_some] at hst'
          exact Option.some.inj hst' ▸ hok
        · exact h.unrefused.parsers i st' hst'
      cases frame with
      | none =>
          obtain ⟨rfl, hexact, hhead⟩ := hnext
          refine ⟨⟨by simpa using hledger.1, hunrefused (h.unrefused.parsers id st hst), fun _ =>
            hs.setFrames hst hexact (.inl rfl)⟩, ?_, hbytes ▸ hhead⟩
          simp only [frameBytes, hself, hst, Option.map_some, Option.getD_some]
      | some frame =>
          obtain ⟨ty, payload⟩ := frame
          obtain ⟨hok, hexact, hhead, hcopy, hcap⟩ := hnext
          refine ⟨⟨hledger.1, hunrefused hok, fun _ => hs.setFrames hst hexact hcap⟩,
            hledger.2 _ rfl, hcopy, ?_⟩
          rw [hbytes, hhead]
          simp only [frameBytes, hself, Option.map_some, Option.getD_some]

/-! ## Capsules -/

/-- Capsules are taken off `bytes`, which came in one DATA payload behind what was left. -/
structure Scanning (base : List ParserMemory) (m ctl j n : Nat) (start : Endpoint) (bytes : Bytes)
    (e : Endpoint) : Prop where
  quota : Quota base m ctl j n e
  left : e.closed = false → ∀ b, Heavy e.capsuleBuf.data b → Heavy bytes b
  buffers : e.closed = false → ∀ id,
    (e.streams.get id).map Stream.buffers = (start.streams.get id).map Stream.buffers

/-- The capsule bytes of an open session. -/
def capsuleSize (e : Endpoint) : Nat := if e.closed then 0 else e.capsuleBuf.data.length

theorem handleCapsule_stops (ty : Nat) (value : Bytes) (h : (e.handleCapsule ty value).2 = false) :
    (e.handleCapsule ty value).1.closed = true := by
  unfold Endpoint.handleCapsule at h ⊢
  split at h
  · cases h
  · rw [if_neg ‹_›]
    split at h
    · cases h
    · rw [if_neg ‹_›]
      split at h
      · rw [if_pos ‹_›]
        split at h
        · exact flowError_closed _ _
        · split at h
          · rw [if_pos ‹_›]
            exact flowError_closed _ _
          · rw [if_neg ‹_›]
            split at h
            · cases h
            · split at h
              · rw [if_pos ‹_›]
                exact flowError_closed _ _
              · cases h
      · cases h

/-- What is left of an incomplete capsule that is not too long. -/
theorem length_of_unfinished {bytes : Bytes} (hlong : ¬LongCapsule bytes)
    (h : H3.readVarint bytes = none ∨ ∃ ty n1, H3.readVarint bytes = some (ty, n1) ∧
      (H3.readVarint (bytes.drop n1) = none ∨ ∃ len n2, H3.readVarint (bytes.drop n1) = some (len, n2) ∧
        bytes.length < n1 + n2 + len)) : bytes.length ≤ maxControlFrame := by
  have hmax : maxControlFrame = 2 ^ 20 := rfl
  rcases h with hnone | ⟨ty, n1, hty, hnone | ⟨len, n2, hlen, hshort⟩⟩
  · have hlt := H3.readVarint_none hnone
    omega
  · have hlt := H3.readVarint_none hnone
    have hn1 := H3.readVarint_le hty
    rw [List.length_drop] at hlt
    omega
  · have hfits : ¬maxControlFrame + 1 < n1 + n2 + len := fun hover => hlong (.here hty hlen hover)
    omega

theorem Scanning.step {start : Endpoint} {bytes more : Bytes} (h : Scanning base m ctl j n start bytes e)
    (hroomy : Roomy base m (2 ^ 23)) (hctl : ctl ≠ connectId) (hn : n + 2 ^ j ≤ 3 * 2 ^ 20)
    (hlight : ¬Heavy bytes more) : Scanning base m ctl j n start bytes (capsuleStep e).1 ∧
      ((capsuleStep e).2 = true → (capsuleStep e).1.capsuleSize < e.capsuleSize) ∧
      ((capsuleStep e).2 = false → (capsuleStep e).1.closed = false →
        (capsuleStep e).1.capsuleBuf.data.length ≤ maxControlFrame) := by
  have hledger := h.quota.ledger.capsuleStep hroomy.rooted
  unfold Endpoint.capsuleStep at hledger ⊢
  by_cases hclosed : e.closed = true
  · rw [if_pos hclosed]
    exact ⟨h, fun hgo => (by cases hgo), fun _ hc => absurd (hclosed.symm.trans hc) (by simp)⟩
  · have hopen : e.closed = false := by simpa using hclosed
    rw [if_neg hclosed] at hledger ⊢
    · have hs := h.quota.sized hopen
      have hlong : ¬LongCapsule e.capsuleBuf.data := fun hbad => hlight (h.left hopen _ (.capsule hbad))
      cases hty : H3.readVarint e.capsuleBuf.data with
      | none => exact ⟨h, fun hgo => (by cases hgo), fun _ _ => length_of_unfinished hlong (.inl hty)⟩
      | some r =>
          obtain ⟨ty, n1⟩ := r
          simp only [hty] at hledger ⊢
          cases hlen : H3.readVarint (e.capsuleBuf.data.drop n1) with
          | none =>
              exact ⟨h, fun hgo => (by cases hgo), fun _ _ =>
                length_of_unfinished hlong (.inr ⟨ty, n1, hty, .inl hlen⟩)⟩
          | some r =>
              obtain ⟨len, n2⟩ := r
              simp only [hlen] at hledger ⊢
              split at hledger
              next hover =>
                have hn1 := (H3.readVarint_len hty).1
                have hn2 := (H3.readVarint_len hlen).1
                exact absurd (.here hty hlen (by omega)) hlong
              next hfits =>
                rw [if_neg hfits]
                split at hledger
                next hshort =>
                  rw [if_pos hshort]
                  exact ⟨h, fun hgo => (by cases hgo), fun _ _ =>
                    length_of_unfinished hlong (.inr ⟨ty, n1, hty, .inr ⟨len, n2, hlen, hshort⟩⟩)⟩
                next hwhole =>
                  rw [if_neg hwhole]
                  have hmemory := h.quota.ledger.capsule
                  have hc := h.quota.ledger.charged
                  rw [← hmemory] at hc
                  have htotal := hs.charge_le hctl
                  have hpow : (2 : Nat) ^ 23 = 2 ^ 22 + 3 * 2 ^ 20 + 2 ^ 20 := by decide
                  have hmax : maxControlFrame = 2 ^ 20 := rfl
                  obtain ⟨value, heap, hx, -, hexact⟩ := ParserBuffer.copy_fits
                    ((e.capsuleBuf.data.drop (n1 + n2)).take (n1 + n2 + len - (n1 + n2)))
                    (j := 20) (hmemory ▸ hroomy) hs.allocator hc (by decide)
                    (by rw [List.length_take]; omega) (by omega)
                  simp only [ParserBuffer.copyRange, hx] at hledger ⊢
                  have htaken := ParserBuffer.consume_rounded (b := e.capsuleBuf) (h := heap)
                    (n1 + n2 + len) hexact hs.capsule
                  have hdata := ParserBuffer.consume_data e.capsuleBuf heap (n1 + n2 + len)
                  generalize e.capsuleBuf.consume heap (n1 + n2 + len) = t at htaken hdata hledger ⊢
                  obtain ⟨buf, heap'⟩ := t
                  simp only at htaken hdata hledger ⊢
                  have hmild := (Mild.log { e with capsuleBuf := buf, heap := heap' }
                    (.capsule ty value.data)).trans (Mild.handleCapsule _ ty value.data)
                  have hstops := handleCapsule_stops ty value.data
                    (e := ({ e with capsuleBuf := buf, heap := heap' } : Endpoint).log
                      (.capsule ty value.data))
                  generalize (({ e with capsuleBuf := buf, heap := heap' } : Endpoint).log
                    (.capsule ty value.data)).handleCapsule ty value.data = s at hmild hstops hledger ⊢
                  obtain ⟨e2, go⟩ := s
                  simp only at hmild hstops hledger ⊢
                  have hsized : Sized ctl j { e with capsuleBuf := buf, heap := heap' } :=
                    ⟨htaken.2, htaken.1, hs.connect, hs.control, hs.others⟩
                  have hpos := (H3.readVarint_len hty).1
                  refine ⟨⟨⟨hledger, ?_, fun hc2 => ?_⟩, fun hc2 b hb => ?_, fun hc2 id => ?_⟩, ?_, ?_⟩
                  · have hun := hmild.unrefused ⟨h.quota.unrefused.quiet, h.quota.unrefused.parsers⟩
                    exact ⟨hun.quiet, hun.parsers⟩
                  · have hsame := hsized.same (hmild.same hc2)
                    exact ⟨hsame.allocator.release _ _, hsame.capsule, hsame.connect,
                      hsame.control, hsame.others⟩
                  · have hcap := (hmild.same hc2).capsule
                    have hb : Heavy e2.capsuleBuf.data b := hb
                    rw [hcap] at hb
                    exact h.left hopen b (hb.behind hty hlen (by omega) hdata)
                  · exact ((hmild.same hc2).buffers id).trans (h.buffers hopen id)
                  · intro hgo
                    unfold capsuleSize
                    simp only [hopen, Bool.false_eq_true, if_false]
                    split
                    · omega
                    next hc2 =>
                      have hc2 : e2.closed = false := Bool.eq_false_iff.mpr hc2
                      have hcap := (hmild.same hc2).capsule
                      show e2.capsuleBuf.data.length < _
                      rw [hcap]
                      show buf.data.length < _
                      rw [hdata, List.length_drop]
                      omega
                  · intro hgo hc2
                    exact absurd ((hstops hgo).symm.trans hc2) (by simp)

end

section

variable {base : List ParserMemory} {m ctl j n : Nat} {e e' : Endpoint}

theorem Scanning.exit {start : Endpoint} {bytes more : Bytes} (hroomy : Roomy base m (2 ^ 23))
    (hctl : ctl ≠ connectId) (hn : n + 2 ^ j ≤ 3 * 2 ^ 20) (hlight : ¬Heavy bytes more) :
    ∀ (fuel : Nat) {e : Endpoint}, Scanning base m ctl j n start bytes e → e.capsuleSize < fuel →
      Scanning base m ctl j n start bytes (iterate capsuleStep fuel e) ∧
        ((iterate capsuleStep fuel e).closed = false →
          (iterate capsuleStep fuel e).capsuleBuf.data.length ≤ maxControlFrame) := by
  intro fuel e h hlt
  refine iterate_exit (I := Scanning base m ctl j n start bytes)
    (Q := fun e => Scanning base m ctl j n start bytes e ∧
      (e.closed = false → e.capsuleBuf.data.length ≤ maxControlFrame)) capsuleSize ?_ ?_ fuel h hlt
  · intro s hs hgo
    obtain ⟨hstep, hless, -⟩ := hs.step hroomy hctl hn hlight
    exact ⟨hstep, hless hgo⟩
  · intro s hs hstop
    obtain ⟨hstep, -, hshort⟩ := hs.step hroomy hctl hn hlight
    exact ⟨hstep, hshort hstop⟩

/-- A DATA payload is scanned: the capsule buffer grows within the budget. -/
theorem Quota.scanCapsules (h : Quota base m ctl j n e) (hroomy : Roomy base m (2 ^ 23))
    (hctl : ctl ≠ connectId) (hopen : e.closed = false) (hn : n + 2 ^ j ≤ 3 * 2 ^ 20)
    (hleft : e.capsuleBuf.data.length ≤ maxControlFrame) {payload more : Bytes}
    (hpayload : payload.length ≤ maxControlFrame) (hlight : ¬Heavy (e.capsuleBuf.data ++ payload) more) :
    Scanning base m ctl j n e (e.capsuleBuf.data ++ payload) (e.scanCapsules payload) ∧
      ((e.scanCapsules payload).closed = false →
        (e.scanCapsules payload).capsuleBuf.data.length ≤ maxControlFrame) := by
  have hs := h.sized hopen
  have hmax : maxControlFrame = 2 ^ 20 := rfl
  have hcontrol := hs.part_control
  have hconnect := hs.part_connect
  have hmemory := h.ledger.capsule
  have hc := h.ledger.charged
  rw [← hmemory, charge_eq_parts hs hctl] at hc
  obtain ⟨buf, heap, hx, hdata, hcap, hexact⟩ := ParserBuffer.extend_fits (b := e.capsuleBuf)
    (k := e.part connectId + e.part ctl + n) (j := 21) payload (hmemory ▸ hroomy)
    hs.allocator (by convert hc using 1; omega) hs.capsule (by decide) (by omega) fun i hi hlt => by
      -- the old and the new allocation are alive together
      have hhalf := hs.capsule.grows hlt
      have hpow : 2 ^ i ≤ 2 ^ 21 := Nat.pow_le_pow_right (by decide) hi
      omega
  have hcharged := (ParserBuffer.charged_extend (k := e.part connectId + e.part ctl + n) hroomy.rooted
    (by convert hc using 1; omega) hx)
  have hstart : Scanning base m ctl j n e (e.capsuleBuf.data ++ payload)
      { e with capsuleBuf := buf, heap := heap } := by
    refine ⟨⟨?_, ⟨h.unrefused.quiet, h.unrefused.parsers⟩, fun _ =>
      ⟨hexact, hcap, hs.connect, hs.control, hs.others⟩⟩, fun _ b hb => hdata ▸ hb, fun _ _ => rfl⟩
    refine h.ledger.setCapsule (hcharged.1.trans hmemory) ?_ hopen
    have htotal := charge_eq_parts hs hctl
    unfold charge at htotal
    rw [← hmemory]
    convert hcharged.2 using 1
    omega
  unfold Endpoint.scanCapsules
  rw [if_neg (by simp [hopen]), hx]
  refine hstart.exit hroomy hctl hn hlight _ ?_
  show (if e.closed then 0 else buf.data.length) < _
  rw [hopen, if_neg (by simp)]
  exact Nat.lt_succ_self _

/-! ## The CONNECT stream -/

/-- What is left of the bytes `rest` of the CONNECT stream is as light as these are. -/
structure Light (rest : Bytes) (e : Endpoint) : Prop where
  capsule : e.capsuleBuf.data.length ≤ maxControlFrame
  short : (e.frameBytes connectId).length ≤ rest.length
  heavy : ∀ more, Heavy e.capsuleBuf.data (e.frameBytes connectId ++ more) → Heavy [] (rest ++ more)

theorem Light.same {rest : Bytes} (h : Light rest e) (hs : SameMemory e e') : Light rest e' := by
  have hbytes := hs.frameBytes connectId
  have hcap := hs.capsule
  refine ⟨hcap ▸ h.capsule, hbytes ▸ h.short, fun more hm => h.heavy more ?_⟩
  rw [← hcap, ← hbytes]
  exact hm

/-- The frames of the CONNECT stream are taken one by one. -/
structure Taking (base : List ParserMemory) (m ctl j n : Nat) (rest : Bytes) (e : Endpoint) : Prop where
  quota : Quota base m ctl j n e
  light : e.closed = false → e.Light rest

theorem Taking.mild {rest : Bytes} (h : Taking base m ctl j n rest e) (hl : Ledger base m n e')
    (hm : Mild e e') : Taking base m ctl j n rest e' where
  quota := h.quota.mild hl hm
  light hopen := by
    have hsame := hm.same hopen
    exact (h.light (hsame.closed.symm.trans hopen)).same hsame

/-- How much the parser of an open session holds. -/
def frameSize (e : Endpoint) (id : Nat) : Nat := if e.closed then 0 else e.framesLength id

/-- A frame was taken, and dealt with. -/
theorem Taking.taken {rest : Bytes} (h : Taking base m ctl j n rest e) (hroomy : Roomy base m (2 ^ 23))
    (hctl : ctl ≠ connectId) (hn : n + 2 ^ j ≤ 2 ^ 21) (hrest : ¬Heavy [] rest)
    (hopen : e.closed = false) {ty : Nat} {payload : ParserBuffer} {e1 e2 : Endpoint}
    (hnext : e.nextFrame connectId = (some (ty, payload), e1)) (hledger : Ledger base m n (e2.dropBuffer payload))
    (hdata : ty = H3.frameData → e2 = (e1.log (.connectFrame ty payload.data)).scanCapsules payload.data)
    (hother : ty ≠ H3.frameData → Mild e1 e2) :
    Taking base m ctl j n rest (e2.dropBuffer payload) ∧
      (e2.dropBuffer payload).frameSize connectId < e.frameSize connectId := by
  have hlight := h.light hopen
  have hfine : frameHead (e.frameBytes connectId) ≠ .oversized := fun hover =>
    hrest (by simpa using hlight.heavy [] (.oversized (by simpa using hover)))
  have hframe := h.quota.nextFrame hroomy hctl hopen hn hfine
  have hkept := nextFrame_kept e connectId
  rw [hnext] at hframe hkept
  obtain ⟨hq1, hmemory, hcopy, hhead⟩ := hframe
  have hopen1 : e1.closed = false := hkept.1.trans hopen
  have hcap1 : e1.capsuleBuf = e.capsuleBuf := hkept.2.1
  have hmax : maxControlFrame = 2 ^ 20 := rfl
  have hlen := frameHead_length hhead
  have hpayload : payload.data.length ≤ maxControlFrame := frameHead_payload hhead
  have hcopy := hcopy.le
  have hsize : e.frameSize connectId = (e.frameBytes connectId).length := by
    rw [frameSize, hopen, if_neg (by simp), framesLength_eq]
  -- what is left behind the frame
  have hbehind : ∀ more, frameHead (e.frameBytes connectId ++ more) =
      .frame ty payload.data (e1.frameBytes connectId ++ more) := fun more =>
    (frameHead_append more).2 _ _ _ hhead
  by_cases hty : ty = H3.frameData
  · subst hty
    obtain rfl := hdata rfl
    have hlog : Quota base m ctl j (n + payload.capacity) (e1.log (.connectFrame H3.frameData payload.data)) :=
      hq1.mild (hq1.ledger.log _) (.log e1 _)
    have hnot : ¬Heavy (e1.capsuleBuf.data ++ payload.data) (e1.frameBytes connectId) := fun hbad =>
      hrest (by
        have hb := hlight.heavy [] (.data (hbehind []) (hcap1 ▸ (by simpa using hbad)))
        simpa using hb)
    obtain ⟨hscan, hshort⟩ := hlog.scanCapsules hroomy hctl hopen1 (by omega)
      (by show e1.capsuleBuf.data.length ≤ _; rw [hcap1]; exact hlight.capsule) hpayload hnot
    have hsame : ((e1.log (.connectFrame H3.frameData payload.data)).scanCapsules payload.data).closed =
        false → ((e1.log (.connectFrame H3.frameData payload.data)).scanCapsules
          payload.data).frameBytes connectId = e1.frameBytes connectId := fun hc => by
      have hb := congrArg (Option.map fun b : FrameParser × ParserBuffer => b.1.buf.data)
        (hscan.buffers hc connectId)
      simp only [Option.map_map] at hb
      exact congrArg (Option.getD · []) hb
    refine ⟨⟨hscan.quota.dropBuffer hmemory hroomy.rooted, fun hc => ⟨hshort hc, ?_, fun more hm => ?_⟩⟩, ?_⟩
    · show (Endpoint.frameBytes ((e1.log (.connectFrame H3.frameData payload.data)).scanCapsules
        payload.data) connectId).length ≤ _
      rw [hsame hc]
      exact hlen.le.trans hlight.short
    · have hm : Heavy _ (Endpoint.frameBytes ((e1.log (.connectFrame H3.frameData payload.data)).scanCapsules
        payload.data) connectId ++ more) := hm
      rw [hsame hc] at hm
      have hb := hscan.left hc _ hm
      have hcap : (e1.log (.connectFrame H3.frameData payload.data)).capsuleBuf.data =
          e.capsuleBuf.data := congrArg ParserBuffer.data hcap1
      rw [hcap] at hb
      exact hlight.heavy more (.data (hbehind more) hb)
    · rw [hsize, frameSize]
      split
      · omega
      next hc =>
        have hc := Bool.eq_false_iff.mpr hc
        have hb := hsame hc
        rw [framesLength_eq]
        show (Endpoint.frameBytes ((e1.log (.connectFrame H3.frameData payload.data)).scanCapsules
          payload.data) connectId).length < _
        rw [hb]
        exact hlen
  · have hmild := hother hty
    have hsame : e2.closed = false → e2.frameBytes connectId = e1.frameBytes connectId ∧
        e2.capsuleBuf = e.capsuleBuf := fun hc =>
      ⟨(hmild.same hc).frameBytes connectId, (hmild.same hc).capsule.trans hcap1⟩
    refine ⟨⟨⟨hledger, ?_, fun hc => ?_⟩, fun hc => ⟨?_, ?_, fun more hm => ?_⟩⟩, ?_⟩
    · have hun := hmild.unrefused hq1.unrefused
      exact ⟨hun.quiet, hun.parsers⟩
    · have hs := ((hq1.sized hopen1).same (hmild.same hc))
      exact ⟨hs.allocator.release _ _, hs.capsule, hs.connect, hs.control, hs.others⟩
    · show e2.capsuleBuf.data.length ≤ _
      rw [(hsame hc).2]
      exact hlight.capsule
    · show (e2.frameBytes connectId).length ≤ _
      rw [(hsame hc).1]
      exact hlen.le.trans hlight.short
    · have hm : Heavy e2.capsuleBuf.data (e2.frameBytes connectId ++ more) := hm
      rw [(hsame hc).1, (hsame hc).2] at hm
      exact hlight.heavy more (.other (hbehind more) hty hm)
    · rw [hsize, frameSize]
      split
      · omega
      next hc =>
        have hc := Bool.eq_false_iff.mpr hc
        rw [framesLength_eq]
        show (e2.frameBytes connectId).length < _
        rw [(hsame hc).1]
        exact hlen

end

section

variable [H3.Codec] {base : List ParserMemory} {m ctl j n : Nat} {e e' : Endpoint}

/-- One pass of a loop over the frames of the CONNECT stream, for either role. -/
structure TakesFrames (base : List ParserMemory) (m ctl j n : Nat) (rest : Bytes)
    (body : Endpoint → Endpoint × Bool) : Prop where
  kept : ∀ e, Taking base m ctl j n rest e → Taking base m ctl j n rest (body e).1
  less : ∀ e, Taking base m ctl j n rest e → (body e).2 = true →
    (body e).1.frameSize connectId < e.frameSize connectId
  last : ∀ e, Taking base m ctl j n rest e → (body e).2 = false → (body e).1.closed = false →
    frameHead ((body e).1.frameBytes connectId) = .incomplete

omit [H3.Codec] in
/-- There is no whole frame. -/
theorem Taking.finished {rest : Bytes} (h : Taking base m ctl j n rest e)
    (hroomy : Roomy base m (2 ^ 23)) (hctl : ctl ≠ connectId) (hn : n + 2 ^ j ≤ 2 ^ 21)
    (hrest : ¬Heavy [] rest) (hopen : e.closed = false) {e1 : Endpoint}
    (hnext : e.nextFrame connectId = (none, e1)) : Taking base m ctl j n rest e1 ∧
      frameHead (e1.frameBytes connectId) = .incomplete := by
  have hlight := h.light hopen
  have hfine : frameHead (e.frameBytes connectId) ≠ .oversized := fun hover =>
    hrest (by simpa using hlight.heavy [] (.oversized (by simpa using hover)))
  have hframe := h.quota.nextFrame hroomy hctl hopen hn hfine
  have hkept := nextFrame_kept e connectId
  rw [hnext] at hframe hkept
  obtain ⟨hq1, hbytes, hhead⟩ := hframe
  have hcap : e1.capsuleBuf = e.capsuleBuf := hkept.2.1
  refine ⟨⟨hq1, fun _ => ⟨hcap ▸ hlight.capsule, hbytes ▸ hlight.short, fun more hm =>
    hlight.heavy more ?_⟩⟩, hbytes ▸ hhead⟩
  rw [← hcap, ← hbytes]
  exact hm

/-- What one pass of such a loop does: nothing, on a closed session or without a whole frame;
else it takes a frame, scans a DATA payload for capsules and does something mild with the
payload of any other type. -/
inductive Dispatched (e : Endpoint) : Endpoint × Bool → Prop where
  | closed : e.closed = true → Dispatched e (e, false)
  | starved {e1 : Endpoint} : e.closed = false → e.nextFrame connectId = (none, e1) →
      Dispatched e (e1, false)
  | took {ty : Nat} {payload : ParserBuffer} {e1 e2 : Endpoint} : e.closed = false →
      e.nextFrame connectId = (some (ty, payload), e1) →
      (ty = H3.frameData → e2 = (e1.log (.connectFrame ty payload.data)).scanCapsules payload.data) →
      (ty ≠ H3.frameData → Mild e1 e2) → Dispatched e (e2.dropBuffer payload, true)

theorem connectStep_dispatched (e : Endpoint) : Dispatched e (connectStep connectId e) := by
  unfold Endpoint.connectStep
  by_cases hclosed : e.closed = true
  · rw [if_pos hclosed]
    exact .closed hclosed
  · rw [if_neg hclosed]
    have hopen : e.closed = false := by simpa using hclosed
    cases hnext : e.nextFrame connectId with
    | mk frame e1 =>
        cases frame with
        | none => exact .starved hopen hnext
        | some frame =>
            obtain ⟨ty, payload⟩ := frame
            refine .took hopen hnext (fun hty => ?_) fun hty => ?_
            · subst hty
              rw [if_neg (by simp [H3.frameData, H3.frameHeaders]), if_pos rfl]
            · have hlog := Mild.log e1 (.connectFrame ty payload.data)
              split
              · have hset := hlog.trans (.modify _ connectId
                  (f := fun st => { st with headersDone := true }) fun _ => rfl)
                split
                · exact hset.trans (.connectResponse _ _)
                · exact hset.trans (.emit _ (error_ne (by simp [toString_self])))
              · exact hlog

theorem serverConnectStep_dispatched (e : Endpoint) :
    Dispatched e (serverConnectStep connectId e) := by
  unfold Endpoint.serverConnectStep
  by_cases hclosed : e.closed = true
  · rw [if_pos hclosed]
    exact .closed hclosed
  · rw [if_neg hclosed]
    have hopen : e.closed = false := by simpa using hclosed
    cases hnext : e.nextFrame connectId with
    | mk frame e1 =>
        cases frame with
        | none => exact .starved hopen hnext
        | some frame =>
            obtain ⟨ty, payload⟩ := frame
            refine .took hopen hnext (fun hty => ?_) fun hty => ?_
            · subst hty
              rw [if_neg (by simp [H3.frameData, H3.frameHeaders]), if_pos rfl]
            · have hlog := Mild.log e1 (.connectFrame ty payload.data)
              split
              · have hset := hlog.trans (.modify _ connectId
                  (f := fun st => { st with headersDone := true }) fun _ => rfl)
                split
                · exact hset.trans (.acceptConnect _ _ _)
                · exact (hset.trans (.emit _ (error_ne (by simp [toString_self])))).trans
                    (.rejectConnect _ _ _)
              · exact hlog

omit [H3.Codec] in
/-- A pass that keeps the ledger takes frames. -/
theorem TakesFrames.of_dispatched {rest : Bytes} (hroomy : Roomy base m (2 ^ 23))
    (hctl : ctl ≠ connectId) (hn : n + 2 ^ j ≤ 2 ^ 21) (hrest : ¬Heavy [] rest)
    {body : Endpoint → Endpoint × Bool} (hbody : ∀ e, Dispatched e (body e))
    (hledger : ∀ e, Ledger base m n e → Ledger base m n (body e).1) :
    TakesFrames base m ctl j n rest body := by
  have hall : ∀ e, Taking base m ctl j n rest e → Taking base m ctl j n rest (body e).1 ∧
      ((body e).2 = true → (body e).1.frameSize connectId < e.frameSize connectId) ∧
      ((body e).2 = false → (body e).1.closed = false →
        frameHead ((body e).1.frameBytes connectId) = .incomplete) := by
    intro e h
    have hkept := hledger e h.quota.ledger
    have hstep := hbody e
    generalize body e = r at hkept hstep ⊢
    cases hstep with
    | closed hclosed =>
        exact ⟨h, fun hgo => (by cases hgo), fun _ hc => absurd (hclosed.symm.trans hc) (by simp)⟩
    | starved hopen hnext =>
        obtain ⟨hdone, hhead⟩ := h.finished hroomy hctl hn hrest hopen hnext
        exact ⟨hdone, fun hgo => (by cases hgo), fun _ _ => hhead⟩
    | took hopen hnext hdata hother =>
        have htaken := h.taken hroomy hctl hn hrest hopen hnext hkept hdata hother
        exact ⟨htaken.1, fun _ => htaken.2, fun hgo => (by cases hgo)⟩
  exact ⟨fun e h => (hall e h).1, fun e h => (hall e h).2.1, fun e h => (hall e h).2.2⟩

theorem connectStep_takes {rest : Bytes} (hroomy : Roomy base m (2 ^ 23)) (hctl : ctl ≠ connectId)
    (hn : n + 2 ^ j ≤ 2 ^ 21) (hrest : ¬Heavy [] rest) :
    TakesFrames base m ctl j n rest (connectStep connectId) :=
  .of_dispatched hroomy hctl hn hrest connectStep_dispatched fun _ h =>
    h.connectStep connectId hroomy.rooted

theorem serverConnectStep_takes {rest : Bytes} (hroomy : Roomy base m (2 ^ 23))
    (hctl : ctl ≠ connectId) (hn : n + 2 ^ j ≤ 2 ^ 21) (hrest : ¬Heavy [] rest) :
    TakesFrames base m ctl j n rest (serverConnectStep connectId) :=
  .of_dispatched hroomy hctl hn hrest serverConnectStep_dispatched fun _ h =>
    h.serverConnectStep connectId hroomy.rooted

omit [H3.Codec] in
theorem Taking.loop {rest : Bytes} {body : Endpoint → Endpoint × Bool}
    (hbody : TakesFrames base m ctl j n rest body) (h : Taking base m ctl j n rest e) :
    Taking base m ctl j n rest (iterate body (e.framesLength connectId + 1) e) ∧
      ((iterate body (e.framesLength connectId + 1) e).closed = false →
        frameHead ((iterate body (e.framesLength connectId + 1) e).frameBytes connectId) = .incomplete) := by
  refine iterate_exit (I := Taking base m ctl j n rest)
    (Q := fun s => Taking base m ctl j n rest s ∧
      (s.closed = false → frameHead (s.frameBytes connectId) = .incomplete))
    (fun s => s.frameSize connectId) ?_ ?_ _ h ?_
  · exact fun s hs hgo => ⟨hbody.kept s hs, hbody.less s hs hgo⟩
  · exact fun s hs hstop => ⟨hbody.kept s hs, hbody.last s hs hstop⟩
  · unfold frameSize
    split <;> omega

/-- What the session holds of the CONNECT stream: no whole frame, or what came in front of
the peer's SETTINGS. -/
def Drains (e : Endpoint) : Prop :=
  frameHead (e.frameBytes connectId) = .incomplete ∨ e.cfg.isServer = true ∧ e.peerSettings = none

theorem Taking.parseServerConnectFrames {rest : Bytes} (h : Taking base m ctl j n rest e)
    (hroomy : Roomy base m (2 ^ 23)) (hctl : ctl ≠ connectId) (hn : n + 2 ^ j ≤ 2 ^ 21)
    (hrest : ¬Heavy [] rest) (hserver : e.cfg.isServer = true) :
    Taking base m ctl j n rest (e.parseServerConnectFrames connectId) ∧
      ((e.parseServerConnectFrames connectId).closed = false →
        (e.parseServerConnectFrames connectId).Drains) := by
  have hledger := h.quota.ledger.parseServerConnectFrames connectId hroomy.rooted
  unfold Endpoint.parseServerConnectFrames at hledger ⊢
  cases hset : e.peerSettings with
  | none => exact ⟨h, fun _ => .inr ⟨hserver, hset⟩⟩
  | some settings =>
      simp only [hset] at hledger ⊢
      split at hledger
      next hrefused =>
        rw [if_pos hrefused]
        refine ⟨h.mild hledger (.rejectConnect _ _ _), fun hc => ?_⟩
        exact absurd hc (by simp [Endpoint.rejectConnect, markClosed_closed])
      next hadmitted =>
        rw [if_neg hadmitted]
        obtain ⟨htaken, hdone⟩ := h.loop (serverConnectStep_takes hroomy hctl hn hrest)
        exact ⟨htaken, fun hc => .inl (hdone hc)⟩

theorem Taking.parseConnectFrames {rest : Bytes} (h : Taking base m ctl j n rest e)
    (hroomy : Roomy base m (2 ^ 23)) (hctl : ctl ≠ connectId) (hn : n + 2 ^ j ≤ 2 ^ 21)
    (hrest : ¬Heavy [] rest) :
    Taking base m ctl j n rest (e.parseConnectFrames connectId) ∧
      ((e.parseConnectFrames connectId).closed = false →
        (e.parseConnectFrames connectId).Drains) := by
  obtain ⟨htaken, hdone⟩ := h.loop (connectStep_takes hroomy hctl hn hrest)
  exact ⟨htaken, fun hc => .inl (hdone hc)⟩

end

/-! ## The control stream -/

section

variable {base : List ParserMemory} {m ctl j n : Nat} {e e' : Endpoint}

/-- What is known of the CONNECT stream while another stream is read. -/
structure Sitting (rest : Bytes) (e : Endpoint) : Prop where
  light : e.Light rest
  drains : e.Drains
  /-- Before the request of a client was queued there is nothing to parse. -/
  pending : e.cfg.isServer = false → e.connectPending = true → e.frameBytes connectId = []

theorem Sitting.congr {rest : Bytes} (h : Sitting rest e) (hcap : e'.capsuleBuf = e.capsuleBuf)
    (hbytes : e'.frameBytes connectId = e.frameBytes connectId) (hcfg : e'.cfg = e.cfg)
    (hset : e'.peerSettings = e.peerSettings) (hpending : e'.connectPending = e.connectPending) :
    Sitting rest e' := by
  refine ⟨⟨hcap ▸ h.light.capsule, hbytes ▸ h.light.short, ?_⟩, ?_, ?_⟩
  · rw [hcap, hbytes]
    exact h.light.heavy
  · unfold Drains
    rw [hbytes, hcfg, hset]
    exact h.drains
  · rw [hcfg, hpending, hbytes]
    exact h.pending

/-- A stream whose buffers are empty takes the place of another one, or a new one. -/
theorem Quota.insertStream (h : Quota base m ctl j n e) (hroot : Rooted base) (id : Nat) {st : Stream}
    (ha : st.Attached m) (hzero : st.charge = 0) (hok : st.frames.error = false) :
    Quota base m ctl j n (e.insertStream id st) := by
  obtain ⟨hframes, hclass⟩ : st.frames.buf.capacity = 0 ∧ st.classBuf.capacity = 0 := by
    unfold Stream.charge at hzero
    omega
  have hget : ∀ i st', (e.insertStream id st).streams.get i = some st' →
      st' = st ∨ e.streams.get i = some st' := by
    intro i st' hst'
    simp only [Endpoint.insertStream, Table.get_insert] at hst'
    split at hst'
    · exact .inl (Option.some.inj hst').symm
    · exact .inr hst'
  refine ⟨h.ledger.insertStream id ha hzero hroot, ⟨h.unrefused.quiet, fun i st' hst' => ?_⟩,
    fun hopen => ?_⟩
  · rcases hget i st' hst' with rfl | hold
    · exact hok
    · exact h.unrefused.parsers i st' hold
  · have hs := h.sized hopen
    refine ⟨?_, hs.capsule, fun st' hst' => ?_, fun st' hst' => ?_, fun i st' hconnect hctl hst' => ?_⟩
    · unfold Endpoint.insertStream
      simp only
      split
      next old _ => exact hs.allocator.stream old
      · exact hs.allocator
    · rcases hget _ st' hst' with rfl | hold
      · exact ⟨.inl hframes, hclass⟩
      · exact hs.connect st' hold
    · rcases hget _ st' hst' with rfl | hold
      · exact ⟨.inl hframes, .inl hclass, .inl hframes⟩
      · exact hs.control st' hold
    · rcases hget i st' hst' with rfl | hold
      · exact hzero
      · exact hs.others i st' hconnect hctl hold

variable [H3.Codec]

theorem releaseConnect_cfg (e : Endpoint) (s : H3.PeerSettings) : (e.releaseConnect s).cfg = e.cfg := by
  unfold Endpoint.releaseConnect
  simp only
  split
  · split
    · unfold Endpoint.queueConnect
      split <;> rfl
    · exact markClosed_cfg _ _ _ _
  · rfl

/-- The request of a client goes out. -/
theorem Quota.releaseConnect {rest : Bytes} (h : Quota base m ctl j n e) (hroot : Rooted base)
    (hsit : Sitting rest e) (hserver : e.cfg.isServer = true → e.connectPending = false)
    (s : H3.PeerSettings) : Quota base m ctl j n (e.releaseConnect s) ∧
      ((e.releaseConnect s).closed = false → Sitting rest (e.releaseConnect s) ∧
        (e.releaseConnect s).connectPending = false) := by
  have hledger := h.ledger.releaseConnect s hroot
  unfold Endpoint.releaseConnect at hledger ⊢
  split
  next hp =>
    have hclient : e.cfg.isServer = false := by
      cases hc : e.cfg.isServer with
      | false => rfl
      | true => exact absurd ((hserver hc).symm.trans hp) (by simp)
    have hbytes := hsit.pending hclient hp
    have hset : Quota base m ctl j n { e with connectPending := false } :=
      h.same ⟨rfl, rfl, rfl, fun _ => rfl, rfl⟩ fun _ hv => .inl hv
    rw [if_pos hp] at hledger
    simp only at hledger ⊢
    split
    · rw [if_pos ‹_›] at hledger
      unfold Endpoint.queueConnect at hledger ⊢
      split
      next frame hframe =>
        have hlog : Quota base m ctl j n
            (({ e with connectPending := false } : Endpoint).log .connectQueued) :=
          hset.mild (hset.ledger.log _) (.log _ _)
        refine ⟨hlog.insertStream hroot _ (hlog.ledger.memory ▸ Stream.attached_withPrefix _ _ _) rfl rfl,
          fun _ => ⟨⟨⟨hsit.light.capsule, ?_, fun more hm => hsit.light.heavy more ?_⟩, .inl ?_, ?_⟩, rfl⟩⟩
        · have hnew : Endpoint.frameBytes ((({ e with connectPending := false } : Endpoint).log
              .connectQueued).insertStream connectId (.withPrefix .connect frame e.parserMemory))
              connectId = [] := by
            simp [frameBytes, Endpoint.insertStream, Stream.withPrefix, Stream.new, ParserBuffer.new]
          have hgoal : (Endpoint.frameBytes ((({ e with connectPending := false } : Endpoint).log
              .connectQueued).insertStream connectId (.withPrefix .connect frame e.parserMemory))
              connectId).length ≤ rest.length := by
            rw [hnew]
            exact Nat.zero_le _
          exact hgoal
        · have hnew : Endpoint.frameBytes ((({ e with connectPending := false } : Endpoint).log
              .connectQueued).insertStream connectId (.withPrefix .connect frame e.parserMemory))
              connectId = [] := by
            simp [frameBytes, Endpoint.insertStream, Stream.withPrefix, Stream.new, ParserBuffer.new]
          rw [hbytes]
          have hm : Heavy e.capsuleBuf.data (Endpoint.frameBytes ((({ e with
            connectPending := false } : Endpoint).log .connectQueued).insertStream connectId
              (.withPrefix .connect frame e.parserMemory)) connectId ++ more) := hm
          rwa [hnew] at hm
        · have hnew : Endpoint.frameBytes ((({ e with connectPending := false } : Endpoint).log
              .connectQueued).insertStream connectId (.withPrefix .connect frame e.parserMemory))
              connectId = [] := by
            simp [frameBytes, Endpoint.insertStream, Stream.withPrefix, Stream.new, ParserBuffer.new]
          have hgoal : frameHead (Endpoint.frameBytes ((({ e with connectPending := false } : Endpoint).log
              .connectQueued).insertStream connectId (.withPrefix .connect frame e.parserMemory))
              connectId) = .incomplete := by
            rw [hnew]
            rfl
          exact hgoal
        · exact fun _ hbad => absurd hbad (by simp [Endpoint.insertStream, Endpoint.log])
      · refine ⟨hset.mild (hset.ledger.emit _) (.emit _ (error_ne (by simp [toString_self]))), fun _ =>
          ⟨⟨⟨hsit.light.capsule, hsit.light.short, hsit.light.heavy⟩, hsit.drains, fun _ hbad => ?_⟩, rfl⟩⟩
        exact absurd hbad (by simp [Endpoint.emit])
    · rw [if_neg ‹_›] at hledger
      refine ⟨hset.mild hledger (.fail _ (by decide) _ _ _), fun hc => ?_⟩
      exact absurd hc (by simp [markClosed_closed])
  next hp => exact ⟨h, fun _ => ⟨hsit, by simpa using hp⟩⟩

/-- What the peer's SETTINGS release: at most a mebibyte of the CONNECT stream of a server
waits for them. -/
theorem Quota.applySettings {rest : Bytes} (h : Quota base m ctl j n e) (hroomy : Roomy base m (2 ^ 23))
    (hctl : ctl ≠ connectId) (hsit : Sitting rest e) (hidle : e.ServerIdle)
    (hrest : ¬Heavy [] rest) (hn : e.cfg.isServer = true → n + 2 ^ j ≤ 2 ^ 21) (s : H3.PeerSettings)
    (hkept : (e.applySettings s).cfg = e.cfg) :
    Quota base m ctl j n (e.applySettings s) ∧
      ((e.applySettings s).closed = false → Sitting rest (e.applySettings s)) := by
  have hledger := h.ledger.applySettings s hroomy.rooted
  unfold Endpoint.applySettings at hledger hkept ⊢
  simp only at hledger hkept ⊢
  cases hserver : e.cfg.isServer with
  | true =>
      have hpending : (e.seedLimits s).connectPending = false := hidle hserver
      have hsame : (e.seedLimits s).releaseConnect s = e.seedLimits s := by
        simp [Endpoint.releaseConnect, hpending]
      have hcfg : (e.seedLimits s).cfg.isServer = true := hserver
      rw [hsame] at hledger hkept ⊢
      have hseed : Quota base m ctl j n (e.seedLimits s) :=
        h.same ⟨rfl, rfl, rfl, fun _ => rfl, rfl⟩ fun _ hv => .inl hv
      have htaking : Taking base m ctl j n rest (e.seedLimits s) :=
        ⟨hseed, fun _ => hsit.light.same ⟨rfl, rfl, rfl, fun _ => rfl, rfl⟩⟩
      split
      · obtain ⟨htaken, hdrains⟩ := htaking.parseServerConnectFrames hroomy hctl (hn hserver) hrest hcfg
        refine ⟨htaken.quota, fun hc => ⟨htaken.light hc, hdrains hc, fun hclient => ?_⟩⟩
        rw [if_pos ‹_›] at hkept
        rw [hkept, hserver] at hclient
        cases hclient
      next hnone =>
        refine ⟨htaking.quota, fun _ => ⟨hsit.light.same ⟨rfl, rfl, rfl, fun _ => rfl, rfl⟩, .inl ?_,
          fun hclient => ?_⟩⟩
        · have habsent : e.streams.get connectId = none := by
            have hnot : e.streams.contains connectId ≠ true := fun hbad => hnone ⟨hcfg, hbad⟩
            simpa [Table.contains] using hnot
          have hbytes : (e.seedLimits s).frameBytes connectId = [] := by
            simp [frameBytes, Endpoint.seedLimits, habsent]
          rw [hbytes]
          rfl
        · rw [hcfg] at hclient
          cases hclient
  | false =>
      have hdrained : frameHead (e.frameBytes connectId) = .incomplete := by
        rcases hsit.drains with hhead | ⟨hbad, -⟩
        · exact hhead
        · rw [hserver] at hbad
          cases hbad
      have hseed : Quota base m ctl j n (e.seedLimits s) :=
        h.same ⟨rfl, rfl, rfl, fun _ => rfl, rfl⟩ fun _ hv => .inl hv
      have hsit' : Sitting rest (e.seedLimits s) :=
        ⟨hsit.light.same ⟨rfl, rfl, rfl, fun _ => rfl, rfl⟩, .inl hdrained, hsit.pending⟩
      obtain ⟨hquota, hafter⟩ := hseed.releaseConnect hroomy.rooted hsit'
        (fun hbad => absurd (hserver.symm.trans hbad) (by simp)) s
      have hcfg : ((e.seedLimits s).releaseConnect s).cfg.isServer = false := by
        rw [releaseConnect_cfg]
        exact hserver
      rw [if_neg (by simp [hcfg])] at hledger ⊢
      exact ⟨hquota, fun hc => (hafter hc).1⟩

end

section

variable [H3.Codec] {base : List ParserMemory} {m ctl j n : Nat} {e e' : Endpoint}

omit [H3.Codec] in
/-- A chunk reaches the frame parser of the CONNECT stream or of the control stream. -/
theorem Quota.pushFrames (h : Quota base m ctl j 0 e) (hroomy : Roomy base m (2 ^ 23))
    (hctl : ctl ≠ connectId) (hopen : e.closed = false) (hj : j ≤ 21) {id : Nat} {st : Stream}
    (hst : e.streams.get id = some st) (chunk : Bytes)
    (hid : id = connectId ∧ st.frames.buf.data.length + chunk.length ≤ 2 ^ j ∨
      id = ctl ∧ st.classBuf.capacity = 0 ∧ st.frames.buf.data.length + chunk.length ≤ 2 ^ 21) :
    Quota base m ctl j 0 (e.pushFrames id chunk) ∧
      (e.pushFrames id chunk).frameBytes id = e.frameBytes id ++ chunk := by
  have hs := h.sized hopen
  have hledger := h.ledger.pushFrames hopen id chunk hroomy.rooted
  have hmemory := (h.ledger.streams id st hst).frames
  have htotal := charge_eq_parts hs hctl
  have hcapsule := hs.capsule.le
  have hconnect := hs.part_connect
  have hcontrol := hs.part_control
  have hpowj : 2 ^ j ≤ 2 ^ 21 := Nat.pow_le_pow_right (by decide) hj
  have hpart : e.part id = st.charge := by simp [part, hst]
  -- what grows, and what everything else takes
  obtain ⟨i, hi, hrounded, hlen, hk, hnew⟩ : ∃ i ≤ 21, Rounded i st.frames.buf.capacity ∧
      st.frames.buf.data.length + chunk.length ≤ 2 ^ i ∧
      e.charge ≤ 2 ^ 22 + st.frames.buf.capacity ∧
      ∀ p : FrameParser, Rounded i p.buf.capacity → (id = connectId ∧ Rounded j p.buf.capacity ∨
        id = ctl ∧ Rounded 21 p.buf.capacity ∧ st.classBuf.capacity = 0) := by
    rcases hid with ⟨rfl, hlen⟩ | ⟨rfl, hclass, hlen⟩
    · obtain ⟨hrounded, hclass⟩ := hs.connect st hst
      refine ⟨j, hj, hrounded, hlen, ?_, fun p hp => .inl ⟨rfl, hp⟩⟩
      unfold Stream.charge at hpart
      omega
    · obtain ⟨hrounded, -, -⟩ := hs.control st hst
      refine ⟨21, Nat.le_refl _, hrounded, hlen, ?_, fun p hp => .inr ⟨rfl, hp, hclass⟩⟩
      unfold Stream.charge at hpart
      omega
  have hle : st.frames.buf.capacity ≤ e.charge := by
    have hsplit := charge_split hst
    unfold Stream.charge at hsplit
    omega
  have hc := h.ledger.charged
  rw [← hmemory] at hc
  obtain ⟨p, heap, hx, hok, hdata, hcap, hexact⟩ := st.frames.push_fits chunk
    (k := e.charge - st.frames.buf.capacity)
    (show Roomy base st.frames.buf.memory (2 ^ 23) from hmemory ▸ hroomy) hs.allocator
    (by convert hc using 1; omega) (h.unrefused.parsers id st hst) hrounded (by omega) hlen
    fun a ha hlt => by
      have hhalf := hrounded.grows hlt
      have hpow : 2 ^ a ≤ 2 ^ 21 := Nat.pow_le_pow_right (by decide) (ha.trans hi)
      omega
  have hself : (e.streams.modify id fun s => { s with frames := p }).get id =
      some { st with frames := p } := by simp [hst]
  unfold Endpoint.pushFrames at hledger ⊢
  simp only [hst, hx] at hledger ⊢
  refine ⟨⟨hledger, ⟨h.unrefused.quiet, fun a st' hst' => ?_⟩, fun _ =>
    hs.growFrames hst hexact hctl (hnew p hcap)⟩, ?_⟩
  · simp only [Table.get_modify] at hst'
    split at hst'
    next ha =>
      rw [ha, hst, Option.map_some] at hst'
      exact Option.some.inj hst' ▸ hok
    · exact h.unrefused.parsers a st' hst'
  · simp only [frameBytes, hself, hst, Option.map_some, Option.getD_some]
    exact hdata

omit [H3.Codec] in
theorem parseSettings_message {payload : Bytes} {message : String}
    (h : H3.parseSettings payload = .error message) : Ev.error message ≠ limitExceeded := by
  have hloop : ∀ (fuel : Nat) (seen : List Nat) (s : H3.PeerSettings) (payload : Bytes),
      H3.parseSettingsLoop fuel seen s payload = .error message → Ev.error message ≠ limitExceeded := by
    intro fuel
    induction fuel with
    | zero =>
        intro seen s payload h
        cases h
    | succ fuel ih =>
        intro seen s payload h
        unfold H3.parseSettingsLoop at h
        split at h
        · cases h
        · split at h
          · cases h
            decide
          · split at h
            · cases h
              decide
            · split_ifs at h
              · cases h
                decide
              · cases h
                decide
              · cases h
                decide
              · exact ih _ _ _ h
  exact hloop _ _ _ _ h

/-- What a frame on the control stream does. -/
theorem Quota.handleControlFrame {rest : Bytes} (h : Quota base m ctl j n e)
    (hroomy : Roomy base m (2 ^ 23)) (hctl : ctl ≠ connectId) (hsit : Sitting rest e) (hl : e.Layout)
    (hrole : e.roleOf ctl = some .peerControl) (hopen : e.closed = false) (hrest : ¬Heavy [] rest)
    (first : Bool) (hn : first = true → e.cfg.isServer = true → n + 2 ^ j ≤ 2 ^ 21) (ty : Nat)
    (payload : Bytes) : Quota base m ctl j n (e.handleControlFrame ctl first ty payload) ∧
      ((e.handleControlFrame ctl first ty payload).closed = false →
        Sitting rest (e.handleControlFrame ctl first ty payload)) := by
  have hends : ∀ (s : Endpoint) (code : Nat) (message : String), Quota base m ctl j n s →
      Ev.error message ≠ limitExceeded → Quota base m ctl j n (s.protocolError code message) ∧
        ((s.protocolError code message).closed = false → Sitting rest (s.protocolError code message)) :=
    fun s code message hs hm => ⟨hs.mild (hs.ledger.protocolError _ _ hroomy.rooted) (.protocolError s code hm),
      fun hc => absurd hc (by simp [protocolError_closed])⟩
  unfold Endpoint.handleControlFrame
  split
  · exact hends e _ _ h (by decide)
  · split
    · split
      · exact hends e _ _ h (by decide)
      next hfirst =>
        have hfirst : first = true := by simpa using hfirst
        have hdone : Mild e (e.setHeadersDone ctl) := .modify e ctl fun _ => rfl
        have hledger : Ledger base m n (e.setHeadersDone ctl) := h.ledger.modify ctl fun _ => rfl
        have hq := h.mild hledger hdone
        simp only
        split
        next s hs =>
          have hbytes : (e.setHeadersDone ctl).frameBytes connectId = e.frameBytes connectId :=
            (SameMemory.modifyStream e ctl (f := fun st => { st with headersDone := true })
              fun _ => rfl).frameBytes connectId
          have heff : Effects connectId ((e.setHeadersDone ctl).seedLimits s)
              ((e.setHeadersDone ctl).applySettings s) :=
            released_effects (hl.settings hrole s) hopen rfl
          exact hq.applySettings hroomy hctl (hsit.congr rfl hbytes rfl rfl rfl) hl.idle hrest
            (hn hfirst) s heff.cfg
        next message hs => exact hends _ _ _ hq (parseSettings_message hs)
    · split
      · exact hends e _ _ h (by decide)
      · split
        · have hset : Mild e { e with drainEmitted := true } :=
            .of_same ⟨rfl, rfl, rfl, fun _ => rfl, rfl⟩ ⟨rfl, rfl, rfl⟩ fun _ hv => .inl hv
          refine ⟨h.mild (h.ledger.same ⟨rfl, rfl, rfl, fun _ => rfl, rfl⟩)
            (hset.trans (.emit _ (by decide))), fun _ => hsit.congr rfl rfl rfl rfl rfl⟩
        · exact ⟨h, fun _ => hsit⟩

end

section

variable [H3.Codec] {base : List ParserMemory} {m ctl j n : Nat} {e e' : Endpoint}

/-- The control stream is parsed, of which `restT` was read behind its type, and `rest` of the
CONNECT stream. -/
structure Steering (base : List ParserMemory) (m ctl j : Nat) (rest restT : Bytes)
    (before : Option H3.PeerSettings) (e : Endpoint) : Prop where
  quota : Quota base m ctl j 0 e
  parsing : Parsing ctl restT before e
  sitting : e.closed = false → Sitting rest e
  /-- A mebibyte of the CONNECT stream at most waits for the SETTINGS. -/
  first : e.closed = false → e.cfg.isServer = true → e.headersDone ctl = false → j ≤ 20
  bare : e.closed = false → ∀ st, e.streams.get ctl = some st → st.classBuf.capacity = 0
  trail : e.closed = false → ∀ more, Oversized (e.frameBytes ctl ++ more) → Oversized (restT ++ more)

theorem Steering.step {rest restT : Bytes} {before : Option H3.PeerSettings}
    (h : Steering base m ctl j rest restT before e) (hroomy : Roomy base m (2 ^ 23))
    (hctl : ctl ≠ connectId) (hj : j ≤ 21) (hrest : ¬Heavy [] rest) (hrestT : ¬Oversized restT) :
    Steering base m ctl j rest restT before (controlStep ctl e).1 ∧
      ((controlStep ctl e).2 = true → (controlStep ctl e).1.frameSize ctl < e.frameSize ctl) ∧
      ((controlStep ctl e).2 = false → (controlStep ctl e).1.closed = false →
        frameHead ((controlStep ctl e).1.frameBytes ctl) = .incomplete) := by
  have hledger := h.quota.ledger.controlStep ctl hroomy.rooted
  have hparsing := (controlStep_parsing h.parsing).1
  have hcfg := (controlStep_effects h.parsing.control).cfg
  have hpow : 2 ^ j ≤ 2 ^ 21 := Nat.pow_le_pow_right (by decide) hj
  unfold controlStep at hledger hparsing hcfg ⊢
  by_cases hclosed : e.closed = true
  · rw [if_pos hclosed]
    exact ⟨h, fun hgo => (by cases hgo), fun _ hc => absurd (hclosed.symm.trans hc) (by simp)⟩
  · have hopen : e.closed = false := by simpa using hclosed
    rw [if_neg hclosed] at hledger hparsing hcfg ⊢
    obtain ⟨st, hst, -⟩ := h.parsing.entry hopen
    have hsit := h.sitting hopen
    have hfine : frameHead (e.frameBytes ctl) ≠ .oversized := fun hover =>
      hrestT (by simpa using h.trail hopen [] (.here (by simpa using hover)))
    have hframe := h.quota.nextFrame hroomy hctl hopen (by omega) hfine
    have hkept := nextFrame_kept e ctl
    have hsession := nextFrame_session e ctl
    have hconnect : (e.nextFrame ctl).2.frameBytes connectId = e.frameBytes connectId := by
      unfold frameBytes
      rw [nextFrame_elsewhere e hctl.symm]
    have hpending := nextFrame_pending e ctl
    have hdone := nextFrame_headersDone e ctl
    have heff := nextFrame_effects e (r := ctl) (.inl rfl)
    have hbare := nextFrame_bare (h.bare hopen)
    cases hnext : e.nextFrame ctl with
    | mk frame e1 =>
        rw [hnext] at hledger hparsing hcfg hframe hkept hsession hconnect hpending hdone heff hbare
        have hsit1 : Sitting rest e1 :=
          hsit.congr hkept.2.1 hconnect hsession.1 hsession.2.1 hpending
        have hopen1 : e1.closed = false := hkept.1.trans hopen
        cases frame with
        | none =>
            obtain ⟨hq, hbytes, hhead⟩ := hframe
            refine ⟨⟨hq, hparsing, fun _ => hsit1, fun _ hserver hd => ?_, fun _ st' hst' => ?_,
              fun _ more hm => ?_⟩, fun hgo => (by cases hgo), fun _ _ => ?_⟩
            · exact h.first hopen (hsession.1 ▸ hserver) (hdone ▸ hd)
            · exact hbare st' hst'
            · have hm : Oversized (e1.frameBytes ctl ++ more) := hm
              rw [hbytes] at hm
              exact h.trail hopen more hm
            · show frameHead (e1.frameBytes ctl) = _
              rw [hbytes]
              exact hhead
        | some frame =>
            obtain ⟨ty, payload⟩ := frame
            obtain ⟨hq, hmemory, hcopy, hhead⟩ := hframe
            have hcopy := hcopy.le
            have hlog : Quota base m ctl j (0 + payload.capacity) (e1.log (.controlFrame ty)) :=
              hq.mild (hq.ledger.log _) (.log e1 _)
            have heff1 : Effects ctl e (e1.log (.controlFrame ty)) := heff.tail (.log e1 rfl)
            have hl1 : (e1.log (.controlFrame ty)).Layout :=
              heff1.invariant (fun _ _ hs => hs.layout) h.parsing.layout
            have hrole : (e1.log (.controlFrame ty)).roleOf ctl = some .peerControl :=
              (h.parsing.control.effects heff1).role
            obtain ⟨hafter, hsits⟩ := hlog.handleControlFrame hroomy hctl
              (hsit1.congr rfl rfl rfl rfl rfl) hl1 hrole hopen1 hrest (!e.headersDone ctl)
              (fun hfirst hserver => by
                have hsmall := h.first hopen (hsession.1 ▸ hserver) (by simpa using hfirst)
                have hpow20 : 2 ^ j ≤ 2 ^ 20 := Nat.pow_le_pow_right (by decide) hsmall
                omega) ty payload.data
            -- the entry of the control stream behind the frame
            obtain ⟨st1, hst1⟩ : ∃ st1, e1.streams.get ctl = some st1 := by
              obtain ⟨st1, hst1, -⟩ := Option.map_eq_some_iff.mp hrole
              exact ⟨st1, hst1⟩
            have hfirst : (!e.headersDone ctl) = !st1.headersDone := by
              rw [← hdone, Endpoint.headersDone]
              simp [hst1]
            have hspec := (handleControlFrame_spec hl1 hopen1 hrole hst1 ty payload.data).2
            rw [hfirst] at hledger hparsing hcfg hafter hsits ⊢
            simp only at hledger hparsing hcfg ⊢
            generalize (e1.log (.controlFrame ty)).handleControlFrame ctl (!st1.headersDone) ty
              payload.data = e2 at hledger hparsing hcfg hafter hsits hspec ⊢
            have hbytes : e2.closed = false → e2.frameBytes ctl = e1.frameBytes ctl := fun hc => by
              simp [frameBytes, (hspec hc).2, hst1]
            have hlen := frameHead_length hhead
            refine ⟨⟨hafter.dropBuffer hmemory hroomy.rooted, hparsing, fun hc => ?_, fun hc _ hd => ?_,
              fun hc st' hst' => ?_, fun hc more hm => ?_⟩, fun _ => ?_, fun hgo => (by cases hgo)⟩
            · exact (hsits hc).congr rfl rfl rfl rfl rfl
            · have hd : e2.headersDone ctl = false := hd
              simp [Endpoint.headersDone, (hspec hc).2] at hd
            · obtain rfl := Option.some.inj ((hspec hc).2.symm.trans hst')
              exact hbare st1 hst1
            · have hm : Oversized (e2.frameBytes ctl ++ more) := hm
              rw [hbytes hc] at hm
              exact h.trail hopen more (.later ((frameHead_append more).2 _ _ _ hhead) hm)
            · have hsize : e.frameSize ctl = (e.frameBytes ctl).length := by
                rw [frameSize, hopen, if_neg (by simp), framesLength_eq]
              rw [hsize, frameSize]
              split
              · omega
              next hc =>
                have hc : e2.closed = false := Bool.eq_false_iff.mpr hc
                rw [framesLength_eq]
                show (e2.frameBytes ctl).length < _
                rw [hbytes hc]
                exact hlen

theorem Steering.loop {rest restT : Bytes} {before : Option H3.PeerSettings}
    (h : Steering base m ctl j rest restT before e) (hroomy : Roomy base m (2 ^ 23))
    (hctl : ctl ≠ connectId) (hj : j ≤ 21) (hrest : ¬Heavy [] rest) (hrestT : ¬Oversized restT) :
    Steering base m ctl j rest restT before (e.parseControlFrames ctl) ∧
      ((e.parseControlFrames ctl).closed = false →
        frameHead ((e.parseControlFrames ctl).frameBytes ctl) = .incomplete) := by
  unfold parseControlFrames
  refine iterate_exit (I := Steering base m ctl j rest restT before)
    (Q := fun s => Steering base m ctl j rest restT before s ∧
      (s.closed = false → frameHead (s.frameBytes ctl) = .incomplete))
    (fun s => s.frameSize ctl) ?_ ?_ _ h ?_
  · intro s hs hgo
    obtain ⟨hstep, hless, -⟩ := hs.step hroomy hctl hj hrest hrestT
    exact ⟨hstep, hless hgo⟩
  · intro s hs hstop
    obtain ⟨hstep, -, hlast⟩ := hs.step hroomy hctl hj hrest hrestT
    exact ⟨hstep, hlast hstop⟩
  · unfold frameSize
    split <;> omega

end

end RWebTransport.Endpoint
