import RWebTransport.Session.Ledger
import RWebTransport.Session.Frames

/-!
# Allocations that succeed

Where the budgets have room and the allocator grants what is asked for, `Heap.reserve`
succeeds, and a buffer grows to the least power of two that holds its bytes.  Behind it
the operations of a session that allocate nothing and report nothing of memory (`Mild`).
-/

namespace RWebTransport

/-! ## Allocations that succeed -/

namespace Heap

theorem reserveFrom_isSome : ∀ {depth : Nat} {h : Heap} {i n : Nat}, Rooted h.nodes → i < depth →
    i < h.nodes.length → (∀ j ∈ pathFrom depth h.nodes i, Room h.nodes n j) →
    ∃ h', reserveFrom depth h i n = some h'
  | 0, _, _, _, _, hdepth, _, _ => absurd hdepth (Nat.not_lt_zero _)
  | depth + 1, h, i, n, hroot, hdepth, hi, hroom => by
      have hm : h.nodes[i]? = some h.nodes[i] := List.getElem?_eq_getElem hi
      unfold pathFrom at hroom
      unfold reserveFrom
      simp only [hm] at hroom ⊢
      rw [if_pos (hroom i List.mem_cons_self _ hm)]
      cases hp : h.nodes[i].parent with
      | none => exact ⟨_, rfl⟩
      | some p =>
          simp only [hp] at hroom ⊢
          have hset : h.setUsed i (h.nodes[i].used + n) = { h with nodes := shift h.nodes [i] (· + n) } :=
            setUsed_eq h hm (· + n)
          have hlt := hroot i _ p hm hp
          rw [hset]
          refine reserveFrom_isSome (h := { h with nodes := shift h.nodes [i] (· + n) })
            (rooted_shift hroot [i] (· + n)) (by omega) ?_ fun j hj m hj' => ?_
          · simp only [length_shift]
            omega
          · -- the path above does not come back to this budget
            rw [pathFrom_shift] at hj
            have hne : j ≠ i := fun heq => not_mem_path_parent hroot hm hp (heq ▸ hj)
            rw [getElem?_shift] at hj'
            simp only [List.mem_singleton, hne, if_false, Option.map_id'] at hj'
            exact hroom j (List.mem_cons_of_mem _ hj) m hj'

theorem reserve_isSome {h : Heap} {i n : Nat} (hroot : Rooted h.nodes) (hi : i < h.nodes.length)
    (hroom : ∀ j ∈ path h.nodes i, Room h.nodes n j) :
    ∃ h', h.reserve i n = some h' :=
  reserveFrom_isSome hroot (by omega) hi hroom

/-- The budgets admit `limit` for one of them. -/
structure Roomy (base : List ParserMemory) (m limit : Nat) : Prop where
  rooted : Rooted base
  issued : m < base.length
  room : ∀ j ∈ path base m, Room base limit j

/-- The allocator grants what is asked for, and no more. -/
def Exact (h : Heap) : Prop := ∀ k n, h.allocator k n = some 0

theorem releaseFrom_allocator : ∀ (depth : Nat) (h : Heap) (i n : Nat),
    (releaseFrom depth h i n).allocator = h.allocator
  | 0, _, _, _ => rfl
  | depth + 1, h, i, n => by
      unfold releaseFrom
      split
      · rfl
      next m _ =>
        cases m.parent with
        | none => rfl
        | some p => exact releaseFrom_allocator depth (h.setUsed i (m.used - n)) p n

theorem Exact.release {h : Heap} (hx : h.Exact) (i n : Nat) : (h.release i n).Exact := fun k l =>
  (congrFun (congrFun (releaseFrom_allocator _ h i n) k) l).trans (hx k l)

theorem Exact.stream {h : Heap} (hx : h.Exact) (st : Stream) : (st.release h).Exact :=
  (hx.release _ _).release _ _

theorem Charged.reserve {base : List ParserMemory} {m k limit n : Nat} {h : Heap}
    (hc : Charged base m k h) (hroomy : Roomy base m limit) (hk : k + n ≤ limit) :
    ∃ h', h.reserve m n = some h' := by
  have hnodes : h.nodes = shift base (path base m) (· + k) := hc
  refine reserve_isSome (hc.rooted hroomy.rooted) ?_ fun j hj m' hm' => ?_
  · rw [hnodes, length_shift]
    exact hroomy.issued
  · rw [hnodes, path_shift] at hj
    rw [hnodes, getElem?_shift, Option.map_eq_some_iff] at hm'
    obtain ⟨m0, hm0, rfl⟩ := hm'
    have hroom := hroomy.room j hj m0 hm0
    rw [if_pos hj]
    show m0.used + k + n ≤ m0.limit
    omega

end Heap

/-- A capacity of a buffer: a power of two, at most `2 ^ j`. -/
def Rounded (j capacity : Nat) : Prop := capacity = 0 ∨ ∃ i ≤ j, capacity = 2 ^ i

theorem Rounded.le {j capacity : Nat} (h : Rounded j capacity) : capacity ≤ 2 ^ j := by
  rcases h with rfl | ⟨i, hi, rfl⟩
  · exact Nat.zero_le _
  · exact Nat.pow_le_pow_right (by decide) hi

theorem Rounded.mono {j j' capacity : Nat} (h : Rounded j capacity) (hle : j ≤ j') : Rounded j' capacity :=
  h.imp_right fun ⟨i, hi, heq⟩ => ⟨i, hi.trans hle, heq⟩

/-- Growing at least doubles: the old capacity is at most half of the new one. -/
theorem Rounded.grows {j capacity i : Nat} (h : Rounded j capacity) (hlt : capacity < 2 ^ i) :
    2 * capacity ≤ 2 ^ i := by
  rcases h with rfl | ⟨a, -, rfl⟩
  · exact Nat.zero_le _
  · have ha : a < i := (Nat.pow_lt_pow_iff_right (by decide)).mp hlt
    calc 2 * 2 ^ a = 2 ^ (a + 1) := by rw [Nat.pow_succ, Nat.mul_comm]
      _ ≤ 2 ^ i := Nat.pow_le_pow_right (by decide) ha

theorem le_checkedNextPowerOfTwo {n c : Nat} (h : checkedNextPowerOfTwo n = some c) : n ≤ c := by
  unfold checkedNextPowerOfTwo at h
  split at h
  next hsmall =>
    obtain rfl := Option.some.inj h
    exact hsmall
  · split at h
    · cases h
    · obtain rfl := Option.some.inj h
      have hlt := Nat.lt_log2_self (n := n - 1)
      omega

theorem checkedNextPowerOfTwo_le {n j : Nat} (hn : n ≤ 2 ^ j) (hj : j ≤ 63) :
    ∃ i ≤ j, n ≤ 2 ^ i ∧ checkedNextPowerOfTwo n = some (2 ^ i) := by
  unfold checkedNextPowerOfTwo
  by_cases hsmall : n ≤ 1
  · exact ⟨0, Nat.zero_le j, hsmall, by rw [if_pos hsmall]; rfl⟩
  · have h63 : n ≤ 2 ^ 63 := hn.trans (Nat.pow_le_pow_right (by decide) hj)
    have hne : n - 1 ≠ 0 := by omega
    have hlog : (n - 1).log2 < j := (Nat.log2_lt hne).mpr (by omega)
    have hfits : n - 1 < 2 ^ ((n - 1).log2 + 1) := Nat.lt_log2_self
    exact ⟨(n - 1).log2 + 1, hlog, by omega, by rw [if_neg hsmall, if_neg (by omega)]⟩

namespace ParserBuffer

open Heap (Charged Rooted Roomy Exact)

variable {base : List ParserMemory} {k limit : Nat} {h : Heap} {b : ParserBuffer}

/-- An append that fits is not refused: the old and the new allocation are charged together. -/
theorem extend_fits (bytes : Bytes) {j : Nat} (hroomy : Roomy base b.memory limit)
    (hexact : h.Exact) (hc : Charged base b.memory (k + b.capacity) h) (hrounded : Rounded j b.capacity)
    (hj : j ≤ 63) (hneeded : b.data.length + bytes.length ≤ 2 ^ j)
    (hk : ∀ i ≤ j, b.capacity < 2 ^ i → k + b.capacity + 2 ^ i ≤ limit) :
    ∃ b' h', b.extendFromSlice h bytes = (some b', h') ∧ b'.data = b.data ++ bytes ∧
      Rounded j b'.capacity ∧ h'.Exact := by
  unfold extendFromSlice
  simp only
  split
  next hgrow =>
    obtain ⟨i, hi, hle, hpow⟩ := checkedNextPowerOfTwo_le hneeded hj
    obtain ⟨h1, hres⟩ := hc.reserve hroomy (hk i hi (by omega))
    obtain ⟨rfl, -⟩ := Heap.reserve_some (hc.rooted hroomy.rooted) hres
    unfold grow
    simp only [hpow, hres, hexact h.requests (2 ^ i), if_true, Nat.add_zero]
    refine ⟨_, _, rfl, rfl, .inr ⟨i, hi, rfl⟩, ?_⟩
    exact Exact.release (h := { h with
      nodes := Heap.shift h.nodes (Heap.path h.nodes b.memory) (· + 2 ^ i)
      requests := h.requests + 1 }) hexact _ _
  · exact ⟨_, _, rfl, rfl, hrounded, hexact⟩

theorem copy_fits (bytes : Bytes) {memory j : Nat} (hroomy : Roomy base memory limit)
    (hexact : h.Exact) (hc : Charged base memory k h) (hj : j ≤ 63) (hlen : bytes.length ≤ 2 ^ j)
    (hk : k + 2 ^ j ≤ limit) :
    ∃ c h', (new memory).extendFromSlice h bytes = (some c, h') ∧ Rounded j c.capacity ∧ h'.Exact := by
  obtain ⟨c, h', hx, -, hrounded, hexact'⟩ := extend_fits (b := .new memory) (k := k) bytes hroomy
    hexact hc (.inl rfl) hj (by simpa [new] using hlen) fun i hi _ => by
      have hpow : 2 ^ i ≤ 2 ^ j := Nat.pow_le_pow_right (by decide) hi
      simp only [new]
      omega
  exact ⟨c, h', hx, hrounded, hexact'⟩

theorem consume_rounded {j : Nat} (n : Nat) (hexact : h.Exact) (hrounded : Rounded j b.capacity) :
    Rounded j (b.consume h n).1.capacity ∧ (b.consume h n).2.Exact := by
  unfold consume
  split
  · exact ⟨.inl rfl, hexact.release _ _⟩
  · exact ⟨hrounded, hexact⟩

/-- A budget bounds every buffer that is charged to it. -/
theorem extend_bounded {base : List ParserMemory} {m k limit : Nat} {h h' : Heap}
    {b b' : ParserBuffer} {bytes : Bytes} (hroot : Rooted base) (hc : Charged base m k h)
    (hm : b.memory = m) {node : ParserMemory} (hnode : base[m]? = some node) (hlimit : node.limit = limit)
    (hcap : b.capacity ≤ limit) (hx : b.extendFromSlice h bytes = (some b', h'))
    (hexact : h.Exact) :
    b'.data.length ≤ limit ∧ b'.capacity ≤ limit ∧ h'.Exact := by
  subst hm
  unfold extendFromSlice at hx
  simp only at hx
  split at hx
  next hgrows =>
    split at hx
    next b1 h1 hgrow =>
      obtain ⟨hb, -⟩ := Prod.mk.inj hx
      obtain rfl := Option.some.inj hb
      unfold grow at hgrow
      split at hgrow
      · cases (Prod.mk.inj hgrow).1
      next capacity hpow =>
        split at hgrow
        · cases (Prod.mk.inj hgrow).1
        next h2 hres =>
          obtain ⟨rfl, hroom⟩ := Heap.reserve_some (hc.rooted hroot) hres
          have hnodes : h.nodes = Heap.shift base (Heap.path base b.memory) (· + k) := hc
          have hself : b.memory ∈ Heap.path h.nodes b.memory := by
            rw [hnodes, Heap.path_shift]
            unfold Heap.path Heap.pathFrom
            simp [hnode]
          have hfits : capacity ≤ limit := by
            have hr := hroom _ hself
            rw [hnodes, Heap.Room, Heap.getElem?_shift, hnode] at hr
            have hroom := hr _ rfl
            simp only at hroom
            have hsame : (if b.memory ∈ Heap.path base b.memory then
                { node with used := node.used + k } else node).limit = node.limit := by
              split <;> rfl
            omega
          have hle := le_checkedNextPowerOfTwo hpow
          simp only [hexact h.requests capacity, if_true] at hgrow
          obtain ⟨hb1, rfl⟩ := Prod.mk.inj hgrow
          obtain rfl := Option.some.inj hb1
          obtain ⟨-, rfl⟩ := Prod.mk.inj hx
          simp only [Nat.add_zero, List.length_append]
          refine ⟨by omega, hfits, ?_⟩
          exact Exact.release (h := { h with
            nodes := Heap.shift h.nodes (Heap.path h.nodes b.memory) (· + capacity)
            requests := h.requests + 1 }) hexact _ _
    · cases (Prod.mk.inj hx).1
  next hfits =>
    obtain ⟨hb, rfl⟩ := Prod.mk.inj hx
    obtain rfl := Option.some.inj hb
    simp only [List.length_append]
    exact ⟨by omega, hcap, hexact⟩

end ParserBuffer

/-! ## What the peer sends -/

/-- Bytes too few for a varint. -/
theorem H3.readVarint_none {b : Bytes} (h : H3.readVarint b = none) : b.length < 8 := by
  cases b with
  | nil => simp
  | cons first rest =>
      simp only [H3.readVarint] at h
      split at h
      next hshort =>
        have hfirst : first.toNat / 64 ≤ 3 := by
          have hlt := first.toNat_lt
          omega
        have hpow : 2 ^ (first.toNat / 64) ≤ 2 ^ 3 := Nat.pow_le_pow_right (by decide) hfirst
        omega
      · cases h

theorem H3.readVarint_le {b : Bytes} {v n : Nat} (h : H3.readVarint b = some (v, n)) : n ≤ 8 := by
  cases b with
  | nil => simp [H3.readVarint] at h
  | cons first rest =>
      simp only [H3.readVarint] at h
      split at h
      · cases h
      · simp only [Option.some.injEq, Prod.mk.injEq] at h
        rw [← h.2]
        have hlt := first.toNat_lt
        exact (Nat.pow_le_pow_right (by decide) (by omega : first.toNat / 64 ≤ 3) : _ ≤ 2 ^ 3)

/-- The bytes begin with, or come to, a frame that is longer than the parser takes. -/
inductive Oversized : Bytes → Prop
  | here {bytes : Bytes} : frameHead bytes = .oversized → Oversized bytes
  | later {bytes payload rest : Bytes} {ty : Nat} : frameHead bytes = .frame ty payload rest →
      Oversized rest → Oversized bytes

/-- Some capsule takes more than `MAX_CONTROL_FRAME + 1` bytes, its type and length included. -/
inductive LongCapsule : Bytes → Prop
  | here {bytes : Bytes} {ty n1 len n2 : Nat} : H3.readVarint bytes = some (ty, n1) →
      H3.readVarint (bytes.drop n1) = some (len, n2) → maxControlFrame + 1 < n1 + n2 + len →
      LongCapsule bytes
  | later {bytes : Bytes} {ty n1 len n2 : Nat} : H3.readVarint bytes = some (ty, n1) →
      H3.readVarint (bytes.drop n1) = some (len, n2) → n1 + n2 + len ≤ bytes.length →
      LongCapsule (bytes.drop (n1 + n2 + len)) → LongCapsule bytes

/-- The bytes of a CONNECT stream have a frame or a capsule that is too long; `capsules`
are the bytes of DATA frames that came before. -/
inductive Heavy : Bytes → Bytes → Prop
  | capsule {capsules bytes : Bytes} : LongCapsule capsules → Heavy capsules bytes
  | oversized {capsules bytes : Bytes} : frameHead bytes = .oversized → Heavy capsules bytes
  | data {capsules bytes payload rest : Bytes} : frameHead bytes = .frame H3.frameData payload rest →
      Heavy (capsules ++ payload) rest → Heavy capsules bytes
  | other {capsules bytes payload rest : Bytes} {ty : Nat} : frameHead bytes = .frame ty payload rest →
      ty ≠ H3.frameData → Heavy capsules rest → Heavy capsules bytes

/-- A capsule that was taken leaves what is behind it. -/
theorem Heavy.behind {taken bytes : Bytes} (h : Heavy taken bytes) : ∀ {capsules : Bytes}
    {ty n1 len n2 : Nat}, H3.readVarint capsules = some (ty, n1) →
    H3.readVarint (capsules.drop n1) = some (len, n2) → n1 + n2 + len ≤ capsules.length →
    taken = capsules.drop (n1 + n2 + len) → Heavy capsules bytes := by
  induction h with
  | capsule hlong =>
      rintro capsules ty n1 len n2 hty hlen hwhole rfl
      exact .capsule (.later hty hlen hwhole hlong)
  | oversized hb =>
      intro _ _ _ _ _ _ _ _ _
      exact .oversized hb
  | @data _ _ payload _ hb _ ih =>
      rintro capsules ty n1 len n2 hty hlen hwhole rfl
      have hlen' := H3.readVarint_append hlen payload
      rw [← List.drop_append_of_le_length (H3.readVarint_len hty).2] at hlen'
      refine .data hb (ih (H3.readVarint_append hty payload) hlen' ?_ ?_)
      · rw [List.length_append]
        omega
      · rw [List.drop_append_of_le_length hwhole]
  | other hb hne _ ih =>
      rintro capsules ty n1 len n2 hty hlen hwhole rfl
      exact .other hb hne (ih hty hlen hwhole rfl)

theorem frameHead_payload {bytes payload rest : Bytes} {ty : Nat}
    (h : frameHead bytes = .frame ty payload rest) : payload.length ≤ maxControlFrame := by
  rcases frameHead_spec bytes with hnone | ⟨ty', n1, len, n2, -, -, ⟨-, hb⟩ | ⟨hfits, -, hb⟩⟩
  · rw [hnone] at h
    cases h
  · rw [hb] at h
    cases h
  · rw [hb] at h
    cases h
    exact (List.length_take_le _ _).trans hfits

/-- The bytes that are left of an incomplete frame. -/
theorem length_of_incomplete {bytes : Bytes} (h : frameHead bytes = .incomplete) :
    bytes.length < maxControlFrame + 16 := by
  unfold frameHead at h
  split at h
  next hnone =>
    have hlt := H3.readVarint_none hnone
    omega
  next ty n1 hty =>
    have hn1 := H3.readVarint_len hty
    split at h
    next hnone =>
      have hlt := H3.readVarint_none hnone
      have hn1' := H3.readVarint_le hty
      rw [List.length_drop] at hlt
      omega
    next len n2 hlen =>
      have hn1' := H3.readVarint_le hty
      have hn2' := H3.readVarint_le hlen
      split at h
      · cases h
      · split at h
        · omega
        · cases h

namespace FrameParser

open Heap (Charged Rooted Roomy Exact)

variable {base : List ParserMemory} {k limit : Nat} {h : Heap} {p : FrameParser}

theorem push_fits (bytes : Bytes) {j : Nat} (hroomy : Roomy base p.buf.memory limit)
    (hexact : h.Exact) (hc : Charged base p.buf.memory (k + p.buf.capacity) h) (hok : p.error = false)
    (hrounded : Rounded j p.buf.capacity) (hj : j ≤ 63)
    (hneeded : p.buf.data.length + bytes.length ≤ 2 ^ j)
    (hk : ∀ i ≤ j, p.buf.capacity < 2 ^ i → k + p.buf.capacity + 2 ^ i ≤ limit) :
    ∃ p' h', p.push h bytes = (p', h') ∧ p'.error = false ∧ p'.buf.data = p.buf.data ++ bytes ∧
      Rounded j p'.buf.capacity ∧ h'.Exact := by
  obtain ⟨b, h', hx, hdata, hcap, hexact'⟩ :=
    ParserBuffer.extend_fits bytes hroomy hexact hc hrounded hj hneeded hk
  refine ⟨{ p with buf := b }, h', ?_, hok, hdata, hcap, hexact'⟩
  unfold push
  rw [if_neg (by simp [hok]), hx]

/-- A frame that is not too long is copied. -/
theorem nextFrame_fits (hroomy : Roomy base p.buf.memory limit) (hexact : h.Exact)
    (hc : Charged base p.buf.memory k h) (hok : p.error = false)
    (hfine : frameHead p.buf.data ≠ .oversized) (hk : k + 2 ^ 20 ≤ limit) :
    match p.nextFrame h with
    | (none, p', h') => p' = p ∧ h'.Exact ∧ frameHead p.buf.data = .incomplete
    | (some (ty, payload), p', h') => p'.error = false ∧ h'.Exact ∧
        frameHead p.buf.data = .frame ty payload.data p'.buf.data ∧ Rounded 20 payload.capacity ∧
        (p'.buf.capacity = p.buf.capacity ∨ p'.buf.capacity = 0) := by
  have hspec := nextFrame_spec h hok
  rw [nextFrame_eq h hok] at hspec ⊢
  cases hhead : frameHead p.buf.data with
  | incomplete => exact ⟨rfl, hexact, rfl⟩
  | oversized => exact absurd hhead hfine
  | frame ty payload rest =>
      obtain ⟨copy, h', hx, hcap, hexact'⟩ := ParserBuffer.copy_fits payload (j := 20) hroomy hexact
        hc (by decide) (frameHead_rest hhead).2 hk
      simp only [hhead, hx] at hspec ⊢
      refine ⟨hok, ?_, hspec.2, hcap, ?_⟩
      · unfold ParserBuffer.consume
        split
        · exact hexact'.release _ _
        · exact hexact'
      · unfold ParserBuffer.consume
        split
        · exact .inr rfl
        · exact .inl rfl

end FrameParser

/-! ## Nothing refused -/

namespace Endpoint

open Heap (Charged Rooted Roomy Exact)

/-- What the session reports when memory for a capsule or a stream's type is refused. -/
def limitExceeded : Ev := .error "parser memory limit exceeded"

/-- No buffer was refused memory: a frame parser that is latches an error. -/
structure Unrefused (e : Endpoint) : Prop where
  quiet : limitExceeded ∉ e.ev
  parsers : ∀ id st, e.streams.get id = some st → st.frames.error = false

theorem error_ne {message : String} (h : message.toList.head? ≠ some 'p') :
    Ev.error message ≠ limitExceeded := by
  rintro ⟨⟩
  exact h rfl

theorem toString_self (s : String) : toString s = s := rfl

theorem Unrefused.same {e e' : Endpoint} (h : e.Unrefused) (hs : SameMemory e e')
    (hev : ∀ v ∈ e'.ev, v ∈ e.ev ∨ v ≠ limitExceeded) : e'.Unrefused := by
  refine ⟨fun hmem => ?_, fun id st' hst' => ?_⟩
  · rcases hev _ hmem with hold | hne
    · exact h.quiet hold
    · exact hne rfl
  · have hb := hs.buffers id
    rw [hst', Option.map_some] at hb
    obtain ⟨st, hst, hsame⟩ := Option.map_eq_some_iff.mp hb.symm
    exact (congrArg FrameParser.error (Prod.mk.inj hsame).1).symm.trans (h.parsers id st hst)

/-- Nothing has changed that concerns memory, and no SETTINGS were taken. -/
structure Calm (e e' : Endpoint) : Prop extends SameMemory e e' where
  cfg : e'.cfg = e.cfg
  settings : e'.peerSettings = e.peerSettings
  pending : e'.connectPending = e.connectPending

/-- The session ends, or stays calm. -/
structure Mild (e e' : Endpoint) : Prop where
  calm : e'.closed = false → Calm e e'
  unrefused : e.Unrefused → e'.Unrefused

namespace Mild

variable {a b c e e' : Endpoint}

theorem same (h : Mild e e') (hopen : e'.closed = false) : SameMemory e e' :=
  (h.calm hopen).toSameMemory

theorem trans (hab : Mild a b) (hbc : Mild b c) : Mild a c where
  calm hopen := by
    have hlast := hbc.calm hopen
    have hfirst := hab.calm (hlast.closed.symm.trans hopen)
    exact ⟨hfirst.toSameMemory.trans hlast.toSameMemory, hlast.cfg.trans hfirst.cfg,
      hlast.settings.trans hfirst.settings, hlast.pending.trans hfirst.pending⟩
  unrefused h := hbc.unrefused (hab.unrefused h)

theorem of_same (hs : SameMemory e e') (hkept : e'.cfg = e.cfg ∧ e'.peerSettings = e.peerSettings ∧
    e'.connectPending = e.connectPending) (hev : ∀ v ∈ e'.ev, v ∈ e.ev ∨ v ≠ limitExceeded) :
    Mild e e' where
  calm _ := ⟨hs, hkept.1, hkept.2.1, hkept.2.2⟩
  unrefused h := h.same hs hev

theorem refl (e : Endpoint) : Mild e e := of_same (.refl e) ⟨rfl, rfl, rfl⟩ fun _ hv => .inl hv

theorem emit (e : Endpoint) {v : Ev} (hv : v ≠ limitExceeded) : Mild e (e.emit v) :=
  of_same ⟨rfl, rfl, rfl, fun _ => rfl, rfl⟩ ⟨rfl, rfl, rfl⟩ fun w hw =>
    (List.mem_append.mp hw).imp_right fun hone => by rwa [List.mem_singleton.mp hone]

theorem log (e : Endpoint) (t : Trace) : Mild e (e.log t) :=
  of_same ⟨rfl, rfl, rfl, fun _ => rfl, rfl⟩ ⟨rfl, rfl, rfl⟩ fun _ hv => .inl hv

theorem modify (e : Endpoint) (id : Nat) {f : Stream → Stream} (hf : ∀ st, (f st).buffers = st.buffers) :
    Mild e (e.modifyStream id f) :=
  of_same (.modifyStream e id hf) ⟨rfl, rfl, rfl⟩ fun _ hv => .inl hv

theorem markClosed (e : Endpoint) (code : Nat) (reason : Bytes) (remote : Bool) :
    Mild e (e.markClosed code reason remote) where
  calm hopen := by simp [markClosed_closed] at hopen
  unrefused h := by
    unfold Endpoint.markClosed
    split
    · exact h
    · refine ⟨fun hmem => ?_, fun id st hst => ?_⟩
      · rcases List.mem_append.mp hmem with hold | hone
        · exact h.quiet hold
        · cases List.mem_singleton.mp hone
      · simp only [Table.get_map, Option.map_eq_some_iff] at hst
        obtain ⟨st0, hst0, rfl⟩ := hst
        exact h.parsers id st0 hst0

theorem fail (e : Endpoint) {message : String} (hm : Ev.error message ≠ limitExceeded) (code : Nat)
    (reason : Bytes) (remote : Bool) :
    Mild e ((e.emit (.error message)).markClosed code reason remote) :=
  (emit e hm).trans (markClosed _ _ _ _)

theorem closeConn (e : Endpoint) (code : Nat) (reason : Bytes) : Mild e (e.closeConn code reason) :=
  of_same ⟨rfl, rfl, rfl, fun _ => rfl, rfl⟩ ⟨rfl, rfl, rfl⟩ fun _ hv => .inl hv

theorem shutdownRead (e : Endpoint) (id err : Nat) : Mild e (e.shutdownRead id err) :=
  of_same ⟨rfl, rfl, rfl, fun _ => rfl, rfl⟩ ⟨rfl, rfl, rfl⟩ fun _ hv => .inl hv

theorem flowError (e : Endpoint) {message : String} (hm : Ev.error message ≠ limitExceeded) :
    Mild e (e.flowError message) := by
  unfold Endpoint.flowError
  split
  · exact refl e
  · have hset : Mild e { e with terminalError := some (0x045d4487, message) } :=
      of_same ⟨rfl, rfl, rfl, fun _ => rfl, rfl⟩ ⟨rfl, rfl, rfl⟩ fun _ hv => .inl hv
    exact hset.trans (fail _ hm _ _ _)

theorem protocolError (e : Endpoint) (code : Nat) {message : String}
    (hm : Ev.error message ≠ limitExceeded) : Mild e (e.protocolError code message) := by
  unfold Endpoint.protocolError
  split
  · exact refl e
  · exact (fail e hm _ _ _).trans (closeConn _ _ _)

theorem handleCapsule (e : Endpoint) (ty : Nat) (value : Bytes) :
    Mild e (e.handleCapsule ty value).1 := by
  unfold Endpoint.handleCapsule
  split
  · exact markClosed e _ _ _
  · split
    · exact (of_same ⟨rfl, rfl, rfl, fun _ => rfl, rfl⟩ ⟨rfl, rfl, rfl⟩ fun _ hv => .inl hv : Mild e
        { e with drainEmitted := true }).trans (emit _ (by decide))
    · split
      · split
        · exact flowError e (by decide)
        · split
          · exact flowError e (by decide)
          · split
            · exact refl e
            · split
              · exact flowError e (by decide)
              · refine of_same ?_ ?_ fun v hv => .inl ?_
                · unfold setCreditLimit
                  split_ifs <;> exact ⟨rfl, rfl, rfl, fun _ => rfl, rfl⟩
                · unfold setCreditLimit
                  split_ifs <;> exact ⟨rfl, rfl, rfl⟩
                · unfold setCreditLimit at hv
                  split_ifs at hv <;> exact hv
      · exact refl e

section

variable [H3.Codec]

theorem connectResponse (e : Endpoint) (headers : List H3.Header) :
    Mild e (e.connectResponse headers) := by
  unfold Endpoint.connectResponse
  simp only
  split
  · split
    · exact refl e
    · split
      · exact protocolError e _ (by decide)
      · have hready : Mild e e.becomeReady :=
          of_same ⟨rfl, rfl, rfl, fun _ => rfl, rfl⟩ ⟨rfl, rfl, rfl⟩ fun _ hv => .inl hv
        exact hready.trans (emit _ (by simp [limitExceeded]))
  · exact (fail e (error_ne (by simp [toString_self])) _ _ _).trans (closeConn _ _ _)

theorem rejectConnect (e : Endpoint) (id status : Nat) : Mild e (e.rejectConnect id status) := by
  unfold Endpoint.rejectConnect
  simp only
  refine trans (trans ?_ (log _ (.rejected status))) (markClosed _ _ _ _)
  cases H3.encodeHeadersFrame [⟨H3.ascii ":status", H3.asBytes (toString status)⟩] with
  | error _ =>
      simp only
      split
      · exact emit _ (error_ne (by simp [toString_self]))
      · exact refl e
  | ok frame =>
      have hqueued := modify e id (f := fun st => { st.push frame none with finQueued := true })
        fun _ => rfl
      simp only
      split
      · exact hqueued.trans (emit _ (error_ne (by simp [toString_self])))
      · exact hqueued

theorem acceptConnect (e : Endpoint) (id : Nat) (headers : List H3.Header) :
    Mild e (e.acceptConnect id headers) := by
  unfold Endpoint.acceptConnect
  simp only
  split
  · exact rejectConnect e id 400
  · split
    · exact rejectConnect e id 403
    · split
      next frame _ =>
        have hpushed := modify e id (f := fun st => st.push frame none) fun _ => rfl
        have hready : Mild e (e.modifyStream id fun st => st.push frame none).becomeReady :=
          hpushed.trans (of_same ⟨rfl, rfl, rfl, fun _ => rfl, rfl⟩ ⟨rfl, rfl, rfl⟩ fun _ hv => .inl hv)
        exact hready.trans (emit _ (by simp [limitExceeded]))
      · exact emit e (error_ne (by simp [toString_self]))

end

theorem accountReceive (e : Endpoint) (id amount : Nat) : Mild e (e.accountReceive id amount).1 := by
  unfold Endpoint.accountReceive
  have hcharged : Mild e (e.chargeStream id amount) :=
    of_same (.modify rfl (fun _ => rfl) rfl rfl rfl rfl) ⟨rfl, rfl, rfl⟩ fun _ hv => .inl hv
  simp only
  split
  · exact hcharged.trans (flowError _ (by decide))
  · exact hcharged

theorem accountIncoming (e : Endpoint) (bidi : Bool) : Mild e (e.accountIncoming bidi).1 := by
  unfold Endpoint.accountIncoming
  have hcounted : Mild e (e.countStream bidi) :=
    of_same ⟨rfl, rfl, rfl, fun _ => rfl, rfl⟩ ⟨rfl, rfl, rfl⟩ fun _ hv => .inl hv
  simp only
  split
  · exact hcounted.trans (flowError _ (by decide))
  · exact hcounted

theorem surfaceData (e : Endpoint) (id : Nat) (chunk : Bytes) (fin : Bool) :
    Mild e (e.surfaceData id chunk fin) := by
  have hdata : Mild e (if chunk.isEmpty then e else e.emit (.streamData id chunk)) := by
    split
    · exact refl e
    · exact emit e (by simp [limitExceeded])
  unfold Endpoint.surfaceData
  simp only
  split
  · have hdead := hdata.trans (modify _ id (f := fun st => { st with recvDead := true }) fun _ => rfl)
    exact hdead.trans (emit _ (by simp [limitExceeded]))
  · exact hdata

theorem recvData (e : Endpoint) (id : Nat) (chunk : Bytes) (fin : Bool) :
    Mild e (e.recvData id chunk fin) := by
  have hreceived := accountReceive e id chunk.length
  unfold Endpoint.recvData
  split
  next e1 hx => rwa [hx] at hreceived
  next e1 hx =>
    rw [hx] at hreceived
    exact hreceived.trans (surfaceData _ _ _ _)

end Mild

namespace Mild

variable {e : Endpoint}

theorem surfaceReset (e : Endpoint) (id code : Nat) : Mild e (e.surfaceReset id code) := by
  have hdead : Mild e (e.setRecvDead id) := modify e id fun _ => rfl
  unfold Endpoint.surfaceReset
  simp only
  split
  · exact hdead.trans (emit _ (by simp [limitExceeded]))
  · exact hdead.trans (protocolError _ _ (by decide))
  · exact hdead.trans (protocolError _ _ (by decide))
  · split
    · exact hdead
    · split
      · exact hdead.trans (markClosed _ _ _ _)
      · exact (hdead.trans (emit _ (error_ne (by simp [toString_self])))).trans (markClosed _ _ _ _)
  · exact hdead

theorem recvReset (e : Endpoint) (id code : Nat) (finalSize : Option Nat) :
    Mild e (e.recvReset id code finalSize) := by
  unfold Endpoint.recvReset
  split
  next size st _ =>
    split
    · have hreceived := accountReceive e id (size - st.recvPrefix - st.recvPayload)
      split
      next e1 hx => rwa [hx] at hreceived
      next e1 hx =>
        rw [hx] at hreceived
        exact hreceived.trans (surfaceReset _ _ _)
    · exact surfaceReset _ _ _
  · exact surfaceReset _ _ _

end Mild

end Endpoint

end RWebTransport
