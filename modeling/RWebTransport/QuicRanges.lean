import Mathlib.Algebra.Group.Nat.Defs
import Mathlib.Data.List.Induction
import RWebTransport.Lib.Ranges

/-!
# The ranges a stream keeps

quiche's sets of offsets (`ranges.rs`): what was acknowledged of a stream.  A
small set is a vector and a larger one a map by starts, and each has an `insert`
of its own; a set goes from one form to the other as it grows and shrinks.  Both
inserts put the range in its place.
-/

namespace RWebTransport.Quic

open RWebTransport.Ranges (Within Covers Tidy place covers_place)

/-- `Range<u64>`, from a start up to an end. -/
abbrev OffsetRange := Nat × Nat

/-- `Range::contains`. -/
def OffsetRange.contains (r : OffsetRange) (o : Nat) : Bool := decide (r.1 ≤ o ∧ o < r.2)

/-- `range_overlaps`. -/
def rangeOverlaps (r other : OffsetRange) : Bool :=
  decide (r.1 ≤ other.1 ∧ other.1 ≤ r.2 ∨ r.1 ≤ other.2 ∧ other.2 ≤ r.2)

/-- `MAX_INLINE_CAPACITY`. -/
def maxInlineCapacity : Nat := 4

/-- `MIN_TO_INLINE`. -/
def minToInline : Nat := 2

/-! ## The vector -/

namespace InlineRangeSet

/-- The lowest range goes when a set is full. -/
def room (capacity : Nat) (len : Nat) (l : List OffsetRange) : List OffsetRange :=
  if len = capacity then l.tail else l

/-- The second loop of `insert`: the range at `pos`, grown up to an end, takes in
those behind it that it reaches. -/
def absorb (start : Nat) : Nat → List OffsetRange → List OffsetRange
  | fin, [] => [(start, fin)]
  | fin, r :: rs => if fin < r.1 then (start, fin) :: r :: rs else absorb start (max r.2 fin) rs

/-- `insert`, at the position the first loop stops at. -/
def insertAt (capacity len : Nat) (item : OffsetRange) (before : List OffsetRange) :
    List OffsetRange → List OffsetRange
  | [] => room capacity len before ++ [item]
  | r :: rs =>
      if item.2 < r.1 then room capacity len before ++ item :: r :: rs
      else if r.2 < item.2 then before ++ absorb (min item.1 r.1) item.2 rs
      else before ++ (min item.1 r.1, r.2) :: rs

/-- `insert`. -/
def insert (capacity : Nat) (inner : List OffsetRange) (item : OffsetRange) : List OffsetRange :=
  insertAt capacity inner.length item (inner.takeWhile fun r => decide (r.2 < item.1))
    (inner.dropWhile fun r => decide (r.2 < item.1))

end InlineRangeSet

/-! ## The map -/

namespace BTreeRangeSet

/-- `BTreeMap::insert`. -/
def put (item : OffsetRange) : List OffsetRange → List OffsetRange
  | [] => [item]
  | r :: rs =>
      if r.1 < item.1 then r :: put item rs
      else if r.1 = item.1 then item :: rs
      else item :: r :: rs

/-- `prev_to`. -/
def prevTo (inner : List OffsetRange) (item : Nat) : Option OffsetRange :=
  (inner.takeWhile fun r => decide (r.1 ≤ item)).getLast?

/-- The loop of `insert`, over the ranges from the start on: the end the new range
grows to, and the ranges left. -/
def swallow (item : OffsetRange) : Nat → List OffsetRange → Nat × List OffsetRange
  | fin, [] => (fin, [])
  | fin, r :: rs =>
      if item.contains r.1 && item.contains r.2 then swallow item fin rs
      else if !rangeOverlaps r item then (fin, r :: rs)
      else swallow item (max fin r.2) rs

/-- `insert`, behind the range before the new one: its start, its end and the ranges
without that one. -/
def joinPrev (inner : List OffsetRange) (item : OffsetRange) : OffsetRange × List OffsetRange :=
  match prevTo inner item.1 with
  | none => (item, inner)
  | some r =>
      if rangeOverlaps r item then
        ((min item.1 r.1, max item.2 r.2), inner.filter fun s => decide (s.1 ≠ r.1))
      else (item, inner)

/-- `insert`, up to the end of its loop: what the new range grew to, and the ranges left. -/
def grow (item : OffsetRange) (joined : OffsetRange × List OffsetRange) : OffsetRange × List OffsetRange :=
  let loop := swallow item joined.1.2 (joined.2.dropWhile fun r => decide (r.1 < joined.1.1))
  ((joined.1.1, loop.1), (joined.2.takeWhile fun r => decide (r.1 < joined.1.1)) ++ loop.2)

/-- `insert`. -/
def insert (capacity : Nat) (inner : List OffsetRange) (item : OffsetRange) : List OffsetRange :=
  let grown := grow item (joinPrev inner item)
  put grown.1 (if capacity ≤ grown.2.length then grown.2.tail else grown.2)

end BTreeRangeSet

/-! ## The set -/

/-- `RangeSet`. -/
inductive RangeSet where
  /-- `Inline`: the ranges, and how many there may be. -/
  | inlined (inner : List OffsetRange) (capacity : Nat)
  /-- `BTree`: the same, by their starts. -/
  | bTree (inner : List OffsetRange) (capacity : Nat)
deriving DecidableEq, Repr

namespace RangeSet

/-- `iter`. -/
def iter : RangeSet → List OffsetRange
  | .inlined inner _ => inner
  | .bTree inner _ => inner

/-- `capacity`. -/
def capacity : RangeSet → Nat
  | .inlined _ capacity => capacity
  | .bTree _ capacity => capacity

/-- `fixup`. -/
def fixup : RangeSet → RangeSet
  | .inlined inner capacity =>
      if inner.length = maxInlineCapacity then .bTree inner capacity else .inlined inner capacity
  | .bTree inner capacity =>
      if inner.length ≤ minToInline then .inlined inner capacity else .bTree inner capacity

/-- `insert`, in the form the set has. -/
def insertInner (s : RangeSet) (item : OffsetRange) : RangeSet :=
  match s with
  | .inlined inner capacity => .inlined (InlineRangeSet.insert capacity inner item) capacity
  | .bTree inner capacity => .bTree (BTreeRangeSet.insert capacity inner item) capacity

/-- `insert`. -/
def insert (s : RangeSet) (item : OffsetRange) : RangeSet := (s.insertInner item).fixup

/-- `new`. -/
def new (capacity : Nat) : RangeSet := .inlined [] capacity

/-- `ack_off` of `send_buf.rs`: the end of the first range, where it starts at 0. -/
def ackOff (s : RangeSet) : Nat :=
  match s.iter with
  | (0, fin) :: _ => fin
  | _ => 0

end RangeSet

/-! ## Both inserts put the range in its place -/

theorem InlineRangeSet.absorb_place {start : Nat} : ∀ {rs : List OffsetRange} {fin : Nat}, Tidy rs →
    start ≤ fin → (∀ s ∈ rs, start ≤ s.1) → absorb start fin rs = place (start, fin) rs := by
  intro rs
  induction rs with
  | nil =>
      intro fin _ _ _
      rfl
  | cons r rs ih =>
      intro fin h hle hstart
      have hr : start ≤ r.1 := hstart r List.mem_cons_self
      have hhead := h.head
      have hnot : ¬ r.2 < start := by omega
      rw [absorb, place, if_neg hnot]
      split
      · rfl
      · have hmin : min start r.1 = start := Nat.min_eq_left hr
        rw [hmin, Nat.max_comm]
        exact ih h.tail (by omega) fun s hs => hstart s (List.mem_cons_of_mem _ hs)

/-- Below its capacity, what is skipped stays in front. -/
theorem InlineRangeSet.insertAt_cons {capacity len : Nat} {item r : OffsetRange} (hlen : len ≠ capacity)
    (before rest : List OffsetRange) :
    insertAt capacity len item (r :: before) rest = r :: insertAt capacity len item before rest := by
  cases rest with
  | nil => simp only [insertAt, room, if_neg hlen, List.cons_append]
  | cons s rs =>
      simp only [insertAt, room, if_neg hlen]
      split
      · rfl
      · split <;> rfl

/-- Below its capacity the vector is the ranges with the new one in its place. -/
theorem InlineRangeSet.insertAt_place {capacity len : Nat} {item : OffsetRange} (hitem : item.1 ≤ item.2)
    (hlen : len ≠ capacity) : ∀ {inner : List OffsetRange}, Tidy inner →
      insertAt capacity len item (inner.takeWhile fun r => decide (r.2 < item.1))
        (inner.dropWhile fun r => decide (r.2 < item.1)) = place item inner := by
  intro inner
  induction inner with
  | nil =>
      intro _
      simp [insertAt, room, hlen, place]
  | cons r rs ih =>
      intro h
      have hhead := h.head
      by_cases hbefore : r.2 < item.1
      · simp only [List.takeWhile_cons, List.dropWhile_cons, hbefore, decide_true, if_true]
        rw [insertAt_cons hlen, ih h.tail, place, if_pos hbefore]
      · simp only [List.takeWhile_cons, List.dropWhile_cons, hbefore, decide_false, Bool.false_eq_true,
          if_false]
        rw [place, if_neg hbefore, insertAt, room, if_neg hlen, List.nil_append]
        split
        · rfl
        · split
          next hlt =>
            have hgap : ∀ s ∈ rs, min item.1 r.1 ≤ s.1 := fun s hs => by
              have hgt := h.gap s hs
              omega
            rw [absorb_place h.tail (by omega) hgap, Nat.max_eq_left hlt.le, List.nil_append]
          next hnlt =>
            have hend : max item.2 r.2 = r.2 := by omega
            have hfirst : place (min item.1 r.1, r.2) rs = (min item.1 r.1, r.2) :: rs :=
              Ranges.place_first (fun s hs => h.gap s hs) ((Nat.min_le_right _ _).trans hhead) h.tail.each
            rw [hend, hfirst, List.nil_append]

theorem InlineRangeSet.insert_place {capacity : Nat} {item : OffsetRange} {inner : List OffsetRange}
    (hitem : item.1 ≤ item.2) (h : Tidy inner) (hlen : inner.length < capacity) :
    InlineRangeSet.insert capacity inner item = place item inner :=
  insertAt_place hitem hlen.ne h

namespace BTreeRangeSet

variable {item r : OffsetRange} {inner rs : List OffsetRange}

/-- The loop takes in what the new range reaches, and nothing else. -/
theorem swallow_place {start : Nat} (hlo : start ≤ item.1) :
    ∀ {rs : List OffsetRange} {fin : Nat}, Tidy rs → item.2 ≤ fin → (∀ s ∈ rs, item.1 < s.1) →
      (item.2 < fin → ∀ s ∈ rs, fin < s.1) →
      (start, (swallow item fin rs).1) :: (swallow item fin rs).2 = place (start, fin) rs := by
  intro rs
  induction rs with
  | nil =>
      intro fin _ _ _ _
      rfl
  | cons r rs ih =>
      intro fin h hfin hbehind hbeyond
      have hhead := h.head
      have hr : item.1 < r.1 := hbehind r List.mem_cons_self
      have hrs : ∀ s ∈ rs, item.1 < s.1 := fun s hs => hbehind s (List.mem_cons_of_mem _ hs)
      have hfar : item.2 < fin → fin < r.1 := fun hlt => hbeyond hlt r List.mem_cons_self
      have hnot : ¬ r.2 < start := by omega
      have hmin : min start r.1 = start := Nat.min_eq_left (by omega)
      rw [swallow, place, if_neg hnot]
      by_cases hin : r.2 < item.2
      · -- a range inside the new one goes
        have hcont : (item.contains r.1 && item.contains r.2) = true := by
          simp only [OffsetRange.contains, Bool.and_eq_true, decide_eq_true_eq]
          omega
        have hmax : max fin r.2 = fin := by omega
        have hreach : ¬ fin < r.1 := by omega
        rw [if_pos hcont, if_neg hreach, hmin, hmax]
        exact ih h.tail hfin hrs fun hlt s hs => hbeyond hlt s (List.mem_cons_of_mem _ hs)
      · have hcont : ¬ (item.contains r.1 && item.contains r.2) = true := by
          simp only [OffsetRange.contains, Bool.and_eq_true, decide_eq_true_eq]
          omega
        rw [if_neg hcont]
        by_cases hafter : item.2 < r.1
        · have hapart : (!rangeOverlaps r item) = true := by
            simp only [rangeOverlaps, Bool.not_eq_true', decide_eq_false_iff_not]
            omega
          have hstop : fin < r.1 := by omega
          rw [if_pos hapart, if_pos hstop]
        · have hmeet : ¬ (!rangeOverlaps r item) = true := by
            simp only [rangeOverlaps, Bool.not_eq_true', decide_eq_false_iff_not]
            omega
          have hreach : ¬ fin < r.1 := by omega
          have hmax : max fin r.2 = r.2 := by omega
          rw [if_neg hmeet, if_neg hreach, hmin, hmax]
          exact ih h.tail (by omega) hrs fun _ s hs => h.gap s hs

theorem swallow_sublist : ∀ {rs : List OffsetRange} {fin : Nat}, (swallow item fin rs).2.Sublist rs := by
  intro rs
  induction rs with
  | nil =>
      intro fin
      exact .slnil
  | cons r rs ih =>
      intro fin
      rw [swallow]
      split
      · exact ih.cons r
      · split
        · exact .refl _
        · exact ih.cons r

theorem joinPrev_sublist : (joinPrev inner item).2.Sublist inner := by
  unfold joinPrev
  split
  · exact .refl _
  · split
    · exact List.filter_sublist
    · exact .refl _

/-- No range is left that was not there. -/
theorem grow_sublist : (grow item (joinPrev inner item)).2.Sublist inner := by
  have hjoin : (joinPrev inner item).2.Sublist inner := joinPrev_sublist
  refine List.Sublist.trans ?_ hjoin
  have hloop : (swallow item (joinPrev inner item).1.2 ((joinPrev inner item).2.dropWhile fun r =>
      decide (r.1 < (joinPrev inner item).1.1))).2.Sublist ((joinPrev inner item).2.dropWhile fun r =>
        decide (r.1 < (joinPrev inner item).1.1)) := swallow_sublist
  have happ := hloop.append_left ((joinPrev inner item).2.takeWhile fun r =>
    decide (r.1 < (joinPrev inner item).1.1))
  rwa [List.takeWhile_append_dropWhile] at happ

theorem put_front (h : ∀ s ∈ rs, item.1 < s.1) : put item rs = item :: rs := by
  cases rs with
  | nil => rfl
  | cons s rs =>
      have hs := h s List.mem_cons_self
      rw [put, if_neg (by omega), if_neg (by omega)]

/-- Where the ranges all start behind the new one's start, none is in front of it. -/
theorem grow_front {start fin : Nat} (h : ∀ s ∈ rs, start < s.1) :
    grow item ((start, fin), rs) = ((start, (swallow item fin rs).1), (swallow item fin rs).2) := by
  cases rs with
  | nil => rfl
  | cons s rs =>
      have hs : ¬ s.1 < start := Nat.not_lt.2 (h s List.mem_cons_self).le
      simp only [grow, List.dropWhile_cons, List.takeWhile_cons, hs, decide_false, Bool.false_eq_true,
        if_false, List.nil_append]

/-- Where the new range starts in front of the others, `insert` puts it there. -/
theorem put_grow_front {start fin : Nat} (h : Tidy rs) (hlo : start ≤ item.1) (hfin : item.2 ≤ fin)
    (hbehind : ∀ s ∈ rs, item.1 < s.1) (hbeyond : item.2 < fin → ∀ s ∈ rs, fin < s.1) :
    put (grow item ((start, fin), rs)).1 (grow item ((start, fin), rs)).2 = place (start, fin) rs := by
  have hstart : ∀ s ∈ rs, start < s.1 := fun s hs => hlo.trans_lt (hbehind s hs)
  rw [grow_front hstart, put_front fun s hs => hstart s (swallow_sublist.subset hs)]
  exact swallow_place hlo h hfin hbehind hbeyond

/-- A range that ends before the new one is not looked at. -/
theorem joinPrev_skip (h : Tidy (r :: rs)) (hitem : item.1 ≤ item.2) (hbefore : r.2 < item.1) :
    joinPrev (r :: rs) item = ((joinPrev rs item).1, r :: (joinPrev rs item).2) ∧
      r.1 < (joinPrev rs item).1.1 := by
  have hhead := h.head
  have hprev : prevTo (r :: rs) item.1 = some ((prevTo rs item.1).getD r) := by
    rw [prevTo, List.takeWhile_cons_of_pos (by simpa using hhead.trans hbefore.le), List.getLast?_cons]
    rfl
  cases hp : prevTo rs item.1 with
  | none =>
      have hapart : ¬ rangeOverlaps r item = true := by
        simp only [rangeOverlaps, decide_eq_true_eq]
        omega
      simp only [joinPrev, hprev, hp, Option.getD_none, if_neg hapart, true_and]
      omega
  | some p =>
      have hgap : r.2 < p.1 := by
        refine h.gap p ?_
        exact (List.takeWhile_sublist _).subset (List.mem_of_getLast? hp)
      simp only [joinPrev, hprev, hp, Option.getD_some]
      split
      · refine ⟨?_, ?_⟩
        · rw [List.filter_cons_of_pos (by simp only [decide_eq_true_eq]; omega)]
        · show r.1 < min item.1 p.1
          omega
      · exact ⟨rfl, by show r.1 < item.1; omega⟩

/-- Below its capacity the map is the ranges with the new one in its place. -/
theorem put_grow (hitem : item.1 ≤ item.2) : ∀ {inner : List OffsetRange}, Tidy inner →
    put (grow item (joinPrev inner item)).1 (grow item (joinPrev inner item)).2 = place item inner := by
  intro inner
  induction inner with
  | nil =>
      intro _
      rfl
  | cons r rs ih =>
      intro h
      have hhead := h.head
      by_cases hbefore : r.2 < item.1
      · obtain ⟨hjoin, hlt⟩ := joinPrev_skip h hitem hbefore
        have hgrow : grow item (joinPrev (r :: rs) item) =
            ((grow item (joinPrev rs item)).1, r :: (grow item (joinPrev rs item)).2) := by
          simp only [hjoin, grow, List.dropWhile_cons, List.takeWhile_cons, hlt, decide_true, if_true,
            List.cons_append]
        have hfront : r.1 < (grow item (joinPrev rs item)).1.1 := hlt
        rw [place, if_pos hbefore, ← ih h.tail, hgrow, put, if_pos hfront]
      · by_cases hafter : item.1 < r.1
        · -- no range starts before the new one
          have hjoin : joinPrev (r :: rs) item = ((item.1, item.2), r :: rs) := by
            have hprev : prevTo (r :: rs) item.1 = none := by
              rw [prevTo, List.takeWhile_cons_of_neg (by simpa using hafter)]
              rfl
            simp only [joinPrev, hprev]
          rw [hjoin]
          refine put_grow_front h (Nat.le_refl _) (Nat.le_refl _) (fun s hs => ?_)
            fun hlt => absurd hlt (Nat.lt_irrefl _)
          rcases List.mem_cons.1 hs with rfl | hs
          · exact hafter
          · exact hafter.trans (hhead.trans_lt (h.gap s hs))
        · -- the new one starts in this range
          have hbehind : ∀ s ∈ rs, item.1 < s.1 := fun s hs => (Nat.not_lt.1 hbefore).trans_lt (h.gap s hs)
          have hjoin : joinPrev (r :: rs) item = ((r.1, max item.2 r.2), rs) := by
            have hprev : prevTo (r :: rs) item.1 = some r := by
              have hnone : rs.takeWhile (fun s => decide (s.1 ≤ item.1)) = [] := by
                cases rs with
                | nil => rfl
                | cons s rs => exact List.takeWhile_cons_of_neg (by simpa using hbehind s List.mem_cons_self)
              rw [prevTo, List.takeWhile_cons_of_pos (by simpa using hafter), hnone]
              rfl
            have hmeet : rangeOverlaps r item = true := by
              simp only [rangeOverlaps, decide_eq_true_eq]
              omega
            have hrest : (r :: rs).filter (fun s => decide (s.1 ≠ r.1)) = rs := by
              rw [List.filter_cons_of_neg (by simp), List.filter_eq_self]
              intro s hs
              have hgap := h.gap s hs
              simp only [decide_eq_true_eq]
              omega
            have hmin : min item.1 r.1 = r.1 := by omega
            simp only [joinPrev, hprev, hmeet, if_true, hrest, hmin]
          have hmin : min item.1 r.1 = r.1 := by omega
          have hreach : ¬ item.2 < r.1 := by omega
          rw [place, if_neg hbefore, if_neg hreach, hmin, hjoin]
          refine put_grow_front h.tail (Nat.not_lt.1 hafter) (Nat.le_max_left _ _) hbehind fun hlt s hs => ?_
          have hgap := h.gap s hs
          omega

theorem insert_place {capacity : Nat} (hitem : item.1 ≤ item.2) (h : Tidy inner)
    (hlen : inner.length < capacity) : insert capacity inner item = place item inner := by
  have hleft : ¬ capacity ≤ (grow item (joinPrev inner item)).2.length :=
    Nat.not_le.2 (grow_sublist.length_le.trans_lt hlen)
  simp only [insert, if_neg hleft]
  exact put_grow hitem h

/-! ## A full map -/

theorem put_tail_sublist : ∀ {l : List OffsetRange}, Tidy l → (put item l.tail).Sublist (put item l) := by
  intro l
  induction l with
  | nil =>
      intro _
      exact .refl _
  | cons r rs _ =>
      intro h
      rw [List.tail_cons, put]
      split
      · exact (List.Sublist.refl _).cons r
      next hge =>
        have hfront : put item rs = item :: rs := put_front fun s hs => by
          have hgap := h.gap s hs
          have hhead := h.head
          omega
        rw [hfront]
        split
        · exact .refl _
        · exact ((List.Sublist.refl rs).cons r).cons_cons item

theorem mem_put : ∀ {l : List OffsetRange}, item ∈ put item l := by
  intro l
  induction l with
  | nil => exact List.mem_singleton_self item
  | cons r rs ih =>
      rw [put]
      split
      · exact List.mem_cons_of_mem _ ih
      · split <;> exact List.mem_cons_self

theorem length_put : ∀ {l : List OffsetRange}, (put item l).length ≤ l.length + 1 := by
  intro l
  induction l with
  | nil => exact Nat.le_refl _
  | cons r rs ih =>
      rw [put]
      split
      · exact Nat.succ_le_succ ih
      · split
        · exact Nat.le_succ _
        · exact Nat.le_refl _

theorem le_swallow : ∀ {rs : List OffsetRange} {fin : Nat}, fin ≤ (swallow item fin rs).1 := by
  intro rs
  induction rs with
  | nil =>
      intro fin
      exact Nat.le_refl _
  | cons r rs ih =>
      intro fin
      rw [swallow]
      split
      · exact ih
      · split
        · exact Nat.le_refl _
        · exact (Nat.le_max_left _ _).trans ih

/-- The new range lies in what it grew to. -/
theorem grow_bounds :
    (grow item (joinPrev inner item)).1.1 ≤ item.1 ∧ item.2 ≤ (grow item (joinPrev inner item)).1.2 := by
  have hjoin : (joinPrev inner item).1.1 ≤ item.1 ∧ item.2 ≤ (joinPrev inner item).1.2 := by
    unfold joinPrev
    split
    · exact ⟨Nat.le_refl _, Nat.le_refl _⟩
    · split
      · exact ⟨Nat.min_le_left _ _, Nat.le_max_left _ _⟩
      · exact ⟨Nat.le_refl _, Nat.le_refl _⟩
  exact ⟨hjoin.1, hjoin.2.trans le_swallow⟩

/-- Full or not, `insert` leaves a part of what the ranges would be without a limit. -/
theorem insert_sublist {capacity : Nat} (hitem : item.1 ≤ item.2) (h : Tidy inner) :
    (insert capacity inner item).Sublist (place item inner) := by
  have htidy : Tidy (grow item (joinPrev inner item)).2 := h.sublist grow_sublist
  rw [← put_grow hitem h, insert]
  split
  · exact put_tail_sublist htidy
  · exact .refl _

theorem length_insert {capacity : Nat} (hcap : 0 < capacity) (hlen : inner.length ≤ capacity) :
    (insert capacity inner item).length ≤ capacity := by
  have hleft : (grow item (joinPrev inner item)).2.length ≤ inner.length := grow_sublist.length_le
  refine length_put.trans ?_
  split
  · rw [List.length_tail]
    omega
  · omega

end BTreeRangeSet

/-! ## Runs of inserts -/

namespace RangeSet

/-- What every operation keeps. -/
structure Kept (s : RangeSet) : Prop where
  tidy : Tidy s.iter
  within : s.iter.length ≤ s.capacity
  /-- A vector is never as long as it may get. -/
  short : ∀ inner capacity, s = .inlined inner capacity → inner.length < maxInlineCapacity

variable {s : RangeSet} {item : OffsetRange}

theorem iter_fixup : s.fixup.iter = s.iter := by
  cases s <;> rw [fixup] <;> split <;> rfl

theorem capacity_fixup : s.fixup.capacity = s.capacity := by
  cases s <;> rw [fixup] <;> split <;> rfl

theorem capacity_insert : (s.insert item).capacity = s.capacity := by
  rw [insert, capacity_fixup]
  cases s <;> rfl

/-- `fixup` leaves short vectors. -/
theorem fixup_short (h : ∀ inner capacity, s = .inlined inner capacity → inner.length ≤ maxInlineCapacity)
    (inner : List OffsetRange) (capacity : Nat) (heq : s.fixup = .inlined inner capacity) :
    inner.length < maxInlineCapacity := by
  cases s with
  | inlined l c =>
      have hl := h l c rfl
      rw [fixup] at heq
      split at heq
      · cases heq
      next hne =>
        cases heq
        exact Nat.lt_of_le_of_ne hl hne
  | bTree l c =>
      rw [fixup] at heq
      split at heq
      next hle =>
        cases heq
        exact hle.trans_lt (by decide)
      · cases heq

/-- Below its capacity a set, in either form, is its ranges with the new one in its place. -/
theorem iter_insert (h : s.Kept) (hitem : item.1 ≤ item.2) (hlen : s.iter.length < s.capacity) :
    (s.insert item).iter = place item s.iter := by
  rw [insert, iter_fixup]
  cases s with
  | inlined inner capacity => exact InlineRangeSet.insert_place hitem h.tidy hlen
  | bTree inner capacity => exact BTreeRangeSet.insert_place hitem h.tidy hlen

/-- What one insert does to a set with room for a vector. -/
structure Inserted (item : OffsetRange) (s s' : RangeSet) : Prop where
  kept : s'.Kept
  /-- Nothing comes in but the range. -/
  part : s'.iter.Sublist (place item s.iter)
  /-- All of the range comes in, even where another goes for it. -/
  all : ∀ o, Within item o → Covers s'.iter o
  /-- Nothing goes below the capacity. -/
  whole : s.iter.length < s.capacity → s'.iter = place item s.iter

theorem Kept.insert (h : s.Kept) (hcap : maxInlineCapacity ≤ s.capacity) (hitem : item.1 ≤ item.2) :
    Inserted item s (s.insert item) := by
  have hiter : (s.insert item).iter = (s.insertInner item).iter := iter_fixup
  cases s with
  | inlined inner capacity =>
      have hshort : inner.length < maxInlineCapacity := h.short inner capacity rfl
      have hroom : inner.length < capacity := hshort.trans_le hcap
      have hplace := iter_insert h hitem hroom
      have hlen : (place item inner).length ≤ inner.length + 1 := Ranges.length_place
      refine ⟨⟨hplace ▸ h.tidy.place hitem, ?_, ?_⟩, hplace ▸ .refl _, fun o ho => ?_, fun _ => hplace⟩
      · rw [hplace, capacity_insert]
        exact hlen.trans hroom
      · refine fixup_short fun l c heq => ?_
        cases heq
        have hput : InlineRangeSet.insert capacity inner item = place item inner :=
          InlineRangeSet.insert_place hitem h.tidy hroom
        rw [hput]
        exact hlen.trans hshort
      · rw [hplace, covers_place h.tidy hitem]
        exact .inl ho
  | bTree inner capacity =>
      have hinner : (RangeSet.insert (.bTree inner capacity) item).iter =
          BTreeRangeSet.insert capacity inner item := hiter
      have hpart : (BTreeRangeSet.insert capacity inner item).Sublist (place item inner) :=
        BTreeRangeSet.insert_sublist hitem h.tidy
      refine ⟨⟨?_, ?_, ?_⟩, hinner ▸ hpart, fun o ho => ?_, iter_insert h hitem⟩
      · rw [hinner]
        exact (h.tidy.place hitem).sublist hpart
      · rw [hinner, capacity_insert]
        exact BTreeRangeSet.length_insert (Nat.lt_of_lt_of_le (by decide) hcap) h.within
      · refine fixup_short fun l c heq => ?_
        cases heq
      · rw [hinner]
        exact ⟨_, BTreeRangeSet.mem_put, BTreeRangeSet.grow_bounds.1.trans ho.1,
          ho.2.trans_le BTreeRangeSet.grow_bounds.2⟩

theorem Inserted.covers {s' : RangeSet} (h : Inserted item s s') (hs : s.Kept) (hitem : item.1 ≤ item.2)
    {o : Nat} (ho : Covers s'.iter o) : Within item o ∨ Covers s.iter o := by
  rw [← covers_place hs.tidy hitem]
  obtain ⟨r, hr, hin⟩ := ho
  exact ⟨r, h.part.subset hr, hin⟩

theorem Kept.new {capacity : Nat} : (RangeSet.new capacity).Kept where
  tidy := .nil
  within := Nat.zero_le _
  short := by
    intro inner capacity' heq
    cases heq
    decide

/-- The acknowledged part at the front reaches as far as everything is covered. -/
theorem le_ackOff_iff (h : Tidy s.iter) {n : Nat} : n ≤ s.ackOff ↔ ∀ o < n, Covers s.iter o := by
  unfold ackOff
  split
  next fin rest heq =>
    rw [heq] at h ⊢
    constructor
    · intro hn o ho
      exact ⟨(0, fin), List.mem_cons_self, Nat.zero_le _, ho.trans_le hn⟩
    · intro hall
      by_contra hlt
      exact h.not_covers_end (hall fin (Nat.not_le.1 hlt))
  next hno =>
    constructor
    · intro hn o ho
      omega
    · intro hall
      by_contra hlt
      obtain ⟨r, hr, hlo, hhi⟩ := hall 0 (Nat.not_le.1 hlt)
      cases hl : s.iter with
      | nil =>
          rw [hl] at hr
          exact List.not_mem_nil hr
      | cons q rest =>
          have hfirst : 0 < q.1 := by
            refine Nat.pos_of_ne_zero fun hzero => hno q.2 rest ?_
            rw [hl, ← hzero]
          rw [hl] at hr h
          rcases List.mem_cons.1 hr with rfl | hr
          · omega
          · have hgap := h.gap r hr
            omega

/-- What a run of inserts leaves. -/
structure Holds (capacity : Nat) (items : List OffsetRange) (s : RangeSet) : Prop where
  kept : s.Kept
  capacity_eq : s.capacity = capacity
  /-- Nothing is held that was not put in. -/
  only : ∀ o, Covers s.iter o → Covers items o
  /-- Every range begins where one that was put in begins. -/
  starts : ∀ r ∈ s.iter, ∃ q ∈ items, q.1 = r.1
  /-- Where the offsets stay below the capacity, all that was put in is held. -/
  all : (∀ r ∈ items, r.1 + 1 < capacity) → ∀ o, Covers items o → Covers s.iter o

theorem Holds.start {capacity : Nat} : Holds capacity [] (RangeSet.new capacity) where
  kept := .new
  capacity_eq := rfl
  only := by
    rintro o ⟨r, hr, -⟩
    exact absurd hr List.not_mem_nil
  starts := by
    intro r hr
    exact absurd hr List.not_mem_nil
  all := by
    rintro - o ⟨r, hr, -⟩
    exact absurd hr List.not_mem_nil

theorem Holds.insert {capacity : Nat} {items : List OffsetRange} (h : Holds capacity items s)
    (hcap : maxInlineCapacity ≤ capacity) (hitem : item.1 ≤ item.2) :
    Holds capacity (items ++ [item]) (s.insert item) := by
  have hstep := h.kept.insert (h.capacity_eq ▸ hcap) hitem
  refine ⟨hstep.kept, capacity_insert.trans h.capacity_eq, ?_, ?_, ?_⟩
  · intro o ho
    rw [Ranges.covers_append]
    rcases hstep.covers h.kept hitem ho with hin | hin
    · exact .inr ⟨item, List.mem_singleton_self item, hin⟩
    · exact .inl (h.only o hin)
  · intro r hr
    rcases Ranges.place_starts r (hstep.part.subset hr) with hnew | ⟨q, hq, heq⟩
    · exact ⟨item, List.mem_append_right _ (List.mem_singleton_self item), hnew.symm⟩
    · obtain ⟨p, hp, hpq⟩ := h.starts q hq
      exact ⟨p, List.mem_append_left _ hp, hpq.trans heq⟩
  · intro hall o ho
    have hlen : s.iter.length < s.capacity := by
      -- ranges apart from each other are no more than the offsets they start at
      have hbound : ∀ r ∈ s.iter, 0 ≤ r.1 ∧ r.1 ≤ capacity - 2 := by
        intro r hr
        obtain ⟨q, hq, heq⟩ := h.starts r hr
        have hlt := hall q (List.mem_append_left _ hq)
        omega
      have hcount := h.kept.tidy.length_le hbound
      have hfour : 4 ≤ capacity := hcap
      rw [h.capacity_eq]
      omega
    rw [hstep.whole hlen, covers_place h.kept.tidy hitem]
    rw [Ranges.covers_append] at ho
    rcases ho with ho | ⟨r, hr, hin⟩
    · exact .inr (h.all (fun r hr => hall r (List.mem_append_left _ hr)) o ho)
    · rw [List.mem_singleton] at hr
      exact .inl (hr ▸ hin)

theorem Holds.inserts {capacity : Nat} (hcap : maxInlineCapacity ≤ capacity) {items : List OffsetRange}
    (hitems : ∀ r ∈ items, r.1 ≤ r.2) :
    Holds capacity items (items.foldl RangeSet.insert (RangeSet.new capacity)) := by
  induction items using List.reverseRecOn with
  | nil => exact .start
  | append_singleton items item ih =>
      rw [List.foldl_append, List.foldl_cons, List.foldl_nil]
      exact (ih fun r hr => hitems r (List.mem_append_left _ hr)).insert hcap
        (hitems item (List.mem_append_right _ (List.mem_singleton_self item)))

/-- Acknowledgements out of order, some of them twice: a vector that becomes a map and
a vector again. -/
def acknowledgements : List OffsetRange :=
  [(40, 50), (0, 10), (60, 70), (20, 30), (45, 48), (80, 90), (90, 90), (10, 20), (30, 40), (50, 60)]

/-- A range that comes below all others makes a full set give up one that lies higher:
it is the smallest of the old ranges that goes. -/
example : ([(10, 11), (20, 21), (30, 31), (40, 41), (2, 3)].foldl RangeSet.insert (RangeSet.new 4)) =
    .bTree [(2, 3), (20, 21), (30, 31), (40, 41)] 4 := by decide

end RangeSet

end RWebTransport.Quic
