import Mathlib.Order.MinMax
import Mathlib.Order.Basic
import Mathlib.Tactic.Order

/-!
# Lists of ranges

A set of positions held as ranges, each from its start up to but not including
its end.  The list is tidy when the ranges lie in order with a gap between any
two, so that it says what it covers in one way only.  A range may be empty; then
it covers nothing but still keeps its place.
-/

namespace RWebTransport.Ranges

variable {α : Type*} [LinearOrder α]

/-- A position lies in a range. -/
def Within (r : α × α) (o : α) : Prop := r.1 ≤ o ∧ o < r.2

/-- A position lies in one of the ranges. -/
def Covers (l : List (α × α)) (o : α) : Prop := ∃ r ∈ l, Within r o

@[simp] theorem covers_nil {o : α} : ¬ Covers [] o := by
  rintro ⟨r, hr, -⟩
  exact List.not_mem_nil hr

@[simp] theorem covers_cons {r : α × α} {l : List (α × α)} {o : α} :
    Covers (r :: l) o ↔ Within r o ∨ Covers l o := by
  simp [Covers]

@[simp] theorem covers_append {l m : List (α × α)} {o : α} :
    Covers (l ++ m) o ↔ Covers l o ∨ Covers m o := by
  simp [Covers, or_and_right, exists_or]

/-- The ranges lie in order, apart from each other. -/
structure Tidy (l : List (α × α)) : Prop where
  /-- No range ends before it starts. -/
  each : ∀ r ∈ l, r.1 ≤ r.2
  /-- There is a gap between any two. -/
  apart : l.Pairwise fun r s => r.2 < s.1

namespace Tidy

variable {l rs : List (α × α)} {r item : α × α}

theorem nil : Tidy ([] : List (α × α)) := ⟨by simp, .nil⟩

theorem head (h : Tidy (r :: rs)) : r.1 ≤ r.2 := h.each r List.mem_cons_self

theorem tail (h : Tidy (r :: rs)) : Tidy rs :=
  ⟨fun s hs => h.each s (List.mem_cons_of_mem _ hs), h.apart.of_cons⟩

theorem gap (h : Tidy (r :: rs)) : ∀ s ∈ rs, r.2 < s.1 := fun _ hs => List.rel_of_pairwise_cons h.apart hs

theorem sublist {m : List (α × α)} (h : Tidy l) (hsub : m.Sublist l) : Tidy m :=
  ⟨fun s hs => h.each s (hsub.subset hs), h.apart.sublist hsub⟩

theorem cons (hr : r.1 ≤ r.2) (hgap : ∀ s ∈ rs, r.2 < s.1) (h : Tidy rs) : Tidy (r :: rs) :=
  ⟨List.forall_mem_cons.2 ⟨hr, h.each⟩, List.pairwise_cons.2 ⟨hgap, h.apart⟩⟩

/-- The end of the first range is not covered, which makes it the first position
behind the start that is not. -/
theorem not_covers_end (h : Tidy (r :: rs)) : ¬ Covers (r :: rs) r.2 := by
  rintro ⟨s, hs, hge, hlt⟩
  rcases List.mem_cons.1 hs with rfl | hs
  · exact lt_irrefl _ hlt
  · exact absurd (h.gap s hs) (not_lt.2 hge)

end Tidy

/-- A range put among the others: what touches it becomes one with it. -/
def place (item : α × α) : List (α × α) → List (α × α)
  | [] => [item]
  | r :: rs =>
      if r.2 < item.1 then r :: place item rs
      else if item.2 < r.1 then item :: r :: rs
      else place (min item.1 r.1, max item.2 r.2) rs

section place

variable {l : List (α × α)} {item : α × α}

/-- Every range of the outcome ends behind any bound that the ranges and the new one end behind. -/
theorem place_above {b : α} : ∀ {l : List (α × α)} {item : α × α}, b < item.1 → (∀ r ∈ l, b < r.1) →
    ∀ r ∈ place item l, b < r.1 := by
  intro l
  induction l with
  | nil =>
      intro item hitem _ r hr
      rw [place, List.mem_singleton] at hr
      exact hr ▸ hitem
  | cons s rs ih =>
      intro item hitem hl r hr
      have hs : b < s.1 := hl s List.mem_cons_self
      have hrs : ∀ r ∈ rs, b < r.1 := fun r hr => hl r (List.mem_cons_of_mem _ hr)
      rw [place] at hr
      split at hr
      · rcases List.mem_cons.1 hr with rfl | hr
        · exact hs
        · exact ih hitem hrs r hr
      · split at hr
        · rcases List.mem_cons.1 hr with rfl | hr
          · exact hitem
          · exact hl r hr
        · exact ih (lt_min hitem hs) hrs r hr

theorem Tidy.place : ∀ {l : List (α × α)} {item : α × α}, Tidy l → item.1 ≤ item.2 →
    Tidy (place item l) := by
  intro l
  induction l with
  | nil =>
      intro item _ hitem
      exact .cons hitem (by simp) .nil
  | cons r rs ih =>
      intro item h hitem
      rw [Ranges.place]
      split
      next hbefore => exact .cons h.head (place_above hbefore h.gap) (ih h.tail hitem)
      next htouch =>
        split
        next hafter =>
          refine .cons hitem (fun s hs => ?_) h
          rcases List.mem_cons.1 hs with rfl | hs
          · exact hafter
          · exact hafter.trans_le (h.head.trans (h.gap s hs).le)
        next => exact ih h.tail ((min_le_left _ _).trans (hitem.trans (le_max_left _ _)))

/-- What the outcome covers. -/
theorem covers_place {o : α} : ∀ {l : List (α × α)} {item : α × α}, Tidy l → item.1 ≤ item.2 →
    (Covers (place item l) o ↔ Within item o ∨ Covers l o) := by
  intro l
  induction l with
  | nil =>
      intro item _ _
      simp [place]
  | cons r rs ih =>
      intro item h hitem
      rw [place]
      split
      next => rw [covers_cons, covers_cons, ih h.tail hitem, or_left_comm]
      next htouch =>
        split
        next => rw [covers_cons]
        next hmeet =>
          -- two ranges that touch cover together what lies between their outer ends
          have hunion : Within (min item.1 r.1, max item.2 r.2) o ↔ Within item o ∨ Within r o := by
            have hr := h.head
            simp only [Within, min_le_iff, lt_max_iff]
            constructor
            · rintro ⟨hlo, hhi⟩
              by_contra hnone
              rw [not_or, not_and_or, not_and_or, not_le, not_lt, not_le, not_lt] at hnone
              rw [not_lt] at htouch hmeet
              rcases hlo with hlo | hlo <;> rcases hhi with hhi | hhi <;>
                rcases hnone with ⟨h1 | h1, h2 | h2⟩ <;> order
            · rintro (⟨h1, h2⟩ | ⟨h1, h2⟩)
              · exact ⟨.inl h1, .inl h2⟩
              · exact ⟨.inr h1, .inr h2⟩
          have hhull : min item.1 r.1 ≤ max item.2 r.2 := (min_le_left _ _).trans (hitem.trans (le_max_left _ _))
          rw [ih h.tail hhull, hunion, covers_cons, or_assoc]

/-- A range of the outcome starts where the new one or one of the others does. -/
theorem place_starts : ∀ {l : List (α × α)} {item : α × α}, ∀ r ∈ place item l,
    r.1 = item.1 ∨ ∃ q ∈ l, q.1 = r.1 := by
  intro l
  induction l with
  | nil =>
      intro item r hr
      rw [place, List.mem_singleton] at hr
      exact .inl (hr ▸ rfl)
  | cons s rs ih =>
      intro item r hr
      rw [place] at hr
      split at hr
      · rcases List.mem_cons.1 hr with rfl | hr
        · exact .inr ⟨r, List.mem_cons_self, rfl⟩
        · rcases ih r hr with heq | ⟨q, hq, heq⟩
          · exact .inl heq
          · exact .inr ⟨q, List.mem_cons_of_mem _ hq, heq⟩
      · split at hr
        · rcases List.mem_cons.1 hr with rfl | hr
          · exact .inl rfl
          · exact .inr ⟨r, hr, rfl⟩
        · rcases ih r hr with heq | ⟨q, hq, heq⟩
          · rcases min_choice item.1 s.1 with hmin | hmin
            · exact .inl (heq.trans hmin)
            · exact .inr ⟨s, List.mem_cons_self, (heq.trans hmin).symm⟩
          · exact .inr ⟨q, List.mem_cons_of_mem _ hq, heq⟩

theorem length_place : ∀ {l : List (α × α)} {item : α × α}, (place item l).length ≤ l.length + 1 := by
  intro l
  induction l with
  | nil =>
      intro item
      exact Nat.le_refl _
  | cons r rs ih =>
      intro item
      rw [place]
      split
      · exact Nat.succ_le_succ ih
      · split
        · exact Nat.le_refl _
        · exact ih.trans (Nat.le_succ _)

/-- A range that starts before the others and ends where they begin stays alone. -/
theorem place_first (h : ∀ r ∈ l, item.2 < r.1) (hitem : item.1 ≤ item.2) (hl : ∀ r ∈ l, r.1 ≤ r.2) :
    place item l = item :: l := by
  cases l with
  | nil => rfl
  | cons r rs =>
      have hr := h r List.mem_cons_self
      have hnot : ¬ r.2 < item.1 := not_lt.2 (hitem.trans (hr.le.trans (hl r List.mem_cons_self)))
      rw [place, if_neg hnot, if_pos hr]

end place

/-- Ranges of numbers with gaps between them need room. -/
theorem Tidy.length_le {n : Nat} : ∀ {l : List (Nat × Nat)}, Tidy l → ∀ {b : Nat},
    (∀ r ∈ l, b ≤ r.1 ∧ r.1 ≤ n) → l.length ≤ n + 1 - b := by
  intro l
  induction l with
  | nil =>
      intro _ b _
      exact Nat.zero_le _
  | cons r rs ih =>
      intro h b hb
      have hr := hb r List.mem_cons_self
      have hrs : rs.length ≤ n + 1 - (r.1 + 1) := by
        refine ih h.tail fun s hs => ⟨?_, (hb s (List.mem_cons_of_mem _ hs)).2⟩
        have hgap := h.gap s hs
        have hhead := h.head
        omega
      rw [List.length_cons]
      omega

end RWebTransport.Ranges
