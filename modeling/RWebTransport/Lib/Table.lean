import Mathlib.Algebra.BigOperators.Group.Finset.Basic
import Mathlib.Algebra.Ring.Nat
import Mathlib.Data.List.Nodup

/-!
# Finite tables

A table keyed by natural numbers: a lookup function together with the list of
the keys it is defined on.  The two agree by construction, so a table can be
read pointwise in proofs and enumerated in programs.

The order of `keys` carries no meaning.  A program that visits a table in an
unspecified order takes a permutation of `keys`.
-/

namespace RWebTransport

universe u

/-- A finite partial function from `Nat`, with its domain as a list. -/
structure Table (α : Type u) where
  /-- The keys, each once. -/
  keys : List Nat
  /-- The value at a key. -/
  get : Nat → Option α
  nodup : keys.Nodup
  mem_keys : ∀ i, i ∈ keys ↔ (get i).isSome = true

namespace Table

variable {α : Type u}

/-- The table without keys. -/
def empty : Table α where
  keys := []
  get _ := none
  nodup := List.nodup_nil
  mem_keys := by simp

/-- The keys after an insertion. -/
def insertKey (t : Table α) (k : Nat) : List Nat :=
  if (t.get k).isSome then t.keys else t.keys ++ [k]

/-- Sets the value at `k`, replacing the one that is there. -/
def insert (t : Table α) (k : Nat) (v : α) : Table α where
  keys := t.insertKey k
  get i := if i = k then some v else t.get i
  nodup := by
    unfold insertKey
    split
    · exact t.nodup
    next hk =>
      have hnot : k ∉ t.keys := fun hmem => hk ((t.mem_keys k).mp hmem)
      exact List.Nodup.append t.nodup (List.nodup_singleton k)
        (by simpa [List.disjoint_singleton] using hnot)
  mem_keys i := by
    unfold insertKey
    by_cases hi : i = k
    · subst hi
      split
      next hk => simp [(t.mem_keys i).mpr hk]
      · simp
    · split <;> simp [hi, t.mem_keys i]

/-- Drops the keys and values that `keep` rejects. -/
def filter (t : Table α) (keep : Nat → α → Bool) : Table α where
  keys := t.keys.filter fun i => ((t.get i).filter (keep i)).isSome
  get i := (t.get i).filter (keep i)
  nodup := t.nodup.filter _
  mem_keys i := by
    simp only [List.mem_filter, t.mem_keys i]
    cases t.get i <;> simp

/-- Removes one key. -/
def erase (t : Table α) (k : Nat) : Table α := t.filter fun i _ => i != k

/-- Applies `f` to every value. -/
def map (t : Table α) (f : α → α) : Table α where
  keys := t.keys
  get i := (t.get i).map f
  nodup := t.nodup
  mem_keys i := by simp [t.mem_keys i]

/-- Applies `f` to the value at `k`, if there is one. -/
def modify (t : Table α) (k : Nat) (f : α → α) : Table α where
  keys := t.keys
  get i := if i = k then (t.get i).map f else t.get i
  nodup := t.nodup
  mem_keys i := by
    rw [t.mem_keys i]
    split <;> simp

/-- Applies `f` to the values at the keys that `p` picks. -/
def modifyIf (t : Table α) (p : Nat → Bool) (f : α → α) : Table α where
  keys := t.keys
  get i := if p i then (t.get i).map f else t.get i
  nodup := t.nodup
  mem_keys i := by
    rw [t.mem_keys i]
    split <;> simp

/-- Whether some entry satisfies `p`. -/
def any (t : Table α) (p : Nat → α → Bool) : Bool :=
  t.keys.any fun i => (t.get i).any (p i)

/-- Whether the key is present. -/
def contains (t : Table α) (k : Nat) : Bool := (t.get k).isSome

/-! ## Lookups -/

@[simp] theorem get_empty (i : Nat) : (empty : Table α).get i = none := rfl

theorem get_insert (t : Table α) (k : Nat) (v : α) (i : Nat) :
    (t.insert k v).get i = if i = k then some v else t.get i := rfl

@[simp] theorem get_insert_self (t : Table α) (k : Nat) (v : α) :
    (t.insert k v).get k = some v := by simp [get_insert]

theorem get_insert_ne {t : Table α} {k i : Nat} {v : α} (h : i ≠ k) :
    (t.insert k v).get i = t.get i := by simp [get_insert, h]

@[simp] theorem get_filter (t : Table α) (keep : Nat → α → Bool) (i : Nat) :
    (t.filter keep).get i = (t.get i).filter (keep i) := rfl

theorem get_erase (t : Table α) (k i : Nat) :
    (t.erase k).get i = if i = k then none else t.get i := by
  by_cases h : i = k
  · subst h
    cases hg : t.get i <;> simp [erase, hg]
  · cases hg : t.get i <;> simp [erase, hg, h]

@[simp] theorem get_map (t : Table α) (f : α → α) (i : Nat) :
    (t.map f).get i = (t.get i).map f := rfl

theorem get_modify (t : Table α) (k : Nat) (f : α → α) (i : Nat) :
    (t.modify k f).get i = if i = k then (t.get i).map f else t.get i := rfl

@[simp] theorem get_modify_self (t : Table α) (k : Nat) (f : α → α) :
    (t.modify k f).get k = (t.get k).map f := by simp [get_modify]

theorem get_modify_ne {t : Table α} {k i : Nat} {f : α → α} (h : i ≠ k) :
    (t.modify k f).get i = t.get i := by simp [get_modify, h]

theorem get_modifyIf (t : Table α) (p : Nat → Bool) (f : α → α) (i : Nat) :
    (t.modifyIf p f).get i = if p i then (t.get i).map f else t.get i := rfl

/-- Only the value that is there matters. -/
theorem modify_congr {t : Table α} {k : Nat} {v : α} {f g : α → α} (hv : t.get k = some v)
    (h : f v = g v) : t.modify k f = t.modify k g := by
  have hget : (t.modify k f).get = (t.modify k g).get := by
    funext i
    rw [get_modify, get_modify]
    split
    next hi => rw [hi, hv, Option.map_some, Option.map_some, h]
    · rfl
  unfold modify at hget ⊢
  simp only [mk.injEq, true_and]
  exact hget

@[simp] theorem keys_map (t : Table α) (f : α → α) : (t.map f).keys = t.keys := rfl

@[simp] theorem keys_modify (t : Table α) (k : Nat) (f : α → α) :
    (t.modify k f).keys = t.keys := rfl

theorem any_eq_true {t : Table α} {p : Nat → α → Bool} :
    t.any p = true ↔ ∃ i v, t.get i = some v ∧ p i v = true := by
  simp only [any, List.any_eq_true, t.mem_keys]
  constructor
  · rintro ⟨i, -, hp⟩
    cases hg : t.get i with
    | none => simp [hg] at hp
    | some v => exact ⟨i, v, hg, by simpa [hg] using hp⟩
  · rintro ⟨i, v, hg, hp⟩
    exact ⟨i, by simp [hg], by simp [hg, hp]⟩

theorem mem_keys_of_get {t : Table α} {i : Nat} {v : α} (h : t.get i = some v) : i ∈ t.keys :=
  (t.mem_keys i).mpr (by simp [h])

theorem exists_get_of_mem_keys {t : Table α} {i : Nat} (h : i ∈ t.keys) :
    ∃ v, t.get i = some v := Option.isSome_iff_exists.mp ((t.mem_keys i).mp h)

/-! ## Totals -/

/-- The sum of `f` over the values. -/
def total (t : Table α) (f : α → Nat) : Nat := (t.keys.map fun i => ((t.get i).map f).getD 0).sum

@[simp] theorem total_empty (f : α → Nat) : (empty : Table α).total f = 0 := rfl

theorem total_eq_sum (t : Table α) (f : α → Nat) :
    t.total f = ∑ i ∈ t.keys.toFinset, ((t.get i).map f).getD 0 :=
  (List.sum_toFinset _ t.nodup).symm

theorem mem_keys_erase {t : Table α} {k i : Nat} : i ∈ (t.erase k).keys ↔ i ≠ k ∧ i ∈ t.keys := by
  rw [mem_keys, mem_keys, get_erase]
  by_cases h : i = k <;> simp [h]

theorem total_zero {t : Table α} {f : α → Nat} (h : ∀ i v, t.get i = some v → f v = 0) :
    t.total f = 0 := by
  refine List.sum_eq_zero fun n hn => ?_
  obtain ⟨i, hi, rfl⟩ := List.mem_map.mp hn
  obtain ⟨v, hv⟩ := exists_get_of_mem_keys hi
  simp [hv, h i v hv]

theorem total_congr {t : Table α} {f g : α → Nat} (h : ∀ i v, t.get i = some v → f v = g v) :
    t.total f = t.total g := by
  refine congrArg List.sum (List.map_congr_left fun i hi => ?_)
  obtain ⟨v, hv⟩ := exists_get_of_mem_keys hi
  simp [hv, h i v hv]

theorem total_erase_of_none {t : Table α} {k : Nat} (h : t.get k = none) (f : α → Nat) :
    (t.erase k).total f = t.total f := by
  have hget : (t.erase k).get = t.get := by
    funext i
    rw [get_erase]
    split
    next hi => rw [hi, h]
    · rfl
  have hkeys : (t.erase k).keys.toFinset = t.keys.toFinset := by
    ext i
    rw [List.mem_toFinset, List.mem_toFinset, mem_keys, mem_keys, hget]
  rw [total_eq_sum, total_eq_sum, hkeys, hget]

/-- The value at a key, and the rest. -/
theorem total_split {t : Table α} {k : Nat} {v : α} (h : t.get k = some v) (f : α → Nat) :
    t.total f = f v + (t.erase k).total f := by
  have hkeys : (t.erase k).keys.toFinset = t.keys.toFinset.erase k := by
    ext i
    rw [List.mem_toFinset, Finset.mem_erase, List.mem_toFinset, mem_keys_erase]
  have hmem : k ∈ t.keys.toFinset := List.mem_toFinset.mpr (mem_keys_of_get h)
  rw [total_eq_sum, total_eq_sum, hkeys, ← Finset.add_sum_erase _ _ hmem, h]
  refine congrArg (f v + ·) (Finset.sum_congr rfl fun i hi => ?_)
  rw [get_erase, if_neg (Finset.ne_of_mem_erase hi)]

/-- What one key has, and the rest. -/
theorem total_erase (t : Table α) (k : Nat) (f : α → Nat) :
    t.total f = ((t.get k).map f).getD 0 + (t.erase k).total f := by
  cases h : t.get k with
  | none => simp [total_erase_of_none h]
  | some v => simp [total_split h]

theorem total_insert (t : Table α) (k : Nat) (v : α) (f : α → Nat) :
    (t.insert k v).total f = f v + (t.erase k).total f := by
  rw [total_split (get_insert_self t k v)]
  refine congrArg (f v + ·) ?_
  have hget : ((t.insert k v).erase k).get = (t.erase k).get := by
    funext i
    rw [get_erase, get_erase, get_insert]
    split <;> rfl
  have hkeys : ((t.insert k v).erase k).keys.toFinset = (t.erase k).keys.toFinset := by
    ext i
    rw [List.mem_toFinset, List.mem_toFinset, mem_keys, mem_keys, hget]
  rw [total_eq_sum, total_eq_sum, hkeys, hget]

/-- The keys do not matter where the values agree. -/
theorem total_congr_get {t t' : Table α} {f g : α → Nat}
    (h : ∀ i, ((t.get i).map f).getD 0 = ((t'.get i).map g).getD 0) : t.total f = t'.total g := by
  have hover : ∀ (t : Table α) (f : α → Nat) (s : Finset Nat), t.keys.toFinset ⊆ s →
      t.total f = ∑ i ∈ s, ((t.get i).map f).getD 0 := by
    intro t f s hs
    rw [total_eq_sum]
    refine Finset.sum_subset hs fun i _ hi => ?_
    have hnone : t.get i = none := by
      simpa [List.mem_toFinset, t.mem_keys] using hi
    simp [hnone]
  rw [hover t f _ Finset.subset_union_left, hover t' g _ Finset.subset_union_right]
  exact Finset.sum_congr rfl fun i _ => h i

theorem total_modify {t : Table α} {k : Nat} {v : α} (h : t.get k = some v) (g : α → α)
    (f : α → Nat) : (t.modify k g).total f = f (g v) + (t.erase k).total f := by
  have hk : (t.modify k g).get k = some (g v) := by rw [get_modify_self, h, Option.map_some]
  rw [total_split hk]
  refine congrArg (f (g v) + ·) (total_congr_get fun i => ?_)
  rw [get_erase, get_erase, get_modify]
  split <;> rfl

/-- What is kept and what is dropped. -/
theorem total_filter (t : Table α) (keep : Nat → α → Bool) (f : α → Nat) :
    t.total f = (t.filter keep).total f + (t.keys.map fun i =>
      ((t.get i).map fun v => if keep i v then 0 else f v).getD 0).sum := by
  have hkept : (t.filter keep).total f = (t.keys.map fun i =>
      (((t.get i).filter (keep i)).map f).getD 0).sum := by
    rw [total_eq_sum, ← List.sum_toFinset _ t.nodup]
    refine Finset.sum_subset (fun i hi => ?_) fun i _ hi => ?_
    · rw [List.mem_toFinset] at hi ⊢
      exact (List.mem_filter.mp hi).1
    · rw [List.mem_toFinset, mem_keys] at hi
      have hnone : (t.get i).filter (keep i) = none := Option.not_isSome_iff_eq_none.mp hi
      rw [get_filter, hnone]
      rfl
  rw [hkept, total, ← List.sum_map_add]
  refine congrArg List.sum (List.map_congr_left fun i _ => ?_)
  cases t.get i with
  | none => rfl
  | some v => cases hk : keep i v <;> simp [Option.filter, hk]

theorem le_total {t : Table α} {k : Nat} {v : α} (h : t.get k = some v) (f : α → Nat) :
    f v ≤ t.total f := by
  rw [total_split h]
  exact Nat.le_add_right _ _

end Table

end RWebTransport
