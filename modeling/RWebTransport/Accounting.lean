import RWebTransport.Lib.Run
import RWebTransport.Lib.Table
import RWebTransport.ParserMemory

/-!
# Parser memory is accounted for

Budgets form a forest, and a buffer is charged to its budget and to everything
above it.  An operation on a buffer is a sequence of atomic additions and
subtractions on the counters; what a refusal has charged it takes back.

Over any run, a counter is the sum of the capacities of the buffers below it.
-/

namespace RWebTransport

/-! ## Counters -/

/-- One atomic access of a counter. -/
inductive Atom where
  | add (node n : Nat)
  | sub (node n : Nat)

namespace Atom

/-- What an access does. -/
def apply (nodes : List ParserMemory) : Atom → List ParserMemory
  | add i n => nodes.modify i fun m => { m with used := m.used + n }
  | sub i n => nodes.modify i fun m => { m with used := m.used - n }

/-- An addition stays within the limit, and a subtraction does not wrap around. -/
def Allowed (nodes : List ParserMemory) : Atom → Prop
  | add i n => ∃ m, nodes[i]? = some m ∧ m.used + n ≤ m.limit
  | sub i n => ∃ m, nodes[i]? = some m ∧ n ≤ m.used

end Atom

namespace Heap

/-- A budget is created after its parent. -/
def Rooted (nodes : List ParserMemory) : Prop :=
  ∀ (i : Nat) (m : ParserMemory) (p : Nat), nodes[i]? = some m → m.parent = some p → p < i

/-- A budget and everything above it. -/
def pathFrom : Nat → List ParserMemory → Nat → List Nat
  | 0, _, _ => []
  | depth + 1, nodes, i =>
      match nodes[i]? with
      | none => []
      | some m =>
          i :: match m.parent with
            | none => []
            | some p => pathFrom depth nodes p

def path (nodes : List ParserMemory) (i : Nat) : List Nat := pathFrom (nodes.length + 1) nodes i

/-- Changes the counters along a path. -/
def shift (nodes : List ParserMemory) (l : List Nat) (f : Nat → Nat) : List ParserMemory :=
  nodes.mapIdx fun i m => if i ∈ l then { m with used := f m.used } else m

theorem getElem?_shift (nodes : List ParserMemory) (l : List Nat) (f : Nat → Nat) (i : Nat) :
    (shift nodes l f)[i]? =
      nodes[i]?.map fun m => if i ∈ l then { m with used := f m.used } else m := by
  simp [shift]

/-- Changes compose. -/
theorem shift_shift (nodes : List ParserMemory) (l : List Nat) (f g : Nat → Nat) :
    shift (shift nodes l f) l g = shift nodes l (g ∘ f) := by
  refine List.ext_getElem? fun i => ?_
  rw [getElem?_shift, getElem?_shift, getElem?_shift, Option.map_map]
  refine congrArg (nodes[i]?.map ·) (funext fun m => ?_)
  by_cases h : i ∈ l <;> simp [h]

theorem shift_id (nodes : List ParserMemory) (l : List Nat) {f : Nat → Nat} (hf : ∀ u, f u = u) :
    shift nodes l f = nodes := by
  refine List.ext_getElem? fun i => ?_
  rw [getElem?_shift]
  cases nodes[i]? with
  | none => rfl
  | some m => by_cases h : i ∈ l <;> simp [h, hf]

/-- Changing the counter at the head, and then those behind it. -/
theorem shift_cons (nodes : List ParserMemory) {i : Nat} {l : List Nat} (hi : i ∉ l) (f : Nat → Nat) :
    shift (nodes.modify i fun m => { m with used := f m.used }) l f = shift nodes (i :: l) f := by
  refine List.ext_getElem? fun j => ?_
  rw [getElem?_shift, getElem?_shift, List.getElem?_modify]
  cases nodes[j]? with
  | none => rfl
  | some m =>
      by_cases hj : i = j
      · subst hj
        simp [hi]
      · simp [hj, Ne.symm hj]

theorem shift_nil (nodes : List ParserMemory) (f : Nat → Nat) : shift nodes [] f = nodes := by
  refine List.ext_getElem? fun i => ?_
  rw [getElem?_shift]
  cases nodes[i]? <;> simp

/-! ## Paths -/

section

variable {nodes : List ParserMemory} {i : Nat}

theorem pathFrom_of_parents {nodes nodes' : List ParserMemory}
    (h : ∀ i : Nat, (nodes'[i]?).map ParserMemory.parent = (nodes[i]?).map ParserMemory.parent) :
    ∀ (depth i : Nat), pathFrom depth nodes' i = pathFrom depth nodes i
  | 0, _ => rfl
  | depth + 1, i => by
      have hi := h i
      unfold pathFrom
      cases hn : nodes[i]? with
      | none =>
          rw [hn] at hi
          have hn' : nodes'[i]? = none := by simpa using hi
          rw [hn']
      | some m =>
          rw [hn] at hi
          obtain ⟨m', hm', hp⟩ := Option.map_eq_some_iff.mp hi
          rw [hm']
          simp only [hp]
          cases m.parent with
          | none => rfl
          | some p => simp only [pathFrom_of_parents h depth p]

theorem pathFrom_shift (nodes : List ParserMemory) (l : List Nat) (f : Nat → Nat) (depth i : Nat) :
    pathFrom depth (shift nodes l f) i = pathFrom depth nodes i := by
  refine pathFrom_of_parents (fun j => ?_) depth i
  rw [getElem?_shift, Option.map_map]
  refine congrArg (nodes[j]?.map ·) (funext fun m => ?_)
  by_cases h : j ∈ l <;> simp [h]

@[simp] theorem length_shift (nodes : List ParserMemory) (l : List Nat) (f : Nat → Nat) :
    (shift nodes l f).length = nodes.length := by simp [shift]

theorem path_shift (nodes : List ParserMemory) (l : List Nat) (f : Nat → Nat) (i : Nat) :
    path (shift nodes l f) i = path nodes i := by
  unfold path
  rw [length_shift, pathFrom_shift]

/-- Once it exceeds the index, the depth is immaterial. -/
theorem pathFrom_depth (hroot : Rooted nodes) : ∀ {depth depth' i : Nat}, i < depth → i < depth' →
    pathFrom depth nodes i = pathFrom depth' nodes i
  | 0, _, _, h, _ => absurd h (by omega)
  | _, 0, _, _, h => absurd h (by omega)
  | depth + 1, depth' + 1, i, h, h' => by
      unfold pathFrom
      cases hn : nodes[i]? with
      | none => rfl
      | some m =>
          simp only
          cases hp : m.parent with
          | none => rfl
          | some p =>
              have hlt := hroot i m p hn hp
              have hparent : pathFrom depth nodes p = pathFrom depth' nodes p :=
                pathFrom_depth hroot (by omega) (by omega)
              simp only [hparent]

theorem le_of_mem_pathFrom (hroot : Rooted nodes) : ∀ {depth i j : Nat}, j ∈ pathFrom depth nodes i →
    j ≤ i
  | 0, _, _, h => by cases h
  | depth + 1, i, j, h => by
      unfold pathFrom at h
      cases hn : nodes[i]? with
      | none => simp [hn] at h
      | some m =>
          simp only [hn] at h
          rcases List.mem_cons.mp h with rfl | h
          · exact le_refl _
          · cases hp : m.parent with
            | none => simp [hp] at h
            | some p =>
                simp only [hp] at h
                exact (le_of_mem_pathFrom hroot h).trans (hroot i m p hn hp).le

theorem exists_of_mem_pathFrom : ∀ {depth i j : Nat}, j ∈ pathFrom depth nodes i →
    ∃ m, nodes[j]? = some m
  | 0, _, _, h => by cases h
  | depth + 1, i, j, h => by
      unfold pathFrom at h
      cases hn : nodes[i]? with
      | none => simp [hn] at h
      | some m =>
          simp only [hn] at h
          rcases List.mem_cons.mp h with rfl | h
          · exact ⟨m, hn⟩
          · cases hp : m.parent with
            | none => simp [hp] at h
            | some p =>
                simp only [hp] at h
                exact exists_of_mem_pathFrom h

theorem not_mem_path_parent (hroot : Rooted nodes) {depth p : Nat} {m : ParserMemory}
    (hn : nodes[i]? = some m) (hp : m.parent = some p) : i ∉ pathFrom depth nodes p := by
  intro hmem
  have hle := le_of_mem_pathFrom hroot hmem
  have hlt := hroot i m p hn hp
  omega

end

/-! ## Reserving and releasing -/

/-- A budget admits an addition. -/
def Room (nodes : List ParserMemory) (n j : Nat) : Prop :=
  ∀ m, nodes[j]? = some m → m.used + n ≤ m.limit

/-- The accesses of `reserve`, and whether it succeeds. -/
def reserveAtoms : Nat → List ParserMemory → Nat → Nat → List Atom × Bool
  | 0, _, _, _ => ([], false)
  | depth + 1, nodes, i, n =>
      match nodes[i]? with
      | none => ([], false)
      | some m =>
          if m.used + n ≤ m.limit then
            match m.parent with
            | none => ([.add i n], true)
            | some p =>
                match reserveAtoms depth (Atom.apply nodes (.add i n)) p n with
                | (l, true) => (.add i n :: l, true)
                | (l, false) => (.add i n :: (l ++ [.sub i n]), false)
          else ([], false)

/-- The accesses of `release`. -/
def releaseAtoms : Nat → List ParserMemory → Nat → Nat → List Atom
  | 0, _, _, _ => []
  | depth + 1, nodes, i, n =>
      match nodes[i]? with
      | none => []
      | some m =>
          .sub i n :: match m.parent with
            | none => []
            | some p => releaseAtoms depth (Atom.apply nodes (.sub i n)) p n

section

variable {nodes : List ParserMemory}

theorem rooted_of_parents {nodes' : List ParserMemory} (hroot : Rooted nodes)
    (h : ∀ (i : Nat) (m' : ParserMemory), nodes'[i]? = some m' →
      ∃ m, nodes[i]? = some m ∧ m'.parent = m.parent) : Rooted nodes' := by
  intro i m' p hm' hp
  obtain ⟨m, hm, hparent⟩ := h i m' hm'
  exact hroot i m p hm (hparent.symm.trans hp)

theorem rooted_shift (hroot : Rooted nodes) (l : List Nat) (f : Nat → Nat) :
    Rooted (shift nodes l f) := by
  refine rooted_of_parents hroot fun i m' hm' => ?_
  rw [getElem?_shift] at hm'
  obtain ⟨m, hm, rfl⟩ := Option.map_eq_some_iff.mp hm'
  refine ⟨m, hm, ?_⟩
  split <;> rfl

/-- Changing one counter is a change along a path. -/
theorem modify_eq_shift (nodes : List ParserMemory) (i : Nat) (f : Nat → Nat) :
    (nodes.modify i fun m => { m with used := f m.used }) = shift nodes [i] f := by
  rw [← shift_cons nodes (by simp) f, shift_nil]

theorem apply_add_eq (nodes : List ParserMemory) (i n : Nat) :
    Atom.apply nodes (.add i n) = shift nodes [i] (· + n) := modify_eq_shift nodes i (· + n)

theorem apply_sub_eq (nodes : List ParserMemory) (i n : Nat) :
    Atom.apply nodes (.sub i n) = shift nodes [i] (· - n) := modify_eq_shift nodes i (· - n)

/-- A subtraction takes an addition back. -/
theorem apply_sub_add (nodes : List ParserMemory) (i n : Nat) :
    Atom.apply (Atom.apply nodes (.add i n)) (.sub i n) = nodes := by
  rw [apply_add_eq, apply_sub_eq, shift_shift]
  exact shift_id nodes [i] fun u => Nat.add_sub_cancel u n

/-- Along the rest of a path. -/
theorem shift_head (nodes : List ParserMemory) {i : Nat} {l : List Nat} (hi : i ∉ l) (f : Nat → Nat) :
    shift (shift nodes [i] f) l f = shift nodes (i :: l) f := by
  rw [← modify_eq_shift nodes i f]
  exact shift_cons nodes hi f

theorem setUsed_eq (h : Heap) {i : Nat} {m : ParserMemory} (hm : h.nodes[i]? = some m) (f : Nat → Nat) :
    h.setUsed i (f m.used) = { h with nodes := shift h.nodes [i] f } := by
  unfold setUsed
  congr 1
  refine List.ext_getElem? fun j => ?_
  rw [getElem?_shift, List.getElem?_modify]
  by_cases hj : i = j
  · subst hj
    simp [hm]
  · simp [hj, Ne.symm hj]

/-- `reserve` is a sequence of accesses that are allowed, and a refusal takes back
what it has charged. -/
theorem reserveFrom_atoms : ∀ (depth : Nat) (h : Heap) (i n : Nat),
    Along Atom.apply Atom.Allowed h.nodes (reserveAtoms depth h.nodes i n).1 ∧
      ((reserveAtoms depth h.nodes i n).2 = true → reserveFrom depth h i n =
        some { h with nodes := execute Atom.apply h.nodes (reserveAtoms depth h.nodes i n).1 }) ∧
      ((reserveAtoms depth h.nodes i n).2 = false → reserveFrom depth h i n = none ∧
        execute Atom.apply h.nodes (reserveAtoms depth h.nodes i n).1 = h.nodes)
  | 0, h, i, n => ⟨trivial, fun hf => (by cases hf), fun _ => ⟨rfl, rfl⟩⟩
  | depth + 1, h, i, n => by
      unfold reserveAtoms reserveFrom
      cases hm : h.nodes[i]? with
      | none => exact ⟨trivial, fun hf => (by cases hf), fun _ => ⟨rfl, rfl⟩⟩
      | some m =>
          simp only
          by_cases hroom : m.used + n ≤ m.limit
          · rw [if_pos hroom, if_pos hroom]
            have hset : h.setUsed i (m.used + n) = { h with nodes := Atom.apply h.nodes (.add i n) } := by
              rw [apply_add_eq]
              exact setUsed_eq h hm (· + n)
            have hallowed : Atom.Allowed h.nodes (.add i n) := ⟨m, hm, hroom⟩
            cases hp : m.parent with
            | none => exact ⟨⟨hallowed, trivial⟩, fun _ => congrArg some hset, fun hf => (by cases hf)⟩
            | some p =>
                obtain ⟨halong, hok, hfail⟩ :=
                  reserveFrom_atoms depth { h with nodes := Atom.apply h.nodes (.add i n) } p n
                simp only at halong hok hfail ⊢
                rw [hset]
                generalize hres : reserveAtoms depth (Atom.apply h.nodes (.add i n)) p n = res
                  at halong hok hfail
                obtain ⟨l, ok⟩ := res
                cases ok with
                | true => exact ⟨⟨hallowed, halong⟩, fun _ => hok rfl, fun hf => (by cases hf)⟩
                | false =>
                    obtain ⟨hnone, hback⟩ := hfail rfl
                    refine ⟨⟨hallowed, along_append.mpr ⟨halong, ?_, trivial⟩⟩,
                      fun hf => (by cases hf), fun _ => ⟨hnone, ?_⟩⟩
                    · rw [hback]
                      refine ⟨{ m with used := m.used + n }, ?_, Nat.le_add_left n m.used⟩
                      simp [Atom.apply, hm]
                    · rw [execute_cons, execute_append, hback]
                      exact apply_sub_add h.nodes i n
          · rw [if_neg hroom, if_neg hroom]
            exact ⟨trivial, fun hf => (by cases hf), fun _ => ⟨rfl, rfl⟩⟩

/-- A reservation that succeeds charges every budget on the path, and there was
room in each. -/
theorem reserveFrom_spec : ∀ {depth : Nat} {h h' : Heap} {i n : Nat}, Rooted h.nodes →
    reserveFrom depth h i n = some h' →
    h' = { h with nodes := shift h.nodes (pathFrom depth h.nodes i) (· + n) } ∧
      ∀ j ∈ pathFrom depth h.nodes i, Room h.nodes n j
  | 0, _, _, _, _, _, hres => by cases hres
  | depth + 1, h, h', i, n, hroot, hres => by
      unfold reserveFrom at hres
      unfold pathFrom
      cases hm : h.nodes[i]? with
      | none => simp [hm] at hres
      | some m =>
          simp only [hm] at hres ⊢
          by_cases hroom : m.used + n ≤ m.limit
          · rw [if_pos hroom] at hres
            have hset : h.setUsed i (m.used + n) = { h with nodes := shift h.nodes [i] (· + n) } :=
              setUsed_eq h hm (· + n)
            have hself : Room h.nodes n i := by
              intro m' hm'
              obtain rfl := Option.some.inj (hm.symm.trans hm')
              exact hroom
            rw [hset] at hres
            cases hp : m.parent with
            | none =>
                simp only [hp, Option.some.injEq] at hres
                subst hres
                exact ⟨rfl, by simpa using hself⟩
            | some p =>
                simp only [hp] at hres ⊢
                have hparents : pathFrom depth (shift h.nodes [i] (· + n)) p =
                    pathFrom depth h.nodes p := pathFrom_shift _ _ _ _ _
                have hnot : i ∉ pathFrom depth _ p := not_mem_path_parent hroot hm hp
                obtain ⟨heq, hrooms⟩ := reserveFrom_spec (rooted_shift hroot [i] (· + n)) hres
                simp only [hparents] at heq hrooms
                refine ⟨?_, fun j hj => ?_⟩
                · rw [heq, shift_head h.nodes hnot]
                · rcases List.mem_cons.mp hj with rfl | hrest
                  · exact hself
                  · intro m' hm'
                    have hji : j ≠ i := fun heq => hnot (heq ▸ hrest)
                    exact hrooms j hrest m' (by rw [getElem?_shift, hm']; simp [hji])
          · rw [if_neg hroom] at hres
            cases hres

/-- A release subtracts along the path. -/
theorem releaseFrom_spec : ∀ (depth : Nat) {h : Heap} (i n : Nat), Rooted h.nodes →
    releaseFrom depth h i n = { h with nodes := shift h.nodes (pathFrom depth h.nodes i) (· - n) }
  | 0, h, _, _, _ => by
      unfold releaseFrom pathFrom
      rw [shift_nil]
  | depth + 1, h, i, n, hroot => by
      unfold releaseFrom pathFrom
      cases hm : h.nodes[i]? with
      | none => simp only [shift_nil]
      | some m =>
          simp only
          have hset : h.setUsed i (m.used - n) = { h with nodes := shift h.nodes [i] (· - n) } :=
            setUsed_eq h hm (· - n)
          rw [hset]
          cases hp : m.parent with
          | none => rfl
          | some p =>
              have hparents : pathFrom depth (shift h.nodes [i] (· - n)) p =
                  pathFrom depth h.nodes p := pathFrom_shift _ _ _ _ _
              have hnot : i ∉ pathFrom depth _ p := not_mem_path_parent hroot hm hp
              simp only
              rw [releaseFrom_spec depth p n (rooted_shift hroot [i] (· - n))]
              simp only [hparents]
              rw [shift_head h.nodes hnot]

theorem reserve_some {h h' : Heap} {i n : Nat} (hroot : Rooted h.nodes) (hres : h.reserve i n = some h') :
    h' = { h with nodes := shift h.nodes (path h.nodes i) (· + n) } ∧
      ∀ j ∈ path h.nodes i, Room h.nodes n j :=
  reserveFrom_spec hroot hres

theorem release_eq {h : Heap} (hroot : Rooted h.nodes) (i n : Nat) :
    h.release i n = { h with nodes := shift h.nodes (path h.nodes i) (· - n) } :=
  releaseFrom_spec _ i n hroot

/-- A release takes a reservation back. -/
theorem release_shift {h : Heap} (hroot : Rooted h.nodes) (i n : Nat) {s : Heap}
    (hs : s.nodes = shift h.nodes (path h.nodes i) (· + n)) : (s.release i n).nodes = h.nodes := by
  rw [release_eq (hs ▸ rooted_shift hroot _ _), hs, path_shift, shift_shift]
  exact shift_id _ _ fun u => Nat.add_sub_cancel u n

/-- `release` is a sequence of accesses. -/
theorem releaseFrom_atoms : ∀ (depth : Nat) (h : Heap) (i n : Nat), releaseFrom depth h i n =
    { h with nodes := execute Atom.apply h.nodes (releaseAtoms depth h.nodes i n) }
  | 0, _, _, _ => rfl
  | depth + 1, h, i, n => by
      unfold releaseFrom releaseAtoms
      cases hm : h.nodes[i]? with
      | none => rfl
      | some m =>
          have hset : h.setUsed i (m.used - n) = { h with nodes := Atom.apply h.nodes (.sub i n) } := by
            rw [apply_sub_eq]
            exact setUsed_eq h hm (· - n)
          simp only
          rw [hset]
          cases m.parent with
          | none => rfl
          | some p => exact releaseFrom_atoms depth { h with nodes := Atom.apply h.nodes (.sub i n) } p n

/-- The accesses of `release` are allowed where every counter on the path holds
what is subtracted. -/
theorem releaseAtoms_allowed : ∀ {depth : Nat} {nodes : List ParserMemory} {i n : Nat}, Rooted nodes →
    (∀ j ∈ pathFrom depth nodes i, ∀ m, nodes[j]? = some m → n ≤ m.used) →
    Along Atom.apply Atom.Allowed nodes (releaseAtoms depth nodes i n)
  | 0, _, _, _, _, _ => trivial
  | depth + 1, nodes, i, n, hroot, hheld => by
      unfold releaseAtoms
      unfold pathFrom at hheld
      cases hm : nodes[i]? with
      | none => trivial
      | some m =>
          simp only [hm] at hheld ⊢
          refine ⟨⟨m, hm, hheld i List.mem_cons_self m hm⟩, ?_⟩
          cases hp : m.parent with
          | none => trivial
          | some p =>
              simp only [hp] at hheld
              have hnot : i ∉ pathFrom depth _ p := not_mem_path_parent hroot hm hp
              rw [apply_sub_eq]
              refine releaseAtoms_allowed (rooted_shift hroot _ _) fun j hj m' hm' => ?_
              rw [pathFrom_shift] at hj
              have hji : j ∉ [i] := fun hmem => hnot (List.mem_singleton.mp hmem ▸ hj)
              rw [getElem?_shift] at hm'
              obtain ⟨m0, hm0, rfl⟩ := Option.map_eq_some_iff.mp hm'
              rw [if_neg hji]
              exact hheld j (List.mem_cons_of_mem _ hj) m0 hm0

theorem reserve_atoms {s : Heap} (hroot : Rooted s.nodes) {depth : Nat}
    (hdepth : depth = s.nodes.length + 1) (i n : Nat) :
    Along Atom.apply Atom.Allowed s.nodes (reserveAtoms depth s.nodes i n).1 ∧
      ((reserveAtoms depth s.nodes i n).2 = true →
        execute Atom.apply s.nodes (reserveAtoms depth s.nodes i n).1 =
          shift s.nodes (path s.nodes i) (· + n) ∧
        s.reserve i n = some { s with nodes := shift s.nodes (path s.nodes i) (· + n) }) ∧
      ((reserveAtoms depth s.nodes i n).2 = false → s.reserve i n = none ∧
        execute Atom.apply s.nodes (reserveAtoms depth s.nodes i n).1 = s.nodes) := by
  subst hdepth
  obtain ⟨halong, hok, hfail⟩ := reserveFrom_atoms (s.nodes.length + 1) s i n
  refine ⟨halong, fun htrue => ?_, hfail⟩
  have hres : s.reserve i n = _ := hok htrue
  have heq := (reserve_some hroot hres).1
  exact ⟨congrArg Heap.nodes heq, hres.trans (congrArg some heq)⟩

theorem release_atoms {s : Heap} (hroot : Rooted s.nodes) {depth : Nat}
    (hdepth : depth = s.nodes.length + 1) {i n : Nat}
    (hheld : ∀ j ∈ path s.nodes i, ∀ m, s.nodes[j]? = some m → n ≤ m.used) :
    Along Atom.apply Atom.Allowed s.nodes (releaseAtoms depth s.nodes i n) ∧
      (s.release i n).nodes = execute Atom.apply s.nodes (releaseAtoms depth s.nodes i n) := by
  subst hdepth
  exact ⟨releaseAtoms_allowed hroot hheld, congrArg Heap.nodes (releaseFrom_atoms _ s i n)⟩

/-- What was added to the counters of a path can be subtracted. -/
theorem held_shift {i n k : Nat} (hk : ∀ m ∈ path nodes i, ∀ x, nodes[m]? = some x → k ≤ x.used + n) :
    ∀ j ∈ path (shift nodes (path nodes i) (· + n)) i, ∀ m,
      (shift nodes (path nodes i) (· + n))[j]? = some m → k ≤ m.used := by
  intro j hj m hm
  rw [path_shift] at hj
  rw [getElem?_shift] at hm
  obtain ⟨m0, hm0, rfl⟩ := Option.map_eq_some_iff.mp hm
  rw [if_pos hj]
  exact hk j hj m0 hm0

end

/-! ## New budgets -/

section

variable {nodes : List ParserMemory}

theorem pathFrom_append (hroot : Rooted nodes) (more : List ParserMemory) : ∀ {depth i : Nat},
    i < nodes.length → pathFrom depth (nodes ++ more) i = pathFrom depth nodes i
  | 0, _, _ => rfl
  | depth + 1, i, hi => by
      unfold pathFrom
      rw [List.getElem?_append_left hi]
      cases hm : nodes[i]? with
      | none => rfl
      | some m =>
          simp only
          cases hp : m.parent with
          | none => rfl
          | some p =>
              have hlt := hroot i m p hm hp
              have hparent : pathFrom depth (nodes ++ more) p = pathFrom depth nodes p :=
                pathFrom_append hroot more (by omega)
              simp only [hparent]

theorem rooted_append (hroot : Rooted nodes) {limit : Nat} {parent : Option Nat}
    (hparent : ∀ q ∈ parent, q < nodes.length) : Rooted (nodes ++ [⟨limit, 0, parent⟩]) := by
  intro i m p hm hp
  rcases Nat.lt_or_ge i nodes.length with hi | hi
  · rw [List.getElem?_append_left hi] at hm
    exact hroot i m p hm hp
  · rw [List.getElem?_append_right hi, List.getElem?_singleton] at hm
    split at hm
    · obtain rfl := Option.some.inj hm
      have hlt := hparent p hp
      omega
    · cases hm

theorem path_append (hroot : Rooted nodes) {x : ParserMemory} (hx : Rooted (nodes ++ [x])) {i : Nat}
    (hi : i < nodes.length) : path (nodes ++ [x]) i = path nodes i := by
  unfold path
  rw [pathFrom_depth hx (show i < (nodes ++ [x]).length + 1 by simp; omega)
    (show i < nodes.length + 1 by omega), pathFrom_append hroot _ hi]

theorem mem_path_lt {i j : Nat} (h : j ∈ path nodes i) : j < nodes.length := by
  obtain ⟨m, hm⟩ := exists_of_mem_pathFrom h
  exact (List.getElem?_eq_some_iff.mp hm).1

end

end Heap

/-! ## Buffers -/

namespace ParserBuffer

open Heap (Rooted path shift)

/-- The accesses of a growth. -/
def growAtoms (b : ParserBuffer) (h : Heap) (needed : Nat) : List Atom :=
  let depth := h.nodes.length + 1
  match checkedNextPowerOfTwo needed with
  | none => []
  | some capacity =>
      match Heap.reserveAtoms depth h.nodes b.memory capacity with
      | (l, false) => l
      | (l, true) =>
          let nodes := execute Atom.apply h.nodes l
          match h.allocator h.requests capacity with
          | none => l ++ Heap.releaseAtoms depth nodes b.memory capacity
          | some extra =>
              if extra = 0 then l ++ Heap.releaseAtoms depth nodes b.memory b.capacity
              else match Heap.reserveAtoms depth nodes b.memory extra with
                | (l', false) =>
                    l ++ (l' ++ Heap.releaseAtoms depth nodes b.memory capacity)
                | (l', true) =>
                    l ++ (l' ++ Heap.releaseAtoms depth (execute Atom.apply nodes l') b.memory b.capacity)

section

variable {b b' : ParserBuffer} {h h' : Heap} {needed : Nat}

/-- A growth exchanges the old charge for the new one; there was room for both. -/
theorem grow_some (hroot : Rooted h.nodes) (hg : b.grow h needed = (some b', h')) :
    b'.memory = b.memory ∧
      h'.nodes = shift h.nodes (path h.nodes b.memory) (fun u => u + b'.capacity - b.capacity) ∧
      ∀ j ∈ path h.nodes b.memory, Heap.Room h.nodes b'.capacity j := by
  unfold grow at hg
  split at hg
  · cases hg
  next capacity hcap =>
    split at hg
    · cases hg
    next h1 hres =>
      obtain ⟨rfl, hroom⟩ := Heap.reserve_some hroot hres
      simp only at hg
      split at hg
      · cases hg
      next extra hextra =>
        have hroot1 := Heap.rooted_shift hroot (path h.nodes b.memory) (· + capacity)
        split at hg
        · cases hg
        next h3 hthird =>
          -- what the allocator gave in excess is charged as well
          have hcharged : h3.nodes = shift h.nodes (path h.nodes b.memory) (· + (capacity + extra)) ∧
              ∀ j ∈ path h.nodes b.memory, Heap.Room h.nodes (capacity + extra) j := by
            split at hthird
            next hzero =>
              obtain rfl := Option.some.inj hthird
              exact ⟨by rw [hzero]; rfl, by simpa only [hzero, Nat.add_zero] using hroom⟩
            next hpos =>
              obtain ⟨rfl, hroom'⟩ := Heap.reserve_some (h := { h with
                nodes := shift h.nodes (path h.nodes b.memory) (· + capacity)
                requests := h.requests + 1 }) hroot1 hthird
              simp only [Heap.path_shift, Heap.shift_shift] at hroom' ⊢
              refine ⟨congrArg _ (funext fun u => Nat.add_assoc u capacity extra), fun j hj m hm => ?_⟩
              have hle := hroom' j hj { m with used := m.used + capacity }
                (by rw [Heap.getElem?_shift, hm]; simp [hj])
              simpa [Nat.add_assoc] using hle
          simp only [Prod.mk.injEq, Option.some.injEq] at hg
          obtain ⟨rfl, rfl⟩ := hg
          refine ⟨rfl, ?_, hcharged.2⟩
          rw [Heap.release_eq (hcharged.1 ▸ Heap.rooted_shift hroot _ _), hcharged.1, Heap.path_shift,
            Heap.shift_shift]
          rfl

/-- A refused growth leaves every counter as it was. -/
theorem grow_none (hroot : Rooted h.nodes) (hg : b.grow h needed = (none, h')) :
    h'.nodes = h.nodes := by
  unfold grow at hg
  split at hg
  · cases hg
    rfl
  next capacity hcap =>
    split at hg
    · cases hg
      rfl
    next h1 hres =>
      obtain ⟨rfl, -⟩ := Heap.reserve_some hroot hres
      simp only at hg
      split at hg
      · cases hg
        exact Heap.release_shift hroot _ _ rfl
      next extra hextra =>
        split at hg
        · cases hg
          exact Heap.release_shift hroot _ _ rfl
        · cases hg

/-- A growth is a sequence of accesses that are allowed. -/
theorem grow_atoms (needed : Nat) (hroot : Rooted h.nodes)
    (hheld : ∀ j ∈ path h.nodes b.memory, ∀ m, h.nodes[j]? = some m → b.capacity ≤ m.used) :
    Along Atom.apply Atom.Allowed h.nodes (b.growAtoms h needed) ∧
      (b.grow h needed).2.nodes = execute Atom.apply h.nodes (b.growAtoms h needed) := by
  unfold growAtoms grow
  simp only
  cases hcap : checkedNextPowerOfTwo needed with
  | none => exact ⟨trivial, rfl⟩
  | some capacity =>
      simp only
      obtain ⟨halong, hok, hfail⟩ := Heap.reserve_atoms hroot rfl b.memory capacity
      generalize Heap.reserveAtoms (h.nodes.length + 1) h.nodes b.memory capacity = res
        at halong hok hfail
      obtain ⟨l, ok⟩ := res
      cases ok with
      | false =>
          obtain ⟨hnone, hback⟩ := hfail rfl
          rw [hnone]
          exact ⟨halong, hback.symm⟩
      | true =>
          obtain ⟨hnodes, hsome⟩ := hok rfl
          simp only at halong hnodes
          rw [hsome]
          simp only [hnodes]
          -- the heap behind the reservation and the request
          generalize hs : ({ h with
            nodes := shift h.nodes (path h.nodes b.memory) (· + capacity)
            requests := h.requests + 1 } : Heap) = s
          have hsnodes : s.nodes = shift h.nodes (path h.nodes b.memory) (· + capacity) := hs ▸ rfl
          have hsroot : Rooted s.nodes := hsnodes ▸ Heap.rooted_shift hroot _ _
          have hdepth : h.nodes.length + 1 = s.nodes.length + 1 := by rw [hsnodes, Heap.length_shift]
          have hback := Heap.release_atoms hsroot hdepth (i := b.memory) (n := capacity)
            (hsnodes ▸ Heap.held_shift fun _ _ _ _ => Nat.le_add_left _ _)
          have hold := Heap.release_atoms hsroot hdepth (i := b.memory) (n := b.capacity)
            (hsnodes ▸ Heap.held_shift fun j hj m hm => (hheld j hj m hm).trans (Nat.le_add_right _ _))
          rw [← hsnodes] at hnodes ⊢
          cases hextra : h.allocator h.requests capacity with
          | none =>
              refine ⟨along_append.mpr ⟨halong, ?_⟩, ?_⟩
              · rw [hnodes]
                exact hback.1
              · rw [execute_append, hnodes]
                exact hback.2
          | some extra =>
              simp only
              by_cases hzero : extra = 0
              · rw [if_pos hzero, if_pos hzero]
                refine ⟨along_append.mpr ⟨halong, ?_⟩, ?_⟩
                · rw [hnodes]
                  exact hold.1
                · rw [execute_append, hnodes]
                  exact hold.2
              · rw [if_neg hzero, if_neg hzero]
                obtain ⟨halong', hok', hfail'⟩ := Heap.reserve_atoms hsroot hdepth b.memory extra
                generalize Heap.reserveAtoms (h.nodes.length + 1) s.nodes b.memory extra = res
                  at halong' hok' hfail'
                obtain ⟨l', ok'⟩ := res
                cases ok' with
                | false =>
                    obtain ⟨hnone, hsame⟩ := hfail' rfl
                    simp only at halong' hsame
                    rw [hnone]
                    refine ⟨along_append.mpr ⟨halong, ?_⟩, ?_⟩
                    · rw [hnodes]
                      refine along_append.mpr ⟨halong', ?_⟩
                      rw [hsame]
                      exact hback.1
                    · rw [execute_append, hnodes, execute_append, hsame]
                      exact hback.2
                | true =>
                    obtain ⟨hmore, hsome'⟩ := hok' rfl
                    simp only at halong' hmore
                    have hroot' := Heap.rooted_shift hsroot (path s.nodes b.memory) (· + extra)
                    have hlast := Heap.release_atoms (s := { s with
                      nodes := shift s.nodes (path s.nodes b.memory) (· + extra) }) hroot'
                      (hdepth.trans (by simp)) (i := b.memory) (n := b.capacity)
                      (Heap.held_shift fun j hj m hm => ?_)
                    · rw [hsome']
                      refine ⟨along_append.mpr ⟨halong, ?_⟩, ?_⟩
                      · rw [hnodes]
                        refine along_append.mpr ⟨halong', ?_⟩
                        rw [hmore]
                        exact hlast.1
                      · rw [execute_append, hnodes, execute_append, hmore]
                        exact hlast.2
                    · rw [hsnodes] at hj hm
                      have hold : ∀ j ∈ path h.nodes b.memory, ∀ m, h.nodes[j]? = some m →
                          b.capacity ≤ m.used + capacity :=
                        fun j hj m hm => (hheld j hj m hm).trans (Nat.le_add_right _ _)
                      have hle := Heap.held_shift hold j hj m hm
                      exact hle.trans (Nat.le_add_right _ _)

/-- An append exchanges charges; where there was room before, there still is. -/
theorem extendFromSlice_some {bytes : Bytes} (hroot : Rooted h.nodes)
    (hx : b.extendFromSlice h bytes = (some b', h')) :
    b'.memory = b.memory ∧
      h'.nodes = shift h.nodes (path h.nodes b.memory) (fun u => u + b'.capacity - b.capacity) ∧
      ∀ j ∈ path h.nodes b.memory, ∀ m, h.nodes[j]? = some m → m.used ≤ m.limit →
        m.used + b'.capacity - b.capacity ≤ m.limit := by
  unfold extendFromSlice at hx
  simp only at hx
  split at hx
  · split at hx
    next c s hgrow =>
      obtain ⟨hmemory, hnodes, hroom⟩ := grow_some hroot hgrow
      simp only [Prod.mk.injEq, Option.some.injEq] at hx
      obtain ⟨rfl, rfl⟩ := hx
      exact ⟨hmemory, hnodes, fun j hj m hm _ => (Nat.sub_le _ _).trans (hroom j hj m hm)⟩
    · cases hx
  · simp only [Prod.mk.injEq, Option.some.injEq] at hx
    obtain ⟨rfl, rfl⟩ := hx
    refine ⟨rfl, (Heap.shift_id _ _ fun u => Nat.add_sub_cancel u _).symm, fun j _ m _ hle => ?_⟩
    simpa using hle

theorem extendFromSlice_none {bytes : Bytes} (hroot : Rooted h.nodes)
    (hx : b.extendFromSlice h bytes = (none, h')) : h'.nodes = h.nodes := by
  unfold extendFromSlice at hx
  simp only at hx
  split at hx
  · split at hx
    · cases hx
    next s hgrow =>
      cases hx
      exact grow_none hroot hgrow
  · cases hx

/-- The accesses of `extend_from_slice`. -/
def extendAtoms (b : ParserBuffer) (h : Heap) (bytes : Bytes) : List Atom :=
  let needed := b.data.length + bytes.length
  if b.capacity < needed then b.growAtoms h needed else []

theorem extendFromSlice_atoms (bytes : Bytes) (hroot : Rooted h.nodes)
    (hheld : ∀ j ∈ path h.nodes b.memory, ∀ m, h.nodes[j]? = some m → b.capacity ≤ m.used) :
    Along Atom.apply Atom.Allowed h.nodes (b.extendAtoms h bytes) ∧
      (b.extendFromSlice h bytes).2.nodes = execute Atom.apply h.nodes (b.extendAtoms h bytes) := by
  obtain ⟨halong, hnodes⟩ := grow_atoms (b.data.length + bytes.length) hroot hheld
  unfold extendAtoms extendFromSlice
  simp only
  split
  · refine ⟨halong, ?_⟩
    rw [← hnodes]
    split <;> simp_all
  · exact ⟨trivial, rfl⟩

end

end ParserBuffer

/-! ## Buffers that share budgets -/

/-- Budgets, and the buffers that are alive, by handle. -/
structure Pool where
  heap : Heap
  buffers : Table ParserBuffer

/-- What may be done with budgets and buffers. -/
inductive MemoryOp where
  /-- `ParserMemory::new`, or `child` of a parent. -/
  | budget (limit : Nat) (parent : Option Nat)
  /-- `ParserBuffer::new`. -/
  | buffer (handle memory : Nat)
  | extend (handle : Nat) (bytes : Bytes)
  | consume (handle n : Nat)
  /-- The copy is alive under a handle of its own. -/
  | copyRange (handle start stop copy : Nat)
  | clear (handle : Nat)
  | drop (handle : Nat)

namespace Pool

open Heap (Rooted path shift)

/-- No budgets yet. -/
def start (allocator : Nat → Nat → Option Nat) : Pool := ⟨⟨[], 0, allocator⟩, .empty⟩

/-- What an operation does. -/
def perform (p : Pool) : MemoryOp → Pool
  | .budget limit parent => { p with heap := (p.heap.alloc limit parent).1 }
  | .buffer k memory => { p with buffers := p.buffers.insert k (.new memory) }
  | .extend k bytes =>
      match p.buffers.get k with
      | none => p
      | some b =>
          match b.extendFromSlice p.heap bytes with
          | (some b', h) => ⟨h, p.buffers.insert k b'⟩
          | (none, h) => { p with heap := h }
  | .consume k n =>
      match p.buffers.get k with
      | none => p
      | some b => ⟨(b.consume p.heap n).2, p.buffers.insert k (b.consume p.heap n).1⟩
  | .copyRange k start stop copy =>
      match p.buffers.get k with
      | none => p
      | some b =>
          match b.copyRange p.heap start stop with
          | (some c, h) => ⟨h, p.buffers.insert copy c⟩
          | (none, h) => { p with heap := h }
  | .clear k =>
      match p.buffers.get k with
      | none => p
      | some b => ⟨(b.clear p.heap).2, p.buffers.insert k (b.clear p.heap).1⟩
  | .drop k =>
      match p.buffers.get k with
      | none => p
      | some b => ⟨(b.clear p.heap).2, p.buffers.erase k⟩

/-- Parents and budgets exist, handles are fresh where a buffer is made and alive
elsewhere, and ranges are within the buffer. -/
def Admissible (p : Pool) : MemoryOp → Prop
  | .budget _ parent => ∀ q ∈ parent, q < p.heap.nodes.length
  | .buffer k memory => p.buffers.get k = none ∧ memory < p.heap.nodes.length
  | .consume k n => ∃ b ∈ p.buffers.get k, n ≤ b.data.length
  | .copyRange k start stop copy =>
      (∃ b ∈ p.buffers.get k, start ≤ stop ∧ stop ≤ b.data.length) ∧ p.buffers.get copy = none
  | .extend k _ | .clear k | .drop k => ∃ b, p.buffers.get k = some b

/-- The operation answers with an error. -/
def Refused (p : Pool) : MemoryOp → Prop
  | .extend k bytes => ∃ b ∈ p.buffers.get k, (b.extendFromSlice p.heap bytes).1 = none
  | .copyRange k start stop _ => ∃ b ∈ p.buffers.get k, (b.copyRange p.heap start stop).1 = none
  | _ => False

/-- The accesses of counters that an operation consists of. -/
def atoms (p : Pool) : MemoryOp → List Atom
  | .budget _ _ | .buffer _ _ => []
  | .extend k bytes =>
      match p.buffers.get k with
      | none => []
      | some b => b.extendAtoms p.heap bytes
  | .consume k n =>
      match p.buffers.get k with
      | none => []
      | some b =>
          if n = b.data.length then
            Heap.releaseAtoms (p.heap.nodes.length + 1) p.heap.nodes b.memory b.capacity
          else []
  | .copyRange k start stop _ =>
      match p.buffers.get k with
      | none => []
      | some b =>
          let l := (ParserBuffer.new b.memory).extendAtoms p.heap ((b.data.drop start).take (stop - start))
          -- an error drops the copy, whose capacity is zero
          if (b.copyRange p.heap start stop).1.isNone then
            l ++ Heap.releaseAtoms (p.heap.nodes.length + 1) p.heap.nodes b.memory 0
          else l
  | .clear k | .drop k =>
      match p.buffers.get k with
      | none => []
      | some b => Heap.releaseAtoms (p.heap.nodes.length + 1) p.heap.nodes b.memory b.capacity

/-- What a buffer charges to a budget. -/
def weight (nodes : List ParserMemory) (i : Nat) (b : ParserBuffer) : Nat :=
  if i ∈ path nodes b.memory then b.capacity else 0

/-- The capacities of the buffers attached to a budget or below it. -/
def charged (p : Pool) (i : Nat) : Nat := p.buffers.total (weight p.heap.nodes i)

/-- The counters are right, and within their limits. -/
structure Balanced (p : Pool) : Prop where
  rooted : Rooted p.heap.nodes
  attached : ∀ k b, p.buffers.get k = some b → b.memory < p.heap.nodes.length
  used : ∀ i m, p.heap.nodes[i]? = some m → m.used = p.charged i
  within : ∀ (i : Nat) m, p.heap.nodes[i]? = some m → m.used ≤ m.limit

section

variable {p : Pool} {k : Nat} {b : ParserBuffer}

/-- What a buffer charges is there. -/
theorem Balanced.held (hp : p.Balanced) (hb : p.buffers.get k = some b) :
    ∀ j ∈ path p.heap.nodes b.memory, ∀ m, p.heap.nodes[j]? = some m → b.capacity ≤ m.used := by
  intro j hj m hm
  have hle := Table.le_total hb (weight p.heap.nodes j)
  rw [weight, if_pos hj] at hle
  rw [hp.used j m hm]
  exact hle

/-- The charge of one buffer is exchanged. -/
theorem Balanced.exchange (hp : p.Balanced) {memory x y : Nat} {f : Nat → Nat} {h : Heap}
    {buffers : Table ParserBuffer}
    (hold : ∀ i, p.charged i = (if i ∈ path p.heap.nodes memory then x else 0) +
      (p.buffers.erase k).total (weight p.heap.nodes i))
    (hnew : ∀ i, buffers.total (weight p.heap.nodes i) =
      (if i ∈ path p.heap.nodes memory then y else 0) +
        (p.buffers.erase k).total (weight p.heap.nodes i))
    (hattached : ∀ j b, buffers.get j = some b → b.memory < p.heap.nodes.length)
    (hnodes : h.nodes = shift p.heap.nodes (path p.heap.nodes memory) f)
    (hf : ∀ u, x ≤ u → f u = u + y - x)
    (hroom : ∀ j ∈ path p.heap.nodes memory, ∀ m, p.heap.nodes[j]? = some m → m.used ≤ m.limit →
      f m.used ≤ m.limit) : Balanced ⟨h, buffers⟩ := by
  have hweight : weight h.nodes = weight p.heap.nodes := by
    funext i b
    rw [weight, weight, hnodes, Heap.path_shift]
  refine ⟨hnodes ▸ Heap.rooted_shift hp.rooted _ _, fun j b hb => ?_, fun i m hm => ?_, fun i m hm => ?_⟩
  · show b.memory < h.nodes.length
    rw [hnodes, Heap.length_shift]
    exact hattached j b hb
  · show m.used = buffers.total (weight h.nodes i)
    change h.nodes[i]? = some m at hm
    rw [hnodes, Heap.getElem?_shift] at hm
    obtain ⟨m0, hm0, rfl⟩ := Option.map_eq_some_iff.mp hm
    have hused := (hp.used i m0 hm0).trans (hold i)
    rw [hweight, hnew]
    split
    next hi =>
      rw [if_pos hi] at hused
      show f m0.used = _
      rw [hf _ (by omega)]
      omega
    next hi =>
      rw [if_neg hi] at hused
      exact hused
  · change h.nodes[i]? = some m at hm
    rw [hnodes, Heap.getElem?_shift] at hm
    obtain ⟨m0, hm0, rfl⟩ := Option.map_eq_some_iff.mp hm
    split
    next hi => exact hroom i hi m0 hm0 (hp.within i m0 hm0)
    · exact hp.within i m0 hm0

/-- A buffer is replaced by one of the same budget. -/
theorem Balanced.replace (hp : p.Balanced) (hb : p.buffers.get k = some b) {b' : ParserBuffer}
    (hmemory : b'.memory = b.memory) {h : Heap}
    (hnodes : h.nodes = shift p.heap.nodes (path p.heap.nodes b.memory)
      (fun u => u + b'.capacity - b.capacity))
    (hroom : ∀ j ∈ path p.heap.nodes b.memory, ∀ m, p.heap.nodes[j]? = some m → m.used ≤ m.limit →
      m.used + b'.capacity - b.capacity ≤ m.limit) : Balanced ⟨h, p.buffers.insert k b'⟩ := by
  refine hp.exchange (k := k) (fun i => Table.total_split hb _) (fun i => ?_) (fun j c hc => ?_) hnodes
    (fun _ _ => rfl) hroom
  · rw [Table.total_insert, weight, hmemory]
  · rw [Table.get_insert] at hc
    split at hc
    · obtain rfl := Option.some.inj hc
      rw [hmemory]
      exact hp.attached k b hb
    · exact hp.attached j c hc

/-- A buffer is made. -/
theorem Balanced.fresh (hp : p.Balanced) (hk : p.buffers.get k = none)
    (hmemory : b.memory < p.heap.nodes.length) {h : Heap}
    (hnodes : h.nodes = shift p.heap.nodes (path p.heap.nodes b.memory) (fun u => u + b.capacity - 0))
    (hroom : ∀ j ∈ path p.heap.nodes b.memory, ∀ m, p.heap.nodes[j]? = some m → m.used ≤ m.limit →
      m.used + b.capacity - 0 ≤ m.limit) : Balanced ⟨h, p.buffers.insert k b⟩ := by
  refine hp.exchange (k := k) (x := 0) (fun i => ?_) (fun i => ?_) (fun j c hc => ?_) hnodes
    (fun _ _ => rfl) hroom
  · rw [Table.total_erase_of_none hk, ite_self, Nat.zero_add]
    rfl
  · rw [Table.total_insert, weight]
  · rw [Table.get_insert] at hc
    split at hc
    · obtain rfl := Option.some.inj hc
      exact hmemory
    · exact hp.attached j c hc

/-- A buffer is gone. -/
theorem Balanced.gone (hp : p.Balanced) (hb : p.buffers.get k = some b) {h : Heap}
    (hnodes : h.nodes = shift p.heap.nodes (path p.heap.nodes b.memory) (· - b.capacity)) :
    Balanced ⟨h, p.buffers.erase k⟩ := by
  refine hp.exchange (k := k) (y := 0) (fun i => Table.total_split hb _) (fun i => ?_)
    (fun j c hc => ?_) hnodes (fun _ _ => rfl) fun _ _ m _ hle => (Nat.sub_le _ _).trans hle
  · rw [ite_self, Nat.zero_add]
  · rw [Table.get_erase] at hc
    split at hc
    · cases hc
    · exact hp.attached j c hc

/-- Only the counters matter. -/
theorem Balanced.same (hp : p.Balanced) {h : Heap} (hnodes : h.nodes = p.heap.nodes) :
    Balanced { p with heap := h } := by
  obtain ⟨h1, h2, h3, h4⟩ := hp
  refine ⟨by rwa [hnodes], by rwa [hnodes], ?_, by rwa [hnodes]⟩
  unfold charged at h3 ⊢
  rwa [hnodes]

theorem clear_nodes (hp : p.Balanced) (b : ParserBuffer) :
    (b.clear p.heap).2.nodes = shift p.heap.nodes (path p.heap.nodes b.memory) (· - b.capacity) := by
  show (p.heap.release b.memory b.capacity).nodes = _
  rw [Heap.release_eq hp.rooted]

theorem Balanced.cleared (hp : p.Balanced) (hb : p.buffers.get k = some b) :
    Balanced ⟨(b.clear p.heap).2, p.buffers.insert k (b.clear p.heap).1⟩ := by
  have hmemory : (b.clear p.heap).1.memory = b.memory := rfl
  refine hp.replace hb hmemory ?_ fun _ _ m _ hle => (Nat.sub_le _ _).trans hle
  rw [clear_nodes hp b]
  rfl

theorem Balanced.budget (hp : p.Balanced) {limit : Nat} {parent : Option Nat}
    (hparent : ∀ q ∈ parent, q < p.heap.nodes.length) :
    Balanced { p with heap := (p.heap.alloc limit parent).1 } := by
  have hroot : Heap.Rooted (p.heap.nodes ++ [⟨limit, 0, parent⟩]) :=
    Heap.rooted_append hp.rooted hparent
  have hpath : ∀ {k b}, p.buffers.get k = some b →
      path (p.heap.nodes ++ [⟨limit, 0, parent⟩]) b.memory = path p.heap.nodes b.memory :=
    fun hb => Heap.path_append hp.rooted hroot (hp.attached _ _ hb)
  have hnodes : ∀ {i : Nat} {m}, (p.heap.nodes ++ [⟨limit, 0, parent⟩])[i]? = some m →
      p.heap.nodes[i]? = some m ∨ i = p.heap.nodes.length ∧ m = ⟨limit, 0, parent⟩ := by
    intro i m hm
    rcases Nat.lt_or_ge i p.heap.nodes.length with hi | hi
    · rw [List.getElem?_append_left hi] at hm
      exact .inl hm
    · rw [List.getElem?_append_right hi, List.getElem?_singleton] at hm
      split at hm
      · exact .inr ⟨by omega, (Option.some.inj hm).symm⟩
      · cases hm
  refine ⟨hroot, fun k b hb => ?_, fun i m hm => ?_, fun i m hm => ?_⟩
  · show b.memory < (p.heap.nodes ++ [_]).length
    rw [List.length_append]
    exact Nat.lt_add_right _ (hp.attached k b hb)
  · rcases hnodes hm with hm | ⟨rfl, rfl⟩
    · rw [hp.used i m hm]
      refine Table.total_congr fun k b hb => ?_
      show weight p.heap.nodes i b = weight (p.heap.nodes ++ [_]) i b
      rw [weight, weight, hpath hb]
    · -- nothing is attached to a new budget
      refine (Table.total_zero fun k b hb => ?_).symm
      show weight (p.heap.nodes ++ [_]) _ b = 0
      rw [weight, hpath hb, if_neg fun hmem => (Heap.mem_path_lt hmem).ne rfl]
  · rcases hnodes hm with hm | ⟨rfl, rfl⟩
    · exact hp.within i m hm
    · exact Nat.zero_le _

theorem Balanced.perform (hp : p.Balanced) {op : MemoryOp} (hop : p.Admissible op) :
    (p.perform op).Balanced := by
  cases op with
  | budget limit parent => exact hp.budget hop
  | buffer k memory =>
      refine hp.fresh (b := .new memory) hop.1 hop.2 ?_ fun _ _ m _ hle => hle
      exact (Heap.shift_id _ _ fun u => rfl).symm
  | extend k bytes =>
      obtain ⟨b, hb⟩ := hop
      simp only [Pool.perform, hb]
      split
      next b' h hx =>
        obtain ⟨hmemory, hnodes, hroom⟩ := ParserBuffer.extendFromSlice_some hp.rooted hx
        exact hp.replace hb hmemory hnodes hroom
      next h hx => exact hp.same (ParserBuffer.extendFromSlice_none hp.rooted hx)
  | consume k n =>
      obtain ⟨b, hb, -⟩ := hop
      rw [Option.mem_def] at hb
      simp only [Pool.perform, hb]
      unfold ParserBuffer.consume
      split
      · exact hp.cleared hb
      · have hmemory : ({ b with data := b.data.drop n } : ParserBuffer).memory = b.memory := rfl
        refine hp.replace hb hmemory ?_ fun _ _ m _ hle => ?_
        · exact (Heap.shift_id _ _ fun u => Nat.add_sub_cancel u _).symm
        · rwa [Nat.add_sub_cancel]
  | copyRange k start stop copy =>
      obtain ⟨⟨b, hb, -⟩, hcopy⟩ := hop
      rw [Option.mem_def] at hb
      simp only [Pool.perform, hb]
      split
      next c h hx =>
        obtain ⟨hmemory, hnodes, hroom⟩ := ParserBuffer.extendFromSlice_some hp.rooted hx
        have hmemory : c.memory = b.memory := hmemory
        refine hp.fresh hcopy (by rw [hmemory]; exact hp.attached k b hb) ?_ ?_
        · rw [hmemory]
          exact hnodes
        · rw [hmemory]
          exact hroom
      next h hx => exact hp.same (ParserBuffer.extendFromSlice_none hp.rooted hx)
  | clear k =>
      obtain ⟨b, hb⟩ := hop
      simp only [Pool.perform, hb]
      exact hp.cleared hb
  | drop k =>
      obtain ⟨b, hb⟩ := hop
      simp only [Pool.perform, hb]
      exact hp.gone hb (clear_nodes hp b)

theorem balanced_start (allocator : Nat → Nat → Option Nat) : (start allocator).Balanced := by
  have hnone : ∀ {i : Nat} {m}, (start allocator).heap.nodes[i]? = some m → False := by
    simp [start]
  exact ⟨fun _ _ _ hm => (hnone hm).elim, by simp [start], fun _ _ hm => (hnone hm).elim,
    fun _ _ hm => (hnone hm).elim⟩

/-! ## Operations as accesses of counters -/

theorem release_accesses (hp : p.Balanced) {n : Nat}
    (hheld : ∀ j ∈ path p.heap.nodes b.memory, ∀ m, p.heap.nodes[j]? = some m → n ≤ m.used) :
    Along Atom.apply Atom.Allowed p.heap.nodes
        (Heap.releaseAtoms (p.heap.nodes.length + 1) p.heap.nodes b.memory n) ∧
      (p.heap.release b.memory n).nodes = execute Atom.apply p.heap.nodes
        (Heap.releaseAtoms (p.heap.nodes.length + 1) p.heap.nodes b.memory n) :=
  Heap.release_atoms hp.rooted rfl hheld

/-- The counters change by accesses that stay within the limits and do not wrap. -/
theorem Balanced.accesses (hp : p.Balanced) {op : MemoryOp} (hop : p.Admissible op)
    (hbudget : ∀ limit parent, op ≠ .budget limit parent) :
    Along Atom.apply Atom.Allowed p.heap.nodes (p.atoms op) ∧
      (p.perform op).heap.nodes = execute Atom.apply p.heap.nodes (p.atoms op) := by
  cases op with
  | budget limit parent => exact absurd rfl (hbudget limit parent)
  | buffer k memory => exact ⟨trivial, rfl⟩
  | extend k bytes =>
      obtain ⟨b, hb⟩ := hop
      obtain ⟨halong, hnodes⟩ := ParserBuffer.extendFromSlice_atoms bytes hp.rooted (hp.held hb)
      simp only [Pool.perform, Pool.atoms, hb]
      refine ⟨halong, ?_⟩
      rw [← hnodes]
      split
      next hx => rw [hx]
      next hx => rw [hx]
  | consume k n =>
      obtain ⟨b, hb, -⟩ := hop
      rw [Option.mem_def] at hb
      simp only [Pool.perform, Pool.atoms, hb]
      unfold ParserBuffer.consume
      split
      · exact release_accesses hp (hp.held hb)
      · exact ⟨trivial, rfl⟩
  | copyRange k start stop copy =>
      obtain ⟨⟨b, hb, -⟩, -⟩ := hop
      rw [Option.mem_def] at hb
      have hzero : ∀ j ∈ path p.heap.nodes (ParserBuffer.new b.memory).memory, ∀ m,
          p.heap.nodes[j]? = some m → (ParserBuffer.new b.memory).capacity ≤ m.used :=
        fun _ _ m _ => Nat.zero_le _
      obtain ⟨halong, hnodes⟩ := ParserBuffer.extendFromSlice_atoms
        ((b.data.drop start).take (stop - start)) hp.rooted hzero
      obtain ⟨halong', hnodes'⟩ := release_accesses (b := b) hp (n := 0) fun _ _ m _ => Nat.zero_le _
      simp only [Pool.perform, Pool.atoms, hb]
      cases hx : b.copyRange p.heap start stop with
      | mk res h =>
          have hx' : (ParserBuffer.new b.memory).extendFromSlice p.heap
            ((b.data.drop start).take (stop - start)) = (res, h) := hx
          rw [hx'] at hnodes
          cases res with
          | some c => exact ⟨halong, hnodes⟩
          | none =>
              have hsame := ParserBuffer.extendFromSlice_none hp.rooted hx'
              simp only [Option.isNone_none, if_true]
              rw [execute_append, ← hnodes, hsame, ← hnodes']
              refine ⟨along_append.mpr ⟨halong, ?_⟩, ?_⟩
              · rw [← hnodes, hsame]
                exact halong'
              · rw [Heap.release_eq hp.rooted]
                exact (Heap.shift_id _ _ fun u => rfl).symm
  | clear k =>
      obtain ⟨b, hb⟩ := hop
      simp only [Pool.perform, Pool.atoms, hb]
      exact release_accesses hp (hp.held hb)
  | drop k =>
      obtain ⟨b, hb⟩ := hop
      simp only [Pool.perform, Pool.atoms, hb]
      exact release_accesses hp (hp.held hb)

/-- A refusal changes no buffer and no counter. -/
theorem Balanced.refused (hp : p.Balanced) {op : MemoryOp} (h : p.Refused op) :
    (p.perform op).buffers = p.buffers ∧ (p.perform op).heap.nodes = p.heap.nodes := by
  cases op with
  | extend k bytes =>
      obtain ⟨b, hb, hnone⟩ := h
      rw [Option.mem_def] at hb
      simp only [Pool.perform, hb]
      cases hx : b.extendFromSlice p.heap bytes with
      | mk res s =>
          rw [hx] at hnone
          obtain rfl : res = none := hnone
          exact ⟨rfl, ParserBuffer.extendFromSlice_none hp.rooted hx⟩
  | copyRange k start stop copy =>
      obtain ⟨b, hb, hnone⟩ := h
      rw [Option.mem_def] at hb
      simp only [Pool.perform, hb]
      cases hx : b.copyRange p.heap start stop with
      | mk res s =>
          rw [hx] at hnone
          obtain rfl : res = none := hnone
          exact ⟨rfl, ParserBuffer.extendFromSlice_none hp.rooted hx⟩
  | _ => exact h.elim

/-- Dropping buffers one after the other. -/
theorem Balanced.drops : ∀ {l : List Nat} {p : Pool}, p.Balanced → l.Nodup →
    (∀ k ∈ l, ∃ b, p.buffers.get k = some b) →
    (execute Pool.perform p (l.map .drop)).Balanced ∧ ∀ i,
      (execute Pool.perform p (l.map .drop)).buffers.get i = if i ∈ l then none else p.buffers.get i
  | [], _, hp, _, _ => ⟨hp, fun _ => by simp⟩
  | k :: l, p, hp, hl, halive => by
      obtain ⟨hk, hl⟩ := List.nodup_cons.mp hl
      obtain ⟨b, hb⟩ := halive k List.mem_cons_self
      have hget : ∀ i, (p.perform (.drop k)).buffers.get i = if i = k then none else p.buffers.get i := by
        intro i
        simp only [Pool.perform, hb, Table.get_erase]
      have hdrop : (p.perform (.drop k)).Balanced := hp.perform ⟨b, hb⟩
      obtain ⟨hend, hall⟩ := hdrop.drops hl fun j hj => by
        obtain ⟨c, hc⟩ := halive j (List.mem_cons_of_mem _ hj)
        have hne : j ≠ k := fun heq => hk (heq ▸ hj)
        exact ⟨c, by rw [hget, if_neg hne, hc]⟩
      refine ⟨hend, fun i => (hall i).trans ?_⟩
      rw [hget]
      by_cases hi : i = k
      · simp [hi]
      · simp [hi]

end

/-- What holds of every operation of a run. -/
structure Accounted (p : Pool) (op : MemoryOp) : Prop where
  /-- Every counter is the sum of the capacities that are attached below it. -/
  used : ∀ i m, (p.perform op).heap.nodes[i]? = some m → m.used = (p.perform op).charged i
  /-- No counter exceeds its limit or wraps around, at any point of the operation. -/
  accesses : Along Atom.apply (fun nodes a => a.Allowed nodes ∧ ∀ m ∈ a.apply nodes, m.used ≤ m.limit)
    p.heap.nodes (p.atoms op)
  counters : (∀ limit parent, op ≠ .budget limit parent) →
    (p.perform op).heap.nodes = execute Atom.apply p.heap.nodes (p.atoms op)
  refused : p.Refused op →
    (p.perform op).buffers = p.buffers ∧ (p.perform op).heap.nodes = p.heap.nodes

theorem within_apply {nodes : List ParserMemory} (h : ∀ m ∈ nodes, m.used ≤ m.limit) {a : Atom}
    (ha : a.Allowed nodes) : ∀ m ∈ a.apply nodes, m.used ≤ m.limit := by
  intro m hm
  obtain ⟨j, hj⟩ := List.mem_iff_getElem?.mp hm
  cases a with
  | add i n =>
      obtain ⟨m0, hm0, hle⟩ := ha
      rw [Heap.apply_add_eq, Heap.getElem?_shift] at hj
      obtain ⟨m1, hm1, rfl⟩ := Option.map_eq_some_iff.mp hj
      split
      next hji =>
        obtain rfl := List.mem_singleton.mp hji
        obtain rfl := Option.some.inj (hm0.symm.trans hm1)
        exact hle
      · exact h m1 (List.mem_of_getElem? hm1)
  | sub i n =>
      rw [Heap.apply_sub_eq, Heap.getElem?_shift] at hj
      obtain ⟨m1, hm1, rfl⟩ := Option.map_eq_some_iff.mp hj
      have hle := h m1 (List.mem_of_getElem? hm1)
      split
      · exact (Nat.sub_le _ _).trans hle
      · exact hle

theorem Balanced.accounted {p : Pool} (hp : p.Balanced) {op : MemoryOp} (hop : p.Admissible op) :
    p.Accounted op := by
  have hwithin : ∀ m ∈ p.heap.nodes, m.used ≤ m.limit := by
    intro m hm
    obtain ⟨i, hi⟩ := List.mem_iff_getElem?.mp hm
    exact hp.within i m hi
  refine ⟨(hp.perform hop).used, ?_, fun hbudget => (hp.accesses hop hbudget).2, hp.refused⟩
  refine along_imp (I := fun nodes : List ParserMemory => ∀ m ∈ nodes, m.used ≤ m.limit)
    (P := fun nodes a => a.Allowed nodes)
    (fun nodes a hI ha => ⟨⟨ha, within_apply hI ha⟩, within_apply hI ha⟩) hwithin ?_
  by_cases hbudget : ∃ limit parent, op = .budget limit parent
  · obtain ⟨limit, parent, rfl⟩ := hbudget
    exact trivial
  · exact (hp.accesses hop fun limit parent heq => hbudget ⟨limit, parent, heq⟩).1

/-- Parser memory is accounted for in every run, and nothing stays charged when
every buffer is dropped. -/
theorem memory_accounted (allocator : Nat → Nat → Option Nat) {ops : List MemoryOp}
    (hrun : Along perform Admissible (start allocator) ops) :
    Along perform Accounted (start allocator) ops ∧
      ∀ m ∈ (execute perform (execute perform (start allocator) ops)
        ((execute perform (start allocator) ops).buffers.keys.map .drop)).heap.nodes, m.used = 0 := by
  refine ⟨along_imp (I := Balanced) (fun p op hp hop => ⟨hp.accounted hop, hp.perform hop⟩)
    (balanced_start allocator) hrun, fun m hm => ?_⟩
  have hp := execute_invariant (I := Balanced) (fun p op hp hop => hp.perform hop)
    (balanced_start allocator) hrun
  generalize execute perform (start allocator) ops = p at hp hm
  obtain ⟨hend, hget⟩ := hp.drops p.buffers.nodup fun k hk => Table.exists_get_of_mem_keys hk
  obtain ⟨i, hi⟩ := List.mem_iff_getElem?.mp hm
  rw [hend.used i m hi]
  refine Table.total_zero fun k b hb => ?_
  rw [hget] at hb
  split at hb
  · cases hb
  next hk => exact absurd (Table.mem_keys_of_get hb) hk

instance (p : Pool) : (op : MemoryOp) → Decidable (p.Admissible op)
  | .budget _ parent => inferInstanceAs (Decidable (∀ q ∈ parent, q < p.heap.nodes.length))
  | .buffer k memory =>
      decidable_of_iff ((p.buffers.get k).isNone = true ∧ memory < p.heap.nodes.length)
        (by rw [Option.isNone_iff_eq_none]; rfl)
  | .consume k n =>
      decidable_of_iff ((p.buffers.get k).any (fun b => decide (n ≤ b.data.length)) = true)
        (by simp [Admissible, Option.any_eq_true])
  | .copyRange k start stop copy =>
      decidable_of_iff ((p.buffers.get k).any
          (fun b => decide (start ≤ stop ∧ stop ≤ b.data.length)) = true ∧
          (p.buffers.get copy).isNone = true)
        (by simp [Admissible, Option.any_eq_true])
  | .extend k _ | .clear k | .drop k =>
      decidable_of_iff ((p.buffers.get k).isSome = true) Option.isSome_iff_exists

/-- Two sessions on one budget: a growth, a copy, a refusal by the shared limit,
and the end of a session. -/
def sharedRun : List MemoryOp :=
  [.budget 128 none, .budget 96 (some 0), .budget 96 (some 0), .buffer 0 1, .buffer 1 2,
    .extend 0 (List.replicate 33 7), .extend 0 [7], .copyRange 0 0 8 2, .extend 1 (List.replicate 60 9),
    .consume 0 34, .extend 1 (List.replicate 60 9), .clear 1, .drop 2]

theorem memory_accounted_sample :
    Along perform Accounted (start fun _ _ => some 0) sharedRun ∧
      ∀ m ∈ (execute perform (execute perform (start fun _ _ => some 0) sharedRun)
        ((execute perform (start fun _ _ => some 0) sharedRun).buffers.keys.map .drop)).heap.nodes,
        m.used = 0 :=
  memory_accounted (fun _ _ => some 0) (by decide +kernel)

end Pool

end RWebTransport
