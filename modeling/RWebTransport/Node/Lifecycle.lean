import RWebTransport.Node.SessionCore

/-!
# The end of a session object

Once a session is closed nothing may wait any more: the maps are empty, every
request is settled and every stream object is over.  `finish` establishes this
(`Registry.Coherent`), and every other step keeps it but one: a continuation of
`create*Stream` that runs after the end registers sinks that nobody will tell.
-/

namespace RWebTransport.Node

/-! ## The invariant -/

namespace Registry

/-- The request is in one of the maps. -/
def Waits (r : Registry) (i : Nat) : Prop :=
  r.opens.contains i = true ∨ r.writes.contains i = true ∨ r.datagramAcks.contains i = true ∨
    r.statsRequests.contains i = true ∨ r.keyingMaterialRequests.contains i = true

/-- The sinks of one half. -/
def sinks (r : Registry) : Half → Table Nat
  | .receive => r.receives
  | .send => r.sends

/-- Nothing is in the maps. -/
structure Cleared (r : Registry) : Prop where
  requests : ∀ i, ¬r.Waits i
  sinks : ∀ half id, (r.sinks half).get id = none

/-- A stream the session was told about: it has an object, or is about to get
one. -/
def Known (r : Registry) (id : Nat) : Prop :=
  (∃ i o, r.objects.get i = some o ∧ o.streamId = id) ∨
    ∃ req, r.creating.contains req = true ∧ r.requests.get req = some (.resolved (.stream id))

/-- What waits is in the maps. -/
structure Coherent (r : Registry) : Prop where
  pending : ∀ i, r.requests.get i = some .pending → r.Waits i
  issued : ∀ i, r.requests.get i ≠ none → i < r.nextRequestId
  creating : ∀ i, r.creating.contains i = true → i < r.nextRequestId
  active : ∀ i o, r.objects.get i = some o → o.state = .active →
    (r.sinks o.half).get o.streamId = some i
  sink : ∀ half id i, (r.sinks half).get id = some i →
    ∃ o, r.objects.get i = some o ∧ o.streamId = id ∧ o.half = half
  objects : ∀ i, r.objects.get i ≠ none → i < r.nextObject
  /-- A stream that waits for its object has none, and is not promised twice. -/
  promised : ∀ req id, r.creating.contains req = true →
    r.requests.get req = some (.resolved (.stream id)) →
    (∀ i o, r.objects.get i = some o → o.streamId ≠ id) ∧
      ∀ req', r.creating.contains req' = true →
        r.requests.get req' = some (.resolved (.stream id)) → req' = req
  cleared : r.closedState = true → r.Cleared

/-- Nothing waits. -/
structure Terminated (r : Registry) : Prop where
  opens : r.opens.keys = []
  writes : r.writes.keys = []
  datagramAcks : r.datagramAcks.keys = []
  statsRequests : r.statsRequests.keys = []
  keyingMaterialRequests : r.keyingMaterialRequests.keys = []
  receives : r.receives.keys = []
  sends : r.sends.keys = []
  /-- Every stream object is closed or errored. -/
  objects : ∀ i o, r.objects.get i = some o → o.state ≠ .active
  /-- Every request is settled. -/
  requests : ∀ i, r.requests.get i ≠ some .pending

theorem keys_eq_nil {α : Type} {t : Table α} (h : ∀ i, t.contains i ≠ true) : t.keys = [] := by
  refine List.eq_nil_iff_forall_not_mem.mpr fun i hi => h i ?_
  exact (t.mem_keys i).mp hi

/-- A closed session has nothing that waits. -/
theorem Coherent.terminated {r : Registry} (h : r.Coherent) (hc : r.closedState = true) :
    r.Terminated := by
  have hclear := h.cleared hc
  have hsink : ∀ half, (r.sinks half).keys = [] := fun half =>
    keys_eq_nil fun id => by simp [Table.contains, hclear.sinks half id]
  refine ⟨keys_eq_nil fun i hi => hclear.requests i (.inl hi),
    keys_eq_nil fun i hi => hclear.requests i (.inr (.inl hi)),
    keys_eq_nil fun i hi => hclear.requests i (.inr (.inr (.inl hi))),
    keys_eq_nil fun i hi => hclear.requests i (.inr (.inr (.inr (.inl hi)))),
    keys_eq_nil fun i hi => hclear.requests i (.inr (.inr (.inr (.inr hi)))),
    hsink .receive, hsink .send, fun i o ho hact => ?_, fun i hp => hclear.requests i (h.pending i hp)⟩
  simpa [hclear.sinks] using h.active i o ho hact

theorem coherent_empty : Coherent {} :=
  ⟨by simp, by simp, by simp [Table.contains], by simp,
    fun half id i h => by cases half <;> simp [sinks] at h, by simp,
    by simp [Table.contains], by simp⟩

/-! ## What keeps it -/

/-- A new request, which is put in one of the maps. -/
theorem Coherent.request {r r' : Registry} (h : r.Coherent) (hopen : r.closedState = false)
    (hnext : r'.nextRequestId = r.nextRequestId + 1)
    (hrequests : r'.requests = r.requests.insert r.nextRequestId .pending)
    (hwaits : ∀ i, r.Waits i ∨ i = r.nextRequestId → r'.Waits i)
    (hsinks : r'.receives = r.receives ∧ r'.sends = r.sends) (hobjects : r'.objects = r.objects)
    (hobject : r'.nextObject = r.nextObject) (hclosed : r'.closedState = r.closedState)
    (hcreating : r'.creating = r.creating ∨
      ∃ bidi, r'.creating = r.creating.insert r.nextRequestId bidi) : r'.Coherent := by
  have hs : ∀ half, r'.sinks half = r.sinks half := by
    intro half
    cases half with
    | receive => exact hsinks.1
    | send => exact hsinks.2
  have hcr : ∀ i, r'.creating.contains i = true → r.creating.contains i = true ∨ i = r.nextRequestId := by
    intro i hi
    rcases hcreating with hc | ⟨bidi, hc⟩
    · exact .inl (hc ▸ hi)
    · rw [hc, Table.contains, Table.get_insert] at hi
      split at hi
      next heq => exact .inr heq
      · exact .inl hi
  have hold : ∀ req id, r'.creating.contains req = true →
      r'.requests.get req = some (.resolved (.stream id)) →
      r.creating.contains req = true ∧ r.requests.get req = some (.resolved (.stream id)) := by
    intro req id hreq hres
    rw [hrequests, Table.get_insert] at hres
    split at hres
    · simp at hres
    next hne => exact ⟨(hcr req hreq).resolve_right hne, hres⟩
  refine ⟨fun i hp => ?_, fun i hi => ?_, fun i hi => ?_, ?_, ?_, ?_, fun req id hreq hres => ?_,
    fun hc => by simp [hclosed, hopen] at hc⟩
  · rw [hrequests, Table.get_insert] at hp
    split at hp
    next heq => exact hwaits i (.inr heq)
    · exact hwaits i (.inl (h.pending i hp))
  · rw [hrequests, Table.get_insert] at hi
    rw [hnext]
    split at hi
    next heq => omega
    · exact Nat.lt_succ_of_lt (h.issued i hi)
  · rw [hnext]
    rcases hcr i hi with hi | rfl
    · exact Nat.lt_succ_of_lt (h.creating i hi)
    · exact Nat.lt_succ_self _
  · simpa only [hobjects, hs] using h.active
  · simpa only [hobjects, hs] using h.sink
  · simpa only [hobjects, hobject] using h.objects
  · obtain ⟨hc, hr⟩ := hold req id hreq hres
    obtain ⟨hno, huniq⟩ := h.promised req id hc hr
    refine ⟨by simpa only [hobjects] using hno, fun req' hreq' hres' => ?_⟩
    obtain ⟨hc', hr'⟩ := hold req' id hreq' hres'
    exact huniq req' hc' hr'

/-- Requests are settled, and taken from the maps. -/
theorem Coherent.settled {r r' : Registry} (h : r.Coherent)
    (hpending : ∀ i, r'.requests.get i = some .pending → r.requests.get i = some .pending ∧
      (r.Waits i → r'.Waits i))
    (hnew : ∀ i, (r'.requests.get i).isSome = (r.requests.get i).isSome)
    (hwaits : ∀ i, r'.Waits i → r.Waits i)
    (hpromised : ∀ req id, r.creating.contains req = true →
      r'.requests.get req = some (.resolved (.stream id)) →
      r.requests.get req = some (.resolved (.stream id)) ∨
        ¬r.Known id ∧ ∀ req', r'.requests.get req' = some (.resolved (.stream id)) →
          r.creating.contains req' = true → req' = req)
    (hsinks : r'.receives = r.receives ∧ r'.sends = r.sends) (hobjects : r'.objects = r.objects)
    (hnext : r'.nextRequestId = r.nextRequestId ∧ r'.nextObject = r.nextObject)
    (hclosed : r'.closedState = r.closedState) (hcreating : r'.creating = r.creating) :
    r'.Coherent := by
  have hs : ∀ half, r'.sinks half = r.sinks half := by
    intro half
    cases half with
    | receive => exact hsinks.1
    | send => exact hsinks.2
  refine ⟨fun i hp => ?_, fun i hi => ?_, ?_, ?_, ?_, ?_, fun req id hreq hres => ?_, fun hc => ?_⟩
  · obtain ⟨hp, hw⟩ := hpending i hp
    exact hw (h.pending i hp)
  · rw [hnext.1]
    refine h.issued i ?_
    rw [← Option.isSome_iff_ne_none, ← hnew, Option.isSome_iff_ne_none]
    exact hi
  · rw [hcreating, hnext.1]
    exact h.creating
  · simpa only [hobjects, hs] using h.active
  · simpa only [hobjects, hs] using h.sink
  · rw [hobjects, hnext.2]
    exact h.objects
  · rw [hcreating] at hreq ⊢
    rw [hobjects]
    rcases hpromised req id hreq hres with hold | ⟨hfresh, huniq⟩
    · obtain ⟨hno, huniq⟩ := h.promised req id hreq hold
      refine ⟨hno, fun req' hreq' hres' => ?_⟩
      rcases hpromised req' id hreq' hres' with hold' | ⟨hfresh, -⟩
      · exact huniq req' hreq' hold'
      · exact absurd (.inr ⟨req, hreq, hold⟩) hfresh
    · refine ⟨fun i o ho hid => hfresh (.inl ⟨i, o, ho, hid⟩), fun req' hreq' hres' => ?_⟩
      exact huniq req' hres' hreq'
  · have hclear := h.cleared (hclosed ▸ hc)
    exact ⟨fun i hw => hclear.requests i (hwaits i hw), fun half id => by rw [hs, hclear.sinks]⟩

/-- An object changes without a change of its state. -/
theorem Coherent.touched {r r' : Registry} (h : r.Coherent) {i : Nat} {f : StreamObject → StreamObject}
    (hf : ∀ o, (f o).state = o.state ∧ (f o).streamId = o.streamId ∧ (f o).half = o.half)
    (heq : r' = { r with objects := r.objects.modify i f }) : r'.Coherent := by
  subst heq
  have hget : ∀ j o', (r.objects.modify i f).get j = some o' →
      ∃ o, r.objects.get j = some o ∧ o'.state = o.state ∧ o'.streamId = o.streamId ∧
        o'.half = o.half := by
    intro j o' hj
    rw [Table.get_modify] at hj
    split at hj
    · obtain ⟨o, ho, rfl⟩ := Option.map_eq_some_iff.mp hj
      exact ⟨o, ho, hf o⟩
    · exact ⟨o', hj, rfl, rfl, rfl⟩
  have hsome : ∀ j o, r.objects.get j = some o → ∃ o', (r.objects.modify i f).get j = some o' ∧
      o'.streamId = o.streamId ∧ o'.half = o.half := by
    intro j o hj
    by_cases hji : j = i
    · subst hji
      exact ⟨f o, by simp [hj], (hf o).2⟩
    · exact ⟨o, by rw [Table.get_modify_ne hji, hj], rfl, rfl⟩
  refine ⟨h.pending, h.issued, h.creating, fun j o' hj hact => ?_, fun half id j hs => ?_,
    fun j hj => ?_, fun req id hreq hres => ?_,
    fun hc => ⟨(h.cleared hc).requests, fun half => (h.cleared hc).sinks half⟩⟩
  · obtain ⟨o, ho, hst, hid, hhalf⟩ := hget j o' hj
    rw [hhalf, hid]
    exact h.active j o ho (hst ▸ hact)
  · obtain ⟨o, ho, hid, hhalf⟩ := h.sink half id j hs
    obtain ⟨o', ho', hid', hhalf'⟩ := hsome j o ho
    exact ⟨o', ho', hid'.trans hid, hhalf'.trans hhalf⟩
  · refine h.objects j fun hnone => hj ?_
    simp only [Table.get_modify, hnone]
    split <;> rfl
  · obtain ⟨hno, huniq⟩ := h.promised req id hreq hres
    refine ⟨fun j o' hj => ?_, huniq⟩
    obtain ⟨o, ho, -, hid, -⟩ := hget j o' hj
    rw [hid]
    exact hno j o ho

/-- A continuation is done. -/
theorem Coherent.resumed {r : Registry} (h : r.Coherent) (req : Nat) :
    Coherent { r with creating := r.creating.erase req } := by
  have hsub : ∀ i, (r.creating.erase req).contains i = true → r.creating.contains i = true := by
    intro i hi
    simp only [Table.contains, Table.get_erase] at hi ⊢
    split at hi
    · cases hi
    · exact hi
  refine ⟨h.pending, h.issued, fun i hi => h.creating i (hsub i hi), h.active, h.sink, h.objects,
    fun i id hi hr => ?_, fun hc => ⟨(h.cleared hc).requests, fun half => (h.cleared hc).sinks half⟩⟩
  obtain ⟨hno, huniq⟩ := h.promised i id (hsub i hi) hr
  exact ⟨hno, fun j hj hr' => huniq j (hsub j hj) hr'⟩

end Registry

namespace SessionCore

variable {s : SessionCore}

open Registry (Coherent)

@[simp] theorem toRegistry_command (s : SessionCore) (c : Command) :
    (s.command c).toRegistry = s.toRegistry := by
  unfold command
  split <;> rfl

/-! ### Objects come and go -/

/-- The sinks after an object was constructed. -/
theorem sinks_construct (s : SessionCore) (id : Nat) (half half' : Half) :
    (s.construct id half).sinks half' =
      if half' = half then (s.sinks half).insert id s.nextObject else s.sinks half' := by
  cases half <;> cases half' <;> rfl

theorem construct_registry (s : SessionCore) (id : Nat) (half : Half) :
    (s.construct id half).objects = s.objects.insert s.nextObject { streamId := id, half := half } ∧
      (s.construct id half).nextObject = s.nextObject + 1 ∧
      (s.construct id half).requests = s.requests ∧ (s.construct id half).creating = s.creating ∧
      (s.construct id half).nextRequestId = s.nextRequestId ∧
      (s.construct id half).closedState = s.closedState ∧
      (s.construct id half).Waits = s.Waits := by
  cases half <;> exact ⟨rfl, rfl, rfl, rfl, rfl, rfl, rfl⟩

/-- An object is constructed for a stream that has none of its half. -/
theorem coherent_construct (h : s.Coherent) (hopen : s.closedState = false) {id : Nat} {half : Half}
    (hfresh : ∀ i o, s.objects.get i = some o → o.half = half → o.streamId ≠ id)
    (hpromised : ∀ req, s.creating.contains req = true →
      s.requests.get req ≠ some (.resolved (.stream id))) : (s.construct id half).Coherent := by
  obtain ⟨hobjects, hnext, hrequests, hcreating, hnextReq, hclosed, hwaits⟩ :=
    construct_registry s id half
  have hold : ∀ i o, s.objects.get i = some o → i ≠ s.nextObject := by
    rintro i o ho rfl
    exact absurd (h.objects _ (by simp [ho])) (lt_irrefl _)
  have hget : ∀ i o, (s.construct id half).objects.get i = some o →
      i = s.nextObject ∧ o = { streamId := id, half := half } ∨ s.objects.get i = some o := by
    intro i o ho
    rw [hobjects, Table.get_insert] at ho
    split at ho
    next hi => exact .inl ⟨hi, (Option.some.inj ho).symm⟩
    · exact .inr ho
  have hkeep : ∀ i o, s.objects.get i = some o → (s.construct id half).objects.get i = some o := by
    intro i o ho
    rw [hobjects, Table.get_insert_ne (hold i o ho), ho]
  refine ⟨by rw [hrequests, hwaits]; exact h.pending, by rw [hrequests, hnextReq]; exact h.issued,
    by rw [hcreating, hnextReq]; exact h.creating, fun i o ho hact => ?_, fun half' id' i hs => ?_,
    fun i hi => ?_, fun req id' hreq hres => ?_, fun hc => by simp [hclosed, hopen] at hc⟩
  · rw [sinks_construct]
    rcases hget i o ho with ⟨rfl, rfl⟩ | ho
    · simp
    · have hs := h.active i o ho hact
      split
      next hhalf =>
        rw [Table.get_insert_ne (hfresh i o ho hhalf), ← hhalf, hs]
      · exact hs
  · rw [sinks_construct] at hs
    have hfind : (s.sinks half').get id' = some i →
        ∃ o, (s.construct id half).objects.get i = some o ∧ o.streamId = id' ∧ o.half = half' := by
      intro hs
      obtain ⟨o, ho, hrest⟩ := h.sink half' id' i hs
      exact ⟨o, hkeep i o ho, hrest⟩
    split at hs
    next hhalf =>
      rw [Table.get_insert] at hs
      split at hs
      next hid =>
        obtain rfl := Option.some.inj hs
        exact ⟨_, by rw [hobjects, Table.get_insert_self], hid.symm, hhalf.symm⟩
      · exact hfind (hhalf ▸ hs)
    · exact hfind hs
  · rw [hnext]
    rw [hobjects, Table.get_insert] at hi
    split at hi
    next heq => omega
    · exact Nat.lt_succ_of_lt (h.objects i hi)
  · rw [hcreating] at hreq ⊢
    rw [hrequests] at hres ⊢
    obtain ⟨hno, huniq⟩ := h.promised req id' hreq hres
    refine ⟨fun i o ho => ?_, huniq⟩
    rcases hget i o ho with ⟨-, rfl⟩ | ho
    · rintro rfl
      exact hpromised req hreq hres
    · exact hno i o ho

/-- The sinks after one of them was taken away. -/
def unregister (s : SessionCore) (half : Half) (id : Nat) : SessionCore :=
  match half with
  | .receive => s.unregisterReceive id
  | .send => s.unregisterSend id

theorem sinks_unregister (s : SessionCore) (half half' : Half) (id : Nat) :
    (s.unregister half id).sinks half' =
      if half' = half then (s.sinks half).erase id else s.sinks half' := by
  cases half <;> cases half' <;> rfl

theorem unregister_registry (s : SessionCore) (half : Half) (id : Nat) :
    (s.unregister half id).objects = s.objects ∧ (s.unregister half id).nextObject = s.nextObject ∧
      (s.unregister half id).requests = s.requests ∧ (s.unregister half id).creating = s.creating ∧
      (s.unregister half id).nextRequestId = s.nextRequestId ∧
      (s.unregister half id).closedState = s.closedState ∧
      (s.unregister half id).Waits = s.Waits := by
  cases half <;> exact ⟨rfl, rfl, rfl, rfl, rfl, rfl, rfl⟩

/-- An object is over, and its sink is taken away. -/
theorem coherent_over (h : s.Coherent) {i : Nat} {o : StreamObject}
    (hreg : (s.sinks o.half).get o.streamId = some i)
    {f : StreamObject → StreamObject}
    (hf : ∀ o, (f o).state ≠ .active ∧ (f o).streamId = o.streamId ∧ (f o).half = o.half) :
    ((s.modifyObject i f).unregister o.half o.streamId).Coherent := by
  obtain ⟨hobjects, hnext, hrequests, hcreating, hnextReq, hclosed, hwaits⟩ :=
    unregister_registry (s.modifyObject i f) o.half o.streamId
  have hget : ∀ j o', (s.objects.modify i f).get j = some o' →
      (∃ o1, s.objects.get j = some o1 ∧ o'.streamId = o1.streamId ∧ o'.half = o1.half) ∧
        (o'.state = .active → j ≠ i ∧ s.objects.get j = some o') := by
    intro j o' hj
    rw [Table.get_modify] at hj
    split at hj
    · obtain ⟨o1, ho1, rfl⟩ := Option.map_eq_some_iff.mp hj
      exact ⟨⟨o1, ho1, (hf o1).2⟩, fun hact => absurd hact (hf o1).1⟩
    next hji => exact ⟨⟨o', hj, rfl, rfl⟩, fun _ => ⟨hji, hj⟩⟩
  have hkeep : ∀ j o1, s.objects.get j = some o1 → ∃ o', (s.objects.modify i f).get j = some o' ∧
      o'.streamId = o1.streamId ∧ o'.half = o1.half := by
    intro j o1 hj
    by_cases hji : j = i
    · subst hji
      exact ⟨f o1, by simp [hj], (hf o1).2⟩
    · exact ⟨o1, by rw [Table.get_modify_ne hji, hj], rfl, rfl⟩
  refine ⟨by rw [hrequests, hwaits]; exact h.pending, by rw [hrequests, hnextReq]; exact h.issued,
    by rw [hcreating, hnextReq]; exact h.creating, fun j o' hj hact => ?_, fun half id j hs => ?_,
    fun j hj => ?_, fun req id hreq hres => ?_, fun hc => ?_⟩
  · rw [hobjects] at hj
    obtain ⟨hji, hj⟩ := (hget j o' hj).2 hact
    have hs := h.active j o' hj hact
    rw [sinks_unregister]
    split
    next hhalf =>
      -- the sink that went away was the one of the object that is over
      rw [Table.get_erase]
      split
      next hid =>
        rw [hhalf, hid, hreg] at hs
        exact absurd (Option.some.inj hs).symm hji
      · rw [← hhalf]
        exact hs
    · exact hs
  · rw [sinks_unregister] at hs
    have hsub : (s.sinks half).get id = some j := by
      split at hs
      next hhalf =>
        rw [Table.get_erase] at hs
        split at hs
        · cases hs
        · exact hhalf ▸ hs
      · exact hs
    obtain ⟨o1, ho1, hid, hhalf⟩ := h.sink half id j hsub
    obtain ⟨o', ho', hid', hhalf'⟩ := hkeep j o1 ho1
    exact ⟨o', by rw [hobjects]; exact ho', hid'.trans hid, hhalf'.trans hhalf⟩
  · rw [hnext]
    refine h.objects j fun hnone => hj ?_
    rw [hobjects]
    simp only [modifyObject, Table.get_modify, hnone]
    split <;> rfl
  · rw [hcreating] at hreq ⊢
    rw [hrequests] at hres ⊢
    rw [hobjects]
    obtain ⟨hno, huniq⟩ := h.promised req id hreq hres
    refine ⟨fun j o' hj => ?_, huniq⟩
    obtain ⟨o1, ho1, hid, -⟩ := (hget j o' hj).1
    rw [hid]
    exact hno j o1 ho1
  · rw [hclosed] at hc
    have hclear := h.cleared hc
    refine ⟨by rw [hwaits]; exact hclear.requests, fun half id => ?_⟩
    rw [sinks_unregister]
    split
    · rw [Table.get_erase]
      split
      · rfl
      · exact hclear.sinks _ _
    · exact hclear.sinks half id

/-! ### Requests -/

theorem contains_insert {α : Type} (t : Table α) (k i : Nat) (v : α) :
    (t.insert k v).contains i = true ↔ i = k ∨ t.contains i = true := by
  simp only [Table.contains, Table.get_insert]
  split
  next h => simp [h]
  next h => simp [h]

theorem contains_erase {α : Type} (t : Table α) (k i : Nat) :
    (t.erase k).contains i = true ↔ i ≠ k ∧ t.contains i = true := by
  simp only [Table.contains, Table.get_erase]
  split
  next h => simp [h]
  next h => simp [h]

theorem open_of_usable (h : s.usable = true) : s.closedState = false := by
  simp only [usable, Bool.and_eq_true, Bool.not_eq_true'] at h
  exact h.2

theorem coherent_createStream (h : s.Coherent) (bidi : Bool) : (s.createStream bidi).Coherent := by
  unfold createStream
  split
  · exact h
  next hu =>
    refine h.request (open_of_usable (by simpa using hu)) ?_ ?_ ?_ ⟨?_, ?_⟩ ?_ ?_ ?_ (.inr ⟨bidi, rfl⟩)
    case refine_3 =>
      intro i hi
      simp only [Registry.Waits, contains_insert, toRegistry_command] at hi ⊢
      rcases hi with hi | hi
      · exact hi.imp_left .inr
      · exact .inl (.inl hi)
    all_goals simp [newRequest]

theorem coherent_write (h : s.Coherent) (streamId : Nat) (chunk : Bytes) :
    (s.write streamId chunk).Coherent := by
  unfold write
  split
  · exact h
  next hu =>
    refine h.request (open_of_usable (by simpa using hu)) ?_ ?_ ?_ ⟨?_, ?_⟩ ?_ ?_ ?_ (.inl ?_)
    case refine_3 =>
      intro i hi
      simp only [Registry.Waits, contains_insert, toRegistry_command] at hi ⊢
      rcases hi with hi | hi
      · exact hi.imp_right fun hi => hi.imp_left .inr
      · exact .inr (.inl (.inl hi))
    all_goals simp [newRequest]

theorem coherent_sendDatagram (h : s.Coherent) (chunk : Bytes) : (s.sendDatagram chunk).Coherent := by
  unfold sendDatagram
  split
  · exact h
  next hu =>
    refine h.request (open_of_usable (by simpa using hu)) ?_ ?_ ?_ ⟨?_, ?_⟩ ?_ ?_ ?_ (.inl ?_)
    case refine_3 =>
      intro i hi
      simp only [Registry.Waits, contains_insert, toRegistry_command] at hi ⊢
      rcases hi with hi | hi
      · exact hi.imp_right fun hi => hi.imp_right fun hi => hi.imp_left .inr
      · exact .inr (.inr (.inl (.inl hi)))
    all_goals simp [newRequest]

theorem coherent_getStats (h : s.Coherent) : s.getStats.Coherent := by
  unfold getStats
  split
  · exact h
  next hu =>
    refine h.request (open_of_usable (by simpa using hu)) ?_ ?_ ?_ ⟨?_, ?_⟩ ?_ ?_ ?_ (.inl ?_)
    case refine_3 =>
      intro i hi
      simp only [Registry.Waits, contains_insert, toRegistry_command] at hi ⊢
      rcases hi with hi | hi
      · exact hi.imp_right fun hi => hi.imp_right fun hi => hi.imp_right fun hi => hi.imp_left .inr
      · exact .inr (.inr (.inr (.inl (.inl hi))))
    all_goals simp [newRequest]

theorem coherent_exportKeyingMaterial (h : s.Coherent) (label context : Bytes) (length : Nat) :
    (s.exportKeyingMaterial label context length).Coherent := by
  unfold exportKeyingMaterial
  split
  · exact h
  next hu =>
    have hu : s.usable = true := by simp only [not_or] at hu; simpa using hu.2.2
    refine h.request (open_of_usable hu) ?_ ?_ ?_ ⟨?_, ?_⟩ ?_ ?_ ?_ (.inl ?_)
    case refine_3 =>
      intro i hi
      simp only [Registry.Waits, contains_insert, toRegistry_command] at hi ⊢
      rcases hi with hi | hi
      · exact hi.imp_right fun hi => hi.imp_right fun hi => hi.imp_right fun hi => hi.imp_right .inr
      · exact .inr (.inr (.inr (.inr (.inl hi))))
    all_goals simp [newRequest]

/-- One request is settled and leaves its map. -/
theorem coherent_settle (h : s.Coherent) {i : Nat} {f : Settled Result → Settled Result} {r' : Registry}
    (hf : ∀ p, f p ≠ .pending) (hrequests : r'.requests = s.requests.modify i f)
    (hwaits : ∀ j, r'.Waits j → s.Waits j) (hkept : ∀ j, j ≠ i → s.Waits j → r'.Waits j)
    (hstream : ∀ p id, f p = .resolved (.stream id) → p = .resolved (.stream id) ∨ ¬s.Known id)
    (hrest : r'.receives = s.receives ∧ r'.sends = s.sends ∧ r'.objects = s.objects ∧
      r'.nextRequestId = s.nextRequestId ∧ r'.nextObject = s.nextObject ∧
      r'.closedState = s.closedState ∧ r'.creating = s.creating) : r'.Coherent := by
  obtain ⟨h1, h2, h3, h4, h5, h6, h7⟩ := hrest
  refine Coherent.settled h (fun j hp => ?_) (fun j => ?_) hwaits (fun req id hreq hres => ?_)
    ⟨h1, h2⟩ h3 ⟨h4, h5⟩ h6 h7
  · rw [hrequests, Table.get_modify] at hp
    split at hp
    · obtain ⟨p, -, hp⟩ := Option.map_eq_some_iff.mp hp
      exact absurd hp (hf p)
    next hji => exact ⟨hp, hkept j hji⟩
  · rw [hrequests, Table.get_modify]
    split <;> simp
  · rw [hrequests, Table.get_modify] at hres
    split at hres
    next hi =>
      subst hi
      obtain ⟨p, hp, hres⟩ := Option.map_eq_some_iff.mp hres
      rcases hstream p id hres with rfl | hfresh
      · exact .inl hp
      · refine .inr ⟨hfresh, fun req' hres' hreq' => ?_⟩
        by_contra hne
        rw [hrequests, Table.get_modify_ne hne] at hres'
        exact hfresh (.inr ⟨req', hreq', hres'⟩)
    · exact .inl hres

theorem coherent_resetStream (h : s.Coherent) (streamId code : Nat) :
    (s.resetStream streamId code).Coherent := by
  have hgone : ∀ j, (s.writes.filter fun _ stream => stream != streamId).contains j = true ↔
      s.writes.contains j = true ∧ s.writes.get j ≠ some streamId := by
    intro j
    simp only [Table.contains, Table.get_filter]
    cases hg : s.writes.get j with
    | none => simp
    | some st => by_cases hst : st = streamId <;> simp [Option.filter, hst]
  have hwaits : ∀ j, (s.resetStream streamId code).Waits j ↔
      s.opens.contains j = true ∨ (s.writes.contains j = true ∧ s.writes.get j ≠ some streamId) ∨
        s.datagramAcks.contains j = true ∨ s.statsRequests.contains j = true ∨
        s.keyingMaterialRequests.contains j = true := by
    intro j
    simp only [Registry.Waits, resetStream, toRegistry_command]
    rw [hgone]
  have hrequests : (s.resetStream streamId code).requests =
      s.requests.modifyIf (fun i => s.writes.get i == some streamId) fun p =>
        p.reject ⟨"stream aborted", .stream, some (code % 2 ^ 32)⟩ := by
    simp only [resetStream, toRegistry_command]
  refine Coherent.settled h (fun j hp => ?_) (fun j => ?_) (fun j hj => ?_)
    (fun req id hreq hres => ?_) ⟨?_, ?_⟩ ?_ ⟨?_, ?_⟩ ?_ ?_
  · rw [hrequests, Table.get_modifyIf] at hp
    split at hp
    · obtain ⟨p, -, hp⟩ := Option.map_eq_some_iff.mp hp
      exact absurd hp (Settled.reject_ne_pending _ _)
    next hw =>
      refine ⟨hp, fun hj => (hwaits j).mpr ?_⟩
      rcases hj with hj | hj | hj
      · exact .inl hj
      · exact .inr (.inl ⟨hj, by simpa using hw⟩)
      · exact .inr (.inr hj)
  · rw [hrequests, Table.get_modifyIf]
    split <;> simp
  · rcases (hwaits j).mp hj with hj | ⟨hj, -⟩ | hj
    · exact .inl hj
    · exact .inr (.inl hj)
    · exact .inr (.inr hj)
  · rw [hrequests, Table.get_modifyIf] at hres
    split at hres
    · obtain ⟨p, hp, hres⟩ := Option.map_eq_some_iff.mp hres
      cases p with
      | pending => simp [Settled.reject] at hres
      | resolved v => exact .inl (hp.trans (by simpa [Settled.reject] using hres))
      | rejected err => simp [Settled.reject] at hres
    · exact .inl hres
  all_goals simp [resetStream]

/-! ### The end -/

@[simp] theorem toRegistry_settleLifecycle (s : SessionCore) (info : Option CloseInfo)
    (error : Option WebTransportError) : (s.settleLifecycle info error).toRegistry = s.toRegistry := by
  unfold settleLifecycle
  simp only
  split
  · rfl
  · split <;> rfl

theorem cleared_settleAll (s : SessionCore) (err : WebTransportError) : (s.settleAll err).Cleared := by
  refine ⟨fun i hw => ?_, fun half id => by cases half <;> rfl⟩
  rcases hw with hw | hw | hw | hw | hw <;> cases hw

theorem settleAll_congr {s t : SessionCore} (h : s.toRegistry = t.toRegistry)
    (err : WebTransportError) : (s.settleAll err).toRegistry = (t.settleAll err).toRegistry := by
  cases s
  cases t
  subst h
  rfl

theorem coherent_settleAll (h : s.Coherent) (err : WebTransportError) :
    (s.settleAll err).Coherent := by
  have hpending : ∀ i, (s.settleAll err).requests.get i ≠ some .pending := by
    intro i hp
    simp only [settleAll, Table.get_modifyIf] at hp
    split at hp
    · obtain ⟨p, -, hp⟩ := Option.map_eq_some_iff.mp hp
      exact Settled.resolve_ne_pending _ _ hp
    next hd =>
      split at hp
      · obtain ⟨p, -, hp⟩ := Option.map_eq_some_iff.mp hp
        exact Settled.reject_ne_pending _ _ hp
      next hm =>
        simp only [Bool.or_eq_true, not_or] at hm
        rcases h.pending i hp with hw | hw | hw | hw | hw
        · exact hm.1.1.1 hw
        · exact hm.1.1.2 hw
        · exact hd hw
        · exact hm.1.2 hw
        · exact hm.2 hw
  have hold : ∀ i p, (s.settleAll err).requests.get i = some p →
      ∃ q, s.requests.get i = some q ∧ ∀ id, p = .resolved (.stream id) → q = .resolved (.stream id) := by
    have hreject : ∀ (q : Settled Result) id, q.reject err = .resolved (.stream id) →
        q = .resolved (.stream id) := by
      intro q id hq
      cases q <;> simp_all [Settled.reject]
    have hresolve : ∀ (q : Settled Result) id, q.resolve (.sent false) = .resolved (.stream id) →
        q = .resolved (.stream id) := by
      intro q id hq
      cases q <;> simp_all [Settled.resolve]
    intro i p hp
    simp only [settleAll, Table.get_modifyIf] at hp
    split at hp
    · obtain ⟨q, hq, rfl⟩ := Option.map_eq_some_iff.mp hp
      split at hq
      · obtain ⟨q0, hq0, rfl⟩ := Option.map_eq_some_iff.mp hq
        exact ⟨q0, hq0, fun id hid => hreject _ _ (hresolve _ _ hid)⟩
      · exact ⟨q, hq, fun id hid => hresolve _ _ hid⟩
    · split at hp
      · obtain ⟨q0, hq0, rfl⟩ := Option.map_eq_some_iff.mp hp
        exact ⟨q0, hq0, fun id hid => hreject _ _ hid⟩
      · exact ⟨p, hp, fun id hid => hid⟩
  have hobject : ∀ i o', (s.settleAll err).objects.get i = some o' →
      o'.state ≠ .active ∧ ∃ o, s.objects.get i = some o ∧ o'.streamId = o.streamId := by
    intro i o' ho'
    simp only [settleAll, Table.get_modifyIf] at ho'
    split at ho'
    · obtain ⟨o, ho, rfl⟩ := Option.map_eq_some_iff.mp ho'
      refine ⟨?_, o, ho, ?_⟩
      · unfold StreamObject.fail
        split
        · simp
        next hne => exact hne
      · unfold StreamObject.fail
        split <;> rfl
    next hnot =>
      refine ⟨fun hact => hnot ?_, o', ho', rfl⟩
      have hs := h.active i o' ho' hact
      rw [Bool.or_eq_true, Table.any_eq_true, Table.any_eq_true]
      cases hh : o'.half with
      | receive =>
          rw [hh] at hs
          exact .inl ⟨o'.streamId, i, hs, by simp⟩
      | send =>
          rw [hh] at hs
          exact .inr ⟨o'.streamId, i, hs, by simp⟩
  have hclear := cleared_settleAll s err
  refine ⟨fun i hp => absurd hp (hpending i), fun i hi => ?_, h.creating,
    fun i o ho hact => absurd hact (hobject i o ho).1, fun half id i hs => ?_, fun i hi => ?_,
    fun req id hreq hres => ?_, fun _ => hclear⟩
  · refine h.issued i fun hnone => hi ?_
    cases hg : (s.settleAll err).requests.get i with
    | none => rfl
    | some p =>
        obtain ⟨q, hq, -⟩ := hold i p hg
        simp [hnone] at hq
  · rw [hclear.sinks] at hs
    cases hs
  · refine h.objects i fun hnone => hi ?_
    cases hg : (s.settleAll err).objects.get i with
    | none => rfl
    | some o' =>
        obtain ⟨-, o, ho, -⟩ := hobject i o' hg
        simp [hnone] at ho
  · obtain ⟨q, hq, hqid⟩ := hold req _ hres
    obtain ⟨hno, huniq⟩ := h.promised req id hreq (by rw [hq, hqid id rfl])
    refine ⟨fun i o' ho' => ?_, fun req' hreq' hres' => ?_⟩
    · obtain ⟨-, o, ho, hid⟩ := hobject i o' ho'
      rw [hid]
      exact hno i o ho
    · obtain ⟨q', hq', hqid'⟩ := hold req' _ hres'
      exact huniq req' hreq' (by rw [hq', hqid' id rfl])

theorem coherent_finish (h : s.Coherent) (info : Option CloseInfo) (error : Option WebTransportError) :
    (s.finish info error).Coherent := by
  unfold finish
  split
  · exact h
  · rw [toRegistry_command]
    refine Eq.mpr (congrArg Coherent (settleAll_congr (toRegistry_settleLifecycle _ info error) _)) ?_
    -- nothing waits any more, so the session may be closed
    have hsettled := coherent_settleAll h (error.getD ⟨"session closed", .session, none⟩)
    exact ⟨hsettled.pending, hsettled.issued, hsettled.creating, hsettled.active, hsettled.sink,
      hsettled.objects, hsettled.promised, fun _ => cleared_settleAll _ _⟩

theorem finish_closedState (s : SessionCore) (info : Option CloseInfo)
    (error : Option WebTransportError) : (s.finish info error).closedState = true := by
  unfold finish
  split
  next h => exact h
  · simp only [toRegistry_command]
    rw [show ∀ (t : SessionCore) err, (t.settleAll err).closedState = t.closedState from fun _ _ => rfl,
      toRegistry_settleLifecycle]

/-! ### Native events -/

/-- What a sink does happens to an object that is registered. -/
theorem coherent_withSink {sinks : Table Nat} (half : Half) (hsinks : sinks = s.sinks half)
    (h : s.Coherent) (streamId : Nat) {f : Nat → StreamObject → SessionCore}
    (hf : ∀ i o, s.objects.get i = some o → o.half = half → (s.sinks o.half).get o.streamId = some i →
      (f i o).Coherent) : (s.withSink sinks streamId f).Coherent := by
  subst hsinks
  unfold withSink
  split
  · exact h
  next i hi =>
    obtain ⟨o, ho, rfl, rfl⟩ := h.sink half streamId i hi
    split
    · exact h
    next o' ho' =>
      obtain rfl := Option.some.inj (ho.symm.trans ho')
      exact hf i o ho rfl hi

theorem StreamObject.fail_spec (error : WebTransportError) (o : StreamObject) :
    (o.fail error).state ≠ .active ∧ (o.fail error).streamId = o.streamId ∧
      (o.fail error).half = o.half := by
  unfold StreamObject.fail
  split
  · exact ⟨by simp, rfl, rfl⟩
  next h => exact ⟨h, rfl, rfl⟩

theorem StreamObject.close_spec (o : StreamObject) :
    o.close.state ≠ .active ∧ o.close.streamId = o.streamId ∧ o.close.half = o.half := by
  unfold StreamObject.close
  split
  · exact ⟨by simp, rfl, rfl⟩
  next h => exact ⟨h, rfl, rfl⟩

theorem coherent_touched (h : s.Coherent) (i : Nat) {f : StreamObject → StreamObject}
    (hf : ∀ o, (f o).state = o.state ∧ (f o).streamId = o.streamId ∧ (f o).half = o.half) :
    (s.modifyObject i f).Coherent :=
  h.touched hf rfl

/-- An object of a stream that is new to the session. -/
theorem coherent_constructNew (h : s.Coherent) (hopen : s.closedState = false) {id : Nat}
    (hfresh : ¬s.Known id) (half : Half) : (s.construct id half).Coherent :=
  coherent_construct h hopen (fun i o ho _ hid => hfresh (.inl ⟨i, o, ho, hid⟩))
    fun req hreq hres => hfresh (.inr ⟨req, hreq, hres⟩)

/-- Both objects of a bidirectional one. -/
theorem coherent_constructPair (h : s.Coherent) (hopen : s.closedState = false) {id : Nat}
    (hfresh : ¬s.Known id) : ((s.construct id .receive).construct id .send).Coherent := by
  refine coherent_construct (coherent_constructNew h hopen hfresh .receive) hopen
    (fun i o ho hhalf hid => ?_) fun req hreq hres => hfresh (.inr ⟨req, hreq, hres⟩)
  rw [(construct_registry s id .receive).1, Table.get_insert] at ho
  split at ho
  · obtain rfl := Option.some.inj ho
    cases hhalf
  · exact hfresh (.inl ⟨i, o, ho, hid⟩)

theorem coherent_abort (h : s.Coherent) (message : String) : (s.abort message).Coherent := by
  unfold abort
  split
  · exact h
  · refine coherent_finish ?_ _ _
    unfold close
    split
    · exact h
    · simpa using h

theorem coherent_onIncoming (h : s.Coherent) (hopen : s.closedState = false) {streamId : Nat}
    (hfresh : ¬s.Known streamId) (bidi : Bool) : (s.onIncoming streamId bidi).Coherent := by
  have hstop : (s.stopSending streamId 0).Coherent := by simpa [stopSending] using h
  unfold onIncoming
  simp only
  split_ifs
  · exact coherent_resetStream hstop _ _
  · exact hstop
  · exact coherent_abort h _
  · exact coherent_abort h _
  · exact coherent_constructPair h hopen hfresh
  · exact coherent_constructNew h hopen hfresh .receive

/-- What the native side promises about stream ids: each stream is announced
once. -/
def Admissible (s : SessionCore) : Act → Prop
  | .dispatch (.stream streamId _) | .dispatch (.streamOpened _ streamId) => ¬s.Known streamId
  | _ => True

theorem coherent_dispatch (h : s.Coherent) {ev : NativeEvent} (hadm : s.Admissible (.dispatch ev)) :
    (s.dispatch ev).Coherent := by
  unfold dispatch
  split
  · exact h
  next hc =>
    have hopen : s.closedState = false := by simpa using hc
    -- a request that is settled by its own event leaves its map
    have hset : ∀ {i : Nat} {p : Settled Result} {v : Result} {id : Nat},
        (∀ id, v ≠ .stream id) → p.resolve v = .resolved (.stream id) →
          p = .resolved (.stream id) ∨ ¬s.Known id := by
      intro i p v id hv hp
      cases p with
      | pending => exact absurd (by simpa [Settled.resolve] using hp) (hv id)
      | resolved w => exact .inl hp
      | rejected err => exact .inl hp
    cases ev with
    | ready | serverReady | draining | datagram => exact h
    | closed | error => exact coherent_finish h _ _
    | stream streamId bidi => exact coherent_onIncoming h hopen hadm bidi
    | streamData streamId data =>
        refine coherent_withSink .receive rfl h streamId fun i o ho _ _ => ?_
        have hdata := coherent_touched h i (f := fun o => o.enqueue data) fun o => by
          unfold StreamObject.enqueue
          split <;> exact ⟨rfl, rfl, rfl⟩
        unfold onData
        simp only
        split
        · simpa [setPaused] using hdata
        · exact hdata
    | streamFin streamId =>
        refine coherent_withSink .receive rfl h streamId fun i o ho hhalf hreg => ?_
        have hover := coherent_over h hreg StreamObject.close_spec
        rw [hhalf] at hover
        exact hover
    | streamReset streamId code =>
        refine coherent_withSink .receive rfl h streamId fun i o ho hhalf hreg => ?_
        have hover := coherent_over h hreg
          (StreamObject.fail_spec ⟨"stream reset by peer", .stream, some code⟩)
        rw [hhalf] at hover
        exact hover
    | streamStopSending streamId code =>
        refine coherent_withSink .send rfl h streamId fun i o ho hhalf hreg => ?_
        have hover := coherent_over h hreg
          (StreamObject.fail_spec ⟨"peer sent STOP_SENDING", .stream, some code⟩)
        rw [hhalf] at hover
        exact hover
    | streamOpened requestId streamId =>
        simp only
        split
        · refine coherent_settle h (i := requestId) (fun p => Settled.resolve_ne_pending p _) rfl
            (fun j hj => ?_) (fun j hne hj => ?_) (fun p id hp => ?_) ⟨rfl, rfl, rfl, rfl, rfl, rfl, rfl⟩
          · exact hj.imp_left fun hj => ((contains_erase _ _ _).mp hj).2
          · exact hj.imp_left fun hj => (contains_erase _ _ _).mpr ⟨hne, hj⟩
          · cases p with
            | pending =>
                simp only [Settled.resolve, Settled.resolved.injEq, Result.stream.injEq] at hp
                exact .inr (hp ▸ hadm)
            | resolved v => exact .inl hp
            | rejected err => exact .inl hp
        · exact h
    | writeAck requestId =>
        simp only
        split
        · refine coherent_settle h (i := requestId) (fun p => Settled.resolve_ne_pending p _) rfl
            (fun j hj => ?_) (fun j hne hj => ?_) (fun p id hp => hset (i := requestId) (by simp) hp)
            ⟨rfl, rfl, rfl, rfl, rfl, rfl, rfl⟩
          · exact hj.imp_right fun hj => hj.imp_left fun hj => ((contains_erase _ _ _).mp hj).2
          · exact hj.imp_right fun hj => hj.imp_left fun hj => (contains_erase _ _ _).mpr ⟨hne, hj⟩
        · exact h
    | datagramAck requestId sent =>
        simp only
        split
        · refine coherent_settle h (i := requestId) (fun p => Settled.resolve_ne_pending p _) rfl
            (fun j hj => ?_) (fun j hne hj => ?_) (fun p id hp => hset (i := requestId) (by simp) hp)
            ⟨rfl, rfl, rfl, rfl, rfl, rfl, rfl⟩
          · exact hj.imp_right fun hj => hj.imp_right fun hj => hj.imp_left fun hj =>
              ((contains_erase _ _ _).mp hj).2
          · exact hj.imp_right fun hj => hj.imp_right fun hj => hj.imp_left fun hj =>
              (contains_erase _ _ _).mpr ⟨hne, hj⟩
        · exact h
    | stats requestId stats =>
        simp only
        split
        · refine coherent_settle h (i := requestId) (fun p => Settled.resolve_ne_pending p _) rfl
            (fun j hj => ?_) (fun j hne hj => ?_) (fun p id hp => hset (i := requestId) (by simp) hp)
            ⟨rfl, rfl, rfl, rfl, rfl, rfl, rfl⟩
          · exact hj.imp_right fun hj => hj.imp_right fun hj => hj.imp_right fun hj =>
              hj.imp_left fun hj => ((contains_erase _ _ _).mp hj).2
          · exact hj.imp_right fun hj => hj.imp_right fun hj => hj.imp_right fun hj =>
              hj.imp_left fun hj => (contains_erase _ _ _).mpr ⟨hne, hj⟩
        · exact h
    | keyingMaterial requestId data =>
        simp only
        split
        · refine coherent_settle h (i := requestId) ?_ rfl (fun j hj => ?_) (fun j hne hj => ?_) ?_
            ⟨rfl, rfl, rfl, rfl, rfl, rfl, rfl⟩
          · intro p
            cases data with
            | some data => exact Settled.resolve_ne_pending p _
            | none => exact Settled.reject_ne_pending p _
          · exact hj.imp_right fun hj => hj.imp_right fun hj => hj.imp_right fun hj =>
              hj.imp_right fun hj => ((contains_erase _ _ _).mp hj).2
          · exact hj.imp_right fun hj => hj.imp_right fun hj => hj.imp_right fun hj =>
              hj.imp_right fun hj => (contains_erase _ _ _).mpr ⟨hne, hj⟩
          · intro p id hp
            cases data with
            | some data => exact hset (i := requestId) (by simp) hp
            | none => cases p <;> simp_all [Settled.reject]
        · exact h

/-! ### Steps of the application -/

theorem activeObject_spec {object : Nat} {half : Half} {o : StreamObject} (h : s.Coherent)
    (ho : s.activeObject object half = some o) :
    o.half = half ∧ (s.sinks o.half).get o.streamId = some object := by
  simp only [activeObject, Option.filter_eq_some_iff, decide_eq_true_eq] at ho
  exact ⟨ho.2.1, h.active object o ho.1 ho.2.2⟩

/-- The continuation makes a stream object. -/
def MakesStream (s : SessionCore) (requestId : Nat) : Prop :=
  s.creating.contains requestId = true ∧
    ∃ streamId, s.requests.get requestId = some (.resolved (.stream streamId))

theorem coherent_resume (h : s.Coherent) {requestId : Nat}
    (hopen : s.MakesStream requestId → s.closedState = false) : (s.resume requestId).Coherent := by
  unfold resume
  split
  next bidi streamId hc hr =>
    have hcr : s.creating.contains requestId = true := by simp [Table.contains, hc]
    have hopen := hopen ⟨hcr, streamId, hr⟩
    obtain ⟨hno, huniq⟩ := h.promised requestId streamId hcr hr
    have hfresh : ¬({ s with creating := s.creating.erase requestId } : SessionCore).Known streamId := by
      rintro (⟨i, o, ho, hid⟩ | ⟨req, hreq, hres⟩)
      · exact hno i o ho hid
      · obtain ⟨hne, hreq⟩ := (contains_erase _ _ _).mp hreq
        exact hne (huniq req hreq hres)
    have hdone : ({ s with creating := s.creating.erase requestId } : SessionCore).Coherent :=
      h.resumed requestId
    unfold constructOwn
    split
    · exact coherent_constructPair hdone hopen hfresh
    · exact coherent_constructNew hdone hopen hfresh .send
  · exact h.resumed requestId
  · exact h

/-- What keeps a session coherent: a stream object is made only while the
session is open. -/
def MakesStreamsOpen (s : SessionCore) : Act → Prop
  | .resume requestId => s.MakesStream requestId → s.closedState = false
  | _ => True

theorem coherent_act (h : s.Coherent) {a : Act} (hadm : s.Admissible a) (hopen : s.MakesStreamsOpen a) :
    (s.act a).Coherent := by
  cases a with
  | attach | takeIncoming | cancelIncoming | recordDroppedIncomingDatagram => exact h
  | failSetup message => exact coherent_finish h _ _
  | dispatch ev => exact coherent_dispatch h hadm
  | createStream bidi => exact coherent_createStream h bidi
  | resume requestId => exact coherent_resume h hopen
  | sinkWrite object chunk =>
      simp only [act, sinkWrite]
      split
      · exact coherent_write h _ _
      · exact h
  | sinkClose object =>
      simp only [act, sinkClose]
      split
      next o ho =>
        have hfin : (s.finStream o.streamId).Coherent := by simpa [finStream] using h
        obtain ⟨hhalf, hreg⟩ := activeObject_spec h ho
        have hover := coherent_over hfin (i := object) (o := o) (by simpa [finStream] using hreg)
          StreamObject.close_spec
        rw [hhalf] at hover
        exact hover
      · exact h
  | sinkAbort object error =>
      simp only [act, sinkAbort]
      split
      next o ho =>
        have hreset := coherent_resetStream h o.streamId (error.streamErrorCode.getD 0)
        obtain ⟨hhalf, hreg⟩ := activeObject_spec h ho
        have hover := coherent_over hreset (i := object) (o := o) ?_ (StreamObject.fail_spec error)
        · rw [hhalf] at hover
          exact hover
        · rw [hhalf] at hreg ⊢
          simpa [resetStream, Registry.sinks] using hreg
      · exact h
  | sourceCancel object code =>
      simp only [act, sourceCancel]
      split
      next o ho =>
        have hstop : (s.stopSending o.streamId code).Coherent := by simpa [stopSending] using h
        obtain ⟨hhalf, hreg⟩ := activeObject_spec h ho
        have hover := coherent_over hstop (i := object) (o := o) (by simpa [stopSending] using hreg)
          StreamObject.close_spec
        rw [hhalf] at hover
        exact hover
      · exact h
  | sourceRead object =>
      simp only [act, sourceRead]
      split
      · have hread := coherent_touched h object (f := StreamObject.read) fun o => by
          unfold StreamObject.read
          split <;> exact ⟨rfl, rfl, rfl⟩
        simpa [setPaused] using hread
      · exact h
  | sendDatagram chunk => exact coherent_sendDatagram h chunk
  | getStats => exact coherent_getStats h
  | exportKeyingMaterial label context length => exact coherent_exportKeyingMaterial h _ _ _
  | close code reason =>
      simp only [act, sessionClose]
      split
      · exact h
      · unfold close
        split
        · exact h
        · simpa using h
  | drain => simpa [act, drain] using h

/-! ## The terminal invariant -/

/-- Once the session is closed nothing waits. -/
def TerminalInvariant (s : SessionCore) : Prop := s.closedState = true → s.Terminated

/-- A stream object that is made behind the end is never told. -/
theorem not_terminated_resume {requestId : Nat} (hmakes : s.MakesStream requestId) :
    ¬(s.resume requestId).Terminated := by
  obtain ⟨hc, streamId, hr⟩ := hmakes
  obtain ⟨bidi, hb⟩ := Option.isSome_iff_exists.mp hc
  intro hterm
  have hsends := hterm.sends
  have hmem : streamId ∈ (s.resume requestId).sends.keys := by
    rw [Table.mem_keys]
    simp only [resume, hb, hr, constructOwn]
    split <;> simp [construct]
  rw [hsends] at hmem
  cases hmem

theorem resume_closedState (requestId : Nat) : (s.resume requestId).closedState = s.closedState := by
  unfold resume
  split
  · unfold constructOwn
    split <;> rfl
  · rfl
  · rfl

/-- The terminal invariant holds throughout a run exactly when no stream object
is made behind the end of the session. -/
theorem terminalInvariant_iff {acts : List Act} (hadm : Along act Admissible {} acts) :
    Along act (fun s a => (s.act a).TerminalInvariant) {} acts ↔
      Along act MakesStreamsOpen {} acts := by
  refine along_iff (I := fun s => s.Coherent) (fun s a h ha => ⟨fun hterm => ?_, fun hopen hc => ?_⟩)
    (fun s a h ha hopen => coherent_act h ha hopen) Registry.coherent_empty hadm
  · cases a with
    | resume requestId =>
        intro hmakes
        by_contra hc
        refine not_terminated_resume hmakes (hterm ?_)
        rw [show s.act (.resume requestId) = s.resume requestId from rfl, resume_closedState]
        simpa using hc
    | _ => exact trivial
  · exact (coherent_act h ha hopen).terminated hc

/-- A stream is opened, its object is made, and the session ends. -/
def openThenClose : List Act :=
  [.attach, .dispatch (.ready none []), .createStream true, .dispatch (.streamOpened 1 4),
    .resume 1, .dispatch (.closed 0 [])]

/-- The session ends in the batch that opens the stream. -/
def closeBeforeResume : List Act :=
  [.attach, .dispatch (.ready none []), .createStream true, .dispatch (.streamOpened 1 4),
    .dispatch (.closed 0 []), .resume 1]

theorem fresh_of_created {s : SessionCore} (hobjects : ∀ i, s.objects.get i = none)
    (hrequests : ∀ i, s.creating.contains i = true → s.requests.get i = some .pending) (id : Nat) :
    ¬s.Known id := by
  rintro (⟨i, o, ho, -⟩ | ⟨req, hreq, hres⟩)
  · simp [hobjects] at ho
  · simp [hrequests req hreq] at hres

theorem fresh_after_createStream (id : Nat) :
    ¬((({ attached := true, readyState := true, ready := .resolved () } : SessionCore).createStream
      true).Known id) := by
  refine fresh_of_created (fun i => rfl) (fun i hi => ?_) id
  rw [createStream, if_neg (by decide)] at hi ⊢
  rcases (contains_insert _ _ _ _).mp hi with rfl | hi
  · rfl
  · cases hi

theorem terminalInvariant_openThenClose :
    Along act (fun s a => (s.act a).TerminalInvariant) {} openThenClose :=
  (terminalInvariant_iff (show Along act Admissible {} openThenClose from
    ⟨trivial, trivial, trivial, fresh_after_createStream 4, trivial, trivial, trivial⟩)).mpr
    ⟨trivial, trivial, trivial, trivial, fun _ => rfl, trivial, trivial⟩

theorem not_terminalInvariant_closeBeforeResume :
    Along act Admissible {} closeBeforeResume ∧
      ¬Along act (fun s a => (s.act a).TerminalInvariant) {} closeBeforeResume := by
  refine ⟨⟨trivial, trivial, trivial, fresh_after_createStream 4, trivial, trivial, trivial⟩,
    fun h => ?_⟩
  obtain ⟨-, -, -, -, -, hlast, -⟩ := h
  have hsends := (hlast rfl).sends
  revert hsends
  decide

end SessionCore

end RWebTransport.Node
