import RWebTransport.Session.Ledger

/-!
# Sessions that share a budget

The sessions of a server charge children of one budget.  A call on one of them
changes the counters of its own budget and of the shared one by what its buffers
have grown or shrunk, and nothing else.  So in any run a closed session holds no
memory, and the shared counter is the sum over the sessions that are open.
-/

namespace RWebTransport

open Heap (Charged Rooted path shift)

/-- The sessions of a server, by connection.  Their heap is the shared one. -/
structure Sessions where
  heap : Heap
  sessions : Table Endpoint

/-- What may happen to the sessions of a server. -/
inductive SessionsOp where
  /-- A connection is accepted; its session gets a child of the shared budget. -/
  | accept (key : Nat) (remote : String × Nat) (supportedProtocols : List String)
      (allowedOrigins : Option (List String)) (responseHeaders : List (String × String))
      (conn : Quic.Connection)
  | call (key : Nat) (c : Call)
  /-- The session is dropped, with all its buffers. -/
  | drop (key : Nat)

namespace Endpoint

/-- The end of a session's scope. -/
def drop (e : Endpoint) : Heap :=
  e.streams.keys.foldl
    (fun h id => match e.streams.get id with
      | some st => st.release h
      | none => h) (e.heap.release e.capsuleBuf.memory e.capsuleBuf.capacity)

theorem Ledger.drop {base : List ParserMemory} {m n : Nat} {e : Endpoint} (h : Ledger base m n e)
    (hroot : Rooted base) : Charged base m n e.drop :=
  h.releases hroot fun id st hst heap => by rw [hst]

end Endpoint

namespace Sessions

/-- A server without sessions; the shared budget has index 0. -/
def start (limit : Nat) (allocator : Nat → Nat → Option Nat) : Sessions :=
  ⟨⟨[⟨limit, 0, none⟩], 0, allocator⟩, .empty⟩

/-- A session as it sees the shared heap. -/
def seen (p : Sessions) (e : Endpoint) : Endpoint := { e with heap := p.heap }

variable [H3.Codec]

/-- What an operation does. -/
def perform (p : Sessions) : SessionsOp → Sessions
  | .accept key remote supportedProtocols allowedOrigins responseHeaders conn =>
      if p.sessions.contains key then p
      else
        let e := Endpoint.server remote supportedProtocols allowedOrigins responseHeaders 0 conn p.heap
        ⟨e.heap, p.sessions.insert key e⟩
  | .call key c =>
      match p.sessions.get key with
      | none => p
      | some e => ⟨((p.seen e).call c).heap, p.sessions.insert key ((p.seen e).call c)⟩
  | .drop key =>
      match p.sessions.get key with
      | none => p
      | some e => ⟨(p.seen e).drop, p.sessions.erase key⟩

/-! ## The counters -/

omit [H3.Codec] in
/-- The counter of a budget. -/
def used (p : Sessions) (i : Nat) : Nat := ((p.heap.nodes[i]?).map ParserMemory.used).getD 0

/-- What the counters say of a session whose buffers have the charge `k`. -/
structure Sound (nodes : List ParserMemory) (e : Endpoint) : Prop where
  child : e.parserMemory ≠ 0
  node : ∃ limit, nodes[e.parserMemory]? = some ⟨limit, e.charge, some 0⟩
  capsule : e.capsuleBuf.memory = e.parserMemory
  streams : ∀ id st, e.streams.get id = some st → st.Attached e.parserMemory
  closed : e.closed = true → e.charge = 0

/-- Every session has a budget of its own, which is charged with its buffers, and
the shared one is charged with all. -/
structure Books (p : Sessions) : Prop where
  rooted : Rooted p.heap.nodes
  shared : ∃ limit, p.heap.nodes[0]? = some ⟨limit, p.sessions.total Endpoint.charge, none⟩
  sound : ∀ key e, p.sessions.get key = some e → Sound p.heap.nodes e
  distinct : ∀ key key' e e', p.sessions.get key = some e → p.sessions.get key' = some e' →
    e.parserMemory = e'.parserMemory → key = key'

section

omit [H3.Codec]

variable {p : Sessions} {key : Nat} {e : Endpoint}

theorem path_child {nodes : List ParserMemory} {m limit limit' u u' : Nat}
    (hm : nodes[m]? = some ⟨limit, u, some 0⟩) (h0 : nodes[0]? = some ⟨limit', u', none⟩) :
    path nodes m = [m, 0] := by
  have hlen : 0 < nodes.length := (List.getElem?_eq_some_iff.mp h0).1
  obtain ⟨d, hd⟩ : ∃ d, nodes.length = d + 1 := ⟨nodes.length - 1, by omega⟩
  unfold path
  rw [hd]
  simp [Heap.pathFrom, hm, h0]

/-- What the counters are without one of the sessions. -/
def base (p : Sessions) (e : Endpoint) : List ParserMemory :=
  shift p.heap.nodes (path p.heap.nodes e.parserMemory) (· - e.charge)

theorem Books.path (hb : p.Books) (he : p.sessions.get key = some e) :
    Heap.path p.heap.nodes e.parserMemory = [e.parserMemory, 0] := by
  obtain ⟨limit, hshared⟩ := hb.shared
  obtain ⟨limit', hnode⟩ := (hb.sound key e he).node
  exact path_child hnode hshared

theorem Books.ledger (hb : p.Books) (he : p.sessions.get key = some e) :
    Endpoint.Ledger (p.base e) e.parserMemory 0 (p.seen e) := by
  have hs := hb.sound key e he
  refine ⟨rfl, ?_, hs.capsule, hs.streams, hs.closed⟩
  show p.heap.nodes = shift (p.base e) (Heap.path (p.base e) e.parserMemory) (· + (e.charge + 0))
  rw [base, Heap.path_shift, Heap.shift_shift, hb.path he]
  refine List.ext_getElem? fun i => ?_
  rw [Heap.getElem?_shift]
  cases hi : p.heap.nodes[i]? with
  | none => rfl
  | some x =>
      rw [Option.map_some]
      split
      next hmem =>
        -- both budgets hold what the session has charged
        have hle : e.charge ≤ x.used := by
          rcases List.mem_pair.mp hmem with rfl | rfl
          · obtain ⟨limit, hnode⟩ := hs.node
            rw [Option.some.inj (hi.symm.trans hnode)]
          · obtain ⟨limit, hshared⟩ := hb.shared
            rw [Option.some.inj (hi.symm.trans hshared)]
            exact Table.le_total he _
        have hback : x.used - e.charge + (e.charge + 0) = x.used := by omega
        simp only [Function.comp_apply, hback]
      · rfl

/-- The counters behind an operation on one of the sessions. -/
theorem Books.moved (hb : p.Books) (he : p.sessions.get key = some e) {h : Heap} {k : Nat}
    (hc : Charged (p.base e) e.parserMemory k h) (i : Nat) :
    h.nodes[i]? = (p.heap.nodes[i]?).map fun x => if i ∈ [e.parserMemory, 0] then
      { x with used := x.used - e.charge + k } else x := by
  rw [hc, base, Heap.path_shift, Heap.shift_shift, Heap.getElem?_shift, hb.path he]
  rfl

/-- One session is replaced, or dropped, and its charge is exchanged. -/
theorem Books.exchange (hb : p.Books) (he : p.sessions.get key = some e) {h : Heap} {k : Nat}
    {sessions : Table Endpoint} (hc : Charged (p.base e) e.parserMemory k h)
    (htotal : sessions.total Endpoint.charge = k + (p.sessions.erase key).total Endpoint.charge)
    (hget : ∀ i x, sessions.get i = some x → i ≠ key ∧ p.sessions.get i = some x ∨
      i = key ∧ x.parserMemory = e.parserMemory ∧ x.charge = k ∧
        x.capsuleBuf.memory = x.parserMemory ∧
        (∀ id st, x.streams.get id = some st → st.Attached x.parserMemory) ∧
        (x.closed = true → x.charge = 0)) : Books ⟨h, sessions⟩ := by
  have hmoved := hb.moved he hc
  have hs := hb.sound key e he
  have hsplit := Table.total_split he Endpoint.charge
  obtain ⟨limit0, hshared⟩ := hb.shared
  obtain ⟨limit, hnode⟩ := hs.node
  have hmemory : ∀ i x, sessions.get i = some x → ∃ x0, p.sessions.get i = some x0 ∧
      x0.parserMemory = x.parserMemory := by
    intro i x hx
    rcases hget i x hx with ⟨-, hold⟩ | ⟨rfl, hm, -⟩
    · exact ⟨x, hold, rfl⟩
    · exact ⟨e, he, hm.symm⟩
  refine ⟨?_, ⟨limit0, ?_⟩, fun i x hx => ?_, fun i j x y hx hy hxy => ?_⟩
  · refine Heap.rooted_of_parents hb.rooted fun i m' hm' => ?_
    change h.nodes[i]? = some m' at hm'
    rw [hmoved i] at hm'
    obtain ⟨m0, hm0, rfl⟩ := Option.map_eq_some_iff.mp hm'
    refine ⟨m0, hm0, ?_⟩
    split <;> rfl
  · show h.nodes[0]? = _
    have hnew : p.sessions.total Endpoint.charge - e.charge + k =
        sessions.total Endpoint.charge := by omega
    rw [hmoved 0, hshared]
    simp [hnew]
  · rcases hget i x hx with ⟨hi, hold⟩ | ⟨rfl, hm, hk, hcapsule, hstreams, hclosed⟩
    · have hx := hb.sound i x hold
      obtain ⟨limit', hnode'⟩ := hx.node
      have hne : x.parserMemory ≠ e.parserMemory := fun heq => hi (hb.distinct i key x e hold he heq)
      refine ⟨hx.child, ⟨limit', ?_⟩, hx.capsule, hx.streams, hx.closed⟩
      show h.nodes[x.parserMemory]? = _
      rw [hmoved, hnode']
      simp [hne, hx.child]
    · refine ⟨hm ▸ hs.child, ⟨limit, ?_⟩, hcapsule, hstreams, hclosed⟩
      show h.nodes[x.parserMemory]? = _
      rw [hmoved, hm, hnode]
      simp [hk]
  · obtain ⟨x0, hx0, hxm⟩ := hmemory i x hx
    obtain ⟨y0, hy0, hym⟩ := hmemory j y hy
    exact hb.distinct i j x0 y0 hx0 hy0 (hxm.trans (hxy.trans hym.symm))

/-- A session is accepted. -/
theorem Books.accept (hb : p.Books) (hkey : p.sessions.get key = none)
    (hcapsule : e.capsuleBuf = .new e.parserMemory) (hstreams : e.streams = .empty)
    (hnodes : e.heap.nodes = p.heap.nodes ++ [⟨maxSessionParserMemory, 0, some 0⟩])
    (hm : e.parserMemory = p.heap.nodes.length) : Books ⟨e.heap, p.sessions.insert key e⟩ := by
  obtain ⟨limit, hshared⟩ := hb.shared
  have hlen : 0 < p.heap.nodes.length := (List.getElem?_eq_some_iff.mp hshared).1
  obtain ⟨hl, hzero⟩ := Endpoint.Ledger.fresh hcapsule hstreams
  have hold : ∀ {i : Nat} {x : Endpoint}, p.sessions.get i = some x →
      x.parserMemory < p.heap.nodes.length := by
    intro i x hx
    obtain ⟨limit', hnode⟩ := (hb.sound i x hx).node
    exact (List.getElem?_eq_some_iff.mp hnode).1
  refine ⟨?_, ⟨limit, ?_⟩, fun i x hx => ?_, fun i j x y hx hy hxy => ?_⟩
  · show Rooted e.heap.nodes
    rw [hnodes]
    exact Heap.rooted_append hb.rooted (by simpa using hlen)
  · show e.heap.nodes[0]? = _
    rw [hnodes, List.getElem?_append_left hlen, hshared]
    show _ = some (ParserMemory.mk limit ((p.sessions.insert key e).total Endpoint.charge) none)
    rw [Table.total_insert, Table.total_erase_of_none hkey, hzero, Nat.zero_add]
  · change Sound e.heap.nodes x
    rw [Table.get_insert] at hx
    split at hx
    · obtain rfl := Option.some.inj hx
      refine ⟨by omega, ⟨maxSessionParserMemory, ?_⟩, hl.capsule, hl.streams, hl.closed⟩
      rw [hnodes, hm, hzero, List.getElem?_append_right (Nat.le_refl _)]
      simp
    · have hs := hb.sound i x hx
      obtain ⟨limit', hnode⟩ := hs.node
      refine ⟨hs.child, ⟨limit', ?_⟩, hs.capsule, hs.streams, hs.closed⟩
      rw [hnodes, List.getElem?_append_left (hold hx), hnode]
  · simp only [Table.get_insert] at hx hy
    split at hx
    next hi =>
      obtain rfl := Option.some.inj hx
      split at hy
      next hj => rw [hi, hj]
      next hj =>
        have hlt := hold hy
        omega
    next hi =>
      split at hy
      next hj =>
        obtain rfl := Option.some.inj hy
        have hlt := hold hx
        omega
      next hj => exact hb.distinct i j x y hx hy hxy

theorem books_start (limit : Nat) (allocator : Nat → Nat → Option Nat) :
    (start limit allocator).Books where
  rooted i m q hm hq := by
    have hi : i = 0 := by
      have hlt := (List.getElem?_eq_some_iff.mp hm).1
      simpa [start] using hlt
    subst hi
    obtain rfl : ⟨limit, 0, none⟩ = m := Option.some.inj hm
    cases hq
  shared := ⟨limit, rfl⟩
  sound key e he := by cases he
  distinct key key' e e' he := by cases he

end

/-- Every operation keeps the books. -/
theorem Books.perform {p : Sessions} (hb : p.Books) (op : SessionsOp) : (p.perform op).Books := by
  cases op with
  | accept key remote supportedProtocols allowedOrigins responseHeaders conn =>
      simp only [Sessions.perform]
      split
      · exact hb
      next hkey =>
        have hnone : p.sessions.get key = none := by
          simpa [Table.contains] using hkey
        exact hb.accept hnone rfl rfl rfl rfl
  | call key c =>
      cases he : p.sessions.get key with
      | none => simpa only [Sessions.perform, he] using hb
      | some e =>
          simp only [Sessions.perform, he]
          have hl := (hb.ledger he).call c (Heap.rooted_shift hb.rooted _ _)
          refine hb.exchange he hl.charged (Table.total_insert _ _ _ _) fun i x hx => ?_
          rw [Table.get_insert] at hx
          split at hx
          next hi =>
            obtain rfl := Option.some.inj hx
            exact .inr ⟨hi, hl.memory, rfl, hl.capsule.trans hl.memory.symm,
              fun id st hst => hl.memory ▸ hl.streams id st hst, hl.closed⟩
          next hi => exact .inl ⟨hi, hx⟩
  | drop key =>
      cases he : p.sessions.get key with
      | none => simpa only [Sessions.perform, he] using hb
      | some e =>
          simp only [Sessions.perform, he]
          have hl := (hb.ledger he).drop (Heap.rooted_shift hb.rooted _ _)
          refine hb.exchange he hl (by rw [Nat.zero_add]) fun i x hx => ?_
          rw [Table.get_erase] at hx
          split at hx
          · cases hx
          next hi => exact .inl ⟨hi, hx⟩

theorem books_run (limit : Nat) (allocator : Nat → Nat → Option Nat) (ops : List SessionsOp) :
    (execute Sessions.perform (start limit allocator) ops).Books :=
  execute_invariant (I := Books) (fun _ op hb _ => hb.perform op) (books_start limit allocator)
    (along_true Sessions.perform ops _)

/-! ## Closed sessions -/

/-- The counters, read off: each budget is charged with the buffers of its session,
with nothing if that is closed, and the shared one with those of the open sessions. -/
structure Accounts (p : Sessions) : Prop where
  own : ∀ key e, p.sessions.get key = some e → p.used e.parserMemory = e.charge
  closed : ∀ key e, p.sessions.get key = some e → e.closed = true → p.used e.parserMemory = 0
  shared : p.used 0 =
    (p.sessions.filter fun _ e => !e.closed).total fun e => p.used e.parserMemory

section

variable {p : Sessions} {key : Nat} {e : Endpoint}

omit [H3.Codec] in
theorem Books.used (hb : p.Books) (he : p.sessions.get key = some e) :
    p.used e.parserMemory = e.charge := by
  obtain ⟨limit, hnode⟩ := (hb.sound key e he).node
  simp [Sessions.used, hnode]

omit [H3.Codec] in
theorem Books.accounts (hb : p.Books) : p.Accounts where
  own key e he := hb.used he
  closed key e he hc := (hb.used he).trans ((hb.sound key e he).closed hc)
  shared := by
    obtain ⟨limit, hshared⟩ := hb.shared
    have hused : p.used 0 = p.sessions.total Endpoint.charge := by simp [Sessions.used, hshared]
    rw [hused]
    refine Table.total_congr_get fun i => ?_
    rw [Table.get_filter]
    cases he : p.sessions.get i with
    | none => rfl
    | some e =>
        cases hc : e.closed with
        | true => simp [Option.filter, hc, (hb.sound i e he).closed hc]
        | false => simp [Option.filter, hc, hb.used he]

omit [H3.Codec] in
/-- An operation on one session changes no counter but its own and the shared one. -/
theorem Books.moved_used (hb : p.Books) (he : p.sessions.get key = some e) {h : Heap} {k : Nat}
    (hc : Charged (p.base e) e.parserMemory k h) {i : Nat} (hi : i ≠ 0) (sessions : Table Endpoint) :
    Sessions.used ⟨h, sessions⟩ i = if i = e.parserMemory then k else p.used i := by
  unfold Sessions.used
  simp only [hb.moved he hc]
  by_cases hown : i = e.parserMemory
  · obtain ⟨limit, hnode⟩ := (hb.sound key e he).node
    rw [if_pos hown, hown, hnode]
    simp
  · cases p.heap.nodes[i]? with
    | none => simp [hown]
    | some x => simp [hown, hi]

/-- A budget is used up by no session that is open. -/
structure Idle (m : Nat) (p : Sessions) : Prop where
  issued : m ≠ 0 ∧ m < p.heap.nodes.length
  zero : p.used m = 0
  closed : ∀ key e, p.sessions.get key = some e → e.parserMemory = m → e.closed = true

theorem Idle.perform {m : Nat} (h : p.Idle m) (hb : p.Books) (op : SessionsOp) :
    (p.perform op).Idle m := by
  cases op with
  | accept key remote supportedProtocols allowedOrigins responseHeaders conn =>
      simp only [Sessions.perform]
      split
      · exact h
      · have hlen : ∀ x : ParserMemory, m < (p.heap.nodes ++ [x]).length := fun _ =>
          h.issued.2.trans_le (by simp)
        refine ⟨⟨h.issued.1, hlen _⟩, ?_, fun k e he hm => ?_⟩
        · rw [← h.zero]
          show ((p.heap.nodes ++ [_])[m]?.map ParserMemory.used).getD 0 = _
          rw [List.getElem?_append_left h.issued.2]
          rfl
        · rw [Table.get_insert] at he
          split at he
          · obtain rfl := Option.some.inj he
            exact absurd hm (Nat.ne_of_gt h.issued.2)
          · exact h.closed k e he hm
  | call key c =>
      cases he : p.sessions.get key with
      | none => simpa only [Sessions.perform, he] using h
      | some e =>
          simp only [Sessions.perform, he]
          have hl := (hb.ledger he).call c (Heap.rooted_shift hb.rooted _ _)
          have hused := hb.moved_used he hl.charged h.issued.1
          have hstays : e.parserMemory = m → ((p.seen e).call c).closed = true := fun hm =>
            Endpoint.call_stays_closed (show (p.seen e).closed = true from h.closed key e he hm) c
          have hlen : ((p.seen e).call c).heap.nodes.length = p.heap.nodes.length := by
            rw [hl.charged, Heap.length_shift, base, Heap.length_shift]
          refine ⟨⟨h.issued.1, hlen ▸ h.issued.2⟩, ?_, fun k x hx hm => ?_⟩
          · rw [hused]
            split
            next hm => rw [hl.closed (hstays hm.symm)]
            · exact h.zero
          · rw [Table.get_insert] at hx
            split at hx
            · obtain rfl := Option.some.inj hx
              exact hstays (hl.memory.symm.trans hm)
            · exact h.closed k x hx hm
  | drop key =>
      cases he : p.sessions.get key with
      | none => simpa only [Sessions.perform, he] using h
      | some e =>
          simp only [Sessions.perform, he]
          have hl := (hb.ledger he).drop (Heap.rooted_shift hb.rooted _ _)
          have hused := hb.moved_used he hl h.issued.1
          have hlen : (p.seen e).drop.nodes.length = p.heap.nodes.length := by
            rw [hl, Heap.length_shift, base, Heap.length_shift]
          refine ⟨⟨h.issued.1, hlen ▸ h.issued.2⟩, ?_, fun k x hx hm => ?_⟩
          · rw [hused]
            split
            · rfl
            · exact h.zero
          · rw [Table.get_erase] at hx
            split at hx
            · cases hx
            · exact h.closed k x hx hm

omit [H3.Codec] in
/-- The budget of a session that is closed. -/
theorem Books.idle (hb : p.Books) (he : p.sessions.get key = some e) (hc : e.closed = true) :
    p.Idle e.parserMemory where
  issued := by
    obtain ⟨limit, hnode⟩ := (hb.sound key e he).node
    exact ⟨(hb.sound key e he).child, (List.getElem?_eq_some_iff.mp hnode).1⟩
  zero := hb.accounts.closed key e he hc
  closed key' e' he' hm := by
    obtain rfl := hb.distinct key' key e' e he' he hm
    exact Option.some.inj (he.symm.trans he') ▸ hc

end

/-- In every run of the sessions of a server the counters are right, a closed
session has none of the memory, now and after whatever follows, and a call on one
session leaves every other one as it was. -/
theorem closed_holds_nothing (limit : Nat) (allocator : Nat → Nat → Option Nat)
    (ops : List SessionsOp) :
    let p := execute Sessions.perform (start limit allocator) ops
    p.Accounts ∧
      (∀ key e, p.sessions.get key = some e → e.closed = true →
        ∀ more, (execute Sessions.perform p more).used e.parserMemory = 0) ∧
      ∀ key c other e, other ≠ key → p.sessions.get other = some e →
        (p.perform (.call key c)).sessions.get other = some e ∧
          (p.perform (.call key c)).used e.parserMemory = p.used e.parserMemory := by
  intro p
  have hb : p.Books := books_run limit allocator ops
  refine ⟨hb.accounts, fun key e he hc more => ?_, fun key c other e hne he => ?_⟩
  · have hrun := execute_invariant (I := fun q => Books q ∧ q.Idle e.parserMemory)
      (fun q op hq _ => ⟨hq.1.perform op, hq.2.perform hq.1 op⟩) ⟨hb, hb.idle he hc⟩
      (along_true Sessions.perform more p)
    exact hrun.2.zero
  · have hkept : (p.perform (.call key c)).sessions.get other = some e := by
      cases hx : p.sessions.get key with
      | none => simpa [Sessions.perform, hx] using he
      | some x => simpa [Sessions.perform, hx, Table.get_insert, hne] using he
    exact ⟨hkept, ((hb.perform _).used hkept).trans (hb.used he).symm⟩

end Sessions

end RWebTransport
