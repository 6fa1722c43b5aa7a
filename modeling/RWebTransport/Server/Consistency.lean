import RWebTransport.Server.Clients

/-!
# The tables of a server

What holds of `clients`, `routing` and `sessions` between the steps of the loop,
and of the messages that went to the sink.  Accepting inserts into all three
tables and dropping a connection removes from all three; every other step
replaces one session by what came of it.
-/

namespace RWebTransport.Server

open Endpoint (call)
open Quic (NetEvent Connection)

/-- The events that went out under an id. -/
def eventsOf (id : Nat) (l : List ServerMsg) : List Ev :=
  l.filterMap fun m => match m with
    | .session i ev => if i = id then some ev else none
    | _ => none

theorem eventsOf_append (id : Nat) (l m : List ServerMsg) :
    eventsOf id (l ++ m) = eventsOf id l ++ eventsOf id m := List.filterMap_append

theorem eventsOf_self (id : Nat) (evs : List Ev) : eventsOf id (evs.map (.session id)) = evs := by
  simp [eventsOf, List.filterMap_map]

theorem eventsOf_of_forall {id : Nat} {l : List ServerMsg} (h : ∀ m ∈ l, m.sessionId ≠ id) :
    eventsOf id l = [] := by
  refine List.filterMap_eq_nil_iff.mpr fun m hm => ?_
  cases m with
  | session i ev => exact if_neg (h _ hm)
  | stats | keyingMaterial => rfl

/-- A session, and the end it has told. -/
structure Client.Sound (c : Client) : Prop where
  layout : c.endpoint.Layout
  once : c.endpoint.ev.countP Ev.isClosed = c.endpoint.closed.toNat
  marked : c.closedEmitted = true → c.endpoint.closed = true

namespace Tables

/-- The session has this connection, now or when it was dropped. -/
def Owner (s : Tables) (c : Client) : Prop := (∃ cid, s.clients.get cid = some c) ∨ c ∈ s.reaped

theorem Owner.live {s : Tables} {c : Client} (cid : Nat) (h : s.clients.get cid = some c) :
    s.Owner c := .inl ⟨cid, h⟩

theorem Owner.reaped {s : Tables} {c : Client} (h : c ∈ s.reaped) : s.Owner c := .inr h

theorem not_owner_start {allocator : Nat → Nat → Option Nat} {c : Client} :
    ¬(start allocator).Owner c := by simp [Owner, start]

/-- What every step keeps. -/
structure Consistent (s : Tables) : Prop where
  sessions : ∀ id cid, s.sessions.get id = some cid ↔
    ∃ c, s.clients.get cid = some c ∧ c.sessionId = id
  routed : ∀ cid, (s.clients.get cid).isSome → s.routing.get cid = some cid
  identity : ∀ k cid, s.routing.get k = some cid → cid = k
  fresh : ∀ id ∈ s.accepted, id < s.nextSessionId
  distinct : s.accepted.Nodup
  known : ∀ c, s.Owner c → c.sessionId ∈ s.accepted
  gone : ∀ c ∈ s.reaped, s.sessions.get c.sessionId = none
  nodup : (s.reaped.map Client.sessionId).Nodup
  told : ∀ c, s.Owner c → eventsOf c.sessionId (s.emitted ++ s.out) = c.endpoint.ev
  owned : ∀ m ∈ s.emitted ++ s.out, ∃ c, s.Owner c ∧ m.sessionId = c.sessionId
  sound : ∀ c, s.Owner c → c.Sound
  ended : ∀ c ∈ s.reaped, c.endpoint.closed = true
  bounded : s.clients.keys.length ≤ maxConnections

theorem consistent_start (allocator : Nat → Nat → Option Nat) : (start allocator).Consistent where
  sessions _ _ := by simp [start]
  routed _ h := by simp [start] at h
  identity _ _ h := by simp [start] at h
  fresh id h := by simp [start] at h
  distinct := by simp [start]
  known c h := absurd h not_owner_start
  gone c h := by simp [start] at h
  nodup := by simp [start]
  told c h := absurd h not_owner_start
  owned m h := by simp [start] at h
  sound c h := absurd h not_owner_start
  ended c h := by simp [start] at h
  bounded := by simp [start, Table.empty]

section

variable {s : Tables}

/-- Two connections with one session id are one. -/
theorem Consistent.unique (h : s.Consistent) {cid cid' : Nat} {c c' : Client}
    (hc : s.clients.get cid = some c) (hc' : s.clients.get cid' = some c')
    (hid : c'.sessionId = c.sessionId) : cid' = cid := by
  have h1 := (h.sessions _ _).mpr ⟨c, hc, rfl⟩
  have h2 := (h.sessions _ _).mpr ⟨c', hc', hid⟩
  exact Option.some.inj (h2.symm.trans h1)

/-- The session of a connection was not dropped. -/
theorem Consistent.not_reaped (h : s.Consistent) {cid : Nat} {c : Client}
    (hc : s.clients.get cid = some c) {c' : Client} (hc' : c' ∈ s.reaped) :
    c'.sessionId ≠ c.sessionId := by
  intro heq
  have h1 := (h.sessions _ _).mpr ⟨c, hc, rfl⟩
  have h2 := h.gone c' hc'
  rw [heq, h1] at h2
  cases h2

/-- A connection is left in a state that tells more. -/
theorem Consistent.surface (h : s.Consistent) {cid : Nat} {c c' : Client}
    (hc : s.clients.get cid = some c) (hid : c'.sessionId = c.sessionId)
    (hev : c'.endpoint.ev = c.endpoint.ev) {e : Endpoint} (hl : e.Layout)
    (htells : Endpoint.Tells c.endpoint e)
    (hmarked : c'.closedEmitted = true → c.closedEmitted = true ∨ e.closed = true) : (s.surface cid c' c.sessionId e).Consistent := by
  obtain ⟨l, hl', hcount⟩ := htells
  have hdrop : e.ev.drop c'.endpoint.ev.length = l := by rw [hev, hl', List.drop_left]
  have hget : ∀ i, (s.surface cid c' c.sessionId e).clients.get i =
      if i = cid then some { c' with endpoint := e } else s.clients.get i := fun i => rfl
  have hout : (s.surface cid c' c.sessionId e).emitted ++ (s.surface cid c' c.sessionId e).out =
      (s.emitted ++ s.out) ++ l.map (.session c.sessionId) := by
    simp only [Tables.surface, hdrop, List.append_assoc]
  -- an owner is the connection in its new state, or was one before
  have howner : ∀ {d}, (s.surface cid c' c.sessionId e).Owner d →
      d = { c' with endpoint := e } ∨ s.Owner d ∧ d.sessionId ≠ c.sessionId := by
    intro d hd
    rcases hd with ⟨i, hi⟩ | hd
    · rw [hget] at hi
      split at hi
      · exact .inl (Option.some.inj hi).symm
      next hne => exact .inr ⟨.live i hi, fun heq => hne (h.unique hc hi heq)⟩
    · exact .inr ⟨.reaped hd, h.not_reaped hc hd⟩
  refine ⟨fun id i => ?_, fun i hi => ?_, h.identity, h.fresh, h.distinct, fun d hd => ?_, h.gone,
    h.nodup, fun d hd => ?_, fun m hm => ?_, fun d hd => ?_, h.ended, ?_⟩
  · refine (h.sessions id i).trans ?_
    rw [hget]
    split
    next hi =>
      subst hi
      simp only [hc, Option.some.injEq, exists_eq_left', hid]
    · exact Iff.rfl
  · rw [hget] at hi
    split at hi
    next heq => exact h.routed i (by rw [heq, hc]; rfl)
    · exact h.routed i hi
  · rcases howner hd with rfl | ⟨hd, -⟩
    · exact hid ▸ h.known c (.live cid hc)
    · exact h.known d hd
  · rw [hout, eventsOf_append]
    rcases howner hd with rfl | ⟨hd, hne⟩
    · change eventsOf c'.sessionId _ ++ eventsOf c'.sessionId _ = e.ev
      rw [hid, h.told c (.live cid hc), eventsOf_self, hl']
    · have hnone : eventsOf d.sessionId (l.map (.session c.sessionId)) = [] :=
        eventsOf_of_forall fun m hm => by
          obtain ⟨v, -, rfl⟩ := List.mem_map.mp hm
          exact hne.symm
      rw [h.told d hd, hnone, List.append_nil]
  · have hself : (s.surface cid c' c.sessionId e).Owner { c' with endpoint := e } :=
      .live cid (by rw [hget, if_pos rfl])
    rw [hout] at hm
    rcases List.mem_append.mp hm with hm | hm
    · obtain ⟨d, hd, heq⟩ := h.owned m hm
      rcases hd with ⟨i, hi⟩ | hd
      · by_cases hi' : i = cid
        · subst hi'
          obtain rfl := Option.some.inj (hi.symm.trans hc)
          exact ⟨_, hself, heq.trans hid.symm⟩
        · exact ⟨d, .live i (by rw [hget, if_neg hi']; exact hi), heq⟩
      · exact ⟨d, .reaped hd, heq⟩
    · obtain ⟨v, -, rfl⟩ := List.mem_map.mp hm
      exact ⟨_, hself, hid.symm⟩
  · rcases howner hd with rfl | ⟨hd, -⟩
    · have hsound := h.sound c (.live cid hc)
      refine ⟨hl, ?_, fun hmark => (hmarked hmark).elim (fun hm => ?_) id⟩
      on_goal 2 =>
        have hwas := hsound.marked hm
        change e.closed = true
        cases hopen : e.closed with
        | true => rfl
        | false => simp [hwas, hopen] at hcount
      have honce := hsound.once
      change e.ev.countP Ev.isClosed = e.closed.toNat
      rw [hl', List.countP_append]
      omega
    · exact h.sound d hd
  · have hkeys : (s.surface cid c' c.sessionId e).clients.keys = s.clients.keys := by
      simp [Tables.surface, Table.insert, Table.insertKey, hc]
    exact hkeys ▸ h.bounded

/-- The shared budget is not part of what a session promises. -/
theorem layout_on [H3.Codec] (h : s.Consistent) {cid : Nat} {c : Client}
    (hc : s.clients.get cid = some c) : (s.on c).Layout :=
  (Endpoint.Effect.heap (r := connectId) c.endpoint s.heap).layout (h.sound c (.live cid hc)).layout

theorem Consistent.visit [H3.Codec] (h : s.Consistent) {cid : Nat} {f : Endpoint → Endpoint}
    (hf : ∀ c, s.clients.get cid = some c → (f (s.on c)).Layout ∧ Endpoint.Tells (s.on c) (f (s.on c))) :
    (s.visit cid f).Consistent := by
  unfold Tables.visit
  split
  · exact h
  next c hc =>
    obtain ⟨hl, htells⟩ := hf c hc
    exact h.surface hc rfl rfl hl htells .inl

/-- A message without an event, under the id of a connection. -/
theorem Consistent.report (h : s.Consistent) {cid : Nat} {c : Client}
    (hc : s.clients.get cid = some c) {m : ServerMsg} (hid : m.sessionId = c.sessionId)
    (hm : ∀ id, eventsOf id [m] = []) : ({ s with out := s.out ++ [m] } : Tables).Consistent := by
  have hout : s.emitted ++ (s.out ++ [m]) = (s.emitted ++ s.out) ++ [m] :=
    (List.append_assoc _ _ _).symm
  refine ⟨h.sessions, h.routed, h.identity, h.fresh, h.distinct, h.known, h.gone, h.nodup,
    fun d hd => ?_, fun m' hm' => ?_, h.sound, h.ended, h.bounded⟩
  · change eventsOf d.sessionId (s.emitted ++ (s.out ++ [m])) = d.endpoint.ev
    rw [hout, eventsOf_append, hm, List.append_nil]
    exact h.told d hd
  · change m' ∈ s.emitted ++ (s.out ++ [m]) at hm'
    rw [hout] at hm'
    rcases List.mem_append.mp hm' with hm' | hm'
    · exact h.owned m' hm'
    · exact ⟨c, .live cid hc, List.mem_singleton.mp hm' ▸ hid⟩

/-- A new connection under an id that is not in use. -/
theorem Consistent.accept (h : s.Consistent) (setup : Setup) {p : Packet} {conn : Connection}
    (hroute : s.routing.get p.dcid = none) (hroom : s.clients.keys.length < maxConnections)
    (hconn : Endpoint.Fresh conn true) : (s.accept setup p conn).Consistent := by
  have hnone : s.clients.get p.dcid = none := by
    by_contra hsome
    have hrouted := h.routed p.dcid (Option.isSome_iff_ne_none.mpr hsome)
    rw [hroute] at hrouted
    cases hrouted
  generalize he : Endpoint.server p.remote setup.supportedProtocols setup.allowedOrigins
    setup.responseHeaders 0 conn s.heap = e
  have hstart : Endpoint.Start e := he ▸ .server _ _ _ _ _ _ _ hconn
  have hev : e.ev = [] ∧ e.closed = false := by
    subst he
    exact ⟨rfl, rfl⟩
  have hs' : s.accept setup p conn = { s with
      routing := s.routing.insert p.dcid p.dcid
      sessions := s.sessions.insert s.nextSessionId p.dcid
      clients := s.clients.insert p.dcid { endpoint := e, sessionId := s.nextSessionId }
      nextSessionId := s.nextSessionId + 1
      accepted := s.accepted ++ [s.nextSessionId]
      heap := e.heap } := by
    subst he
    rfl
  rw [hs']
  have howner : ∀ {d}, ((∃ cid, (s.clients.insert p.dcid
      { endpoint := e, sessionId := s.nextSessionId }).get cid = some d) ∨ d ∈ s.reaped) →
      d = { endpoint := e, sessionId := s.nextSessionId } ∨ s.Owner d := by
    rintro d (⟨i, hi⟩ | hd)
    · rw [Table.get_insert] at hi
      split at hi
      · exact .inl (Option.some.inj hi).symm
      · exact .inr (.live i hi)
    · exact .inr (.reaped hd)
  have hlive : ∀ {d i}, s.clients.get i = some d → (s.clients.insert p.dcid
      { endpoint := e, sessionId := s.nextSessionId }).get i = some d := by
    intro d i hi
    rw [Table.get_insert_ne]
    · exact hi
    · rintro rfl
      rw [hnone] at hi
      cases hi
  have hfresh : ∀ {d}, s.Owner d → d.sessionId < s.nextSessionId := fun hd =>
    h.fresh _ (h.known _ hd)
  refine ⟨fun id i => ?_, fun i hi => ?_, fun k i hi => ?_, fun id hid => ?_, ?_, fun d hd => ?_,
    fun d hd => ?_, h.nodup, fun d hd => ?_, fun m hm => ?_, fun d hd => ?_, h.ended, ?_⟩
  · constructor
    · intro hi
      rw [Table.get_insert] at hi
      split at hi
      next hid =>
        obtain rfl := Option.some.inj hi
        exact ⟨_, Table.get_insert_self _ _ _, hid.symm⟩
      · obtain ⟨c, hc, hid⟩ := (h.sessions id i).mp hi
        exact ⟨c, hlive hc, hid⟩
    · rintro ⟨c, hc, rfl⟩
      rw [Table.get_insert] at hc ⊢
      split at hc
      next hi =>
        obtain rfl := Option.some.inj hc
        rw [if_pos rfl, hi]
      · rw [if_neg (Nat.ne_of_lt (hfresh (.live i hc)))]
        exact (h.sessions _ _).mpr ⟨c, hc, rfl⟩
  · rw [Table.get_insert] at hi ⊢
    split at hi
    next heq => rw [if_pos heq, heq]
    next hne =>
      rw [if_neg hne]
      exact h.routed i hi
  · rw [Table.get_insert] at hi
    split at hi
    next heq => exact (Option.some.inj hi).symm.trans heq.symm
    · exact h.identity k i hi
  · rcases List.mem_append.mp hid with hid | hid
    · exact Nat.lt_succ_of_lt (h.fresh id hid)
    · exact List.mem_singleton.mp hid ▸ Nat.lt_succ_self _
  · refine List.Nodup.append h.distinct (List.nodup_singleton _) ?_
    exact List.disjoint_singleton.mpr fun hmem => absurd (h.fresh _ hmem) (Nat.lt_irrefl _)
  · rcases howner hd with rfl | hd
    · exact List.mem_append_right _ (List.mem_singleton.mpr rfl)
    · exact List.mem_append_left _ (h.known d hd)
  · rw [Table.get_insert_ne (Nat.ne_of_lt (hfresh (.reaped hd)))]
    exact h.gone d hd
  · rcases howner hd with rfl | hd
    · change eventsOf s.nextSessionId (s.emitted ++ s.out) = e.ev
      rw [hev.1]
      refine eventsOf_of_forall fun m hm => ?_
      obtain ⟨d, hd, heq⟩ := h.owned m hm
      exact heq ▸ Nat.ne_of_lt (hfresh hd)
    · exact h.told d hd
  · obtain ⟨d, hd, heq⟩ := h.owned m hm
    rcases hd with ⟨i, hi⟩ | hd
    · exact ⟨d, .live i (hlive hi), heq⟩
    · exact ⟨d, .reaped hd, heq⟩
  · rcases howner hd with rfl | hd
    · exact ⟨hstart.layout, by simp [hev.1, hev.2], fun hmark => by cases hmark⟩
    · exact h.sound d hd
  · have hkeys : (s.clients.insert p.dcid { endpoint := e, sessionId := s.nextSessionId }).keys =
        s.clients.keys ++ [p.dcid] := by simp [Table.insert, Table.insertKey, hnone]
    rw [hkeys, List.length_append]
    exact hroom

/-- A closed connection whose session has ended is dropped. -/
theorem Consistent.drop (h : s.Consistent) {cid : Nat} {c : Client}
    (hc : s.clients.get cid = some c) (hended : c.endpoint.closed = true) (heap : Heap) :
    ({ s with
      clients := s.clients.erase cid
      sessions := s.sessions.erase c.sessionId
      heap := heap
      reaped := s.reaped ++ [c] } : Tables).Consistent := by
  have howner : ∀ {d}, ((∃ i, (s.clients.erase cid).get i = some d) ∨ d ∈ s.reaped ++ [c]) →
      s.Owner d := by
    rintro d (⟨i, hi⟩ | hd)
    · rw [Table.get_erase] at hi
      split at hi
      · cases hi
      · exact .live i hi
    · rcases List.mem_append.mp hd with hd | hd
      · exact .reaped hd
      · exact List.mem_singleton.mp hd ▸ .live cid hc
  refine ⟨fun id i => ?_, fun i hi => ?_, h.identity, h.fresh, h.distinct,
    fun d hd => h.known d (howner hd), fun d hd => ?_, ?_, fun d hd => h.told d (howner hd), fun m hm => ?_,
    fun d hd => h.sound d (howner hd), fun d hd => ?_, ?_⟩
  · constructor
    · intro hi
      rw [Table.get_erase] at hi
      split at hi
      · cases hi
      next hne =>
        obtain ⟨d, hd, rfl⟩ := (h.sessions id i).mp hi
        refine ⟨d, ?_, rfl⟩
        rw [Table.get_erase, if_neg]
        · exact hd
        · rintro rfl
          exact hne (congrArg Client.sessionId (Option.some.inj (hd.symm.trans hc)))
    · rintro ⟨d, hd, rfl⟩
      rw [Table.get_erase] at hd ⊢
      split at hd
      · cases hd
      next hne =>
        rw [if_neg fun heq => hne (h.unique hc hd heq)]
        exact (h.sessions _ _).mpr ⟨d, hd, rfl⟩
  · rw [Table.get_erase] at hi
    split at hi
    · cases hi
    · exact h.routed i hi
  · rw [Table.get_erase]
    split
    · rfl
    next hne =>
      rcases List.mem_append.mp hd with hd | hd
      · exact h.gone d hd
      · exact absurd (congrArg Client.sessionId (List.mem_singleton.mp hd)) hne
  · rw [List.map_append]
    refine List.Nodup.append h.nodup (List.nodup_singleton _) ?_
    simp only [List.map_cons, List.map_nil, List.disjoint_singleton, List.mem_map, not_exists, not_and]
    exact fun d hd => h.not_reaped hc hd
  · obtain ⟨d, hd, heq⟩ := h.owned m hm
    rcases hd with ⟨i, hi⟩ | hd
    · by_cases hi' : i = cid
      · subst hi'
        obtain rfl := Option.some.inj (hi.symm.trans hc)
        exact ⟨d, .reaped (by simp), heq⟩
      · exact ⟨d, .live i (by rw [Table.get_erase, if_neg hi']; exact hi), heq⟩
    · exact ⟨d, .reaped (List.mem_append_left _ hd), heq⟩
  · rcases List.mem_append.mp hd with hd | hd
    · exact h.ended d hd
    · exact List.mem_singleton.mp hd ▸ hended
  · exact (List.length_filter_le _ _).trans h.bounded

end

/-! ## Steps -/

/-- What the steps in front of `retain` leave alone: what was emitted and
dropped, and that routes lead to connections. -/
structure Kept (s s' : Tables) : Prop where
  emitted : s'.emitted = s.emitted
  reaped : s'.reaped = s.reaped
  targets : (∀ k cid, s.routing.get k = some cid → (s.clients.get cid).isSome) →
    ∀ k cid, s'.routing.get k = some cid → (s'.clients.get cid).isSome

theorem Kept.refl (s : Tables) : Kept s s := ⟨rfl, rfl, id⟩

theorem Kept.trans {a b c : Tables} (hab : Kept a b) (hbc : Kept b c) : Kept a c :=
  ⟨hbc.emitted.trans hab.emitted, hbc.reaped.trans hab.reaped, fun h => hbc.targets (hab.targets h)⟩

theorem Kept.surface {s : Tables} (cid : Nat) (c : Client) (session : Nat) (e : Endpoint) :
    Kept s (s.surface cid c session e) := by
  refine ⟨rfl, rfl, fun h k i hi => ?_⟩
  change ((s.clients.insert cid _).get i).isSome
  rw [Table.get_insert]
  split
  · rfl
  · exact h k i hi

theorem Kept.visit {s : Tables} (cid : Nat) (f : Endpoint → Endpoint) : Kept s (s.visit cid f) := by
  unfold Tables.visit
  split
  · exact .refl s
  · exact .surface cid _ _ _

theorem Kept.accept {s : Tables} (setup : Setup) (p : Packet) (conn : Connection) :
    Kept s (s.accept setup p conn) := by
  refine ⟨rfl, rfl, fun h k i hi => ?_⟩
  change (s.routing.insert p.dcid p.dcid).get k = some i at hi
  change ((s.clients.insert p.dcid _).get i).isSome
  rw [Table.get_insert] at hi ⊢
  split
  · rfl
  next hne =>
    split at hi
    · exact absurd (Option.some.inj hi).symm hne
    · exact h k i hi

section

variable {s : Tables}

/-- The connection has ended its session, if it is closed. -/
def EndedAt (r : Round) (s : Tables) (cid : Nat) : Prop :=
  ∀ c, s.clients.get cid = some c → (r.closed cid).isSome → c.endpoint.closed = true

theorem endSession_closed (e : Endpoint) (how : Closure) : (e.endSession how).closed = true := by
  unfold Endpoint.endSession
  split
  next h => exact h
  · split
    · exact Endpoint.markClosed_closed _ _ _ _
    · exact Endpoint.markClosed_closed _ _ _ _

theorem Consistent.retain (h : s.Consistent) {r : Round} {cid : Nat} (hended : EndedAt r s cid) :
    (s.retain r cid).Consistent ∧ ∀ i, EndedAt r s i → EndedAt r (s.retain r cid) i := by
  unfold Tables.retain
  split
  next c how hc hhow =>
    refine ⟨h.drop hc (hended c hc (by simp [hhow])) _, fun i hi d hd => ?_⟩
    change (s.clients.erase cid).get i = some d at hd
    rw [Table.get_erase] at hd
    split at hd
    · cases hd
    · exact hi d hd
  · exact ⟨h, fun _ hi => hi⟩

theorem Consistent.retainRouting (h : s.Consistent) : s.retainRouting.Consistent where
  sessions := h.sessions
  routed cid hcid := by
    have hrouted := h.routed cid hcid
    have hlive : s.clients.contains cid = true := hcid
    change (s.routing.filter fun _ scid => s.clients.contains scid).get cid = some cid
    rw [Table.get_filter, hrouted, Option.filter_some, if_pos hlive]
  identity k cid hk := by
    change (s.routing.filter fun _ scid => s.clients.contains scid).get k = some cid at hk
    rw [Table.get_filter] at hk
    exact h.identity k cid (Option.filter_eq_some_iff.mp hk).1
  fresh := h.fresh
  distinct := h.distinct
  known := h.known
  gone := h.gone
  nodup := h.nodup
  told := h.told
  owned := h.owned
  sound := h.sound
  ended := h.ended
  bounded := h.bounded

theorem retainRouting_targets (s : Tables) {k cid : Nat} (h : s.retainRouting.routing.get k = some cid) :
    (s.retainRouting.clients.get cid).isSome := by
  change (s.routing.filter fun _ scid => s.clients.contains scid).get k = some cid at h
  rw [Table.get_filter] at h
  exact (Option.filter_eq_some_iff.mp h).2

/-- What a phase keeps if each of its steps does. -/
theorem execute_kept {α : Type} {step : Tables → α → Tables} {P : Tables → α → Prop}
    (hstep : ∀ s a, s.Consistent → P s a → (step s a).Consistent ∧ Kept s (step s a)) {l : List α}
    (h : s.Consistent) (hl : Along step P s l) :
    (execute step s l).Consistent ∧ Kept s (execute step s l) :=
  execute_invariant (I := fun s' => s'.Consistent ∧ Kept s s')
    (fun s' a hI ha => ⟨(hstep s' a hI.1 ha).1, hI.2.trans (hstep s' a hI.1 ha).2⟩)
    ⟨h, .refl s⟩ hl

end

section

variable [H3.Codec]

/-- quiche reports the stream of an accepted connection as new. -/
def PacketAdmissible (_ : Tables) (p : Packet) : Prop :=
  ∀ conn, p.accept = some conn → Endpoint.Fresh conn true

/-- The contract of a command: it names a stream that its session knows. -/
def CommandAdmissible (s : Tables) (cmd : ServerCommand) : Prop :=
  ∀ op, cmd.request = .call op → isCommand op = true ∧
    ∀ cid c, s.clients.get cid = some c → c.sessionId = cmd.session → (s.on c).Admissible op

/-- The contracts of the calls of the drive step. -/
def DriveAdmissible (r : Round) (s : Tables) (cid : Nat) : Prop :=
  ∀ c, s.clients.get cid = some c →
    Along call Endpoint.Admissible (s.on c) (driveCalls r cid (s.on c))

/-- The contracts of a round. -/
structure Admissible (sha256 : Bytes → Bytes) (setup : Setup) (s : Tables) (r : Round) : Prop where
  packets : Along (receive sha256 setup) PacketAdmissible s r.packets
  commands : Along applyCommand CommandAdmissible (s.received sha256 setup r) r.commands
  turns : Along (drive r) (DriveAdmissible r) (s.commanded sha256 setup r)
    (r.order.order (s.commanded sha256 setup r).clients.keys)

variable {s : Tables}

theorem network_faithful {e : Endpoint} (hl : e.Layout) (events : List NetEvent) :
    (network events e).Layout ∧ Endpoint.Tells e (network events e) :=
  Endpoint.run_tells hl (network_admissible events e)

theorem Consistent.network (h : s.Consistent) (cid : Nat) (events : List NetEvent) :
    (s.visit cid (network events)).Consistent :=
  h.visit fun _ hc => network_faithful (layout_on h hc) events

theorem Consistent.receive (h : s.Consistent) {sha256 : Bytes → Bytes} {setup : Setup} {p : Packet}
    (hp : PacketAdmissible s p) :
    (s.receive sha256 setup p).Consistent ∧ Kept s (s.receive sha256 setup p) := by
  have hroute : (s.route sha256 setup p).1.Consistent ∧ Kept s (s.route sha256 setup p).1 := by
    unfold Tables.route
    split
    · exact ⟨h, .refl s⟩
    next hnone =>
      split_ifs with hinitial hfull hempty
      · exact ⟨h, .refl s⟩
      · exact ⟨h, .refl s⟩
      · exact ⟨h, .refl s⟩
      · split
        · exact ⟨h, .refl s⟩
        · split
          · exact ⟨h, .refl s⟩
          next conn haccept =>
            have hroom : s.clients.keys.length < maxConnections := by
              simp only [not_or, not_le] at hfull
              exact hfull.1
            exact ⟨h.accept setup hnone hroom (hp conn haccept), .accept setup p conn⟩
  unfold Tables.receive
  generalize s.route sha256 setup p = routed at hroute
  obtain ⟨s', scid⟩ := routed
  cases scid with
  | none => exact hroute
  | some scid => exact ⟨hroute.1.network scid _, hroute.2.trans (.visit scid _)⟩

theorem Consistent.applyCommand (h : s.Consistent) {cmd : ServerCommand}
    (hcmd : CommandAdmissible s cmd) :
    (s.applyCommand cmd).Consistent ∧ Kept s (s.applyCommand cmd) := by
  unfold Tables.applyCommand
  split
  · exact ⟨h, .refl s⟩
  next scid hscid =>
    obtain ⟨c, hc, hid⟩ := (h.sessions _ _).mp hscid
    simp only [hc]
    split
    next op hop =>
      have hcalls : Along Endpoint.call Endpoint.Admissible (s.on c) [op] :=
        ⟨(hcmd op hop).2 scid c hc hid, trivial⟩
      have hrun := Endpoint.run_tells (layout_on h hc) hcalls
      exact ⟨hid ▸ h.surface hc rfl rfl hrun.1 hrun.2 .inl, .surface _ _ _ _⟩
    · exact ⟨h.report hc hid.symm fun _ => rfl, rfl, rfl, id⟩
    · exact ⟨h.report hc hid.symm fun _ => rfl, rfl, rfl, id⟩

theorem closeEnded_faithful {e : Endpoint} (hl : e.Layout) :
    (closeEnded e).Layout ∧ Endpoint.Tells e (closeEnded e) := by
  unfold closeEnded
  split
  · exact (Endpoint.tells_whole e).closeConn _ _ ⟨hl, .refl e⟩
  · exact ⟨hl, .refl e⟩

theorem Consistent.drive (h : s.Consistent) {r : Round} {cid : Nat} (hr : DriveAdmissible r s cid) :
    (s.drive r cid).Consistent ∧ Kept s (s.drive r cid) := by
  have hdriven : (s.visit cid (driveSession r cid)).Consistent := h.visit fun c hc => by
    obtain ⟨hl, htells⟩ := Endpoint.run_tells (layout_on h hc) (hr c hc)
    obtain ⟨hl', htells'⟩ := closeEnded_faithful hl
    exact ⟨hl', htells.trans htells'⟩
  have hpublished : ((s.visit cid (driveSession r cid)).publish cid).Consistent ∧
      Kept s ((s.visit cid (driveSession r cid)).publish cid) := by
    unfold Tables.publish
    split
    · exact ⟨⟨hdriven.sessions, hdriven.routed, hdriven.identity, hdriven.fresh, hdriven.distinct,
        hdriven.known, hdriven.gone, hdriven.nodup, hdriven.told, hdriven.owned, hdriven.sound,
        hdriven.ended, hdriven.bounded⟩, (Kept.visit cid _).trans ⟨rfl, rfl, id⟩⟩
    · exact ⟨hdriven, .visit cid _⟩
  exact ⟨hpublished.1.network cid _, hpublished.2.trans (.visit cid _)⟩

theorem Consistent.finish (h : s.Consistent) (r : Round) (cid : Nat) :
    (s.finish r cid).Consistent ∧ Kept s (s.finish r cid) ∧ EndedAt r (s.finish r cid) cid ∧
      ∀ i, EndedAt r s i → EndedAt r (s.finish r cid) i := by
  unfold Tables.finish
  split
  next c how hc hhow =>
    split
    next hmarked =>
      have hclosed := (h.sound c (.live cid hc)).marked hmarked
      refine ⟨h, .refl s, fun d hd _ => ?_, fun _ hi => hi⟩
      rwa [← Option.some.inj (hc.symm.trans hd)]
    · have hends := (Endpoint.tells_whole (s.on c)).endSession ⟨layout_on h hc, .refl _⟩ how
      have hclosed := endSession_closed (s.on c) how
      have hself : EndedAt r (s.surface cid { c with closedEmitted := true } c.sessionId
          ((s.on c).endSession how)) cid := by
        intro d hd _
        change (s.clients.insert cid _).get cid = some d at hd
        rw [Table.get_insert_self] at hd
        exact Option.some.inj hd ▸ hclosed
      have hkept : (s.surface cid { c with closedEmitted := true } c.sessionId
          ((s.on c).endSession how)).Consistent :=
        h.surface hc (show ({ c with closedEmitted := true } : Client).sessionId = c.sessionId from rfl)
          rfl hends.1 hends.2 fun _ => .inr hclosed
      refine ⟨hkept, .surface _ _ _ _, hself, fun i hi d hd hd' => ?_⟩
      by_cases heq : i = cid
      · subst heq
        exact hself d hd hd'
      · change (s.clients.insert cid _).get i = some d at hd
        rw [Table.get_insert_ne heq] at hd
        exact hi d hd hd'
  next hnot =>
    refine ⟨h, .refl s, fun d hd hclosed => ?_, fun _ hi => hi⟩
    obtain ⟨how, hhow⟩ := Option.isSome_iff_exists.mp hclosed
    exact absurd hhow (hnot d how hd)

/-! ## Rounds -/

theorem Consistent.received (h : s.Consistent) {sha256 : Bytes → Bytes} {setup : Setup} {r : Round}
    (hp : Along (Tables.receive sha256 setup) PacketAdmissible s r.packets) :
    (s.received sha256 setup r).Consistent ∧ Kept s (s.received sha256 setup r) := by
  obtain ⟨hpackets, hkept⟩ := execute_kept (fun _ _ h hp => h.receive hp) h hp
  obtain ⟨htimeouts, hkept'⟩ := execute_kept (P := fun _ _ => True)
    (fun _ _ h _ => ⟨h.network _ _, Kept.visit _ _⟩) hpackets (along_true _ _ _)
  exact ⟨htimeouts, hkept.trans hkept'⟩

theorem Consistent.commanded (h : s.Consistent) {sha256 : Bytes → Bytes} {setup : Setup} {r : Round}
    (hr : s.Admissible sha256 setup r) :
    (s.commanded sha256 setup r).Consistent ∧ Kept s (s.commanded sha256 setup r) := by
  obtain ⟨hreceived, hkept⟩ := h.received hr.packets
  obtain ⟨hcommanded, hkept'⟩ := execute_kept (fun _ _ h hc => h.applyCommand hc) hreceived hr.commands
  exact ⟨hcommanded, hkept.trans hkept'⟩

theorem Consistent.stop (h : s.Consistent) (r : Round) :
    (s.stop r).Consistent ∧ Kept s (s.stop r) := by
  have hclosed : ∀ (s : Tables) (cid : Nat), s.Consistent → (s.closeClient r cid).Consistent := by
    intro s cid h
    refine h.visit fun c hc => ?_
    obtain ⟨hl, htells⟩ :=
      (Endpoint.tells_whole (s.on c)).closeConn 0 (H3.ascii "server shutdown") ⟨layout_on h hc, .refl _⟩
    obtain ⟨hl', htells'⟩ := network_faithful hl (r.turns cid).sent
    exact ⟨hl', htells.trans htells'⟩
  obtain ⟨hs, hkept⟩ := execute_kept (P := fun _ _ => True)
    (fun s cid h _ => ⟨hclosed s cid h, Kept.visit cid _⟩) h
    (along_true (Tables.closeClient r) (r.order.order s.clients.keys) s)
  exact ⟨⟨hs.sessions, hs.routed, hs.identity, hs.fresh, hs.distinct, hs.known, hs.gone, hs.nodup,
    hs.told, hs.owned, hs.sound, hs.ended, hs.bounded⟩, hkept.emitted, hkept.reaped, hkept.targets⟩

/-- The first loop of step 5 ends the session of every closed connection. -/
theorem Consistent.finished (h : s.Consistent) (r : Round) :
    (s.forClients r (Tables.finish r)).Consistent ∧
      ∀ cid, EndedAt r (s.forClients r (Tables.finish r)) cid := by
  have hloop : ∀ (l : List Nat) (s : Tables), s.Consistent →
      (execute (Tables.finish r) s l).Consistent ∧
        (∀ cid, cid ∈ l ∨ EndedAt r s cid → EndedAt r (execute (Tables.finish r) s l) cid) := by
    intro l
    induction l with
    | nil => exact fun s h => ⟨h, fun cid hcid => hcid.resolve_left List.not_mem_nil⟩
    | cons k l ih =>
        intro s h
        obtain ⟨hnext, -, hself, hothers⟩ := h.finish r k
        obtain ⟨hend, hall⟩ := ih _ hnext
        refine ⟨hend, fun cid hcid => hall cid ?_⟩
        rcases hcid with hcid | hcid
        · rcases List.mem_cons.mp hcid with rfl | hcid
          · exact .inr hself
          · exact .inl hcid
        · exact .inr (hothers cid hcid)
  obtain ⟨hend, hall⟩ := hloop (r.order.order s.clients.keys) s h
  refine ⟨hend, fun cid => hall cid ?_⟩
  by_cases hcid : cid ∈ s.clients.keys
  · exact .inl ((r.order.perm _).mem_iff.mpr hcid)
  · refine .inr fun c hc _ => absurd (Table.mem_keys_of_get hc) hcid

omit [H3.Codec] in
theorem Consistent.retained (h : s.Consistent) {r : Round} (hended : ∀ cid, EndedAt r s cid) :
    (s.forClients r (Tables.retain r)).Consistent :=
  (execute_invariant (I := fun s => s.Consistent ∧ ∀ cid, EndedAt r s cid) (P := fun _ _ => True)
    (fun _ cid hI _ => ⟨(hI.1.retain (hI.2 cid)).1, fun i => (hI.1.retain (hI.2 cid)).2 i (hI.2 i)⟩)
    ⟨h, hended⟩ (along_true _ _ _)).1

/-- What holds between rounds. -/
structure Settled (s : Tables) : Prop where
  consistent : s.Consistent
  targets : ∀ k cid, s.routing.get k = some cid → (s.clients.get cid).isSome
  reported : ∀ c ∈ s.reaped, eventsOf c.sessionId s.emitted = c.endpoint.ev
  idle : s.stopped = false → s.out = []

omit [H3.Codec] in
theorem settled_start (allocator : Nat → Nat → Option Nat) : (start allocator).Settled where
  consistent := consistent_start allocator
  targets _ _ h := by simp [start] at h
  reported _ h := by simp [start] at h
  idle _ := rfl

theorem Settled.act (h : s.Settled) {sha256 : Bytes → Bytes} {setup : Setup} {r : Round}
    (hr : s.Admissible sha256 setup r) : (s.act sha256 setup r).Settled := by
  unfold Tables.act
  split
  · exact h
  · obtain ⟨hcommanded, hkept⟩ := h.consistent.commanded hr
    split
    · obtain ⟨hstopped, hkept'⟩ := hcommanded.stop r
      have hall := hkept.trans hkept'
      refine ⟨hstopped, hall.targets h.targets, fun c hc => ?_, fun hrun => by cases hrun⟩
      rw [hall.emitted]
      exact h.reported c (hall.reaped ▸ hc)
    · obtain ⟨hdriven, hkept'⟩ := execute_kept (fun _ _ h hd => h.drive hd) hcommanded hr.turns
      obtain ⟨hfinished, hended⟩ := Consistent.finished hdriven r
      have hpruned := (hfinished.retained hended).retainRouting
      generalize hs' : (((execute (drive r) (s.commanded sha256 setup r)
        (r.order.order (s.commanded sha256 setup r).clients.keys)).forClients r
          (Tables.finish r)).forClients r (Tables.retain r)).retainRouting = s' at hpruned
      have htargets : ∀ k cid, s'.routing.get k = some cid → (s'.clients.get cid).isSome := by
        subst hs'
        exact fun k cid => retainRouting_targets _
      have hout : s'.emitted ++ s'.out ++ [] = s'.emitted ++ s'.out := List.append_nil _
      have hemit : s'.emit.Consistent := by
        refine ⟨hpruned.sessions, hpruned.routed, hpruned.identity, hpruned.fresh, hpruned.distinct,
          hpruned.known, hpruned.gone, hpruned.nodup, fun c hc => ?_, fun m hm => ?_, hpruned.sound,
          hpruned.ended, hpruned.bounded⟩
        · exact hout ▸ hpruned.told c hc
        · exact hpruned.owned m (hout ▸ hm)
      have hdone : s'.emit.Settled :=
        ⟨hemit, htargets, fun c hc => hpruned.told c (.reaped hc), fun _ => rfl⟩
      subst hs'
      exact hdone

theorem settled_run {sha256 : Bytes → Bytes} {setup : Setup} {allocator : Nat → Nat → Option Nat}
    {rounds : List Round}
    (hrun : Along (Tables.act sha256 setup) (Admissible sha256 setup) (start allocator) rounds) :
    (execute (Tables.act sha256 setup) (start allocator) rounds).Settled :=
  execute_invariant (I := Settled) (fun _ _ h hr => h.act hr) (settled_start allocator) hrun

/-- What `apply_command` leaves alone: the tables, every session but the one
that the command names, and the messages under other ids. -/
structure Targeted (s : Tables) (cmd : ServerCommand) (s' : Tables) : Prop where
  tables : s'.sessions = s.sessions ∧ s'.routing = s.routing ∧ s'.emitted = s.emitted ∧
    s'.nextSessionId = s.nextSessionId ∧ s'.reaped = s.reaped
  others : ∀ cid, (∀ c, s.clients.get cid = some c → c.sessionId ≠ cmd.session) →
    s'.clients.get cid = s.clients.get cid
  named : ∀ cid c c', s.clients.get cid = some c → s'.clients.get cid = some c' →
    c'.sessionId = c.sessionId
  messages : ∃ l, s'.out = s.out ++ l ∧ ∀ m ∈ l, m.sessionId = cmd.session
  absent : s.sessions.get cmd.session = none → s' = s

theorem Consistent.targeted (h : s.Consistent) (cmd : ServerCommand) :
    Targeted s cmd (s.applyCommand cmd) := by
  unfold Tables.applyCommand
  split
  · exact ⟨⟨rfl, rfl, rfl, rfl, rfl⟩, fun _ _ => rfl, fun _ c c' hc hc' => by
      rw [Option.some.inj (hc.symm.trans hc')], ⟨[], by simp⟩, fun _ => rfl⟩
  next scid hscid =>
    obtain ⟨c, hc, hid⟩ := (h.sessions _ _).mp hscid
    have hpresent : s.sessions.get cmd.session ≠ none := by simp [hscid]
    simp only [hc]
    split
    next op hop =>
      refine ⟨⟨rfl, rfl, rfl, rfl, rfl⟩, fun cid hcid => ?_, fun cid d d' hd hd' => ?_,
        ⟨_, rfl, fun m hm => ?_⟩, fun hnone => absurd hnone hpresent⟩
      · change (s.clients.insert scid _).get cid = s.clients.get cid
        rw [Table.get_insert_ne]
        rintro rfl
        exact hcid c hc hid
      · change (s.clients.insert scid _).get cid = some d' at hd'
        rw [Table.get_insert] at hd'
        split at hd'
        next heq =>
          subst heq
          obtain rfl := Option.some.inj (hd.symm.trans hc)
          exact (congrArg Client.sessionId (Option.some.inj hd')).symm
        · rw [Option.some.inj (hd.symm.trans hd')]
      · obtain ⟨v, -, rfl⟩ := List.mem_map.mp hm
        rfl
    · exact ⟨⟨rfl, rfl, rfl, rfl, rfl⟩, fun _ _ => rfl, fun _ c c' hc hc' => by
        rw [Option.some.inj (hc.symm.trans hc')], ⟨_, rfl, by simp [ServerMsg.sessionId]⟩,
        fun hnone => absurd hnone hpresent⟩
    · exact ⟨⟨rfl, rfl, rfl, rfl, rfl⟩, fun _ _ => rfl, fun _ c c' hc hc' => by
        rw [Option.some.inj (hc.symm.trans hc')], ⟨_, rfl, by simp [ServerMsg.sessionId]⟩,
        fun hnone => absurd hnone hpresent⟩

/-- The tables of a server between rounds. -/
structure TablesConsistent (s : Tables) : Prop where
  /-- A session id leads to the connection that carries it, and back. -/
  sessions : ∀ id cid, s.sessions.get id = some cid →
    ∃ c, s.clients.get cid = some c ∧ c.sessionId = id
  carried : ∀ cid c, s.clients.get cid = some c → s.sessions.get c.sessionId = some cid
  targets : ∀ k cid, s.routing.get k = some cid → cid ∈ s.clients.keys
  selfRouted : ∀ cid ∈ s.clients.keys, s.routing.get cid = some cid
  /-- No id is given to two sessions. -/
  distinct : s.accepted.Nodup ∧ ∀ c, s.Owner c → c.sessionId ∈ s.accepted
  separate : ∀ c ∈ s.reaped, s.sessions.get c.sessionId = none
  /-- An event that was emitted under an id was told by the session with this id. -/
  tagged : ∀ id v, .session id v ∈ s.emitted →
    ∃ c, s.Owner c ∧ c.sessionId = id ∧ v ∈ c.endpoint.ev
  /-- A connection that was dropped has emitted one Closed. -/
  closedOnce : ∀ c ∈ s.reaped, (eventsOf c.sessionId s.emitted).countP Ev.isClosed = 1
  bounded : s.clients.keys.length ≤ maxConnections

omit [H3.Codec] in
theorem Settled.tablesConsistent (h : s.Settled) : s.TablesConsistent where
  sessions id cid := (h.consistent.sessions id cid).mp
  carried cid c hc := (h.consistent.sessions _ _).mpr ⟨c, hc, rfl⟩
  targets k cid hk := (s.clients.mem_keys cid).mpr (h.targets k cid hk)
  selfRouted cid hcid := h.consistent.routed cid ((s.clients.mem_keys cid).mp hcid)
  distinct := ⟨h.consistent.distinct, h.consistent.known⟩
  separate := h.consistent.gone
  tagged id v hv := by
    obtain ⟨c, hc, hid⟩ := h.consistent.owned _ (List.mem_append_left _ hv)
    refine ⟨c, hc, hid.symm, ?_⟩
    rw [← h.consistent.told c hc]
    refine List.mem_filterMap.mpr ⟨_, List.mem_append_left _ hv, ?_⟩
    exact if_pos hid
  closedOnce c hc := by
    rw [h.reported c hc, (h.consistent.sound c (.reaped hc)).once, h.consistent.ended c hc]
    rfl
  bounded := h.consistent.bounded

/-- The tables of a server stay consistent, and a command that is applied in a
round reaches no session but its own. -/
theorem tables_consistent {sha256 : Bytes → Bytes} {setup : Setup}
    {allocator : Nat → Nat → Option Nat} {rounds : List Round}
    (hrun : Along (Tables.act sha256 setup) (Admissible sha256 setup) (start allocator) rounds) :
    (execute (Tables.act sha256 setup) (start allocator) rounds).TablesConsistent ∧
      ∀ (r : Round) (cmd : ServerCommand),
        Along (Tables.receive sha256 setup) PacketAdmissible
          (execute (Tables.act sha256 setup) (start allocator) rounds) r.packets →
        Along Tables.applyCommand CommandAdmissible
          ((execute (Tables.act sha256 setup) (start allocator) rounds).received sha256 setup r)
          r.commands →
        Targeted ((execute (Tables.act sha256 setup) (start allocator) rounds).commanded sha256 setup r)
          cmd (((execute (Tables.act sha256 setup) (start allocator) rounds).commanded sha256 setup r
            ).applyCommand cmd) := by
  have hsettled := settled_run hrun
  refine ⟨hsettled.tablesConsistent, fun r cmd hpackets hcommands => ?_⟩
  obtain ⟨hreceived, -⟩ := hsettled.consistent.received hpackets
  obtain ⟨hcommanded, -⟩ := execute_kept (fun _ _ h hc => h.applyCommand hc) hreceived hcommands
  exact Consistent.targeted hcommanded cmd

/-- A turn without a readable stream asks for nothing. -/
theorem driveAdmissible_quiet {r : Round} {cid : Nat} (hr : (r.turns cid).readable = []) (s : Tables) :
    DriveAdmissible r s cid := by
  refine fun c _ => along_of_forall fun op hop e => ?_
  simp only [driveCalls, Server.drive, hr, List.map_nil, List.append_nil] at hop
  rcases List.mem_append.mp hop with hop | hop
  · rcases List.mem_append.mp hop with hop | hop
    · split at hop
      · exact List.mem_singleton.mp hop ▸ trivial
      · cases hop
    · split at hop
      · cases hop
      · exact List.mem_singleton.mp hop ▸ trivial
  · exact List.mem_singleton.mp hop ▸ trivial

end

/-- The address of a client. -/
def sampleSource : SocketAddr := .v4 ⟨[192, 0, 2, 1], rfl⟩ 443

/-- A client with a token, and a stream opened on its session. -/
def sampleRound : Round where
  packets := [{ dcid := 7, isInitial := true
                token := mintToken (fun _ => List.replicate 32 0) [] [] sampleSource
                source := sampleSource, remote := ("192.0.2.1", 443)
                congested := false, accept := some (Endpoint.sampleConnection true), received := [] }]
  commands := [⟨1, .call (.openStream true 1)⟩, ⟨2, .getStats 2⟩]

/-- Every connection has timed out. -/
def sampleReap : Round where
  closed _ := some ⟨none, true⟩

theorem sampleRounds_admissible :
    letI := H3.Codec.plain
    Along (Tables.act (fun _ => List.replicate 32 0) { tokenSecret := [] })
      (Admissible (fun _ => List.replicate 32 0) { tokenSecret := [] })
      (start fun _ _ => some 0) [sampleRound, sampleReap] := by
  let _ := H3.Codec.plain
  have hturns : ∀ (r : Round), (∀ cid, (r.turns cid).readable = []) → ∀ (s : Tables) l,
      Along (Tables.drive r) (DriveAdmissible r) s l := fun r hr s l =>
    along_of_forall fun cid _ s => driveAdmissible_quiet (hr cid) s
  refine ⟨⟨⟨fun conn h => ?_, trivial⟩, ⟨fun op hop => ?_, fun op (hop : Request.getStats 2 = _) => ?_,
    trivial⟩, hturns _ (fun _ => rfl) _ _⟩, ⟨trivial, trivial, hturns _ (fun _ => rfl) _ _⟩, trivial⟩
  · rw [← Option.some.inj h]
    exact ⟨rfl, fun _ => rfl, rfl⟩
  · obtain rfl := Request.call.inj hop
    exact ⟨rfl, fun _ _ _ _ => trivial⟩
  · cases hop

theorem tables_consistent_sample :
    letI := H3.Codec.plain
    (execute (Tables.act (fun _ => List.replicate 32 0) { tokenSecret := [] })
      (start fun _ _ => some 0) [sampleRound, sampleReap]).TablesConsistent :=
  letI := H3.Codec.plain
  (tables_consistent sampleRounds_admissible).1

end Tables

end RWebTransport.Server
