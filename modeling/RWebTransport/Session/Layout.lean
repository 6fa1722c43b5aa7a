import RWebTransport.Session.Reading

/-!
# Stream ids and roles

The invariant of every run that ties the id of a stream to the role of its
entry, to the ids the session has handed out, and to what the connection knows.
`Same` covers the many steps that change none of this.
-/

namespace RWebTransport

open Quic (isBidi isLocal)

/-- The event tells the application about a stream. -/
def Ev.surfaces : Ev → Bool
  | .streamOpened _ _ | .incomingStream _ _ => true
  | _ => false

namespace Endpoint

/-- The ids of our control plane. -/
def controlIds (isServer : Bool) : List Nat :=
  [controlId isServer, qpackEncId isServer, qpackDecId isServer]

theorem controlIds_local {isServer : Bool} {id : Nat} (h : id ∈ controlIds isServer) :
    isLocal id isServer = true ∧ isBidi id = false := by
  revert id
  cases isServer <;> decide

theorem controlIds_ne_connectId {isServer : Bool} {id : Nat} (h : id ∈ controlIds isServer) :
    id ≠ connectId := by
  rintro rfl
  have := (controlIds_local h).2
  simp [isBidi, connectId] at this

/-- The roles a stream id can have. -/
def RoleFits (isServer : Bool) (id : Nat) : Role → Prop
  | .localControlPlane => id ∈ controlIds isServer
  | .connect => id = connectId
  | .peerControl | .peerQpack _ | .pendingUni => isLocal id isServer = false ∧ isBidi id = false
  | .pendingBidi => isLocal id isServer = false ∧ isBidi id = true ∧ id ≠ connectId
  | .wtData bidi => isBidi id = bidi ∧ id ≠ connectId
  | .ignored => id ≠ connectId

/-- The `k`-th id of our own data streams of a direction. -/
def ownId (isServer bidi : Bool) (k : Nat) : Nat := firstId isServer bidi + 4 * k

theorem isLocal_ownId (isServer bidi : Bool) (k : Nat) :
    isLocal (ownId isServer bidi k) isServer = true := by
  cases isServer <;> cases bidi <;>
    simp [isLocal, ownId, firstId, serverFirstWtBidiId, serverFirstWtUniId, clientFirstWtBidiId,
      clientFirstWtUniId] <;> omega

theorem isBidi_ownId (isServer bidi : Bool) (k : Nat) : isBidi (ownId isServer bidi k) = bidi := by
  cases isServer <;> cases bidi <;>
    simp [isBidi, ownId, firstId, serverFirstWtBidiId, serverFirstWtUniId, clientFirstWtBidiId,
      clientFirstWtUniId] <;> omega

theorem ownId_ne_connectId (isServer bidi : Bool) (k : Nat) :
    ownId isServer bidi k ≠ connectId := by
  cases isServer <;> cases bidi <;>
    simp [ownId, firstId, serverFirstWtBidiId, serverFirstWtUniId, clientFirstWtBidiId,
      clientFirstWtUniId, connectId]

/-- Which stream has which use. -/
structure Layout (e : Endpoint) : Prop where
  server : e.conn.isServer = e.cfg.isServer
  wellFormed : e.conn.WellFormed
  idle : e.ServerIdle
  roles : ∀ id role, e.roleOf id = some role → RoleFits e.cfg.isServer id role
  next : ∀ bidi, ∃ k, e.nextId bidi = ownId e.cfg.isServer bidi k
  /-- Ids that were not handed out are unused. -/
  fresh : ∀ bidi k, e.nextId bidi ≤ ownId e.cfg.isServer bidi k →
    e.roleOf (ownId e.cfg.isServer bidi k) = none ∧
      (e.conn.streams (ownId e.cfg.isServer bidi k)).phase = .absent
  /-- The connection knows no stream of ours that the session does not know. -/
  known : ∀ id, isLocal id e.cfg.isServer = true → (e.conn.streams id).phase ≠ .absent →
    e.roleOf id ≠ none ∨ e.Surfaced id
  own : ∀ id role, e.roleOf id = some role → isLocal id e.cfg.isServer = true →
    role = .localControlPlane ∨ role = .connect ∨ e.Surfaced id
  opened : ∀ requestId id, .streamOpened requestId id ∈ e.ev →
    ∃ bidi k, id = ownId e.cfg.isServer bidi k ∧ id < e.nextId bidi
  incoming : ∀ id bidi, .incomingStream id bidi ∈ e.ev →
    isLocal id e.cfg.isServer = false ∧ isBidi id = bidi ∧ id ≠ connectId
  created : ∀ id, isLocal id e.cfg.isServer = false → e.roleOf id ≠ none →
    (e.conn.streams id).phase ≠ .absent
  /-- A stream of the peer is not read on only if there is nothing more to read. -/
  ended : ∀ id st, isLocal id e.cfg.isServer = false → e.streams.get id = some st →
    st.recvDead = true → e.closed = true ∨ (e.conn.streams id).Exhausted
  /-- A stream the application was told about is not taken for a new one. -/
  gone : ∀ id, isLocal id e.cfg.isServer = false → e.Surfaced id → e.roleOf id = none →
    e.closed = true ∨ (e.conn.streams id).Exhausted
  data : ∀ id role, isLocal id e.cfg.isServer = false → e.Surfaced id → e.roleOf id = some role →
    role = .wtData (isBidi id)
  control : ∀ i j, e.roleOf i = some .peerControl → e.roleOf j = some .peerControl → i = j
  /-- The end of a critical stream is the end of the session. -/
  critical : ∀ id st, isLocal id e.cfg.isServer = false → e.Critical id →
    e.streams.get id = some st → st.recvDead = true → e.closed = true
  /-- SETTINGS were taken off the control stream that is still there. -/
  settled : e.peerSettings.isSome = true → e.closed = true ∨
    ∃ id, e.roleOf id = some .peerControl ∧ e.headersDone id = true

theorem roleOf_eq_none {e : Endpoint} {id : Nat} :
    e.roleOf id = none ↔ e.streams.get id = none := by
  simp [roleOf]

theorem Surfaced.mono {e e' : Endpoint} {id : Nat} (h : e.Surfaced id)
    (hev : ∀ v ∈ e.ev, v ∈ e'.ev) : e'.Surfaced id :=
  h.imp (fun ⟨r, hr⟩ => ⟨r, hev _ hr⟩) fun ⟨b, hb⟩ => ⟨b, hev _ hb⟩

theorem Writable.mono {e e' : Endpoint} {id : Nat} (h : e.Writable id)
    (hev : ∀ v ∈ e.ev, v ∈ e'.ev) : e'.Writable id :=
  h.imp (fun ⟨r, hr⟩ => ⟨r, hev _ hr⟩) (hev _)

namespace Layout

variable {e : Endpoint}

theorem connectRole (h : e.Layout) : e.ConnectRole := by
  intro st hst
  have hfits := h.roles connectId st.role (by simp [roleOf, hst])
  cases hr : st.role with
  | connect => rfl
  | localControlPlane =>
      rw [hr] at hfits
      exact absurd rfl (controlIds_ne_connectId hfits)
  | peerControl | peerQpack | pendingUni | pendingBidi | wtData | ignored =>
      rw [hr] at hfits
      simp [RoleFits, isBidi, connectId] at hfits

theorem pending (h : e.Layout) (id : Nat) (hp : e.Pending id) :
    isLocal id e.cfg.isServer = false := by
  rcases hp with hp | hp
  · exact (h.roles id _ hp).1
  · exact (h.roles id _ hp).1

/-- A pending stream is new to the application. -/
theorem pending_new (h : e.Layout) {id : Nat} (hp : e.Pending id) : ¬e.Surfaced id := by
  intro hs
  rcases hp with hr | hr
  · simpa using h.data id _ (h.pending id (.inl hr)) hs hr
  · simpa using h.data id _ (h.pending id (.inr hr)) hs hr

theorem readable (h : e.Layout) (he : e.closed = false) : e.Readable :=
  ⟨h.idle, h.connectRole, h.pending, he⟩

/-- A stream that has something to read is still read. -/
theorem alive_of_readable (h : e.Layout) (he : e.closed = false) (id : Nat)
    (hr : e.conn.readable id = true) (hp : e.Pending id) : e.Alive id := by
  intro st hst
  by_contra hd
  rcases h.ended id st (h.pending id hp) hst (by simpa using hd) with hc | hx
  · simp [he] at hc
  · simp [Quic.Connection.not_readable_of_exhausted (h.wellFormed id) hx] at hr

theorem surfaced_ne (h : e.Layout) {id : Nat} (hs : e.Surfaced id) : id ≠ connectId := by
  rcases hs with ⟨r, hr⟩ | ⟨b, hb⟩
  · obtain ⟨bidi, k, rfl, -⟩ := h.opened r id hr
    exact ownId_ne_connectId _ _ _
  · exact (h.incoming id b hb).2.2

/-- The CONNECT stream of a client is known to the session when it is known to
the connection. -/
theorem connect_known (h : e.Layout) (hclient : e.cfg.isServer = false)
    (hp : (e.conn.streams connectId).phase ≠ .absent) : e.roleOf connectId ≠ none := by
  rcases h.known connectId (by simp [isLocal, connectId, hclient]) hp with hr | hs
  · exact hr
  · exact absurd rfl (h.surfaced_ne hs)

end Layout

/-! ## Steps that keep the layout -/

/-- Nothing the layout speaks about has changed, but for the roles of streams. -/
structure Kept (e e' : Endpoint) : Prop where
  cfg : e'.cfg = e.cfg
  connectPending : e'.connectPending = true → e.connectPending = true
  nextId : ∀ bidi, e'.nextId bidi = e.nextId bidi
  server : e'.conn.isServer = e.conn.isServer
  wellFormed : e.conn.WellFormed → e'.conn.WellFormed
  phase : ∀ i, (e'.conn.streams i).phase = .absent ↔ (e.conn.streams i).phase = .absent
  closed : e.closed = true → e'.closed = true
  exhausted : e.conn.WellFormed → ∀ i, (e.conn.streams i).Exhausted → (e'.conn.streams i).Exhausted
  dead : e.conn.WellFormed → ∀ i st', isLocal i e.cfg.isServer = false →
    e'.streams.get i = some st' → st'.recvDead = true → e'.closed = true ∨
      (e'.conn.streams i).Exhausted ∧ ¬e'.Critical i ∨
      ∃ st, e.streams.get i = some st ∧ st.recvDead = true
  headersDone : ∀ i, e.headersDone i = true → (e'.roleOf i).isSome = true → e'.headersDone i = true
  settings : e'.peerSettings = e.peerSettings
  mono : ∀ v ∈ e.ev, v ∈ e'.ev
  events : ∀ v ∈ e'.ev, v.surfaces = true → v ∈ e.ev

/-- Nothing the layout speaks about has changed. -/
structure Same (e e' : Endpoint) : Prop extends Kept e e' where
  roleOf : ∀ i, e'.roleOf i = e.roleOf i

theorem Kept.surfaced {e e' : Endpoint} (h : Kept e e') (id : Nat) :
    e'.Surfaced id ↔ e.Surfaced id :=
  ⟨fun hs => hs.imp (fun ⟨r, hr⟩ => ⟨r, h.events _ hr rfl⟩) fun ⟨b, hb⟩ => ⟨b, h.events _ hb rfl⟩,
    fun hs => hs.mono h.mono⟩

namespace Same

theorem refl (e : Endpoint) : Same e e :=
  ⟨⟨rfl, id, fun _ => rfl, rfl, id, fun _ => Iff.rfl, id, fun _ _ h => h,
    fun _ _ st' _ hg hd => .inr (.inr ⟨st', hg, hd⟩), fun _ h _ => h, rfl, fun _ h => h,
    fun _ h _ => h⟩, fun _ => rfl⟩

theorem trans {a b c : Endpoint} (hab : Same a b) (hbc : Same b c) : Same a c where
  cfg := hbc.cfg.trans hab.cfg
  connectPending h := hab.connectPending (hbc.connectPending h)
  nextId bidi := (hbc.nextId bidi).trans (hab.nextId bidi)
  server := hbc.server.trans hab.server
  wellFormed h := hbc.wellFormed (hab.wellFormed h)
  phase i := (hbc.phase i).trans (hab.phase i)
  closed h := hbc.closed (hab.closed h)
  exhausted hwf i h := hbc.exhausted (hab.wellFormed hwf) i (hab.exhausted hwf i h)
  dead hwf i st' hl hg hd := by
    rcases hbc.dead (hab.wellFormed hwf) i st' (hab.cfg ▸ hl) hg hd with hc | hx | ⟨st, hst, hd⟩
    · exact .inl hc
    · exact .inr (.inl hx)
    · rcases hab.dead hwf i st hl hst hd with hc | hx | h
      · exact .inl (hbc.closed hc)
      · refine .inr (.inl ⟨hbc.exhausted (hab.wellFormed hwf) i hx.1, fun hc => hx.2 ?_⟩)
        simpa only [Critical, hbc.roleOf] using hc
      · exact .inr (.inr h)
  headersDone i h hr := hbc.headersDone i (hab.headersDone i h (by rwa [← hbc.roleOf])) hr
  settings := hbc.settings.trans hab.settings
  roleOf i := (hbc.roleOf i).trans (hab.roleOf i)
  mono v h := hbc.mono v (hab.mono v h)
  events v h hs := hab.events v (hbc.events v h hs) hs

/-- The entries agree on the roles, and a stream that is read is still read. -/
structure Entries (t t' : Table Stream) : Prop where
  role : ∀ i, (t'.get i).map Stream.role = (t.get i).map Stream.role
  dead : ∀ i st', t'.get i = some st' → st'.recvDead = true →
    ∃ st, t.get i = some st ∧ st.recvDead = true

theorem Entries.refl (t : Table Stream) : Entries t t := ⟨fun _ => rfl, fun _ st' hg hd => ⟨st', hg, hd⟩⟩

/-- Streams that were parsed as far as their headers stay so. -/
def Parsed (t t' : Table Stream) : Prop :=
  ∀ i, (t.get i).any (fun st => st.headersDone) = true → (t'.get i).any (fun st => st.headersDone) = true

theorem Parsed.modify (t : Table Stream) (id : Nat) {f : Stream → Stream}
    (hf : ∀ st, st.headersDone = true → (f st).headersDone = true) : Parsed t (t.modify id f) := by
  intro i h
  rw [Table.get_modify]
  cases hst : t.get i with
  | none => simp [hst] at h
  | some st =>
      have hdone : st.headersDone = true := by simpa [hst] using h
      split
      · simpa using hf st hdone
      · simpa using hdone

theorem role_modify (t : Table Stream) (id : Nat) {f : Stream → Stream}
    (hf : ∀ st, (f st).role = st.role) (i : Nat) :
    ((t.modify id f).get i).map Stream.role = (t.get i).map Stream.role := by
  rw [Table.get_modify]
  split
  · cases t.get i <;> simp [hf]
  · rfl

theorem Entries.modify (t : Table Stream) (id : Nat) {f : Stream → Stream}
    (hf : ∀ st, (f st).role = st.role) (hd : ∀ st, (f st).recvDead = st.recvDead) :
    Entries t (t.modify id f) := by
  refine ⟨role_modify t id hf, fun i st' hg hdead => ?_⟩
  rw [Table.get_modify] at hg
  split at hg
  · cases hst : t.get i with
    | none => simp [hst] at hg
    | some st =>
        simp only [hst, Option.map_some, Option.some.injEq] at hg
        rw [← hg, hd] at hdead
        exact ⟨st, rfl, hdead⟩
  · exact ⟨st', hg, hdead⟩

/-- Only the fields of the session that the layout does not read, and the
entries of streams up to what it does read; of a closed session no entry is
read any more. -/
theorem of_streams {e e' : Endpoint} (hcfg : e'.cfg = e.cfg)
    (hpending : e'.connectPending = e.connectPending) (hbidi : e'.nextBidi = e.nextBidi)
    (huni : e'.nextUni = e.nextUni) (hconn : e'.conn = e.conn)
    (hclosed : e'.closed = e.closed ∨ e'.closed = true)
    (hrole : ∀ i, e'.roleOf i = e.roleOf i)
    (hdead : e'.closed = true ∨ Entries e.streams e'.streams) (hdone : Parsed e.streams e'.streams)
    (hsettings : e'.peerSettings = e.peerSettings) {l : List Ev} (hev : e'.ev = e.ev ++ l) (hl : ∀ v ∈ l, v.surfaces = false) : Same e e' where
  cfg := hcfg
  connectPending h := hpending ▸ h
  nextId bidi := by simp [Endpoint.nextId, hbidi, huni]
  server := by rw [hconn]
  wellFormed h := by rw [hconn]; exact h
  phase i := by rw [hconn]
  closed h := by rcases hclosed with hc | hc <;> simp [hc, h]
  exhausted _ i h := by rw [hconn]; exact h
  dead _ i st' _ hg hd := hdead.imp_right fun h => .inr (h.dead i st' hg hd)
  headersDone i h _ := hdone i h
  settings := hsettings
  roleOf := hrole
  mono v h := by rw [hev]; exact List.mem_append_left _ h
  events v h hs := by
    rw [hev] at h
    rcases List.mem_append.mp h with h | h
    · exact h
    · simp [hl v h] at hs

/-- An entry changes in what the layout does not read. -/
theorem modify {e e' : Endpoint} (id : Nat) {f : Stream → Stream}
    (hf : ∀ st, (f st).role = st.role ∧ (f st).recvDead = st.recvDead ∧
      (st.headersDone = true → (f st).headersDone = true))
    (hcfg : e'.cfg = e.cfg) (hpending : e'.connectPending = e.connectPending)
    (hbidi : e'.nextBidi = e.nextBidi) (huni : e'.nextUni = e.nextUni) (hconn : e'.conn = e.conn)
    (hclosed : e'.closed = e.closed) (hstreams : e'.streams = e.streams.modify id f)
    (hsettings : e'.peerSettings = e.peerSettings) {l : List Ev} (hev : e'.ev = e.ev ++ l)
    (hl : ∀ v ∈ l, v.surfaces = false) : Same e e' := by
  have hentries := Entries.modify e.streams id (fun st => (hf st).1) fun st => (hf st).2.1
  refine of_streams hcfg hpending hbidi huni hconn (.inl hclosed) (fun i => ?_) (.inr ?_) ?_
    hsettings hev hl
  · rw [Endpoint.roleOf, hstreams]
    exact hentries.role i
  · rw [hstreams]
    exact hentries
  · rw [hstreams]
    exact .modify _ _ fun st => (hf st).2.2

theorem modifyStream (e : Endpoint) (id : Nat) {f : Stream → Stream}
    (hf : ∀ st, (f st).role = st.role ∧ (f st).recvDead = st.recvDead ∧
      (st.headersDone = true → (f st).headersDone = true)) : Same e (e.modifyStream id f) :=
  modify id hf rfl rfl rfl rfl rfl rfl rfl rfl (List.append_nil _).symm (by simp)

theorem emit (e : Endpoint) {v : Ev} (hv : v.surfaces = false) : Same e (e.emit v) :=
  of_streams rfl rfl rfl rfl rfl (.inl rfl) (fun _ => rfl) (.inr (.refl _)) (fun _ h => h) rfl rfl
    (by simpa using hv)

/-- A change of the connection that leaves the phases alone. -/
theorem conn (e : Endpoint) {c : Quic.Connection} (hserver : c.isServer = e.conn.isServer)
    (hwf : e.conn.WellFormed → c.WellFormed)
    (hphase : ∀ i, (c.streams i).phase = .absent ↔ (e.conn.streams i).phase = .absent)
    (hx : e.conn.WellFormed → ∀ i, (e.conn.streams i).Exhausted → (c.streams i).Exhausted) :
    Same e { e with conn := c } :=
  ⟨⟨rfl, id, fun _ => rfl, hserver, hwf, hphase, id, hx,
    fun _ _ st' _ hg hd => .inr (.inr ⟨st', hg, hd⟩), fun _ h _ => h, rfl, fun _ h => h,
    fun _ h _ => h⟩, fun _ => rfl⟩

theorem closeConn (e : Endpoint) (code : Nat) (reason : Bytes) : Same e (e.closeConn code reason) :=
  conn e (by simp) (fun h i => by simpa using h i) (by simp) (fun _ i h => by simpa using h)

theorem shutdownRead (e : Endpoint) (id err : Nat) : Same e (e.shutdownRead id err) :=
  conn e (Quic.Connection.streamShutdownRead_isServer _ _ _)
    (fun h => Quic.Connection.wellFormed_shutdownRead h _)
    (fun i => by rw [Quic.Connection.streamShutdownRead_phase])
    fun _ _ h => Quic.Connection.exhausted_shutdownRead h _

/-- Every stream is marked dead when the session closes. -/
theorem closing {e a : Endpoint} (h : a.closed = false) (code : Nat) (reason : Bytes)
    (remote : Bool) (hcfg : a.cfg = e.cfg) (hpending : a.connectPending = e.connectPending)
    (hbidi : a.nextBidi = e.nextBidi) (huni : a.nextUni = e.nextUni) (hconn : a.conn = e.conn)
    (hrole : ∀ i, a.roleOf i = e.roleOf i) (hdone : Parsed e.streams a.streams)
    (hsettings : a.peerSettings = e.peerSettings) (hev : a.ev = e.ev) :
    Same e (a.markClosed code reason remote) := by
  unfold Endpoint.markClosed
  rw [if_neg (by simp [h])]
  refine of_streams hcfg hpending hbidi huni hconn (.inr rfl) (fun i => ?_) (.inl rfl)
    (fun i hi => ?_) hsettings (l := [.closed code reason remote]) (by simp [hev])
    (by simp [Ev.surfaces])
  · rw [← hrole]
    simp only [Endpoint.roleOf, Table.get_map]
    cases a.streams.get i <;> rfl
  · have hi := hdone i hi
    rw [Table.get_map]
    cases hst : a.streams.get i with
    | none => simp [hst] at hi
    | some st => simpa [hst, Stream.dead] using hi

theorem markClosed (e : Endpoint) (code : Nat) (reason : Bytes) (remote : Bool) :
    Same e (e.markClosed code reason remote) := by
  cases h : e.closed with
  | true =>
      simp only [Endpoint.markClosed, h, if_true]
      exact refl e
  | false => exact closing h _ _ _ rfl rfl rfl rfl rfl (fun _ => rfl) (fun _ h => h) rfl rfl

theorem roleOf_setRecvDead (e : Endpoint) (id i : Nat) :
    (e.setRecvDead id).roleOf i = e.roleOf i :=
  role_modify e.streams id (f := fun st => { st with recvDead := true }) (fun _ => rfl) i

/-- Killing a stream of a session that is closed. -/
theorem killRecv (e : Endpoint) (id : Nat) (h : e.closed = true) : Same e (e.killRecv id) := by
  refine Same.trans (b := { e.killRecv id with conn := e.conn }) ?_ (shutdownRead _ id 0)
  exact of_streams rfl rfl rfl rfl rfl (.inl rfl) (role_modify e.streams id fun _ => rfl) (.inl h)
    (.modify _ _ fun _ h => h) rfl (List.append_nil _).symm (by simp)

/-- Killing a stream together with the session. -/
theorem killFail (e : Endpoint) (id : Nat) (message : String) (h : e.closed = false) (code : Nat)
    (reason : Bytes) (remote : Bool) :
    Same e (((e.killRecv id).emit (.error message)).markClosed code reason remote) := by
  have hkill := closing (e := (e.shutdownRead id 0).emit (.error message))
    (a := (e.killRecv id).emit (.error message)) h code reason remote rfl rfl rfl rfl rfl
    (role_modify e.streams id fun _ => rfl) (.modify _ _ fun _ h => h) rfl rfl
  exact ((shutdownRead e id 0).trans (.emit _ rfl)).trans hkill

/-- Marking a stream dead that has nothing more to read. -/
theorem setRecvDead (e : Endpoint) (id : Nat)
    (hx : isLocal id e.cfg.isServer = false →
      e.closed = true ∨ (e.conn.streams id).Exhausted ∧ ¬e.Critical id) :
    Same e (e.setRecvDead id) := by
  refine ⟨⟨rfl, fun h => h, fun _ => rfl, rfl, fun h => h, fun _ => Iff.rfl, fun h => h,
    fun _ _ h => h, fun _ i st' hl hg hd => ?_, fun i h _ => Parsed.modify e.streams id
      (f := fun st => { st with recvDead := true }) (fun _ h => h) i h,
    rfl, fun _ h => h, fun _ h _ => h⟩, roleOf_setRecvDead e id⟩
  by_cases hi : i = id
  · subst hi
    refine (hx hl).imp_right fun h => .inl ⟨h.1, fun hc => h.2 ?_⟩
    simpa only [Critical, roleOf_setRecvDead] using hc
  · refine .inr (.inr ⟨st', ?_, hd⟩)
    rwa [Endpoint.setRecvDead, Endpoint.modifyStream, Table.get_modify_ne hi] at hg

end Same

/-- Roles may change on streams of the peer, to what their ids admit. -/
theorem Layout.foreign {e e' : Endpoint} (h : e.Layout) (hk : Kept e e')
    (hrole : ∀ i, e'.roleOf i = e.roleOf i ∨ e.Pending i ∧ (e.Alive i ∨ ¬e'.Critical i) ∧
      ∀ role, e'.roleOf i = some role → RoleFits e.cfg.isServer i role)
    (hcontrol : ∀ i j, e'.roleOf i = some .peerControl → e'.roleOf j = some .peerControl → i = j) :
    e'.Layout where
  server := hk.server.trans (h.server.trans (congrArg _ hk.cfg.symm))
  wellFormed := hk.wellFormed h.wellFormed
  idle hserver := by
    have := h.idle (hk.cfg ▸ hserver)
    cases hp : e'.connectPending with
    | false => rfl
    | true => simp [hk.connectPending hp] at this
  roles id role hr := by
    rw [hk.cfg]
    rcases hrole id with heq | ⟨-, -, hfits⟩
    · exact h.roles id role (heq ▸ hr)
    · exact hfits role hr
  next bidi := by
    rw [hk.nextId, hk.cfg]
    exact h.next bidi
  fresh bidi k hle := by
    rw [hk.cfg] at hle ⊢
    rw [hk.nextId] at hle
    obtain ⟨hr, hp⟩ := h.fresh bidi k hle
    refine ⟨?_, (hk.phase _).mpr hp⟩
    rcases hrole (ownId e.cfg.isServer bidi k) with heq | ⟨hpending, -⟩
    · rw [heq, hr]
    · simpa [isLocal_ownId] using h.pending _ hpending
  known id hl hp := by
    rw [hk.cfg] at hl
    rw [hk.surfaced]
    rcases hrole id with heq | ⟨hpending, -⟩
    · rw [heq]
      exact h.known id hl fun habs => hp ((hk.phase id).mpr habs)
    · simpa [hl] using h.pending _ hpending
  own id role hr hl := by
    rw [hk.cfg] at hl
    rw [hk.surfaced]
    rcases hrole id with heq | ⟨hpending, -⟩
    · exact h.own id role (heq ▸ hr) hl
    · simpa [hl] using h.pending _ hpending
  opened r id hv := by
    obtain ⟨bidi, k, hid, hlt⟩ := h.opened r id (hk.events _ hv rfl)
    exact ⟨bidi, k, by rw [hk.cfg]; exact hid, by rw [hk.nextId]; exact hlt⟩
  incoming id bidi hv := by
    rw [hk.cfg]
    exact h.incoming id bidi (hk.events _ hv rfl)
  created id hl hr := by
    rw [hk.cfg] at hl
    intro habs
    refine h.created id hl ?_ ((hk.phase id).mp habs)
    rcases hrole id with heq | ⟨hpending, -⟩
    · rwa [← heq]
    · rcases hpending with hp | hp <;> simp [hp]
  ended id st hl hst hd := by
    rw [hk.cfg] at hl
    rcases hk.dead h.wellFormed id st hl hst hd with hc | hx | ⟨st0, hst0, hd0⟩
    · exact .inl hc
    · exact .inr hx.1
    · exact (h.ended id st0 hl hst0 hd0).imp hk.closed (hk.exhausted h.wellFormed id)
  gone id hl hs hr := by
    rw [hk.cfg] at hl
    rw [hk.surfaced] at hs
    rcases hrole id with heq | ⟨hpending, -⟩
    · exact (h.gone id hl hs (heq ▸ hr)).imp hk.closed (hk.exhausted h.wellFormed id)
    · exact absurd hs (h.pending_new hpending)
  data id role hl hs hr := by
    rw [hk.cfg] at hl
    rw [hk.surfaced] at hs
    rcases hrole id with heq | ⟨hpending, -⟩
    · exact h.data id role hl hs (heq ▸ hr)
    · exact absurd hs (h.pending_new hpending)
  control := hcontrol
  critical id st hl hc hst hd := by
    rw [hk.cfg] at hl
    rcases hk.dead h.wellFormed id st hl hst hd with hclosed | hx | ⟨st0, hst0, hd0⟩
    · exact hclosed
    · exact absurd hc hx.2
    · rcases hrole id with heq | ⟨-, halive | hnot, -⟩
      · refine hk.closed (h.critical id st0 hl ?_ hst0 hd0)
        simpa only [Critical, heq] using hc
      · simp [halive st0 hst0] at hd0
      · exact absurd hc hnot
  settled hs := by
    rw [hk.settings] at hs
    rcases h.settled hs with hclosed | ⟨id, hr, hd⟩
    · exact .inl (hk.closed hclosed)
    · refine .inr ⟨id, ?_⟩
      rcases hrole id with heq | ⟨hpending, -⟩
      · have hr' := heq.trans hr
        exact ⟨hr', hk.headersDone id hd (by simp [hr'])⟩
      · rcases hpending with hp | hp <;> simp [hp] at hr

theorem Layout.same {e e' : Endpoint} (h : e.Layout) (hs : Same e e') : e'.Layout :=
  h.foreign hs.toKept (fun i => .inl (hs.roleOf i)) fun i j hi hj =>
    h.control i j (hs.roleOf i ▸ hi) (hs.roleOf j ▸ hj)

/-! ## Reading -/

theorem roleOf_classify_ne {e : Endpoint} {id i : Nat} (role : Role) (hi : i ≠ id) :
    (e.classify id role).roleOf i = e.roleOf i := by
  simp [roleOf, classify, Table.get_modify_ne hi]

/-- A pending stream gets a role that its id admits. -/
theorem Layout.classified {e e' : Endpoint} (h : e.Layout) {id : Nat} {role : Role}
    (hk : Kept e e') (hp : e.Pending id) (halive : e.Alive id ∨ ¬e'.Critical id)
    (hfits : RoleFits e.cfg.isServer id role) (hid : e'.roleOf id = some role)
    (hne : ∀ i, i ≠ id → e'.roleOf i = e.roleOf i)
    (hcontrol : role = .peerControl → e.duplicateRole id .peerControl = false) :
    e'.Layout := by
  -- a second control stream would have been a duplicate
  have hother : ∀ i, i ≠ id → e'.roleOf id = some .peerControl →
      e'.roleOf i ≠ some .peerControl := by
    intro i hi hr hri
    rw [hid, Option.some.injEq] at hr
    rw [hne i hi] at hri
    have hdup := hcontrol hr
    simp only [duplicateRole, ← Bool.not_eq_true, Table.any_eq_true] at hdup
    cases hst : e.streams.get i with
    | none => simp [Endpoint.roleOf, hst] at hri
    | some st => exact hdup ⟨i, st, hst, by simpa [hi] using role_of_roleOf hst hri⟩
  refine h.foreign hk (fun i => ?_) fun i j hi hj => ?_
  · by_cases hi : i = id
    · subst hi
      refine .inr ⟨hp, halive, fun r hr => ?_⟩
      rw [hid] at hr
      exact Option.some.inj hr ▸ hfits
    · exact .inl (hne i hi)
  · by_cases hid : i = id
    · by_cases hjd : j = id
      · rw [hid, hjd]
      · exact absurd hj (hother j hjd (hid ▸ hi))
    · by_cases hjd : j = id
      · exact absurd hi (hother i hid (hjd ▸ hj))
      · exact h.control i j (hne i hid ▸ hi) (hne j hjd ▸ hj)

theorem isSome_of_roleOf {e : Endpoint} {id : Nat} {role : Role} (h : e.roleOf id = some role) :
    (e.roleOf id).isSome = true := by rw [h]; rfl

theorem Kept.classify (e : Endpoint) (id : Nat) (role : Role) : Kept e (e.classify id role) := by
  refine ⟨rfl, fun h => h, fun _ => rfl, rfl, fun h => h, fun _ => Iff.rfl, fun h => h,
    fun _ _ h => h, fun _ i st' hl hg hd => .inr (.inr ?_),
    fun i h _ => Same.Parsed.modify e.streams id
      (f := fun st => { st with role := role, classBuf := .new st.classBuf.memory })
      (fun _ h => h) i h, rfl, fun _ h => h, fun _ h _ => h⟩
  simp only [Endpoint.classify, Table.get_modify] at hg
  split at hg
  · cases hst : e.streams.get i with
    | none => simp [hst] at hg
    | some st =>
        simp only [hst, Option.map_some, Option.some.injEq] at hg
        exact ⟨st, rfl, by rw [← hg] at hd; exact hd⟩
  · exact ⟨st', hg, hd⟩

theorem Same.respond (e : Endpoint) (id : Nat) (frame : Bytes) (fin : Bool) :
    Same e (e.respond id frame fin) :=
  .modifyStream e id fun _ => ⟨rfl, rfl, fun h => h⟩

theorem Same.setHeadersDone (e : Endpoint) (id : Nat) : Same e (e.setHeadersDone id) :=
  .modifyStream e id fun _ => ⟨rfl, rfl, fun _ => rfl⟩

/-- Fields of the session that the layout does not read. -/
theorem Same.session {e e' : Endpoint} (hcfg : e'.cfg = e.cfg)
    (hpending : e'.connectPending = e.connectPending) (hbidi : e'.nextBidi = e.nextBidi)
    (huni : e'.nextUni = e.nextUni) (hconn : e'.conn = e.conn) (hstreams : e'.streams = e.streams)
    (hclosed : e'.closed = e.closed) (hsettings : e'.peerSettings = e.peerSettings)
    (hev : e'.ev = e.ev) : Same e e' :=
  of_streams hcfg hpending hbidi huni hconn (.inl hclosed)
    (fun i => by rw [Endpoint.roleOf, hstreams]; rfl) (.inr (hstreams ▸ .refl _))
    (fun i h => by rw [hstreams]; exact h) hsettings (by rw [hev, List.append_nil]) (by simp)

/-- The deferred CONNECT is no longer pending. -/
theorem Same.connectSettled (e : Endpoint) : Same e { e with connectPending := false } :=
  ⟨⟨rfl, by simp, fun _ => rfl, rfl, fun h => h, fun _ => Iff.rfl, fun h => h, fun _ _ h => h,
    fun _ _ st' _ hg hd => .inr (.inr ⟨st', hg, hd⟩), fun _ h _ => h, rfl, fun _ h => h,
    fun _ h _ => h⟩, fun _ => rfl⟩

theorem Same.setCreditLimit (e : Endpoint) (ty v : Nat) : Same e (e.setCreditLimit ty v) := by
  unfold Endpoint.setCreditLimit
  split_ifs
  · exact session rfl rfl rfl rfl rfl rfl rfl rfl rfl
  · exact session rfl rfl rfl rfl rfl rfl rfl rfl rfl
  · exact session rfl rfl rfl rfl rfl rfl rfl rfl rfl
  · exact refl e

theorem Same.becomeReady (e : Endpoint) {v : Ev} (hv : v.surfaces = false) :
    Same e (e.becomeReady.emit v) :=
  .trans (b := e.becomeReady) (session rfl rfl rfl rfl rfl rfl rfl rfl rfl) (emit _ hv)

/-- A new entry whose id is not free to be handed out. -/
theorem Layout.insert {e : Endpoint} (h : e.Layout) {id : Nat} {st : Stream}
    (hfits : RoleFits e.cfg.isServer id st.role)
    (hused : ∀ bidi k, e.nextId bidi ≤ ownId e.cfg.isServer bidi k →
      id ≠ ownId e.cfg.isServer bidi k)
    (hown : isLocal id e.cfg.isServer = true →
      st.role = .localControlPlane ∨ st.role = .connect ∨ e.Surfaced id)
    (hpeer : isLocal id e.cfg.isServer = false → (e.conn.streams id).phase ≠ .absent ∧
      ¬e.Surfaced id) (hdead : st.recvDead = false)
    (hcontrol : st.role ≠ .peerControl ∧ e.roleOf id ≠ some .peerControl) :
    (e.insertStream id st).Layout := by
  have hrole : ∀ i, (e.insertStream id st).roleOf i =
      if i = id then some st.role else e.roleOf i := by
    intro i
    simp only [Endpoint.roleOf, insertStream, Table.get_insert]
    split <;> rfl
  refine ⟨h.server, h.wellFormed, h.idle, fun i role hr => ?_, h.next, fun bidi k hk => ?_,
    fun i hl hp => ?_, fun i role hr hl => ?_, h.opened, h.incoming, fun i hl hr => ?_,
    fun i st' hl hg hd => ?_, fun i hl hs hr => ?_, fun i role hl hs hr => ?_, fun i j hi hj => ?_,
    fun i st' hl hc hg hd => ?_, fun hs => ?_⟩
  · rw [hrole] at hr
    split at hr
    next hi =>
      subst hi
      exact Option.some.inj hr ▸ hfits
    · exact h.roles i role hr
  · rw [hrole, if_neg fun heq => hused bidi k hk heq.symm]
    exact h.fresh bidi k hk
  · rw [hrole]
    split
    · exact .inl (by simp)
    · exact h.known i hl hp
  · rw [hrole] at hr
    split at hr
    next hi =>
      subst hi
      exact Option.some.inj hr ▸ hown hl
    · exact h.own i role hr hl
  · rw [hrole] at hr
    split at hr
    next hi => exact hi ▸ (hpeer (hi ▸ hl)).1
    · exact h.created i hl hr
  · simp only [insertStream, Table.get_insert] at hg
    split at hg
    · rw [← Option.some.inj hg, hdead] at hd
      cases hd
    · exact h.ended i st' hl hg hd
  · rw [hrole] at hr
    split at hr
    · cases hr
    · exact h.gone i hl hs hr
  · rw [hrole] at hr
    split at hr
    next hi => exact absurd (hi ▸ hs) (hpeer (hi ▸ hl)).2
    · exact h.data i role hl hs hr
  · rw [hrole] at hi hj
    split at hi
    · exact absurd (Option.some.inj hi) hcontrol.1
    · split at hj
      · exact absurd (Option.some.inj hj) hcontrol.1
      · exact h.control i j hi hj
  · simp only [insertStream, Table.get_insert] at hg
    split at hg
    · rw [← Option.some.inj hg, hdead] at hd
      cases hd
    next hi =>
      refine h.critical i st' hl ?_ hg hd
      simpa only [Critical, hrole, if_neg hi] using hc
  · rcases h.settled hs with hclosed | ⟨i, hr, hd⟩
    · exact .inl hclosed
    have hi : i ≠ id := by
      rintro rfl
      exact hcontrol.2 hr
    refine .inr ⟨i, ?_, ?_⟩
    · rw [hrole, if_neg hi]
      exact hr
    · simpa only [Endpoint.headersDone, insertStream, Table.get_insert_ne hi] using hd

/-- A stream of our own, or one that is new, is not the peer's control stream. -/
theorem Layout.not_control {e : Endpoint} (h : e.Layout) {id : Nat}
    (hl : isLocal id e.cfg.isServer = true ∨ id = connectId) :
    e.roleOf id ≠ some .peerControl := by
  intro hr
  have hfits := h.roles id _ hr
  rcases hl with hl | rfl
  · simp [RoleFits, hl] at hfits
  · simp [RoleFits, isBidi, connectId] at hfits

theorem Layout.settings {e : Endpoint} (h : e.Layout) {r : Nat} (hrole : e.roleOf r = some .peerControl)
    (s : H3.PeerSettings) : ((e.setHeadersDone r).seedLimits s).Layout := by
  have h1 := h.same (.setHeadersDone e r)
  have hr : (e.setHeadersDone r).roleOf r = some .peerControl := by
    rw [(Same.setHeadersDone e r).roleOf]
    exact hrole
  refine ⟨h1.server, h1.wellFormed, h1.idle, h1.roles, h1.next, h1.fresh, h1.known, h1.own, h1.opened,
    h1.incoming, h1.created, h1.ended, h1.gone, h1.data, h1.control, h1.critical,
    fun _ => .inr ⟨r, hr, ?_⟩⟩
  cases hst : e.streams.get r with
  | none => simp [Endpoint.roleOf, hst] at hrole
  | some st => simp [Endpoint.headersDone, seedLimits, Endpoint.setHeadersDone,
      Endpoint.modifyStream, hst]

theorem Same.takeHeaders (e : Endpoint) (id : Nat) (block : Bytes) : Same e (e.takeHeaders id block) :=
  (Same.session rfl rfl rfl rfl rfl rfl rfl rfl rfl : Same e (e.log _)).trans (.setHeadersDone _ id)

theorem Same.emitErrors (e : Endpoint) (messages : List String) : Same e (e.emitErrors messages) :=
  .of_streams rfl rfl rfl rfl rfl (.inl rfl) (fun _ => rfl) (.inr (.refl _)) (fun _ h => h) rfl rfl
    (by simp [Ev.surfaces])

theorem Same.refuse (e : Endpoint) (id : Nat) (frame : Option Bytes) (messages : List String)
    (status : Nat) : Same e (e.refuse id frame messages status) := by
  have hlog (s : Endpoint) : Same s (s.log (.rejected status)) :=
    .session rfl rfl rfl rfl rfl rfl rfl rfl rfl
  have hrest (s : Endpoint) :
      Same s (((s.emitErrors messages).log (.rejected status)).markClosed 0 [] false) :=
    ((Same.emitErrors s messages).trans (hlog _)).trans (.markClosed _ _ _ _)
  cases frame with
  | none => exact hrest e
  | some frame => exact (Same.respond e id frame true).trans (hrest _)

theorem Effect.layout [H3.Codec] {r : Nat} {e e' : Endpoint} (he : Effect r e e') (h : e.Layout) : e'.Layout := by
  cases he with
  | heap | log | capsuleBuf | terminal | moreHeaders =>
      exact h.same (.session rfl rfl rfl rfl rfl rfl rfl rfl rfl)
  | frames | classBuf => exact h.same (.modifyStream e _ fun _ => ⟨rfl, rfl, fun h => h⟩)
  | controlDone => exact h.same (.setHeadersDone e _)
  | headers => exact h.same (.takeHeaders e _ _)
  | undecoded | unanswered => exact h.same ((Same.takeHeaders e _ _).trans (.emit _ rfl))
  | unrequested => exact h.same ((Same.connectSettled e).trans (.emit _ rfl))
  | fail => exact h.same ((Same.emit e rfl).trans (.markClosed _ _ _ _))
  | finish => exact h.same (.markClosed e _ _ _)
  | closeConn => exact h.same (.closeConn e _ _)
  | kill hc => exact h.same (.killRecv e _ hc)
  | killFail message code reason remote hc => exact h.same (.killFail e _ message hc _ _ _)
  | credit => exact h.same (.setCreditLimit e _ _)
  | draining =>
      exact h.same (.of_streams rfl rfl rfl rfl rfl (.inl rfl) (fun _ => rfl) (.inr (.refl _))
        (fun _ h => h) rfl rfl (by simp [Ev.surfaces]))
  | settings hc hrole => exact h.settings hrole _
  | connectRefused =>
      exact h.same (.connectSettled e)
  | ready => exact h.same ((Same.takeHeaders e _ _).trans (.becomeReady _ rfl))
  | accept =>
      exact h.same ((Same.takeHeaders e _ _).trans
        ((Same.respond _ _ _ _).trans (.becomeReady _ rfl)))
  | reject => exact h.same ((Same.takeHeaders e _ _).trans (.refuse _ _ _ _ _))
  | refuse => exact h.same (.refuse e _ _ _ _)
  | count => exact h.same (.session rfl rfl rfl rfl rfl rfl rfl rfl rfl)
  | charge =>
      exact h.same (.modify r (by intro st; exact ⟨rfl, rfl, fun h => h⟩) rfl rfl rfl rfl rfl rfl rfl rfl
        (List.append_nil _).symm (by simp))
  | data => exact h.same (.emit e rfl)
  | finished hrole _ hx | reset code hrole _ hx =>
      exact h.same ((Same.setRecvDead e _ fun _ =>
        .inr ⟨hx, not_critical hrole (by simp)⟩).trans (.emit _ rfl))
  | recvDead hc hx =>
      exact h.same (.setRecvDead e _ fun _ => hc.imp_right fun hc => ⟨hx, hc⟩)
  | resetFail message code reason remote hc =>
      exact h.same ((Same.emit e rfl).trans (.closing (e := e.emit (.error message))
        (a := (e.setRecvDead r).emit (.error message)) hc _ _ _ rfl rfl rfl rfl rfl
        (Same.roleOf_setRecvDead e r) (.modify _ _ fun _ h => h) rfl rfl))
  | resetClose code reason remote hc =>
      exact h.same (.closing (e := e) (a := e.setRecvDead r) hc _ _ _ rfl rfl rfl rfl rfl
        (Same.roleOf_setRecvDead e r) (.modify _ _ fun _ h => h) rfl rfl)
  | connect frame hc hpending =>
      have hrest : Layout (({ e with connectPending := false } : Endpoint).log .connectQueued) :=
        h.same ((Same.connectSettled e).trans (.session rfl rfl rfl rfl rfl rfl rfl rfl rfl))
      have hclient : e.cfg.isServer = false := by
        cases hs : e.cfg.isServer with
        | false => rfl
        | true => simp [h.idle hs] at hpending
      exact hrest.insert rfl (fun bidi k _ heq => ownId_ne_connectId _ _ _ heq.symm)
        (fun _ => .inr (.inl rfl)) (fun hl => by
          have hl : isLocal connectId e.cfg.isServer = false := hl
          simp [hclient, isLocal, connectId] at hl) rfl
        ⟨by simp [Stream.withPrefix, Stream.new], hrest.not_control (.inr rfl)⟩
  | @classify role hrole halive hnew =>
      refine h.classified (.classify e r role) (.inl hrole) (.inl halive) ?_
        (roleOf_classify (isSome_of_roleOf hrole)) (fun i hi => roleOf_classify_ne role hi)
        fun hc => ?_
      rotate_left
      · rcases hnew with rfl | ⟨-, hdup⟩
        · cases hc
        · exact hc ▸ hdup
      have hfits := h.roles r _ hrole
      rcases hnew with rfl | ⟨rfl | ⟨encoder, rfl⟩, -⟩
      · rintro rfl
        simp [RoleFits, isBidi, connectId] at hfits
      · exact hfits
      · exact hfits
  | discard hp =>
      have hsome : (e.roleOf r).isSome = true := by
        rcases hp with hp | hp <;> exact isSome_of_roleOf hp
      have hid : ((e.shutdownRead r 0).classify r .ignored).roleOf r = some .ignored :=
        roleOf_classify hsome
      refine (h.same (.shutdownRead e r 0)).classified (.classify _ r .ignored) hp
        (.inr (not_critical hid (by simp))) ?_ hid (fun i hi => roleOf_classify_ne .ignored hi)
        (by simp)
      rintro rfl
      rcases hp with hp | hp
      · simpa [RoleFits, isBidi, connectId] using h.roles _ _ hp
      · simpa [RoleFits] using (h.roles _ _ hp).2.2
  | @resolve bidi header hrole =>
      have hp : e.Pending r := by
        split at hrole
        · exact .inr hrole
        · exact .inl hrole
      have hid : (e.classify r (.wtData bidi)).roleOf r = some (.wtData bidi) :=
        roleOf_classify (isSome_of_roleOf hrole)
      have hmod := Same.modifyStream (e.classify r (.wtData bidi)) r
        (f := fun st => { st with recvPrefix := header }) fun _ => ⟨rfl, rfl, fun h => h⟩
      refine Layout.same (h.classified (.classify e r _) hp (.inr (not_critical hid (by simp))) ?_ hid
        (fun i hi => roleOf_classify_ne _ hi) (by simp)) hmod
      have hfits := h.roles r _ hrole
      cases bidi with
      | true => exact ⟨hfits.2.1, hfits.2.2⟩
      | false =>
          refine ⟨hfits.2, ?_⟩
          rintro rfl
          simp [RoleFits, isBidi, connectId] at hfits
  | @incoming bidi hrole hopen hlocal =>
      have hfits := h.roles r _ hrole
      have hmono : ∀ v ∈ e.ev, v ∈ e.ev ++ [Ev.incomingStream r bidi] :=
        fun v hv => List.mem_append_left _ hv
      have hnew : ∀ i, (e.emit (.incomingStream r bidi)).Surfaced i → e.Surfaced i ∨ i = r := by
        rintro i (⟨q, hv⟩ | ⟨b, hv⟩)
        · rcases List.mem_append.mp hv with hv | hv
          · exact .inl (.inl ⟨q, hv⟩)
          · simp at hv
        · rcases List.mem_append.mp hv with hv | hv
          · exact .inl (.inr ⟨b, hv⟩)
          · simp only [List.mem_singleton, Ev.incomingStream.injEq] at hv
            exact .inr hv.1
      refine ⟨h.server, h.wellFormed, h.idle, h.roles, h.next, h.fresh,
        fun i hl hp => (h.known i hl hp).imp_right fun hs => hs.mono hmono,
        fun i role hr hl => (h.own i role hr hl).imp_right fun hs => hs.imp_right fun hs =>
          hs.mono hmono, fun r i hv => ?_, fun i b hv => ?_, h.created, h.ended,
        fun i hl hs hr => ?_, fun i role hl hs hr => ?_, h.control, h.critical, h.settled⟩
      · rcases List.mem_append.mp hv with hv | hv
        · exact h.opened r i hv
        · simp at hv
      · rcases List.mem_append.mp hv with hv | hv
        · exact h.incoming i b hv
        · simp only [List.mem_singleton, Ev.incomingStream.injEq] at hv
          obtain ⟨rfl, rfl⟩ := hv
          exact ⟨hlocal, hfits⟩
      · rcases hnew i hs with hs | rfl
        · exact h.gone i hl hs hr
        · exact absurd hr (by rw [show (e.emit (.incomingStream i bidi)).roleOf i = _ from hrole]; simp)
      · rcases hnew i hs with hs | rfl
        · exact h.data i role hl hs hr
        · rw [hfits.1]
          exact Option.some.inj (hr.symm.trans hrole)
  | forget hp =>
      refine h.foreign ⟨rfl, fun h => h, fun _ => rfl, rfl, fun h => h, fun _ => Iff.rfl,
        fun h => h, fun _ _ h => h, fun _ i st' hl hg hd => .inr (.inr ⟨st', ?_, hd⟩),
        fun i hd hs => ?_, rfl, fun _ h => h, fun _ h _ => h⟩ (fun i => ?_) fun i j hi hj => ?_
      · simp only [removeStream, Table.get_erase] at hg
        split at hg
        · cases hg
        · exact hg
      · simp only [Endpoint.roleOf, Endpoint.headersDone, removeStream, Table.get_erase] at hs ⊢
        split at hs
        · cases hs
        next hi => rw [if_neg hi]; exact hd
      · simp only [Endpoint.roleOf, removeStream, Table.get_erase]
        split
        next hi =>
          refine .inr ⟨hi ▸ hp, .inr ?_, by simp⟩
          simp [Critical, Endpoint.roleOf, Table.get_erase, hi]
        · exact .inl rfl
      · simp only [Endpoint.roleOf, removeStream, Table.get_erase] at hi hj
        split at hi
        · cases hi
        · split at hj
          · cases hj
          · exact h.control i j hi hj

/-! ## The other steps -/

theorem Same.queueOnConnect (e : Endpoint) (body : Bytes) : Same e (e.queueOnConnect body) :=
  .modifyStream e connectId fun _ => ⟨rfl, rfl, fun h => h⟩

theorem Same.queueSessionCapsule (e : Endpoint) (ty value : Nat) :
    Same e (e.queueSessionCapsule ty value) :=
  queueOnConnect e _

theorem Same.takeTerminalError (e : Endpoint) : Same e e.takeTerminalError := by
  unfold Endpoint.takeTerminalError
  split
  · exact .trans (b := { e with terminalError := none }) (session rfl rfl rfl rfl rfl rfl rfl rfl rfl)
      (closeConn _ _ _)
  · exact refl e

theorem Same.grantCredit (e : Endpoint) : Same e e.grantCredit := by
  unfold Endpoint.grantCredit
  split
  · refine .trans (.trans (.trans ?_ (queueSessionCapsule _ _ _)) (queueSessionCapsule _ _ _))
      (queueSessionCapsule _ _ _)
    exact session rfl rfl rfl rfl rfl rfl rfl rfl rfl
  · exact refl e

theorem Same.raiseDataLimit (e : Endpoint) (limit : Nat) : Same e (e.raiseDataLimit limit) := by
  refine .trans ?_ (queueSessionCapsule _ _ _)
  exact session rfl rfl rfl rfl rfl rfl rfl rfl rfl

theorem Same.raiseStreamsLimit (e : Endpoint) (bidi : Bool) (limit : Nat) :
    Same e (e.raiseStreamsLimit bidi limit) := by
  refine .trans ?_ (queueSessionCapsule _ _ _)
  exact session rfl rfl rfl rfl rfl rfl rfl rfl rfl

theorem Same.replenishData (e : Endpoint) : Same e e.replenishData := by
  unfold Endpoint.replenishData
  simp only
  split_ifs
  · exact raiseDataLimit e _
  · exact refl e
  · exact refl e

theorem Same.replenishStreams (e : Endpoint) (bidi : Bool) : Same e (e.replenishStreams bidi) := by
  unfold Endpoint.replenishStreams
  simp only
  split_ifs
  · exact raiseStreamsLimit e bidi _
  · exact refl e
  · exact refl e

theorem Same.replenish (e : Endpoint) : Same e e.replenish := by
  unfold Endpoint.replenish
  split
  · exact ((replenishData e).trans (replenishStreams _ _)).trans (replenishStreams _ _)
  · exact refl e

theorem Same.queueClose (e : Endpoint) : Same e e.queueClose := by
  unfold Endpoint.queueClose
  split
  · exact refl e
  · simp only
    split_ifs
    · exact refl e
    · refine .trans ?_ (modifyStream _ connectId (by intro st; exact ⟨rfl, rfl, fun h => h⟩))
      exact session rfl rfl rfl rfl rfl rfl rfl rfl rfl
    · exact session rfl rfl rfl rfl rfl rfl rfl rfl rfl

theorem Same.reconcileSendFinalSize (e : Endpoint) (id : Nat) :
    Same e (e.reconcileSendFinalSize id) := by
  unfold Endpoint.reconcileSendFinalSize
  split
  · simp only
    split
    · exact modify id (by intro st; exact ⟨rfl, rfl, fun h => h⟩) rfl rfl rfl rfl rfl rfl rfl rfl
        (List.append_nil _).symm (by simp)
    · exact refl e
  · exact refl e

theorem Same.dropQueue (e : Endpoint) (id : Nat) : Same e (e.dropQueue id) := by
  unfold Endpoint.dropQueue
  split
  · exact refl e
  · exact modify id (by intro st; exact ⟨rfl, rfl, fun h => h⟩) rfl rfl rfl rfl rfl rfl rfl rfl
      (List.append_nil _).symm (by simp)

theorem Same.streamWrite (e : Endpoint) (id : Nat) (data : Bytes) (requestId : Nat) :
    Same e (e.streamWrite id data requestId) := by
  unfold Endpoint.streamWrite
  have hlog : Same e (e.log (.written id data requestId)) := session rfl rfl rfl rfl rfl rfl rfl rfl rfl
  simp only
  split
  · exact hlog.trans (modifyStream _ _ fun _ => ⟨rfl, rfl, fun h => h⟩)
  · refine hlog.trans (.trans ?_ (emit _ rfl))
    exact session rfl rfl rfl rfl rfl rfl rfl rfl rfl

theorem Same.streamReset (e : Endpoint) (id code : Nat) : Same e (e.streamReset id code) := by
  unfold Endpoint.streamReset
  have hlog : Same e (e.log (.streamReset id)) := session rfl rfl rfl rfl rfl rfl rfl rfl rfl
  split
  · refine .trans (.trans (.trans ?_ (reconcileSendFinalSize _ id)) (dropQueue _ id))
      (modifyStream _ _ (by intro st; exact ⟨rfl, rfl, fun h => h⟩))
    exact hlog.trans (conn _ (Quic.Connection.streamShutdownWrite_isServer _ _ _)
      (fun h => Quic.Connection.wellFormed_shutdownWrite h _)
      (fun i => by
        rw [Quic.Connection.streamShutdownWrite_phase]
        rfl)
      fun _ _ h => Quic.Connection.exhausted_shutdownWrite h _)
  · exact refl e

theorem Layout.streamStopSending {e : Endpoint} (h : e.Layout) {id : Nat} (hs : e.Surfaced id)
    (code : Nat) : (e.streamStopSending id code).Layout := by
  unfold Endpoint.streamStopSending
  split
  next hsome =>
    refine Layout.same (h.same (.shutdownRead e id _)) (.setRecvDead _ id fun hl => .inr ?_)
    have hl : isLocal id e.cfg.isServer = false := hl
    obtain ⟨st, hst⟩ := Option.isSome_iff_exists.mp hsome
    have hrole : e.roleOf id = some st.role := by rw [Endpoint.roleOf, hst]; rfl
    refine ⟨Quic.Connection.exhausted_of_shutdownRead ?_ (h.created id hl (by simp [hrole])) _, ?_⟩
    · simp [Quic.Connection.canRecv, h.server, hl]
    · have hdata := h.data id _ hl hs hrole
      exact not_critical (e := e.shutdownRead id _) hrole (by simp [hdata])
  · exact h

theorem Same.signalDataBlocked (e : Endpoint) : Same e e.signalDataBlocked := by
  unfold Endpoint.signalDataBlocked
  split
  · exact (queueSessionCapsule e _ _).trans (session rfl rfl rfl rfl rfl rfl rfl rfl rfl)
  · exact refl e

theorem Same.signalStreamsBlocked (e : Endpoint) (bidi : Bool) :
    Same e (e.signalStreamsBlocked bidi) := by
  unfold Endpoint.signalStreamsBlocked
  simp only
  split_ifs
  · exact (queueSessionCapsule e _ _).trans (session rfl rfl rfl rfl rfl rfl rfl rfl rfl)
  · exact (queueSessionCapsule e _ _).trans (session rfl rfl rfl rfl rfl rfl rfl rfl rfl)
  · exact refl e

theorem Same.signalFlowControlBlocked (e : Endpoint) : Same e e.signalFlowControlBlocked := by
  unfold Endpoint.signalFlowControlBlocked
  split
  · exact refl e
  · exact ((signalDataBlocked e).trans (signalStreamsBlocked _ _)).trans (signalStreamsBlocked _ _)

theorem Same.gracefulClose (e : Endpoint) : Same e e.gracefulClose := by
  have harm : Same e e.armQuicClose := by
    unfold armQuicClose
    split
    · split
      · exact session rfl rfl rfl rfl rfl rfl rfl rfl rfl
      · exact refl e
    · exact refl e
  unfold Endpoint.gracefulClose
  split
  · exact refl e
  · simp only
    split_ifs
    · refine harm.trans (.trans ?_ (closeConn _ _ _))
      exact session rfl rfl rfl rfl rfl rfl rfl rfl rfl
    · exact harm.trans (session rfl rfl rfl rfl rfl rfl rfl rfl rfl)
    · exact harm

theorem Same.sendDrain (e : Endpoint) : Same e e.sendDrain := by
  unfold Endpoint.sendDrain
  split_ifs
  · exact refl e
  · exact (queueOnConnect e _).trans (session rfl rfl rfl rfl rfl rfl rfl rfl rfl)
  · exact refl e

theorem Same.onDatagrams (e : Endpoint) : Same e e.onDatagrams := by
  refine iterate_rel (I := fun _ => True) refl trans (fun s _ => ⟨?_, trivial⟩) _ trivial
  have hconn : Same s { s with conn := s.conn.dgramRecv.2 } := by
    refine conn s ?_ (fun h => ?_) (fun i => ?_) fun _ i h => ?_
    all_goals unfold Quic.Connection.dgramRecv
    · split <;> rfl
    · split <;> exact h
    · split <;> rfl
    · split <;> exact h
  unfold datagramStep
  split
  next c heq =>
    rw [heq] at hconn
    exact hconn
  next data c heq =>
    rw [heq] at hconn
    simp only
    split
    · exact hconn
    · split
      · exact hconn.trans (emit _ rfl)
      · exact hconn

theorem Same.sendDatagram (e : Endpoint) (data : Bytes) (requestId : Nat) :
    Same e (e.sendDatagram data requestId) := by
  have hconn : ∀ d, Same e { e with conn := (e.conn.dgramSend d).2 } := by
    intro d
    unfold Quic.Connection.dgramSend
    split
    · exact conn e rfl (fun h => h) (fun _ => Iff.rfl) fun _ _ h => h
    · exact refl e
  exact (hconn _).trans (emit _ rfl)

/-! ## New entries and new streams -/

theorem controlIds_ne_ownId {isServer : Bool} {id : Nat} (h : id ∈ controlIds isServer)
    (bidi : Bool) (k : Nat) : id ≠ ownId isServer bidi k := by
  simp only [controlIds, List.mem_cons, List.not_mem_nil, or_false] at h
  rcases h with rfl | rfl | rfl <;> cases isServer <;> cases bidi <;>
    simp [controlId, qpackEncId, qpackDecId, ownId, firstId, serverControlId, clientControlId,
      serverQpackEncId, clientQpackEncId, serverQpackDecId, clientQpackDecId, serverFirstWtBidiId,
      serverFirstWtUniId, clientFirstWtBidiId, clientFirstWtUniId] <;> omega

theorem Layout.insertLocal {e : Endpoint} (h : e.Layout) {id : Nat} (bytes : Bytes)
    (hid : id ∈ controlIds e.cfg.isServer) : (e.insertLocal id bytes).Layout :=
  have hlocal := controlIds_local hid
  h.insert hid (fun bidi k _ => controlIds_ne_ownId hid bidi k) (fun _ => .inl rfl)
    (fun hl => by simp [hlocal.1] at hl) rfl
    ⟨by simp [Stream.withPrefix, Stream.new], h.not_control (.inl hlocal.1)⟩

theorem Layout.onEstablished {e : Endpoint} (h : e.Layout) : e.onEstablished.Layout := by
  unfold Endpoint.onEstablished
  split
  · exact h
  · have h1 : Layout { e with setupSent := true } := h.same (.session rfl rfl rfl rfl rfl rfl rfl rfl rfl)
    have hids : controlId e.cfg.isServer ∈ controlIds e.cfg.isServer ∧
        qpackEncId e.cfg.isServer ∈ controlIds e.cfg.isServer ∧
        qpackDecId e.cfg.isServer ∈ controlIds e.cfg.isServer := by simp [controlIds]
    have h4 := ((h1.insertLocal H3.controlStreamPrefix hids.1).insertLocal
      (H3.putVarint H3.qpackEncoderStreamType) hids.2.1).insertLocal
      (H3.putVarint H3.qpackDecoderStreamType) hids.2.2
    simp only
    split
    · exact h4
    next hclient =>
      exact ⟨h4.server, h4.wellFormed, fun hs => absurd hs hclient, h4.roles, h4.next, h4.fresh,
        h4.known, h4.own, h4.opened, h4.incoming, h4.created, h4.ended, h4.gone, h4.data,
        h4.control, h4.critical, h4.settled⟩

theorem classifyNew_fits {isServer : Bool} {id : Nat}
    (h : isServer = false → id ≠ connectId) : RoleFits isServer id (classifyNew id isServer) := by
  unfold classifyNew
  cases isServer with
  | true =>
      simp only [if_true]
      split_ifs with h0 hc h2
      · exact hc
      · exact ⟨by simp [isLocal]; omega, by simp [isBidi]; omega, hc⟩
      · exact ⟨by simp [isLocal]; omega, by simp [isBidi]; omega⟩
      · rintro rfl
        simp [connectId] at h0
  | false =>
      simp only [Bool.false_eq_true, if_false]
      split_ifs with h3 h1
      · exact ⟨by simp [isLocal]; omega, by simp [isBidi]; omega⟩
      · refine ⟨by simp [isLocal]; omega, by simp [isBidi]; omega, ?_⟩
        rintro rfl
        simp [connectId] at h1
      · exact h rfl

theorem Layout.touch {e : Endpoint} (h : e.Layout) {id : Nat} (he : e.closed = false)
    (hr : e.conn.readable id = true) : (e.touch id).Layout := by
  have hlive := Quic.Connection.readable_live hr
  unfold Endpoint.touch
  split
  · exact h
  next hnone =>
    have hnone : e.roleOf id = none := by
      simpa [roleOf_eq_none, Table.contains] using hnone
    refine h.insert (classifyNew_fits fun hclient => ?_) ?_ (fun hl => ?_) (fun hl => ?_) rfl
      ⟨?_, by simp [hnone]⟩
    · rintro rfl
      exact h.connect_known hclient (by simp [hlive]) hnone
    · rintro bidi k hk rfl
      exact absurd (h.fresh bidi k hk).2 (by simp [hlive])
    · rcases h.known id hl (by simp [hlive]) with hr | hs
      · exact absurd hnone hr
      · exact .inr (.inr hs)
    · refine ⟨by simp [hlive], fun hs => ?_⟩
      rcases h.gone id hl hs hnone with hc | hx
      · simp [he] at hc
      · simp [Quic.Connection.not_readable_of_exhausted (h.wellFormed id) hx] at hr
    · simp only [Stream.new, classifyNew]
      split_ifs <;> simp

theorem Layout.allocateStream {e : Endpoint} (h : e.Layout) (bidi : Bool) (requestId : Nat) :
    (e.allocateStream bidi requestId).Layout := by
  obtain ⟨k, hk⟩ := h.next bidi
  have hfresh := h.fresh bidi k (by rw [hk])
  have hnext : ∀ b, (e.allocateStream bidi requestId).nextId b =
      if b = bidi then e.nextId b + 4 else e.nextId b := by
    intro b
    cases bidi <;> cases b <;>
      simp [Endpoint.allocateStream, Endpoint.nextId, insertStream, emit]
  have hstreams : (e.allocateStream bidi requestId).streams =
      e.streams.insert (e.nextId bidi)
        (.withPrefix (.wtData bidi) (streamSignal bidi) e.parserMemory) := by
    cases bidi <;> rfl
  have hrole : ∀ i, (e.allocateStream bidi requestId).roleOf i =
      if i = e.nextId bidi then some (.wtData bidi) else e.roleOf i := by
    intro i
    simp only [Endpoint.roleOf, hstreams, Table.get_insert]
    split <;> rfl
  have hconn : (e.allocateStream bidi requestId).conn = e.conn := by cases bidi <;> rfl
  have hcfg : (e.allocateStream bidi requestId).cfg = e.cfg := by cases bidi <;> rfl
  have hclosed : (e.allocateStream bidi requestId).closed = e.closed := by cases bidi <;> rfl
  have hev : (e.allocateStream bidi requestId).ev =
      e.ev ++ [.streamOpened requestId (e.nextId bidi)] := by
    cases bidi <;> rfl
  have hmono : ∀ v ∈ e.ev, v ∈ (e.allocateStream bidi requestId).ev := by
    intro v hv
    rw [hev]
    exact List.mem_append_left _ hv
  have hnew : (e.allocateStream bidi requestId).Surfaced (e.nextId bidi) :=
    .inl ⟨requestId, by rw [hev]; simp⟩
  have hpeer : ∀ i, isLocal i e.cfg.isServer = false → i ≠ e.nextId bidi := by
    rintro i hl rfl
    simp [hk, isLocal_ownId] at hl
  have hold : ∀ i, i ≠ e.nextId bidi → (e.allocateStream bidi requestId).Surfaced i →
      e.Surfaced i := by
    rintro i hi (⟨q, hv⟩ | ⟨b, hv⟩) <;> rw [hev] at hv <;>
      rcases List.mem_append.mp hv with hv | hv
    · exact .inl ⟨q, hv⟩
    · simp only [List.mem_singleton, Ev.streamOpened.injEq] at hv
      exact absurd hv.2 hi
    · exact .inr ⟨b, hv⟩
    · simp at hv
  refine ⟨?_, ?_, ?_, fun i role hr => ?_, fun b => ?_, fun b j hj => ?_, fun i hl hp => ?_,
    fun i role hr hl => ?_, fun r i hv => ?_, fun i b hv => ?_, fun i hl hr => ?_,
    fun i st' hl hg hd => ?_, fun i hl hs hr => ?_, fun i role hl hs hr => ?_, fun i j hi hj => ?_,
    fun i st' hl hc hg hd => ?_, fun hs => ?_⟩
  · rw [hconn, hcfg]
    exact h.server
  · rw [hconn]
    exact h.wellFormed
  · intro hs
    have := h.idle (hcfg ▸ hs)
    cases bidi <;> exact this
  · rw [hcfg]
    rw [hrole] at hr
    split at hr
    next hi =>
      rw [hi, hk, ← Option.some.inj hr]
      exact ⟨isBidi_ownId _ _ _, ownId_ne_connectId _ _ _⟩
    · exact h.roles i role hr
  · rw [hnext, hcfg]
    split
    next hb =>
      subst hb
      exact ⟨k + 1, by rw [hk]; simp only [ownId]; omega⟩
    · exact h.next b
  · rw [hcfg] at hj ⊢
    rw [hnext] at hj
    have hle : e.nextId b ≤ ownId e.cfg.isServer b j := by
      split at hj <;> omega
    rw [hrole, hconn, if_neg]
    · exact h.fresh b j hle
    · intro heq
      have hb : b = bidi := by
        have := congrArg isBidi heq
        rwa [hk, isBidi_ownId, isBidi_ownId] at this
      subst hb
      rw [if_pos rfl] at hj
      omega
  · rw [hcfg] at hl
    rw [hconn] at hp
    rw [hrole]
    split
    · exact .inl (by simp)
    · exact (h.known i hl hp).imp_right fun hs => hs.mono hmono
  · rw [hcfg] at hl
    rw [hrole] at hr
    split at hr
    next hi => exact .inr (.inr (hi ▸ hnew))
    · exact (h.own i role hr hl).imp_right fun hs => hs.imp_right fun hs => hs.mono hmono
  · rw [hev] at hv
    rw [hcfg]
    rcases List.mem_append.mp hv with hv | hv
    · obtain ⟨b, j, hid, hlt⟩ := h.opened r i hv
      refine ⟨b, j, hid, ?_⟩
      rw [hnext]
      split <;> omega
    · simp only [List.mem_singleton, Ev.streamOpened.injEq] at hv
      refine ⟨bidi, k, hv.2.trans hk, ?_⟩
      rw [hnext, if_pos rfl]
      omega
  · rw [hev] at hv
    rw [hcfg]
    rcases List.mem_append.mp hv with hv | hv
    · exact h.incoming i b hv
    · simp at hv
  · have hne := hpeer i (hcfg ▸ hl)
    rw [hrole, if_neg hne] at hr
    rw [hconn]
    exact h.created i (hcfg ▸ hl) hr
  · have hne := hpeer i (hcfg ▸ hl)
    rw [hstreams, Table.get_insert_ne hne] at hg
    rw [hconn, hclosed]
    exact h.ended i st' (hcfg ▸ hl) hg hd
  · have hne := hpeer i (hcfg ▸ hl)
    rw [hrole, if_neg hne] at hr
    rw [hconn, hclosed]
    exact h.gone i (hcfg ▸ hl) (hold i hne hs) hr
  · have hne := hpeer i (hcfg ▸ hl)
    rw [hrole, if_neg hne] at hr
    rw [hcfg] at hl
    exact h.data i role hl (hold i hne hs) hr
  · rw [hrole] at hi hj
    split at hi
    · simp at hi
    · split at hj
      · simp at hj
      · exact h.control i j hi hj
  · have hne := hpeer i (hcfg ▸ hl)
    rw [hstreams, Table.get_insert_ne hne] at hg
    rw [hclosed]
    refine h.critical i st' (hcfg ▸ hl) ?_ hg hd
    simpa only [Critical, hrole, if_neg hne] using hc
  · have hsettings : (e.allocateStream bidi requestId).peerSettings = e.peerSettings := by
      cases bidi <;> rfl
    rw [hsettings] at hs
    rw [hclosed]
    rcases h.settled hs with hdone | ⟨i, hr, hd⟩
    · exact .inl hdone
    have hne : i ≠ e.nextId bidi := by
      rintro rfl
      rw [hk, hfresh.1] at hr
      cases hr
    refine .inr ⟨i, ?_, ?_⟩
    · rw [hrole, if_neg hne]
      exact hr
    · simpa only [Endpoint.headersDone, hstreams, Table.get_insert_ne hne] using hd

theorem Layout.releasePendingOpens {e : Endpoint} (h : e.Layout) :
    e.releasePendingOpens.Layout := by
  have hfold : ∀ (l : List (Bool × Nat)) (s : Endpoint), s.Layout →
      (l.foldl releaseOpen s).Layout := by
    intro l
    induction l with
    | nil => exact fun s hs => hs
    | cons r l ih =>
        intro s hs
        refine ih _ ?_
        unfold releaseOpen
        split
        · exact hs.same (.session rfl rfl rfl rfl rfl rfl rfl rfl rfl)
        · exact hs.allocateStream r.1 r.2
  unfold Endpoint.releasePendingOpens
  split
  · exact h
  · exact hfold _ _ (h.same (.session rfl rfl rfl rfl rfl rfl rfl rfl rfl))

/-- A send creates at most the stream of an entry. -/
theorem Layout.sent {e : Endpoint} (h : e.Layout) {id : Nat} {bytes : Bytes} {fin : Bool}
    {r : Except Quic.Error Nat} {c : Quic.Connection} (hid : e.roleOf id ≠ none)
    (hs : Quic.Connection.Send e.conn id bytes fin r c) : Layout { e with conn := c } := by
  refine ⟨hs.isServer.trans h.server, hs.wellFormed h.wellFormed, h.idle, h.roles, h.next,
    fun bidi k hk => ?_, fun i hl hp => ?_, h.own, h.opened, h.incoming,
    fun i hl hr => ?_, fun i st hl hg hd => (h.ended i st hl hg hd).imp_right fun hx =>
      hs.exhausted h.wellFormed hx,
    fun i hl hsurf hr => (h.gone i hl hsurf hr).imp_right fun hx => hs.exhausted h.wellFormed hx,
    h.data, h.control, h.critical, h.settled⟩
  · obtain ⟨hr, habs⟩ := h.fresh bidi k hk
    refine ⟨hr, ?_⟩
    rcases hs.phase habs with hp | ⟨heq, -⟩
    · exact hp
    · exact absurd (heq ▸ hr) hid
  · by_cases hi : i = id
    · exact .inl (hi ▸ hid)
    · have hne : c.streams i = e.conn.streams i := hs.ne hi
      exact h.known i hl fun habs => hp (by rw [← habs, ← hne])
  · exact fun habs => h.created i hl hr (hs.absent habs)

theorem Layout.sendStep {e : Endpoint} (h : e.Layout) (id : Nat) : (sendStep id e).1.Layout := by
  unfold Endpoint.sendStep
  split
  · exact h
  next st hst =>
    have hid : e.roleOf id ≠ none := by simp [roleOf, hst]
    split
    · exact h
    next front rest hout =>
      simp only
      split
      · exact h
      · have hspec := h.sent hid (Quic.Connection.streamSend_spec e.conn id
          ((front.data.drop front.off).take (e.sendAmount st front)) false)
        split
        next n c heq =>
          rw [heq] at hspec
          refine hspec.same (.modify id (by intro st; exact ⟨rfl, rfl, fun h => h⟩) rfl rfl rfl rfl rfl
            rfl rfl rfl rfl ?_)
          intro v hv
          split at hv
          · simp only [ackOf, Option.mem_toList, Option.map_eq_some_iff] at hv
            obtain ⟨r, -, rfl⟩ := hv
            rfl
          · simp at hv
        next code c heq =>
          rw [heq] at hspec
          refine hspec.same (.modify id (by intro st; exact ⟨rfl, rfl, fun h => h⟩) rfl rfl rfl rfl rfl
            rfl rfl rfl rfl ?_)
          intro v hv
          rcases List.mem_cons.mp hv with rfl | hv
          · rfl
          · obtain ⟨chunk, -, hv⟩ := List.mem_flatMap.mp hv
            simp only [ackOf, Option.mem_toList, Option.map_eq_some_iff] at hv
            obtain ⟨r, -, rfl⟩ := hv
            rfl
        next c hne heq =>
          rw [heq] at hspec
          exact hspec

theorem Layout.sendFin {e : Endpoint} (h : e.Layout) (id : Nat) : (e.sendFin id).Layout := by
  unfold Endpoint.sendFin
  split
  · exact h
  next st hst =>
    have hid : e.roleOf id ≠ none := by simp [roleOf, hst]
    split
    · have hspec := h.sent hid (Quic.Connection.streamSend_spec e.conn id [] true)
      split
      next n c heq =>
        rw [heq] at hspec
        exact hspec.same (.modifyStream _ id fun _ => ⟨rfl, rfl, fun h => h⟩)
      next err c heq =>
        rw [heq] at hspec
        exact hspec
    · exact h

theorem Layout.flushStream {e : Endpoint} (h : e.Layout) (id : Nat) : (e.flushStream id).Layout :=
  (iterate_invariant (I := Layout) (fun _ hs => hs.sendStep id) _
    (h.same (.reconcileSendFinalSize e id))).sendFin id

/-- A stream of the peer is dropped only when it is not read on. -/
theorem recvDead_of_dropped {isServer : Bool} {id : Nat} {st : Stream}
    (hl : isLocal id isServer = false) (h : retains isServer id st = false) : st.recvDead = true := by
  unfold retains at h
  split at h
  · cases h
  · have hinit : (if isServer then id % 2 == 1 else id % 2 == 0) = false := by
      unfold isLocal at hl
      cases isServer <;> simpa using hl
    simp only [hinit] at h
    simp at h
    exact h.1

theorem Layout.prune {e : Endpoint} (h : e.Layout) : e.prune.Layout := by
  have hrole : ∀ i role, e.prune.roleOf i = some role → e.roleOf i = some role := by
    intro i role hr
    simp only [Endpoint.roleOf, Endpoint.prune, Table.get_filter] at hr ⊢
    cases hg : e.streams.get i with
    | none => simp [hg] at hr
    | some st =>
        rw [hg] at hr
        by_cases hk : retains e.cfg.isServer i st = true
        · simpa [Option.filter, hk] using hr
        · simp [Option.filter, hk] at hr
  have hkept : ∀ i, e.prune.roleOf i = none → e.roleOf i = none ∨
      ∃ role, e.roleOf i = some role ∧ role ≠ .localControlPlane ∧ i ≠ connectId := by
    intro i hr
    simp only [Endpoint.roleOf, Endpoint.prune, Table.get_filter] at hr ⊢
    cases hg : e.streams.get i with
    | none => exact .inl rfl
    | some st =>
        refine .inr ⟨st.role, rfl, ?_⟩
        rw [hg] at hr
        by_cases hk : retains e.cfg.isServer i st = true
        · simp [Option.filter, hk] at hr
        · unfold retains at hk
          split at hk
          · simp at hk
          next hnot =>
            simp only [not_or] at hnot
            exact ⟨hnot.2, hnot.1⟩
  refine ⟨h.server, h.wellFormed, h.idle, fun i role hr => h.roles i role (hrole i role hr), h.next,
    fun bidi k hk => ?_, fun i hl hp => ?_, fun i role hr hl => h.own i role (hrole i role hr) hl,
    h.opened, h.incoming, fun i hl hr => ?_, fun i st hl hg hd => ?_, fun i hl hs hr => ?_,
    fun i role hl hs hr => h.data i role hl hs (hrole i role hr),
    fun i j hi hj => h.control i j (hrole i _ hi) (hrole j _ hj), fun i st hl hc hg hd => ?_,
    fun hs => ?_⟩
  · obtain ⟨hr, hp⟩ := h.fresh bidi k hk
    refine ⟨?_, hp⟩
    cases hg : e.prune.roleOf (ownId e.prune.cfg.isServer bidi k) with
    | none => rfl
    | some role => exact absurd ((hrole _ _ hg).symm.trans hr) (by simp)
  · cases hg : e.prune.roleOf i with
    | some role => exact .inl (by simp)
    | none =>
        rcases hkept i hg with hr | ⟨role, hr, hlocal, hne⟩
        · exact (h.known i hl hp).imp (fun hnot => absurd hr hnot) fun hs => hs
        · refine .inr ?_
          rcases h.own i role hr hl with hcontrol | hconnect | hs
          · exact absurd hcontrol hlocal
          · exact absurd (h.roles i role hr) (by rw [hconnect]; exact hne)
          · exact hs
  · refine h.created i hl fun hnone => hr ?_
    cases hg : e.prune.roleOf i with
    | none => rfl
    | some role => exact absurd ((hrole i role hg).symm.trans hnone) (by simp)
  · refine h.ended i st hl ?_ hd
    simp only [Endpoint.prune, Table.get_filter, Option.filter_eq_some_iff] at hg
    exact hg.1
  · cases hg : e.streams.get i with
    | none => exact h.gone i hl hs (roleOf_eq_none.mpr hg)
    | some st =>
        refine h.ended i st hl hg ?_
        have hdropped : retains e.cfg.isServer i st = false := by
          by_contra hk
          have hk : retains e.cfg.isServer i st = true := by simpa using hk
          simp [Endpoint.roleOf, Endpoint.prune, hg, Option.filter, hk] at hr
        exact recvDead_of_dropped hl hdropped
  · simp only [Endpoint.prune, Table.get_filter, Option.filter_eq_some_iff] at hg
    refine h.critical i st hl ?_ hg.1 hd
    rcases hc with hr | ⟨encoder, hr⟩ | hr
    · exact .inl (hrole i _ hr)
    · exact .inr (.inl ⟨encoder, hrole i _ hr⟩)
    · exact .inr (.inr (hrole i _ hr))
  · -- the control stream is not dropped while the session is open
    rcases h.settled hs with hdone | ⟨i, hr, hd⟩
    · exact .inl hdone
    cases hg : e.streams.get i with
    | none => simp [Endpoint.roleOf, hg] at hr
    | some st =>
        by_cases hk : retains e.cfg.isServer i st = true
        · have hst : e.prune.streams.get i = some st := by
            simp [Endpoint.prune, hg, Option.filter, hk]
          refine .inr ⟨i, ?_, ?_⟩
          · rw [Endpoint.roleOf, hst]
            simpa [Endpoint.roleOf, hg] using hr
          · rw [Endpoint.headersDone, hst]
            simpa [Endpoint.headersDone, hg] using hd
        · have hl := (h.roles i _ hr).1
          exact .inl (h.critical i st hl (.inl hr) hg
            (recvDead_of_dropped hl (by simpa using hk)))

theorem Layout.network {e : Endpoint} (h : e.Layout) (event : Quic.NetEvent) :
    Layout { e with conn := e.conn.net event } := by
  have hphase : ∀ i, isLocal i e.cfg.isServer = true →
      ((e.conn.net event).streams i).phase ≠ .absent → (e.conn.streams i).phase ≠ .absent := by
    intro i hl hp habs
    have hl : isLocal i e.conn.isServer = true := by rw [h.server]; exact hl
    have hspec := Quic.Connection.net_spec e.conn event i
    generalize (e.conn.net event).streams i = s at hspec hp
    cases hspec with
    | same => exact hp habs
    | created _ hf => simp [hl] at hf
    | live hlive => simp [hlive] at habs
    | first _ hf => simp [hl] at hf
  refine ⟨(Quic.Connection.net_isServer _ _).trans h.server,
    Quic.Connection.wellFormed_net h.wellFormed event, h.idle, h.roles, h.next, fun bidi k hk => ?_,
    fun i hl hp => h.known i hl (hphase i hl hp), h.own, h.opened, h.incoming,
    fun i hl hr habs => h.created i hl hr (Quic.Connection.net_absent habs),
    fun i st hl hg hd => (h.ended i st hl hg hd).imp_right fun hx =>
      Quic.Connection.exhausted_net h.wellFormed hx event,
    fun i hl hs hr => (h.gone i hl hs hr).imp_right fun hx =>
      Quic.Connection.exhausted_net h.wellFormed hx event, h.data, h.control, h.critical, h.settled⟩
  obtain ⟨hr, habs⟩ := h.fresh bidi k hk
  refine ⟨hr, ?_⟩
  by_contra hp
  exact hphase _ (isLocal_ownId _ _ _) hp habs

section

variable [H3.Codec]

theorem Layout.read {e : Endpoint} (h : e.Layout) (he : e.closed = false) (id : Nat)
    (backpressured : Bool) : (readStep id backpressured e).1.Layout := by
  rcases readStep_effects (h.readable he) h.wellFormed (h.alive_of_readable he id) backpressured
    with heq | ⟨cap, heff⟩
  · rw [heq]
    exact h
  · have hspec := Quic.Connection.streamRecv_spec e.conn id cap
    exact heff.invariant (fun _ _ hs => hs.layout) (h.same (.conn e hspec.isServer hspec.wellFormed
      hspec.phase fun hwf _ => hspec.exhausted hwf))

/-- The layout is an invariant of every step. -/
theorem Layout.step {e : Endpoint} (h : e.Layout) {s : Step} (hs : e.StepAdmissible s) :
    (e.step s).Layout := by
  cases s with
  | onEstablished => exact h.onEstablished
  | touch id => exact h.touch hs.1 hs.2
  | read id backpressured => exact h.read hs id backpressured
  | onDatagrams => exact h.same (.onDatagrams e)
  | sendDatagram data requestId => exact h.same (.sendDatagram e data requestId)
  | openStream bidi requestId =>
      exact Layout.releasePendingOpens (h.same (.session rfl rfl rfl rfl rfl rfl rfl rfl rfl))
  | streamWrite id data requestId => exact h.same (.streamWrite e id data requestId)
  | streamFin id => exact h.same (.modifyStream e id fun _ => ⟨rfl, rfl, fun h => h⟩)
  | streamReset id code => exact h.same (.streamReset e id code)
  | streamStopSending id code => exact h.streamStopSending hs code
  | setPaused id paused => exact h.same (.modifyStream e id fun _ => ⟨rfl, rfl, fun h => h⟩)
  | close code reason =>
      simp only [Endpoint.step, Endpoint.close]
      split
      · exact h.same (.session rfl rfl rfl rfl rfl rfl rfl rfl rfl)
      · exact h
  | sendDrain => exact h.same (.sendDrain e)
  | takeTerminalError => exact h.same (.takeTerminalError e)
  | grantCredit => exact h.same (.grantCredit e)
  | replenish => exact h.same (.replenish e)
  | queueClose => exact h.same (.queueClose e)
  | releasePendingOpens => exact h.releasePendingOpens
  | flushStream id => exact h.flushStream id
  | commitSent => exact h.same (.session rfl rfl rfl rfl rfl rfl rfl rfl rfl)
  | signalFlowControlBlocked => exact h.same (.signalFlowControlBlocked e)
  | prune => exact h.prune
  | gracefulClose => exact h.same (.gracefulClose e)
  | markClosed code reason remote => exact h.same (.markClosed e code reason remote)
  | network event => exact h.network event

end

/-- A session without streams on a connection without streams. -/
theorem Layout.start {e : Endpoint} (hidle : e.ServerIdle) (hstreams : e.streams = .empty)
    (hsettings : e.peerSettings = none) (hev : e.ev = []) (hnext : ∀ bidi, e.nextId bidi = firstId e.cfg.isServer bidi)
    (hfresh : Fresh e.conn e.cfg.isServer) : e.Layout := by
  have hrole : ∀ i, e.roleOf i = none := fun i => by simp [Endpoint.roleOf, hstreams]
  have hphase : ∀ i, (e.conn.streams i).phase = .absent := fun i => by rw [hfresh.2.1 i]
  refine ⟨hfresh.1, fun i => ?_, hidle, fun i role hr => ?_, fun bidi => ⟨0, hnext bidi⟩,
    fun bidi k _ => ⟨hrole _, hphase _⟩, fun i _ hp => absurd (hphase i) hp, fun i role hr => ?_,
    fun r i hv => ?_, fun i b hv => ?_, fun i _ hr => absurd (hrole i) hr, fun i st _ hg => ?_,
    fun i _ hs => ?_, fun i role _ _ hr => ?_, fun i j hr => ?_, fun i st _ _ hg => ?_,
    fun hs => ?_⟩
  · rw [hfresh.2.1 i]
    exact Quic.QStream.wellFormed_empty
  · simp [hrole] at hr
  · simp [hrole] at hr
  · simp [hev] at hv
  · simp [hev] at hv
  · simp [hstreams] at hg
  · simp [Surfaced, hev] at hs
  · simp [hrole] at hr
  · simp [hrole] at hr
  · simp [hstreams] at hg
  · simp [hsettings] at hs

theorem Start.layout {e : Endpoint} (h : Start e) : e.Layout := by
  cases h with
  | client _ _ _ _ _ conn heap hf =>
      exact .start (fun _ => rfl) rfl rfl rfl (fun bidi => by cases bidi <;> rfl) hf
  | server _ _ _ _ _ conn heap hf =>
      exact .start (fun _ => rfl) rfl rfl rfl (fun bidi => by cases bidi <;> rfl) hf

end Endpoint

end RWebTransport
