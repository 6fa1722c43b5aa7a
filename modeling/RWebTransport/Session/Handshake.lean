import RWebTransport.Session.Change

/-!
# The handshake

A session becomes ready at most once, on account of the first HEADERS frame of
the CONNECT stream.  A server answers a request it has checked, behind SETTINGS
that admit it; a client sends its request behind such SETTINGS and takes a
response that selects nothing it did not offer.

Most of what happens to a session is `Mute`: it touches none of this.
-/

namespace RWebTransport

/-- The session became ready. -/
def Ev.isReady : Ev → Bool
  | .ready _ _ | .serverReady _ => true
  | _ => false

def Ev.isClosed : Ev → Bool
  | .closed _ _ _ => true
  | _ => false

theorem Ev.isClosed_of_isReady {v : Ev} (h : v.isReady = true) : v.isClosed = false := by
  cases v <;> simp_all [Ev.isReady, Ev.isClosed]

/-- The header block of a HEADERS frame of the CONNECT stream. -/
def Trace.headerBlock : Trace → Option Bytes
  | .connectFrame ty payload => if ty = H3.frameHeaders then some payload else none
  | _ => none

/-- What the handshake leaves in the history, apart from HEADERS frames. -/
def Trace.isHandshake : Trace → Bool
  | .settings _ | .ready | .rejected _ | .connectQueued => true
  | _ => false

/-- The first HEADERS frame that was taken off the CONNECT stream. -/
def firstHeaders (history : List Trace) : Option Bytes := history.findSome? Trace.headerBlock

theorem firstHeaders_append_of_some {l : List Trace} {block : Bytes} (h : firstHeaders l = some block)
    (m : List Trace) : firstHeaders (l ++ m) = some block := by
  simp [firstHeaders, List.findSome?_append, show l.findSome? Trace.headerBlock = some block from h]

theorem firstHeaders_append_of_none {l m : List Trace} (h : ∀ t ∈ m, t.headerBlock = none) :
    firstHeaders (l ++ m) = firstHeaders l := by
  have hm : m.findSome? Trace.headerBlock = none := by simpa using h
  simp [firstHeaders, List.findSome?_append, hm]

theorem headerBlock_of_input {t : Trace} (h : t.isInput = true) : t.headerBlock = none := by
  cases t with
  | connectFrame ty payload => simpa [Trace.headerBlock, Trace.isInput] using h
  | _ => rfl

theorem headerBlock_of_quiet {t : Trace} (h : t.isQuiet = true) :
    t.headerBlock = none ∧ t.isHandshake = false := by
  cases t <;> first | exact ⟨rfl, rfl⟩ | cases h

namespace Endpoint

/-- Nothing has happened to the handshake.  The session may have ended. -/
structure Mute (e e' : Endpoint) : Prop where
  cfg : e'.cfg = e.cfg
  ready : e'.ready = e.ready
  setupSent : e'.setupSent = e.setupSent
  pending : e'.connectPending = e.connectPending ∨ e'.connectPending = false
  peerSettings : e'.peerSettings = e.peerSettings
  connect : e'.connectDone = e.connectDone
  closed : e.closed = true → e'.closed = true
  ev : ∃ l, e'.ev = e.ev ++ l ∧ (∀ v ∈ l, v.isReady = false) ∧
    ((∃ v ∈ l, v.isClosed = true) → e'.closed = true)
  history : ∃ l, e'.history = e.history ++ l ∧ (∀ t ∈ l, t.isHandshake = false) ∧
    ((∀ t ∈ l, t.headerBlock = none) ∨ e.connectDone = some true)

namespace Mute

theorem trans {a b c : Endpoint} (hab : Mute a b) (hbc : Mute b c) : Mute a c where
  cfg := hbc.cfg.trans hab.cfg
  ready := hbc.ready.trans hab.ready
  setupSent := hbc.setupSent.trans hab.setupSent
  pending := by
    rcases hbc.pending with h | h
    · exact h ▸ hab.pending
    · exact .inr h
  peerSettings := hbc.peerSettings.trans hab.peerSettings
  connect := hbc.connect.trans hab.connect
  closed h := hbc.closed (hab.closed h)
  ev := by
    obtain ⟨l, hl, hlr, hlc⟩ := hab.ev
    obtain ⟨m, hm, hmr, hmc⟩ := hbc.ev
    refine ⟨l ++ m, by rw [hm, hl, List.append_assoc], List.forall_mem_append.mpr ⟨hlr, hmr⟩, ?_⟩
    rintro ⟨v, hv, hc⟩
    rcases List.mem_append.mp hv with hv | hv
    · exact hbc.closed (hlc ⟨v, hv, hc⟩)
    · exact hmc ⟨v, hv, hc⟩
  history := by
    obtain ⟨l, hl, hlg, hlb⟩ := hab.history
    obtain ⟨m, hm, hmg, hmb⟩ := hbc.history
    refine ⟨l ++ m, by rw [hm, hl, List.append_assoc], List.forall_mem_append.mpr ⟨hlg, hmg⟩, ?_⟩
    rw [hab.connect] at hmb
    rcases hlb with hlb | hd
    · exact hmb.imp_left fun hmb => List.forall_mem_append.mpr ⟨hlb, hmb⟩
    · exact .inr hd

/-- Fields that do not concern the handshake have changed. -/
theorem of_eq {e e' : Endpoint} (hcfg : e'.cfg = e.cfg) (hready : e'.ready = e.ready)
    (hsetup : e'.setupSent = e.setupSent)
    (hpending : e'.connectPending = e.connectPending ∨ e'.connectPending = false)
    (hsettings : e'.peerSettings = e.peerSettings) (hclosed : e'.closed = e.closed)
    (hconnect : e'.connectDone = e.connectDone) {l : List Ev} (hev : e'.ev = e.ev ++ l)
    (hevs : ∀ v ∈ l, v.isReady = false ∧ v.isClosed = false) {m : List Trace}
    (hhistory : e'.history = e.history ++ m)
    (hts : ∀ t ∈ m, t.isHandshake = false ∧ t.headerBlock = none) : Mute e e' :=
  ⟨hcfg, hready, hsetup, hpending, hsettings, hconnect, fun h => hclosed.trans h,
    ⟨l, hev, fun v hv => (hevs v hv).1, fun ⟨v, hv, hc⟩ => by simp [(hevs v hv).2] at hc⟩,
    ⟨m, hhistory, fun t ht => (hts t ht).1, .inl fun t ht => (hts t ht).2⟩⟩

/-- Fields of the session that concern neither streams nor the record. -/
theorem session {e e' : Endpoint} (hcfg : e'.cfg = e.cfg) (hready : e'.ready = e.ready)
    (hsetup : e'.setupSent = e.setupSent)
    (hpending : e'.connectPending = e.connectPending ∨ e'.connectPending = false)
    (hsettings : e'.peerSettings = e.peerSettings) (hclosed : e'.closed = e.closed)
    (hconnect : e'.connectDone = e.connectDone) (hev : e'.ev = e.ev)
    (hhistory : e'.history = e.history) : Mute e e' :=
  of_eq hcfg hready hsetup hpending hsettings hclosed hconnect (l := []) (by simp [hev]) (by simp)
    (m := []) (by simp [hhistory]) (by simp)

theorem refl (e : Endpoint) : Mute e e := session rfl rfl rfl (.inl rfl) rfl rfl rfl rfl rfl

/-- One entry has changed. -/
theorem modifyStream (e : Endpoint) (id : Nat) {f : Stream → Stream}
    (hf : ∀ st, (f st).headersDone = st.headersDone) : Mute e (e.modifyStream id f) :=
  session rfl rfl rfl (.inl rfl) rfl rfl (connectDone_modify id rfl hf) rfl rfl

theorem emit (e : Endpoint) {v : Ev} (hv : v.isReady = false ∧ v.isClosed = false) :
    Mute e (e.emit v) :=
  of_eq rfl rfl rfl (.inl rfl) rfl rfl rfl (l := [v]) rfl (by simpa using hv) (m := [])
    (List.append_nil _).symm (by simp)

theorem emitErrors (e : Endpoint) (messages : List String) : Mute e (e.emitErrors messages) :=
  of_eq rfl rfl rfl (.inl rfl) rfl rfl rfl (l := messages.map Ev.error) rfl
    (by simp [Ev.isReady, Ev.isClosed]) (m := []) (List.append_nil _).symm (by simp)

theorem log (e : Endpoint) {t : Trace} (ht : t.isHandshake = false ∧ t.headerBlock = none) :
    Mute e (e.log t) :=
  of_eq rfl rfl rfl (.inl rfl) rfl rfl rfl (l := []) (List.append_nil _).symm (by simp) (m := [t])
    rfl (by simpa using ht)

theorem markClosed (e : Endpoint) (code : Nat) (reason : Bytes) (remote : Bool) :
    Mute e (e.markClosed code reason remote) := by
  cases h : e.closed with
  | true =>
      simp only [Endpoint.markClosed, h, if_true]
      exact refl e
  | false =>
      obtain ⟨hready, hsetup, hpending, hsettings, hhistory⟩ := markClosed_flags e code reason remote
      have hclosed := markClosed_closed e code reason remote
      have hdone : (e.markClosed code reason remote).connectDone = e.connectDone := by
        rw [connectDone, connectDone, markClosed_streams h, Table.get_map]
        cases e.streams.get connectId <;> rfl
      exact ⟨markClosed_cfg e code reason remote, hready, hsetup, .inl hpending, hsettings, hdone,
        fun _ => hclosed, ⟨_, markClosed_ev h code reason remote, by simp [Ev.isReady],
          fun _ => hclosed⟩, ⟨[], by simp [hhistory], by simp, .inl (by simp)⟩⟩

theorem killRecv (e : Endpoint) (id : Nat) : Mute e (e.killRecv id) :=
  session rfl rfl rfl (.inl rfl) rfl rfl (connectDone_modify id rfl fun _ => rfl) rfl rfl

theorem setRecvDead (e : Endpoint) (id : Nat) : Mute e (e.setRecvDead id) :=
  modifyStream e id fun _ => rfl

theorem classify (e : Endpoint) (id : Nat) (role : Role) : Mute e (e.classify id role) :=
  session rfl rfl rfl (.inl rfl) rfl rfl (connectDone_modify id rfl fun _ => rfl) rfl rfl

/-- Quiet steps are mute. -/
theorem of_quiet {e e' : Endpoint} (h : Quiet e e') : Mute e e' := by
  obtain ⟨l, hl, hlq⟩ := h.ev
  obtain ⟨m, hm, hmq⟩ := h.history
  refine of_eq h.cfg h.ready h.setup.1 (.inl h.setup.2.1) h.peerSettings h.closed h.connect hl
    (fun v hv => ?_) hm fun t ht => (headerBlock_of_quiet (hmq t ht)).symm
  have hq := hlq v hv
  cases v <;> first | exact ⟨rfl, rfl⟩ | cases hq

end Mute

/-! ## What happens to the handshake -/

variable [H3.Codec]

/-- The effects that the handshake consists of. -/
inductive Shakes : Endpoint → Endpoint → Prop
  | settings (e : Endpoint) {r : Nat} {s : H3.PeerSettings} : e.closed = false →
      connectId ≠ r → Shakes e ((e.setHeadersDone r).seedLimits s)
  | connect (e : Endpoint) {s : H3.PeerSettings} (frame : Bytes) : e.cfg.isServer = false →
      e.closed = false → e.connectPending = true → e.peerSettings = some s →
      s.webtransportOk = true → Shakes e ((({ e with connectPending := false } : Endpoint).log .connectQueued).insertStream
        connectId (.withPrefix .connect frame e.parserMemory))
  | headers (e : Endpoint) (block : Bytes) : e.connectDone = some false → e.Ungranted block →
      Shakes e (e.takeHeaders connectId block)
  | ready (e : Endpoint) {block : Bytes} {protocol : Option String}
      {headers : List (String × String)} : e.cfg.isServer = false → e.closed = false →
      e.connectDone = some false → Grants e.cfg block protocol headers →
      Shakes e ((e.takeHeaders connectId block).becomeReady.emit (.ready protocol headers))
  | accept (e : Endpoint) {s : H3.PeerSettings} {block : Bytes} {selected : Option String}
      {q : ServerRequest} (frame : Bytes) : e.cfg.isServer = true → e.closed = false →
      e.connectDone = some false → e.peerSettings = some s → s.admitsConnect = true →
      Admits e.cfg block selected q →
      Shakes e (((e.takeHeaders connectId block).respond connectId frame false).becomeReady.emit
        (.serverReady q))
  | rejected (e : Endpoint) (status : Nat) : e.closed = false →
      Shakes e ((e.log (.rejected status)).markClosed 0 [] false)

/-- A sequence of mute changes and of effects of the handshake. -/
abbrev Shaken : Endpoint → Endpoint → Prop := Relation.ReflTransGen fun e e' => Mute e e' ∨ Shakes e e'

omit [H3.Codec] in
theorem connectDone_of_role {e : Endpoint} (hl : e.Layout) {id : Nat}
    (hrole : e.roleOf id = some .connect) : id = connectId ∧
      e.connectDone = some (e.headersDone id) := by
  have hid : id = connectId := hl.roles id _ hrole
  subst hid
  refine ⟨rfl, ?_⟩
  cases hst : e.streams.get connectId with
  | none => simp [Endpoint.roleOf, hst] at hrole
  | some st => simp [connectDone, headersDone, hst]

omit [H3.Codec] in
theorem connectDone_role {e : Endpoint} (hl : e.Layout) {role : Role}
    (hrole : e.roleOf connectId = some role) : role = .connect := by
  cases hst : e.streams.get connectId with
  | none => simp [Endpoint.roleOf, hst] at hrole
  | some st =>
      simp only [Endpoint.roleOf, hst, Option.map_some, Option.some.injEq] at hrole
      rw [← hrole]
      exact hl.connectRole st hst

theorem refuse_shaken {e : Endpoint} (he : e.closed = false) (id : Nat) (frame : Option Bytes)
    (messages : List String) (status : Nat) : Shaken e (e.refuse id frame messages status) := by
  have hrest : ∀ s : Endpoint, s.closed = false →
      Shaken s (((s.emitErrors messages).log (.rejected status)).markClosed 0 [] false) :=
    fun s hs => .tail (.single (.inl (.emitErrors s messages))) (.inr (.rejected _ status hs))
  cases frame with
  | none => exact hrest e he
  | some frame =>
      exact .head (.inl (.modifyStream e id (f := fun st =>
        { st.push frame none with finQueued := true || st.finQueued }) fun _ => rfl))
        (hrest (e.respond id frame true) he)

/-- What reading does to the handshake. -/
theorem Effect.shaken {r : Nat} {e e' : Endpoint} (h : Effect r e e') (hl : e.Layout) :
    Shaken e e' := by
  have hsingle : ∀ {a b : Endpoint}, Mute a b → Shaken a b := fun h => .single (.inl h)
  cases h with
  | heap | capsuleBuf | terminal | closeConn | count =>
      exact hsingle (.session rfl rfl rfl (.inl rfl) rfl rfl rfl rfl rfl)
  | connectRefused => exact hsingle (.session rfl rfl rfl (.inr rfl) rfl rfl rfl rfl rfl)
  | log ht =>
      refine hsingle (.log e ⟨?_, headerBlock_of_input ht⟩)
      rename_i t
      cases t <;> first | rfl | cases ht
  | frames | classBuf => exact hsingle (.modifyStream e _ fun _ => rfl)
  | controlDone hrole =>
      have hne : connectId ≠ r := by
        rintro rfl
        exact absurd (connectDone_role hl hrole) (by simp)
      exact hsingle (.session rfl rfl rfl (.inl rfl) rfl rfl
        (congrArg (Option.map Stream.headersDone) (Table.get_modify_ne hne)) rfl rfl)
  | fail message => exact hsingle ((Mute.emit e ⟨rfl, rfl⟩).trans (.markClosed _ _ _ _))
  | finish => exact hsingle (.markClosed e _ _ _)
  | kill => exact hsingle (.killRecv e r)
  | killFail => exact hsingle (((Mute.killRecv e r).trans (.emit _ ⟨rfl, rfl⟩)).trans (.markClosed _ _ _ _))
  | credit =>
      refine hsingle ?_
      unfold setCreditLimit
      split_ifs <;> exact .session rfl rfl rfl (.inl rfl) rfl rfl rfl rfl rfl
  | draining =>
      exact hsingle (.of_eq rfl rfl rfl (.inl rfl) rfl rfl rfl (l := [.draining]) rfl
        (by simp [Ev.isReady, Ev.isClosed]) (m := []) (List.append_nil _).symm (by simp))
  | settings hc hrole hdone =>
      refine .single (.inr (.settings e hc ?_))
      rintro rfl
      exact absurd (connectDone_role hl hrole) (by simp)
  | connect frame hc hp hs hok =>
      refine .single (.inr (.connect e frame ?_ hc hp hs hok))
      cases hserver : e.cfg.isServer with
      | false => rfl
      | true => simp [hl.idle hserver] at hp
  | unrequested hc hp =>
      exact hsingle (.of_eq rfl rfl rfl (.inr rfl) rfl rfl rfl (l := [.error _]) rfl
        (by simp [Ev.isReady, Ev.isClosed]) (m := []) (List.append_nil _).symm (by simp))
  | headers block hrole hdone hno =>
      obtain ⟨rfl, hd⟩ := connectDone_of_role hl hrole
      exact .single (.inr (.headers e block (hdone ▸ hd) hno))
  | moreHeaders block hrole hdone =>
      obtain ⟨rfl, hd⟩ := connectDone_of_role hl hrole
      refine hsingle ⟨rfl, rfl, rfl, .inl rfl, rfl, rfl, fun h => h, ⟨[], (List.append_nil _).symm,
        by simp, by simp⟩, ⟨[_], rfl, by simp [Trace.isHandshake], .inr (hdone ▸ hd)⟩⟩
  | undecoded hclient hc hrole hdone herr =>
      obtain ⟨rfl, hd⟩ := connectDone_of_role hl hrole
      exact .tail (.single (.inr (.headers e _ (hdone ▸ hd) (.of_undecoded herr))))
        (.inl (.emit _ ⟨rfl, rfl⟩))
  | unanswered hserver hc hrole hdone =>
      obtain ⟨rfl, hd⟩ := connectDone_of_role hl hrole
      exact .tail (.single (.inr (.headers e _ (hdone ▸ hd) (.of_server hserver))))
        (.inl (.emit _ ⟨rfl, rfl⟩))
  | ready hclient hc _ hrole hdone hgrants =>
      obtain ⟨rfl, hd⟩ := connectDone_of_role hl hrole
      exact .single (.inr (.ready e hclient hc (hdone ▸ hd) hgrants))
  | accept frame hserver hc hrole hdone hs hadmits hadmit =>
      obtain ⟨rfl, hd⟩ := connectDone_of_role hl hrole
      exact .single (.inr (.accept e frame hserver hc (hdone ▸ hd) hs hadmits hadmit))
  | reject frame status hserver hc hrole hdone =>
      obtain ⟨rfl, hd⟩ := connectDone_of_role hl hrole
      exact .head (.inr (.headers e _ (hdone ▸ hd) (.of_server hserver)))
        (refuse_shaken (e := e.takeHeaders connectId _) hc _ _ _ _)
  | refuse frame status hserver hc => exact refuse_shaken hc _ _ _ _
  | classify => exact hsingle (.classify e r _)
  | discard =>
      exact hsingle (.session rfl rfl rfl (.inl rfl) rfl rfl (connectDone_modify r rfl fun _ => rfl)
        rfl rfl)
  | resolve =>
      exact hsingle ((Mute.classify e r _).trans (.modifyStream _ r fun _ => rfl))
  | charge amount =>
      exact hsingle (.of_eq rfl rfl rfl (.inl rfl) rfl rfl (connectDone_modify r rfl fun _ => rfl)
        (l := []) (List.append_nil _).symm (by simp) (m := [.charged r amount]) rfl
        (by simp [Trace.isHandshake, Trace.headerBlock]))
  | incoming | data => exact hsingle (.emit e ⟨rfl, rfl⟩)
  | finished | reset => exact hsingle ((Mute.setRecvDead e r).trans (.emit _ ⟨rfl, rfl⟩))
  | recvDead => exact hsingle (.setRecvDead e r)
  | resetFail =>
      exact hsingle (((Mute.setRecvDead e r).trans (.emit _ ⟨rfl, rfl⟩)).trans (.markClosed _ _ _ _))
  | resetClose => exact hsingle ((Mute.setRecvDead e r).trans (.markClosed _ _ _ _))
  | forget hp =>
      have hne : connectId ≠ r := by
        rintro rfl
        rcases hp with hp | hp
        · exact absurd (connectDone_role hl hp) (by simp)
        · exact absurd (connectDone_role hl hp) (by simp)
      refine hsingle (.session rfl rfl rfl (.inl rfl) rfl rfl ?_ rfl rfl)
      rw [connectDone, connectDone, removeStream, Table.get_erase, if_neg hne]

/-! ## The invariant -/

/-- The session became ready with `v`, on account of the header block `block`. -/
structure Opened (e : Endpoint) (v : Ev) (block : Bytes) : Prop where
  ev : ∃ before after, e.ev = before ++ v :: after ∧ v.isReady = true ∧
    (∀ w ∈ before, w.isReady = false ∧ w.isClosed = false) ∧ ∀ w ∈ after, w.isReady = false
  history : ∃ before after, e.history = before ++ .ready :: after ∧ .ready ∉ before ∧
    .ready ∉ after ∧ (∀ status, .rejected status ∉ before) ∧ firstHeaders before = some block ∧
    (e.cfg.isServer = true → ∃ s, .settings s ∈ before ∧ s.admitsConnect = true)

/-- The order of the handshake. -/
structure Gated (e : Endpoint) : Prop where
  pending : e.cfg.isServer = false → e.connectPending = true → e.setupSent = true
  /-- The CONNECT stream of a client is its request. -/
  entry : e.cfg.isServer = false → e.connectDone ≠ none → .connectQueued ∈ e.history
  queued : .connectQueued ∈ e.history → e.setupSent = true ∧ e.connectPending = false ∧
    ∃ before after, e.history = before ++ .connectQueued :: after ∧ .connectQueued ∉ before ∧
      .connectQueued ∉ after ∧ ∃ s, .settings s ∈ before ∧ s.webtransportOk = true
  taken : e.connectDone ≠ some true → firstHeaders e.history = none
  settings : ∀ s, e.peerSettings = some s → .settings s ∈ e.history
  opened : e.closed = false → (∀ v ∈ e.ev, v.isClosed = false) ∧ ∀ status, .rejected status ∉ e.history
  waiting : e.ready = false → (∀ v ∈ e.ev, v.isReady = false) ∧ .ready ∉ e.history
  ready : e.ready = true → e.connectDone = some true ∧ ∃ v block, e.Opened v block ∧
    ((∃ protocol headers, e.cfg.isServer = false ∧ v = .ready protocol headers ∧
      Grants e.cfg block protocol headers) ∨
     ∃ selected q, e.cfg.isServer = true ∧ v = .serverReady q ∧ Admits e.cfg block selected q)

section

variable {e e' : Endpoint}

omit [H3.Codec] in
/-- What comes behind does not change how the session became ready. -/
theorem Opened.append {v : Ev} {block : Bytes} (h : e.Opened v block) (hcfg : e'.cfg = e.cfg)
    {l : List Ev} (hev : e'.ev = e.ev ++ l) (hevs : ∀ w ∈ l, w.isReady = false)
    {m : List Trace} (hhistory : e'.history = e.history ++ m) (hts : .ready ∉ m) :
    e'.Opened v block := by
  obtain ⟨b, a, hb, hv, hbefore, hafter⟩ := h.ev
  obtain ⟨b', a', hb', hnb, hna, hrej, hfirst, hset⟩ := h.history
  refine ⟨⟨b, a ++ l, by simp [hev, hb], hv, hbefore, List.forall_mem_append.mpr ⟨hafter, hevs⟩⟩,
    ⟨b', a' ++ m, by simp [hhistory, hb'], hnb, ?_, hrej, hfirst, hcfg ▸ hset⟩⟩
  simp [hna, hts]

/-- The session is as it was, but for what was recorded. -/
theorem Gated.recorded (h : e.Gated) (hcfg : e'.cfg = e.cfg) (hready : e'.ready = e.ready)
    (hsetup : e'.setupSent = e.setupSent)
    (hpending : e'.connectPending = e.connectPending ∨ e'.connectPending = false)
    (hsettings : e'.peerSettings = e.peerSettings) (hconnect : e'.connectDone = e.connectDone)
    (hclosed : e.closed = true → e'.closed = true) {l : List Ev} (hev : e'.ev = e.ev ++ l)
    (hevs : ∀ v ∈ l, v.isReady = false) (hends : (∃ v ∈ l, v.isClosed = true) → e'.closed = true)
    {m : List Trace} (hhistory : e'.history = e.history ++ m) (hnr : .ready ∉ m)
    (hnq : .connectQueued ∉ m) (hrejected : (∃ status, .rejected status ∈ m) → e'.closed = true)
    (hblocks : (∀ t ∈ m, t.headerBlock = none) ∨ e.connectDone = some true) : e'.Gated where
  pending hc hp := by
    rcases hpending with heq | hf
    · rw [hsetup]
      exact h.pending (hcfg ▸ hc) (heq ▸ hp)
    · simp [hf] at hp
  entry hc hd := by
    rw [hhistory]
    exact List.mem_append_left _ (h.entry (hcfg ▸ hc) (hconnect ▸ hd))
  queued hq := by
    have hq : .connectQueued ∈ e.history := by
      rw [hhistory] at hq
      exact (List.mem_append.mp hq).resolve_right hnq
    obtain ⟨hs, hp, b, a, hb, hnb, hna, hset⟩ := h.queued hq
    refine ⟨hsetup.trans hs, ?_, b, a ++ m, by simp [hhistory, hb], hnb, by simp [hna, hnq], hset⟩
    exact hpending.elim (fun heq => heq.trans hp) id
  taken hd := by
    rw [hconnect] at hd
    rw [hhistory, firstHeaders_append_of_none (hblocks.resolve_right hd)]
    exact h.taken hd
  settings s hs := by
    rw [hhistory]
    exact List.mem_append_left _ (h.settings s (hsettings ▸ hs))
  opened hopen := by
    have hno : e.closed = false := by
      cases hc : e.closed with
      | false => rfl
      | true => exact absurd (hclosed hc) (by simp [hopen])
    obtain ⟨hve, hre⟩ := h.opened hno
    refine ⟨fun v hv => ?_, fun status hs => ?_⟩
    · rw [hev] at hv
      rcases List.mem_append.mp hv with hv | hv
      · exact hve v hv
      · by_contra hc
        exact absurd (hends ⟨v, hv, by simpa using hc⟩) (by simp [hopen])
    · rw [hhistory] at hs
      rcases List.mem_append.mp hs with hs | hs
      · exact hre status hs
      · exact absurd (hrejected ⟨status, hs⟩) (by simp [hopen])
  waiting hr := by
    obtain ⟨hve, hne⟩ := h.waiting (hready ▸ hr)
    rw [hev, hhistory]
    exact ⟨List.forall_mem_append.mpr ⟨hve, hevs⟩, by simp [hne, hnr]⟩
  ready hr := by
    obtain ⟨hd, v, block, ho, hv⟩ := h.ready (hready ▸ hr)
    refine ⟨hconnect.trans hd, v, block, ho.append hcfg hev hevs hhistory hnr, ?_⟩
    rwa [hcfg]

theorem Gated.mute (h : e.Gated) (hm : Mute e e') : e'.Gated := by
  obtain ⟨l, hl, hlr, hlc⟩ := hm.ev
  obtain ⟨m, hmm, hmg, hmb⟩ := hm.history
  have hnot : ∀ t : Trace, t.isHandshake = true → t ∉ m := fun t ht hmem => by
    simp [hmg t hmem] at ht
  exact h.recorded hm.cfg hm.ready hm.setupSent hm.pending hm.peerSettings hm.connect hm.closed hl
    hlr hlc hmm (hnot _ rfl) (hnot _ rfl) (fun ⟨_, hs⟩ => absurd hs (hnot _ rfl)) hmb

omit [H3.Codec] in
/-- Taking the first HEADERS frame marks the CONNECT stream. -/
theorem connectDone_takeHeaders {block : Bytes} (hd : e.connectDone = some false) :
    (e.takeHeaders connectId block).connectDone = some true := by
  unfold connectDone at hd ⊢
  rw [takeHeaders_get]
  cases hst : e.streams.get connectId with
  | none => simp [hst] at hd
  | some st => simp

/-- The first HEADERS frame makes the session ready. -/
theorem Gated.open (h : e.Gated) {v : Ev} {block : Bytes} (hd : e.connectDone = some false)
    (hclosed : e.closed = false) (hv : v.isReady = true)
    (hset : e.cfg.isServer = true → ∃ s, .settings s ∈ e.history ∧ s.admitsConnect = true)
    (hcause : (∃ protocol headers, e.cfg.isServer = false ∧ v = .ready protocol headers ∧
        Grants e.cfg block protocol headers) ∨
      ∃ selected q, e.cfg.isServer = true ∧ v = .serverReady q ∧ Admits e.cfg block selected q)
    (hcfg : e'.cfg = e.cfg) (hsetup : e'.setupSent = e.setupSent)
    (hpending : e'.connectPending = e.connectPending) (hsettings : e'.peerSettings = e.peerSettings)
    (hconnect : e'.connectDone = some true) (hready : e'.ready = true)
    (hev : e'.ev = e.ev ++ [v])
    (hhistory : e'.history = (e.history ++ [.connectFrame H3.frameHeaders block]) ++ [.ready]) :
    e'.Gated := by
  have hwait : e.ready = false := by
    cases hr : e.ready with
    | false => rfl
    | true => simpa [hd] using (h.ready hr).1
  obtain ⟨hve, hne⟩ := h.waiting hwait
  obtain ⟨hvc, hre⟩ := h.opened hclosed
  have hmem : ∀ {t : Trace}, t ∈ e'.history → t ∈ e.history ∨
      t = .connectFrame H3.frameHeaders block ∨ t = .ready := by
    intro t ht
    simpa [hhistory, or_assoc] using ht
  have hkept : ∀ {t : Trace}, t ∈ e.history → t ∈ e'.history := by
    intro t ht
    simp [hhistory, ht]
  refine ⟨fun hc hp => ?_, fun hc _ => ?_, fun hq => ?_, fun hne => absurd hconnect hne, fun s hs => ?_,
    fun _ => ⟨?_, fun status hs => ?_⟩, fun hr => by simp [hready] at hr, fun _ => ⟨hconnect, v, block, ?_, ?_⟩⟩
  · exact hsetup.trans (h.pending (hcfg ▸ hc) (hpending ▸ hp))
  · exact hkept (h.entry (hcfg ▸ hc) (by simp [hd]))
  · have hq : .connectQueued ∈ e.history := by simpa using hmem hq
    obtain ⟨hs, hp, b, a, hb, hnb, hna, hset⟩ := h.queued hq
    exact ⟨hsetup.trans hs, hpending.trans hp, b,
      a ++ [.connectFrame H3.frameHeaders block, .ready], by simp [hhistory, hb], hnb,
      by simp [hna], hset⟩
  · exact hkept (h.settings s (hsettings ▸ hs))
  · rw [hev]
    exact List.forall_mem_append.mpr ⟨hvc, by simpa using Ev.isClosed_of_isReady hv⟩
  · exact hre status (by simpa using hmem hs)
  · refine ⟨⟨e.ev, [], by simp [hev], hv, fun w hw => ⟨hve w hw, hvc w hw⟩, by simp⟩,
      ⟨e.history ++ [.connectFrame H3.frameHeaders block], [], by simp [hhistory], by simp [hne],
        by simp, by simp [hre], ?_, fun hs => ?_⟩⟩
    · have hnone := h.taken (by simp [hd])
      have hnone : e.history.findSome? Trace.headerBlock = none := hnone
      simp [firstHeaders, List.findSome?_append, hnone, Trace.headerBlock]
    · obtain ⟨s, hs, hok⟩ := hset (hcfg ▸ hs)
      exact ⟨s, List.mem_append_left _ hs, hok⟩
  · rwa [hcfg]

theorem Gated.shakes (h : e.Gated) (hs : Shakes e e') : e'.Gated := by
  cases hs with
  | @settings r s hc hne =>
      have hdone : ((e.setHeadersDone r).seedLimits s).connectDone = e.connectDone :=
        congrArg (Option.map Stream.headersDone) (Table.get_modify_ne hne)
      -- the SETTINGS are recorded in front of the field they change
      have hrec : Gated { ((e.setHeadersDone r).seedLimits s) with peerSettings := e.peerSettings } :=
        h.recorded rfl rfl rfl (.inl rfl) rfl hdone (fun h => h) (l := []) (List.append_nil _).symm
          (by simp) (by simp) (m := [.settings s]) rfl (by simp) (by simp) (by simp)
          (.inl (by simp [Trace.headerBlock]))
      refine ⟨hrec.pending, hrec.entry, hrec.queued, hrec.taken, fun s' hs' => ?_, hrec.opened,
        hrec.waiting, fun hr => ?_⟩
      · obtain rfl : s = s' := Option.some.inj hs'
        exact List.mem_append_right _ (List.mem_singleton.mpr rfl)
      · obtain ⟨hd, v, block, ho, hv⟩ := hrec.ready hr
        exact ⟨hd, v, block, ⟨ho.ev, ho.history⟩, hv⟩
  | @connect s frame hclient hc hp hs hok =>
      have hnq : .connectQueued ∉ e.history := fun hq => by simp [(h.queued hq).2.1] at hp
      have hnone : e.connectDone = none := by
        by_contra hne
        exact hnq (h.entry hclient hne)
      have hwait : e.ready = false := by
        cases hr : e.ready with
        | false => rfl
        | true => simpa [hnone] using (h.ready hr).1
      have hdone : ((({ e with connectPending := false } : Endpoint).log .connectQueued).insertStream
          connectId (.withPrefix .connect frame e.parserMemory)).connectDone = some false := by
        simp [connectDone, insertStream, Stream.withPrefix, Stream.new]
      obtain ⟨hve, hre⟩ := h.opened hc
      obtain ⟨hvr, hnr⟩ := h.waiting hwait
      refine ⟨fun _ hp' => (by cases hp'), fun _ _ => List.mem_append_right _ (List.mem_singleton.mpr rfl),
        fun _ => ⟨h.pending hclient hp, rfl, e.history, [], rfl, hnq, by simp, s, h.settings s hs, hok⟩,
        fun _ => ?_, fun s hs => List.mem_append_left _ (h.settings s hs), fun _ => ⟨hve, fun status hs => ?_⟩,
        fun _ => ⟨hvr, fun hs => ?_⟩, fun hr => absurd (hwait.symm.trans hr) (by simp)⟩
      · exact (firstHeaders_append_of_none (by simp [Trace.headerBlock])).trans
          (h.taken (by simp [hnone]))
      · rcases List.mem_append.mp hs with hs | hs
        · exact hre status hs
        · simp at hs
      · rcases List.mem_append.mp hs with hs | hs
        · exact hnr hs
        · simp at hs
  | headers block hd hno =>
      have hwait : e.ready = false := by
        cases hr : e.ready with
        | false => rfl
        | true => simpa [hd] using (h.ready hr).1
      have hdone : (e.takeHeaders connectId block).connectDone = some true := connectDone_takeHeaders hd
      obtain ⟨hvr, hnr⟩ := h.waiting hwait
      refine ⟨h.pending, fun hc _ => List.mem_append_left _ (h.entry hc (by simp [hd])), fun hq => ?_,
        fun hne => absurd hdone hne, fun s hs => List.mem_append_left _ (h.settings s hs),
        fun hc => ⟨(h.opened hc).1, fun status hs => ?_⟩, fun _ => ⟨hvr, fun hs => ?_⟩,
        fun hr => absurd (hwait.symm.trans hr) (by simp)⟩
      · have hq : .connectQueued ∈ e.history := by
          rcases List.mem_append.mp hq with hq | hq
          · exact hq
          · simp at hq
        obtain ⟨hs, hp, b, a, hb, hnb, hna, hset⟩ := h.queued hq
        exact ⟨hs, hp, b, a ++ [.connectFrame H3.frameHeaders block],
          by simp [takeHeaders, setHeadersDone, modifyStream, log, hb], hnb, by simp [hna], hset⟩
      · rcases List.mem_append.mp hs with hs | hs
        · exact (h.opened hc).2 status hs
        · simp at hs
      · rcases List.mem_append.mp hs with hs | hs
        · exact hnr hs
        · simp at hs
  | ready hclient hc hd hgrants =>
      exact h.open (v := .ready _ _) hd hc rfl (fun hs => by simp [hclient] at hs)
        (.inl ⟨_, _, hclient, rfl, hgrants⟩) rfl rfl rfl rfl (connectDone_takeHeaders hd) rfl rfl rfl
  | accept frame hserver hc hd hs hadmits hadmit =>
      refine h.open (v := .serverReady _) hd hc rfl (fun _ => ⟨_, h.settings _ hs, hadmits⟩)
        (.inr ⟨_, _, hserver, rfl, hadmit⟩) rfl rfl rfl rfl ?_ rfl rfl rfl
      exact (connectDone_modify (e := e.takeHeaders connectId _) connectId
        (f := fun st => { st.push frame none with finQueued := false || st.finQueued }) rfl
        fun _ => rfl).trans (connectDone_takeHeaders hd)
  | rejected status hc =>
      have hmark := markClosed_flags (e.log (.rejected status)) 0 [] false
      have hclosed := markClosed_closed (e.log (.rejected status)) 0 [] false
      have hmute := Mute.markClosed (e.log (.rejected status)) 0 [] false
      exact h.recorded (hmute.cfg.trans rfl) hmark.1 hmark.2.1 (.inl hmark.2.2.1) hmark.2.2.2.1
        hmute.connect (fun _ => hclosed)
        (markClosed_ev (e := e.log (.rejected status)) hc 0 [] false) (by simp [Ev.isReady])
        (fun _ => hclosed) (m := [.rejected status]) hmark.2.2.2.2 (by simp) (by simp)
        (fun _ => hclosed) (.inl (by simp [Trace.headerBlock]))

theorem Gated.shaken (h : e.Gated) (hs : Shaken e e') : e'.Gated := by
  induction hs with
  | refl => exact h
  | tail _ hstep ih => exact hstep.elim ih.mute ih.shakes

end

/-- The order of the handshake is kept by everything. -/
theorem gated_whole : Whole Gated where
  effect heff hl h := h.shaken (heff.shaken hl)
  quiet hq h := h.mute (.of_quiet hq)
  setup e h := by
    rcases onEstablished_spec e with heq | ⟨hfresh, hsetup, hpending, hcfg, hclosed, hready, hsettings,
      -, hev, hhistory, hconnect⟩
    · rwa [heq]
    · have hnq : .connectQueued ∉ e.history := fun hq => by simp [(h.queued hq).1] at hfresh
      refine ⟨fun _ _ => hsetup, fun hc hd => ?_, fun hq => absurd (hhistory ▸ hq) hnq, fun hd => ?_,
        fun s hs => ?_, fun hc => ?_, fun hr => ?_, fun hr => ?_⟩
      · rw [hhistory]
        exact h.entry (hcfg ▸ hc) (hconnect ▸ hd)
      · rw [hhistory]
        exact h.taken (hconnect ▸ hd)
      · rw [hhistory]
        exact h.settings s (hsettings ▸ hs)
      · rw [hev, hhistory]
        exact h.opened (hclosed ▸ hc)
      · rw [hev, hhistory]
        exact h.waiting (hready ▸ hr)
      · obtain ⟨hd, v, block, ho, hv⟩ := h.ready (hready ▸ hr)
        refine ⟨hconnect.trans hd, v, block, ho.append hcfg (l := []) (by simp [hev]) (by simp)
          (m := []) (by simp [hhistory]) (by simp), ?_⟩
        rwa [hcfg]
  meet e hserver hnone h := by
    have hdone : e.connectDone = none := by simp [connectDone, hnone]
    have hwait : e.ready = false := by
      cases hr : e.ready with
      | false => rfl
      | true => simpa [hdone] using (h.ready hr).1
    exact ⟨h.pending, fun hc => absurd (hserver.symm.trans hc) (by simp), h.queued,
      fun _ => h.taken (by simp [hdone]), h.settings, h.opened, h.waiting,
      fun hr => absurd (hwait.symm.trans hr) (by simp)⟩
  close e code reason remote h := h.mute (.markClosed e code reason remote)

theorem Start.gated {e : Endpoint} (h : Start e) : e.Gated := by
  cases h with
  | client | server =>
      exact ⟨fun _ h => (by cases h), fun _ h => absurd rfl h, fun h => (by cases h), fun _ => rfl,
        fun _ h => (by cases h), fun _ => ⟨fun _ h => (by cases h), fun _ h => (by cases h)⟩,
        fun _ => ⟨fun _ h => (by cases h), fun h => (by cases h)⟩, fun h => (by cases h)⟩

/-! ## The gate -/

/-- What the first HEADERS frame has to do with an event that makes the session
ready: the event is the only one of its kind, nothing was rejected or closed in
front of it, and the frame is the cause. -/
structure Gate (e : Endpoint) (v : Ev) (Cause : Bytes → List Trace → Prop) : Prop where
  once : ∃ before after, e.ev = before ++ v :: after ∧
    (∀ w ∈ before ++ after, w.isReady = false) ∧ ∀ w ∈ before, w.isClosed = false
  cause : ∃ before after block, e.history = before ++ .ready :: after ∧
    (∀ status, .rejected status ∉ before) ∧ firstHeaders before = some block ∧ Cause block before

/-- A server emits `ServerReady` at most once, for a request that its SETTINGS,
its headers and its origin admit. -/
def ServerGate (e : Endpoint) : Prop :=
  ∀ v ∈ e.ev, v.isReady = true → ∃ selected q, v = .serverReady q ∧
    e.Gate v fun block before => Admits e.cfg block selected q ∧
      ∃ s, .settings s ∈ before ∧ s.h3Datagram = true ∧
        (s.enableWebtransport = true ∨ 0 < s.wtMaxSessions)

/-- A client queues its request at most once, behind SETTINGS that admit it, and
emits `Ready` at most once, for a response that grants the request. -/
def ClientGate (e : Endpoint) : Prop :=
  (.connectQueued ∈ e.history → ∃ before after, e.history = before ++ .connectQueued :: after ∧
    .connectQueued ∉ before ++ after ∧ ∃ s, .settings s ∈ before ∧ s.webtransportOk = true) ∧
  ∀ v ∈ e.ev, v.isReady = true → ∃ protocol headers, v = .ready protocol headers ∧
    e.Gate v fun block _ => Grants e.cfg block protocol headers

theorem Gated.gate {e : Endpoint} (h : e.Gated) {v : Ev} (hv : v ∈ e.ev) (hr : v.isReady = true) :
    ∃ block, e.Opened v block ∧
      ((∃ protocol headers, e.cfg.isServer = false ∧ v = .ready protocol headers ∧
        Grants e.cfg block protocol headers) ∨
       ∃ selected q, e.cfg.isServer = true ∧ v = .serverReady q ∧ Admits e.cfg block selected q) := by
  cases hready : e.ready with
  | false => simp [(h.waiting hready).1 v hv] at hr
  | true =>
      obtain ⟨-, w, block, ho, hcause⟩ := h.ready hready
      obtain ⟨b, a, hb, -, hbefore, hafter⟩ := ho.ev
      obtain rfl : v = w := by
        rw [hb, List.mem_append, List.mem_cons] at hv
        rcases hv with hv | hv | hv
        · simp [(hbefore v hv).1] at hr
        · exact hv
        · simp [hafter v hv] at hr
      exact ⟨block, ho, hcause⟩

/-- The gate holds in every reachable state. -/
theorem handshake_gate {e : Endpoint} (hstart : Start e) {calls : List Call}
    (hrun : Along call Admissible e calls) :
    ((execute call e calls).cfg.isServer = true → (execute call e calls).ServerGate) ∧
      ((execute call e calls).cfg.isServer = false → (execute call e calls).ClientGate) := by
  have h := (gated_whole.run ⟨hstart.layout, hstart.gated⟩ hrun).2
  generalize execute call e calls = e' at h
  have honce : ∀ {v : Ev} {block : Bytes}, e'.Opened v block → ∃ before after,
      e'.ev = before ++ v :: after ∧ (∀ w ∈ before ++ after, w.isReady = false) ∧
        ∀ w ∈ before, w.isClosed = false := by
    intro v block ho
    obtain ⟨b, a, hb, -, hbefore, hafter⟩ := ho.ev
    exact ⟨b, a, hb, List.forall_mem_append.mpr ⟨fun w hw => (hbefore w hw).1, hafter⟩,
      fun w hw => (hbefore w hw).2⟩
  refine ⟨fun hserver v hv hr => ?_, fun hclient => ⟨fun hq => ?_, fun v hv hr => ?_⟩⟩
  · obtain ⟨block, ho, ⟨_, _, hc, -, -⟩ | ⟨selected, q, -, rfl, hadmit⟩⟩ := h.gate hv hr
    · simp [hserver] at hc
    · obtain ⟨b, a, hb, -, -, hrej, hfirst, hset⟩ := ho.history
      obtain ⟨s, hs, hok⟩ := hset hserver
      simp only [H3.PeerSettings.admitsConnect, Bool.and_eq_true, Bool.or_eq_true, decide_eq_true_eq]
        at hok
      exact ⟨selected, q, rfl, honce ho, b, a, block, hb, hrej, hfirst, hadmit, s, hs, hok⟩
  · obtain ⟨-, -, b, a, hb, hnb, hna, hset⟩ := h.queued hq
    exact ⟨b, a, hb, by simp [hnb, hna], hset⟩
  · obtain ⟨block, ho, ⟨protocol, headers, -, rfl, hgrants⟩ | ⟨_, _, hs, -, -⟩⟩ := h.gate hv hr
    · obtain ⟨b, a, hb, -, -, hrej, hfirst, -⟩ := ho.history
      exact ⟨protocol, headers, rfl, honce ho, b, a, block, hb, hrej, hfirst, hgrants⟩
    · simp [hclient] at hs

omit [H3.Codec] in
theorem handshake_gate_sample :
    letI := H3.Codec.plain
    ((execute call sampleServer serverHandshake).ready = true ∧
        (execute call sampleServer serverHandshake).ServerGate) ∧
      (execute call sampleClient clientHandshake).ready = true ∧
        (execute call sampleClient clientHandshake).ClientGate := by
  let _ := H3.Codec.plain
  have hserver := handshake_gate sampleServer_start
    (show Along call Admissible sampleServer serverHandshake by decide +kernel)
  have hclient := handshake_gate sampleClient_start
    (show Along call Admissible sampleClient clientHandshake by decide +kernel)
  exact ⟨⟨by decide +kernel, hserver.1 (by decide +kernel)⟩, by decide +kernel,
    hclient.2 (by decide +kernel)⟩

end Endpoint

end RWebTransport
