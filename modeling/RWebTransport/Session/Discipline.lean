import RWebTransport.Session.Critical

/-!
# The discipline of critical streams

What the peer has sent on its control stream and its two QPACK streams breaks no
rule while the session is open.  When it does, the session has ended in the pass
that read the offending bytes, and an error was reported before it did, unless a
CLOSE_WEBTRANSPORT_SESSION capsule had ended the session by then.
-/

namespace RWebTransport

/-- The SETTINGS that were accepted. -/
def Trace.settings? : Trace → Option H3.PeerSettings
  | .settings s => some s
  | _ => none

namespace Endpoint

/-- All SETTINGS that were accepted, oldest first. -/
def settingsTaken (e : Endpoint) : List H3.PeerSettings := e.history.filterMap Trace.settings?

/-- The peer concluded the session with a CLOSE_WEBTRANSPORT_SESSION capsule. -/
def PeerClosed (e : Endpoint) : Prop := ∃ value, .capsule H3.wtCloseSessionCapsule value ∈ e.history

/-- What was read of the peer breaks a rule of the critical streams. -/
inductive Violation (e : Endpoint) : Prop
  /-- The end of such a stream, be it a FIN or a RESET. -/
  | ended (id ty n : Nat) : PeerUni e.cfg.isServer id →
      H3.readVarint (e.conn.streams id).recv.got = some (ty, n) → isCriticalType ty = true →
      (e.conn.streams id).recv.ended = true → Violation e
  /-- Two streams of one kind. -/
  | duplicate (i j ty n m : Nat) : i ≠ j → PeerUni e.cfg.isServer i → PeerUni e.cfg.isServer j →
      H3.readVarint (e.conn.streams i).recv.got = some (ty, n) →
      H3.readVarint (e.conn.streams j).recv.got = some (ty, m) → isCriticalType ty = true →
      Violation e
  /-- A frame that may not be there, or that is too long. -/
  | control (id n : Nat) : PeerUni e.cfg.isServer id →
      H3.readVarint (e.conn.streams id).recv.got = some (H3.h3ControlStreamType, n) →
      ControlViolation true ((e.conn.streams id).recv.got.drop n) → Violation e

/-- The session ended between two states, behind an error or because the peer
had closed it. -/
def Explained (e e' : Endpoint) : Prop :=
  ∃ before code reason remote after, e'.ev = e.ev ++ before ++ .closed code reason remote :: after ∧
    ((∃ v ∈ before, v.isError = true) ∨ e'.PeerClosed)

/-! ## An open session has seen no violation -/

/-- The role of a stream whose type is known to be critical. -/
def criticalRole (ty : Nat) : Role :=
  if ty = H3.h3ControlStreamType then .peerControl else .peerQpack (ty == H3.qpackEncoderStreamType)

/-- A critical stream of an open session has its role, and has not ended. -/
theorem Understood.critical {e : Endpoint} {i ty n : Nat} (h : e.Understood i)
    (hn : H3.readVarint (e.conn.streams i).recv.got = some (ty, n)) (hty : isCriticalType ty = true) :
    e.roleOf i = some (criticalRole ty) ∧ (e.conn.streams i).recv.ended = false := by
  unfold Understood at h
  cases hst : e.streams.get i with
  | none =>
      rw [hst] at h
      simp [h.1 ty n hn] at hty
  | some st =>
      rw [hst] at h
      have hrole : e.roleOf i = some st.role := by simp [Endpoint.roleOf, hst]
      cases h with
      | pending _ _ _ _ _ hun => simp [hun ty n hn] at hty
      | control hended hon =>
          obtain ⟨m, hm, -⟩ := hon.behind
          rw [hm] at hn
          cases hn
          exact ⟨by rw [hrole, hon.role]; rfl, hended⟩
      | qpack encoder m hq hended hm =>
          rw [hm] at hn
          cases hn
          refine ⟨?_, hended⟩
          rw [hrole, hq]
          cases encoder <;> rfl
      | other ty' m _ _ _ hm hun =>
          rw [hm] at hn
          cases hn
          simp [hun] at hty

/-- The frames of the control stream of an open session keep the rules. -/
theorem Understood.clean {e : Endpoint} {i n : Nat} (h : e.Understood i)
    (hn : H3.readVarint (e.conn.streams i).recv.got = some (H3.h3ControlStreamType, n)) :
    ¬ControlViolation true ((e.conn.streams i).recv.got.drop n) := by
  have hrole := (h.critical hn rfl).1
  unfold Understood at h
  cases hst : e.streams.get i with
  | none => simp [Endpoint.roleOf, hst] at hrole
  | some st =>
      rw [hst] at h
      have hcontrol : st.role = .peerControl := role_of_roleOf hst hrole
      cases h with
      | pending hp => simp [hcontrol] at hp
      | control _ hon =>
          obtain ⟨m, hm, hfollows⟩ := hon.behind
          rw [hm] at hn
          cases hn
          exact hfollows.clean hon.drained
      | qpack encoder m hq => simp [hcontrol] at hq
      | other ty m _ hc => exact absurd hcontrol hc

theorem Disciplined.no_violation {e : Endpoint} (h : e.Disciplined) (hopen : e.closed = false) :
    ¬e.Violation := by
  intro hv
  cases hv with
  | ended id ty n hid hn hty hended =>
      have hkept := ((h.sound hopen id hid).critical hn hty).2
      simp [hended] at hkept
  | duplicate i j ty n m hne hi hj hn hm hty =>
      have hri := ((h.sound hopen i hi).critical hn hty).1
      have hrj := ((h.sound hopen j hj).critical hm hty).1
      unfold criticalRole at hri hrj
      split_ifs at hri hrj
      · exact hne (h.layout.control i j hri hrj)
      · exact hne (h.oneQpack _ i j hri hrj)
  | control id n hid hn hviolation => exact (h.sound hopen id hid).clean hn hviolation

theorem Start.disciplined {e : Endpoint} (h : Start e) : e.Disciplined := by
  have hlayout := h.layout
  have hstate : (∀ i, e.roleOf i = none) ∧ e.peerSettings = none ∧
      ∀ i, (e.conn.streams i).recv.got = [] := by
    cases h with
    | client authority path origin extraHeaders protocols conn heap hfresh
    | server remote supportedProtocols allowedOrigins responseHeaders parent conn heap hfresh =>
        refine ⟨fun _ => rfl, rfl, fun i => ?_⟩
        show (conn.streams i).recv.got = []
        rw [hfresh.2.1 i]
  obtain ⟨hroles, hsettings, hgot⟩ := hstate
  refine ⟨hlayout, fun encoder i j hi _ => ?_, fun _ i _ => ?_, fun s hs => ?_⟩
  · simp [hroles] at hi
  · refine .bare (roleOf_eq_none.mp (hroles i)) (fun ty n hn => ?_) (.inl (hgot i))
    rw [hgot] at hn
    cases hn
  · simp [hsettings] at hs

/-! ## The SETTINGS that were taken -/

/-- What was recorded since, with SETTINGS exactly where the session got them. -/
def Records (e e' : Endpoint) : Prop :=
  ∃ m, e'.history = e.history ++ m ∧
    e'.peerSettings.toList = e.peerSettings.toList ++ m.filterMap Trace.settings?

namespace Records

theorem trans {a b c : Endpoint} (hab : Records a b) (hbc : Records b c) : Records a c := by
  obtain ⟨m, hm, hms⟩ := hab
  obtain ⟨k, hk, hks⟩ := hbc
  refine ⟨m ++ k, by rw [hk, hm, List.append_assoc], ?_⟩
  rw [hks, hms, List.filterMap_append, List.append_assoc]

/-- No SETTINGS were taken. -/
theorem calm {e e' : Endpoint} (hsettings : e'.peerSettings = e.peerSettings) {m : List Trace}
    (hhistory : e'.history = e.history ++ m) (hm : ∀ t ∈ m, t.settings? = none) : Records e e' := by
  have hnone : m.filterMap Trace.settings? = [] := List.filterMap_eq_nil_iff.mpr hm
  exact ⟨m, hhistory, by rw [hnone, hsettings, List.append_nil]⟩

theorem of_eq {e e' : Endpoint} (hsettings : e'.peerSettings = e.peerSettings)
    (hhistory : e'.history = e.history) : Records e e' :=
  calm hsettings (m := []) (by simp [hhistory]) (by simp)

theorem refl (e : Endpoint) : Records e e := of_eq rfl rfl

theorem markClosed (e : Endpoint) (code : Nat) (reason : Bytes) (remote : Bool) :
    Records e (e.markClosed code reason remote) := by
  obtain ⟨-, -, -, hsettings, hhistory⟩ := markClosed_flags e code reason remote
  exact of_eq hsettings hhistory

theorem of_quiet {e e' : Endpoint} (h : Quiet e e') : Records e e' := by
  obtain ⟨m, hm, hquiet⟩ := h.history
  refine calm h.peerSettings hm fun t ht => ?_
  have hq := hquiet t ht
  cases t <;> first | rfl | cases hq

theorem refuse (e : Endpoint) (id : Nat) (frame : Option Bytes) (messages : List String)
    (status : Nat) : Records e (e.refuse id frame messages status) := by
  rw [refuse_eq]
  obtain ⟨-, -, -, -, -, -, hsettings, -, hhistory⟩ := refusing_session e id frame messages status
  exact (calm hsettings hhistory (by simp [Trace.settings?])).trans (markClosed _ _ _ _)

/-- SETTINGS that were taken stay. -/
theorem settled {e e' : Endpoint} (h : Records e e') {s : H3.PeerSettings}
    (hs : e.peerSettings = some s) : e'.peerSettings = some s := by
  obtain ⟨m, -, hm⟩ := h
  rw [hs] at hm
  cases hs' : e'.peerSettings with
  | none => simp [hs'] at hm
  | some s' =>
      rw [hs'] at hm
      exact congrArg some (List.cons.inj hm).1

end Records

variable [H3.Codec]

theorem Effect.records {r : Nat} {e e' : Endpoint} (h : Effect r e e') (hl : e.Layout) :
    Records e e' := by
  cases h with
  | fail message => exact .trans (b := e.emit (.error message)) (.of_eq rfl rfl) (.markClosed _ _ _ _)
  | finish => exact .markClosed _ _ _ _
  | killFail message =>
      exact .trans (b := (e.killRecv r).emit (.error message)) (.of_eq rfl rfl) (.markClosed _ _ _ _)
  | resetFail message =>
      exact .trans (b := (e.setRecvDead r).emit (.error message)) (.of_eq rfl rfl)
        (.markClosed _ _ _ _)
  | resetClose => exact .trans (b := e.setRecvDead r) (.of_eq rfl rfl) (.markClosed _ _ _ _)
  | credit =>
      unfold setCreditLimit
      split_ifs <;> exact .of_eq rfl rfl
  | @reject id block =>
      have htake : Records e (e.takeHeaders id block) :=
        .calm rfl (m := [_]) rfl (by simp [Trace.settings?])
      exact htake.trans (.refuse _ _ _ _ _)
  | refuse => exact .refuse _ _ _ _ _
  | @settings s hopen hrole hdone =>
      -- a control stream has one SETTINGS frame, and there is one control stream
      have hnone : e.peerSettings = none := by
        cases hs : e.peerSettings with
        | none => rfl
        | some s' =>
            rcases hl.settled (by simp [hs]) with hclosed | ⟨id, hid, htaken⟩
            · simp [hopen] at hclosed
            · obtain rfl := hl.control id r hid hrole
              simp [hdone] at htaken
      refine ⟨[.settings s], rfl, ?_⟩
      rw [hnone]
      rfl
  | @ready id block =>
      exact .trans (b := e.takeHeaders id block) (.calm rfl (m := [_]) rfl (by simp [Trace.settings?]))
        (.calm rfl (m := [.ready]) rfl (by simp [Trace.settings?]))
  | @accept id s block =>
      exact .trans (b := e.takeHeaders id block) (.calm rfl (m := [_]) rfl (by simp [Trace.settings?]))
        (.calm rfl (m := [.ready]) rfl (by simp [Trace.settings?]))
  | @log t hinput =>
      refine .calm rfl (m := [t]) rfl fun t' ht' => ?_
      obtain rfl := List.mem_singleton.mp ht'
      cases t' <;> first | rfl | cases hinput
  | undecoded | unanswered | connect | headers | moreHeaders | charge =>
      exact .calm rfl (m := [_]) rfl (by simp [Trace.settings?])
  | _ => exact .of_eq rfl rfl

theorem records_whole (e₀ : Endpoint) : Whole (Records e₀) where
  effect heff hl h := h.trans (heff.records hl)
  quiet hq h := h.trans (.of_quiet hq)
  setup e h := by
    rcases onEstablished_spec e with heq | ⟨-, -, -, -, -, -, hsettings, -, -, hhistory, -⟩
    · rwa [heq]
    · exact h.trans (.of_eq hsettings hhistory)
  meet e _ _ h := h.trans (.of_eq rfl rfl)
  close e code reason remote h := h.trans (.markClosed e code reason remote)

/-! ## The error before the end -/

section

variable {e e' : Endpoint}

omit [H3.Codec] in
theorem PeerClosed.append (h : e.PeerClosed) {m : List Trace}
    (hhistory : e'.history = e.history ++ m) : e'.PeerClosed := by
  obtain ⟨value, hv⟩ := h
  exact ⟨value, hhistory ▸ List.mem_append_left _ hv⟩

/-- If the session has ended, an error was reported first, or the peer had closed it. -/
structure Blames (e e' : Endpoint) : Prop where
  history : ∃ m, e'.history = e.history ++ m
  ev : ∃ l, e'.ev = e.ev ++ l ∧ ∀ before code reason remote after,
    l = before ++ .closed code reason remote :: after →
    (∃ v ∈ before, v.isError = true) ∨ e'.PeerClosed

namespace Blames

omit [H3.Codec] in
theorem trans {a b c : Endpoint} (hab : Blames a b) (hbc : Blames b c) : Blames a c := by
  obtain ⟨k, hk⟩ := hab.history
  obtain ⟨k', hk'⟩ := hbc.history
  obtain ⟨l, hl, hle⟩ := hab.ev
  obtain ⟨m, hm, hme⟩ := hbc.ev
  refine ⟨⟨k ++ k', by rw [hk', hk, List.append_assoc]⟩, l ++ m, by rw [hm, hl, List.append_assoc],
    fun before code reason remote after heq => ?_⟩
  rcases List.append_eq_append_iff.mp heq with ⟨mid, rfl, hmid⟩ | ⟨mid, hmid, hrest⟩
  · refine (hme mid code reason remote after hmid).imp_left ?_
    rintro ⟨v, hv, herr⟩
    exact ⟨v, List.mem_append_right _ hv, herr⟩
  · cases mid with
    | nil =>
        refine (hme [] code reason remote after hrest.symm).imp_left ?_
        rintro ⟨v, hv, -⟩
        cases hv
    | cons w mid =>
        obtain ⟨rfl, rfl⟩ := List.cons.inj hrest
        exact (hle before code reason remote mid hmid).imp_right fun h => h.append hk'

omit [H3.Codec] in
/-- The session did not end. -/
theorem calm {l : List Ev} (hev : e'.ev = e.ev ++ l) (hevs : ∀ v ∈ l, v.isClosed = false)
    {m : List Trace} (hhistory : e'.history = e.history ++ m) : Blames e e' :=
  ⟨⟨m, hhistory⟩, l, hev, fun before code reason remote after heq => by
    simpa [Ev.isClosed] using hevs (.closed code reason remote) (by simp [heq])⟩

omit [H3.Codec] in
theorem of_eq (hev : e'.ev = e.ev) (hhistory : e'.history = e.history) : Blames e e' :=
  calm (l := []) (by simp [hev]) (by simp) (m := []) (by simp [hhistory])

omit [H3.Codec] in
theorem refl (e : Endpoint) : Blames e e := of_eq rfl rfl

omit [H3.Codec] in
/-- The session ended behind what was reported. -/
theorem ends {s : Endpoint} (hopen : s.closed = false) {l : List Ev} (hev : s.ev = e.ev ++ l)
    (hevs : ∀ v ∈ l, v.isClosed = false) {m : List Trace} (hhistory : s.history = e.history ++ m)
    (hclean : (∃ v ∈ l, v.isError = true) ∨ s.PeerClosed) (code : Nat) (reason : Bytes)
    (remote : Bool) : Blames e (s.markClosed code reason remote) := by
  have hkept := (markClosed_flags s code reason remote).2.2.2.2
  refine ⟨⟨m, hkept.trans hhistory⟩, l ++ [.closed code reason remote], by
    rw [markClosed_ev hopen, hev, List.append_assoc], fun before code' reason' remote' after heq => ?_⟩
  have hbefore : before = l := by
    rcases List.append_eq_append_iff.mp heq with ⟨mid, hmid, hrest⟩ | ⟨mid, hmid, hrest⟩
    · cases mid with
      | nil => simpa using hmid
      | cons w mid => simp at hrest
    · cases mid with
      | nil => simpa using hmid.symm
      | cons w mid =>
          have hw : w.isClosed = false := hevs w (by simp [hmid])
          simp [← (List.cons.inj hrest).1, Ev.isClosed] at hw
  subst hbefore
  exact hclean.imp_right fun h => h.append (m := []) (by simp [hkept])

omit [H3.Codec] in
/-- The session ended behind an error. -/
theorem fails {s : Endpoint} (hopen : s.closed = false) {message : String}
    (hev : s.ev = e.ev ++ [.error message]) {m : List Trace}
    (hhistory : s.history = e.history ++ m) (code : Nat) (reason : Bytes) (remote : Bool) :
    Blames e (s.markClosed code reason remote) :=
  ends hopen hev (by simp [Ev.isClosed]) hhistory (.inl ⟨_, List.mem_singleton.mpr rfl, rfl⟩)
    code reason remote

omit [H3.Codec] in
/-- A rejection ends the session behind an error. -/
theorem refuse (hopen : e.closed = false) (id : Nat) (frame : Option Bytes) {messages : List String}
    (hne : messages ≠ []) (status : Nat) : Blames e (e.refuse id frame messages status) := by
  rw [refuse_eq]
  obtain ⟨-, -, hclosed, -, -, -, -, hev, hhistory⟩ := refusing_session e id frame messages status
  refine .ends (hclosed.trans hopen) hev (by simp [Ev.isClosed]) hhistory (.inl ?_) _ _ _
  obtain ⟨message, hm⟩ := List.exists_mem_of_ne_nil messages hne
  exact ⟨_, List.mem_map_of_mem hm, rfl⟩

end Blames

/-- What reading a stream other than the CONNECT stream does. -/
theorem Effect.blames {r : Nat} (h : Effect r e e') (hl : e.Layout) (hg : e.Gated) (ha : e.Admitted)
    (hr : r ≠ connectId) : Blames e e' := by
  have hconnect : e.roleOf r ≠ some .connect := fun hrole => hr (hl.roles _ _ hrole)
  cases h with
  | fail message code reason remote hc =>
      exact .fails (e := e) (s := e.emit (.error message)) hc rfl (List.append_nil _).symm _ _ _
  | finish code reason remote hc hend =>
      refine .ends (e := e) (l := []) hc (List.append_nil _).symm (by simp) (List.append_nil _).symm
        (.inr ?_) _ _ _
      rcases hend with ⟨value, hlast⟩ | ⟨hrole, -⟩
      · exact ⟨value, List.mem_of_getLast? hlast⟩
      · exact absurd hrole hconnect
  | killFail message code reason remote hc =>
      exact .fails (e := e) (s := (e.killRecv r).emit (.error message)) hc rfl (List.append_nil _).symm
        _ _ _
  | resetFail message code reason remote hc =>
      exact .fails (e := e) (s := (e.setRecvDead r).emit (.error message)) hc rfl
        (List.append_nil _).symm _ _ _
  | resetClose code reason remote hc hrole => exact absurd hrole hconnect
  | credit =>
      unfold setCreditLimit
      split_ifs <;> exact .of_eq rfl rfl
  | @reject id block frame messages status hserver hc hrole hdone hne =>
      have hready : e.ready = false :=
        hg.not_ready ((connectDone_of_role hl hrole).2.trans (congrArg some hdone))
      have htake : Blames e (e.takeHeaders id block) :=
        .calm (l := []) (List.append_nil _).symm (by simp) (m := [_]) rfl
      exact htake.trans (.refuse (e := e.takeHeaders id block) hc id frame (hne hready) status)
  | @refuse id s frame messages status hserver hc hrole hs hbad hne =>
      refine .refuse hc id frame (hne ?_) status
      cases hready : e.ready with
      | false => rfl
      | true =>
          obtain ⟨s', hs', hok⟩ := ha hserver hready
          obtain rfl := Option.some.inj (hs.symm.trans hs')
          simp [hbad] at hok
  | @ready id block =>
      refine .trans (b := e.takeHeaders id block)
        (.calm (l := []) (List.append_nil _).symm (by simp) (m := [_]) rfl) ?_
      exact .calm (l := [.ready _ _]) rfl (by simp [Ev.isClosed]) (m := [.ready]) rfl
  | @accept id s block =>
      refine .trans (b := e.takeHeaders id block)
        (.calm (l := []) (List.append_nil _).symm (by simp) (m := [_]) rfl) ?_
      exact .calm (l := [.serverReady _]) rfl (by simp [Ev.isClosed]) (m := [.ready]) rfl
  | undecoded | unanswered =>
      exact .calm (l := [_]) rfl (by simp [Ev.isClosed]) (m := [_]) rfl
  | draining | unrequested | incoming | data | finished | reset =>
      exact .calm (l := [_]) rfl (by simp [Ev.isClosed]) (List.append_nil _).symm
  | log | settings | connect | headers | moreHeaders | charge =>
      exact .calm (l := []) (List.append_nil _).symm (by simp) (m := [_]) rfl
  | _ => exact .of_eq rfl rfl

end

/-! ## Reading to the end -/

/-- Nothing is left to read of a stream, or it is left unread under backpressure. -/
inductive ReadOut (e : Endpoint) (id : Nat) (backpressured : Bool) : Prop
  | dry : e.conn.readable id = false → ReadOut e id backpressured
  | bare : e.streams.get id = none → ReadOut e id backpressured
  | held (st : Stream) : e.streams.get id = some st → backpressured = true → holdsBack st = true →
      ReadOut e id backpressured

omit [H3.Codec] in
theorem readLen_pos (st : Stream) (backpressured : Bool) : 0 < readLen st backpressured := by
  unfold readLen
  split <;> decide

omit [H3.Codec] in
/-- What a read leaves behind. -/
theorem recv_left {c c' : Quic.Connection} {id cap : Nat} {chunk : Bytes} {fin : Bool}
    (h : Quic.Connection.Recv c id cap (.ok (chunk, fin)) c') (hwf : c.WellFormed) (hcap : 0 < cap) :
    (fin = true ∨ chunk = [] → c'.readable id = false) ∧
      (chunk ≠ [] → (c'.streams id).recv.data.length < (c.streams id).recv.data.length) := by
  have hfin : fin = true → c'.readable id = false := fun hf =>
    Quic.Connection.not_readable_of_exhausted (h.wellFormed hwf id)
      (Quic.Connection.Recv.exhausted_of_fin (hf ▸ h) hwf)
  generalize hres : (Except.ok (chunk, fin) : Except Quic.Error (Bytes × Bool)) = res at h
  cases h with
  | none => cases hres
  | reset => cases hres
  | read cond =>
      obtain ⟨hchunk, -⟩ := Prod.mk.inj (Except.ok.inj hres)
      have hrecv := Quic.Connection.collectIf_recv
        (c.set id { c.streams id with recv := (c.streams id).recv.emit cap }) id cond id
      refine ⟨?_, fun hne => ?_⟩
      · rintro (hf | hnil)
        · exact hfin hf
        · have hdata : (c.streams id).recv.data = [] := by
            rw [hnil] at hchunk
            rcases List.take_eq_nil_iff.mp hchunk.symm with h0 | hdata
            · omega
            · exact hdata
          simp [Quic.Connection.readable, Quic.RecvBuf.ready, Quic.RecvBuf.emit, hdata]
      · have hpos : 0 < (c.streams id).recv.data.length := by
          rcases Nat.eq_zero_or_pos (c.streams id).recv.data.length with h0 | hpos
          · rw [hchunk, List.eq_nil_of_length_eq_zero h0, List.take_nil] at hne
            exact absurd rfl hne
          · exact hpos
        rw [hrecv]
        simp only [Quic.Connection.streams_set, if_true, Quic.RecvBuf.emit, List.length_drop]
        omega

omit [H3.Codec] in
theorem shutdownRead_left (c : Quic.Connection) (id err : Nat) :
    (c.readable id = false → (c.streamShutdownRead id err).readable id = false) ∧
      ((c.streamShutdownRead id err).streams id).recv.data.length ≤
        (c.streams id).recv.data.length := by
  rcases Quic.Connection.streamShutdownRead_streams c id err id with hs | ⟨-, -, -, hs⟩
  · unfold Quic.Connection.readable
    rw [hs]
    exact ⟨fun h => h, le_refl _⟩
  · unfold Quic.Connection.readable
    rw [hs]
    simp only [Quic.RecvBuf.shutdown]
    split
    · exact ⟨fun h => h, le_refl _⟩
    · split <;> simp [Quic.RecvBuf.ready]

/-- An effect leaves no more to read. -/
theorem Effects.left {r : Nat} {e e' : Endpoint} (h : Effects r e e') :
    (e.conn.readable r = false → e'.conn.readable r = false) ∧
      (e'.conn.streams r).recv.data.length ≤ (e.conn.streams r).recv.data.length := by
  refine h.rel (R := fun e e' => (e.conn.readable r = false → e'.conn.readable r = false) ∧
    (e'.conn.streams r).recv.data.length ≤ (e.conn.streams r).recv.data.length)
    (fun _ => ⟨fun h => h, le_refl _⟩) (fun hab hbc => ⟨fun h => hbc.1 (hab.1 h), hbc.2.trans hab.2⟩) ?_
  intro e e' hs
  have hleft := shutdownRead_left e.conn r 0
  unfold Quic.Connection.readable at hleft ⊢
  rcases hs.conn with hc | ⟨hc, -⟩
  · rw [hc]
    exact ⟨fun h => h, le_refl _⟩
  · rw [hc]
    exact hleft

/-- A pass of `on_readable` that is the last leaves nothing to read. -/
theorem readStep_left {e : Endpoint} (hl : e.Layout) (hopen : e.closed = false) {id : Nat}
    (hcan : e.conn.canRecv id = true) (backpressured : Bool) :
    ((readStep id backpressured e).2 = false → (readStep id backpressured e).1.closed = true ∨
      (readStep id backpressured e).1.ReadOut id backpressured) ∧
    ((readStep id backpressured e).2 = true →
      ((readStep id backpressured e).1.conn.streams id).recv.data.length <
        (e.conn.streams id).recv.data.length) := by
  have halive := hl.alive_of_readable hopen id
  have hspec := Quic.Connection.streamRecv_spec e.conn id
  unfold readStep
  cases hst : e.streams.get id with
  | none => exact ⟨fun _ => .inr (.bare hst), fun h => (by cases h)⟩
  | some st =>
      simp only
      split
      next hback =>
        simp only [Bool.and_eq_true] at hback
        exact ⟨fun _ => .inr (.held st hst hback.1 hback.2), fun h => (by cases h)⟩
      · specialize hspec (readLen st backpressured)
        have hl0 : Layout { e with conn := (e.conn.streamRecv id (readLen st backpressured)).2 } :=
          hl.same (.conn e hspec.isServer hspec.wellFormed hspec.phase fun hwf _ =>
            hspec.exhausted hwf)
        cases hrecv : e.conn.streamRecv id (readLen st backpressured) with
        | mk res c =>
            rw [hrecv] at hspec hl0
            cases res with
            | ok res =>
                obtain ⟨chunk, fin⟩ := res
                have hreadable : Readable { e with conn := c } := hl0.readable hopen
                obtain ⟨hlast, hless⟩ := recv_left hspec hl.wellFormed (readLen_pos st backpressured)
                have hx : fin = true → (c.streams id).Exhausted := fun hf =>
                  Quic.Connection.Recv.exhausted_of_fin (hf ▸ hspec) hl.wellFormed
                have hread : fin = true → (c.streams id).FinRead := fun hf =>
                  Quic.Connection.Recv.finRead (hf ▸ hspec)
                obtain ⟨hdry, hle⟩ :=
                  (processRecv_effects hreadable (halive hspec.readable) chunk hx hread).left
                refine ⟨fun hgo => ?_, fun hgo => ?_⟩
                · simp only [Bool.and_eq_false_iff, Bool.not_eq_false', List.isEmpty_iff] at hgo
                  rcases hgo with (hclosed | hf) | hnil
                  · exact .inl hclosed
                  · exact .inr (.dry (hdry (hlast (.inl hf))))
                  · exact .inr (.dry (hdry (hlast (.inr hnil))))
                · simp only [Bool.and_eq_true, Bool.not_eq_true', List.isEmpty_eq_false_iff] at hgo
                  exact lt_of_le_of_lt hle (hless hgo.2)
            | error err =>
                refine ⟨fun _ => .inr (.dry ?_), fun h => (by cases err <;> cases h)⟩
                cases err with
                | streamReset code =>
                    have hx : (c.streams id).Exhausted := hspec.exhausted_of_reset hl.wellFormed
                    refine (recvReset_effects (e := { e with conn := c }) hopen hx hspec.resetRead
                      code _).left.1 ?_
                    exact Quic.Connection.not_readable_of_exhausted (hspec.wellFormed hl.wellFormed id) hx
                | _ =>
                    show c.readable id = false
                    generalize hres : (Except.error _ : Except Quic.Error (Bytes × Bool)) = res at hspec
                    cases hspec with
                    | none _ hno => exact hno.resolve_right (by simp [hcan])
                    | reset => cases hres
                    | read => cases hres

/-- What a session was constructed with stays. -/
theorem cfg_whole (e₀ : Endpoint) : Whole fun e => e.cfg = e₀.cfg where
  effect heff _ h := heff.cfg.trans h
  quiet hq h := hq.cfg.trans h
  setup e h := by
    rcases onEstablished_spec e with heq | ⟨-, -, -, hcfg, -⟩
    · rwa [heq]
    · exact hcfg.trans h
  meet e _ _ h := h
  close e code reason remote h := (markClosed_cfg e code reason remote).trans h

omit [H3.Codec] in
theorem Layout.canRecv {e : Endpoint} (hl : e.Layout) {id : Nat} (h : PeerUni e.cfg.isServer id) :
    e.conn.canRecv id = true := by
  simp [Quic.Connection.canRecv, hl.server, h.1]

/-- The loop of `on_readable` reads until there is nothing left. -/
theorem iterate_readStep {id : Nat} {backpressured : Bool} :
    ∀ (n : Nat) {e : Endpoint}, e.Layout → e.closed = false → PeerUni e.cfg.isServer id →
      (e.conn.streams id).recv.data.length < n →
      (iterate (readStep id backpressured) n e).closed = true ∨
        (iterate (readStep id backpressured) n e).ReadOut id backpressured
  | 0, e, _, _, _, hlt => absurd hlt (Nat.not_lt_zero _)
  | n + 1, e, hl, hopen, hid, hlt => by
      obtain ⟨hlast, hless⟩ := readStep_left hl hopen (hl.canRecv hid) backpressured
      have hadmissible : e.StepAdmissible (.read id backpressured) := hopen
      have hl' : (readStep id backpressured e).1.Layout := hl.step hadmissible
      have hcfg : (readStep id backpressured e).1.cfg = e.cfg :=
        (cfg_whole e).step hl hadmissible rfl
      rw [iterate]
      cases hgo : (readStep id backpressured e).2 with
      | false =>
          rw [if_neg (by simp)]
          exact hlast hgo
      | true =>
          have hlen := hless hgo
          rw [if_pos rfl]
          exact iterate_readStep n hl' (readStep_open hopen hgo) (hcfg ▸ hid) (by omega)

/-- A critical stream is read to its end, or the session has ended. -/
theorem Disciplined.onReadable {e : Endpoint} (h : e.Disciplined) {id : Nat}
    (hr : e.conn.readable id = true) (hid : PeerUni e.cfg.isServer id) {backpressured : Bool}
    (h' : (e.onReadable id backpressured).Disciplined) {ty n : Nat}
    (hn : H3.readVarint ((e.onReadable id backpressured).conn.streams id).recv.got = some (ty, n))
    (hty : isCriticalType ty = true) : (e.onReadable id backpressured).closed = true ∨
      (e.onReadable id backpressured).conn.readable id = false := by
  have hcfg : (e.onReadable id backpressured).cfg = e.cfg :=
    ((cfg_whole e).call (c := .onReadable id backpressured) ⟨h.layout, rfl⟩ hr).2
  cases hopen' : (e.onReadable id backpressured).closed with
  | true => exact .inl rfl
  | false =>
      -- the stream is there, and what it carries is not held back
      have hrole := ((h'.sound hopen' id (hcfg ▸ hid)).critical hn hty).1
      refine .inr ?_
      have hout : ∀ s : Endpoint, s.closed = false → s.roleOf id = some (criticalRole ty) →
          s.closed = true ∨ s.ReadOut id backpressured → s.conn.readable id = false := by
        intro s hopen hrole hs
        rcases hs with hclosed | hs
        · simp [hopen] at hclosed
        · cases hs with
          | dry hdry => exact hdry
          | bare hnone => simp [Endpoint.roleOf, hnone] at hrole
          | held st hst _ hheld =>
              have hst := role_of_roleOf hst hrole
              unfold criticalRole at hst
              split_ifs at hst <;> simp [holdsBack, hst, Role.isWtData] at hheld
      have hopen : e.closed = false := by
        cases hc : e.closed with
        | false => rfl
        | true => simp [Endpoint.onReadable, hc] at hopen'
      have hl1 := h.layout.touch hopen hr
      have hcfg1 : (e.touch id).cfg = e.cfg := by
        unfold Endpoint.touch
        split <;> rfl
      unfold Endpoint.onReadable at hopen' hrole ⊢
      rw [if_neg (by simp [hopen])] at hopen' hrole ⊢
      simp only at hopen' hrole ⊢
      by_cases hmay : (e.touch id).mayRead id backpressured = true
      · rw [if_pos hmay] at hopen' hrole ⊢
        exact hout _ hopen' hrole (iterate_readStep _ hl1 ((touch_closed e id).trans hopen)
          (hcfg1 ▸ hid) (Nat.lt_succ_self _))
      · rw [if_neg hmay] at hopen' hrole ⊢
        obtain ⟨st, hst, hr'⟩ := Option.map_eq_some_iff.mp hrole
        have hcritical : st.role.isWtData = false ∧ st.role ≠ .pendingBidi := by
          rw [hr']
          unfold criticalRole
          split <;> simp [Role.isWtData]
        have hdead : st.recvDead = true := by
          by_contra hdead
          exact hmay (by simp [mayRead, hst, hdead, hcritical])
        have hx := (hl1.ended id st (by rw [hcfg1]; exact hid.1) hst hdead).resolve_left
          (by simp [hopen'])
        exact Quic.Connection.not_readable_of_exhausted (hl1.wellFormed id) hx

/-! ## Steps and calls -/

section

variable {e e' : Endpoint}

omit [H3.Codec] in
theorem Violation.of_heard (hcfg : e'.cfg = e.cfg) (hheard : ∀ i, PeerUni e.cfg.isServer i →
    (e'.conn.streams i).recv.got = (e.conn.streams i).recv.got ∧
      (e'.conn.streams i).recv.ended = (e.conn.streams i).recv.ended) (h : e'.Violation) :
    e.Violation := by
  cases h with
  | ended id ty n hid hn hty hended =>
      rw [hcfg] at hid
      rw [(hheard id hid).1] at hn
      exact .ended id ty n hid hn hty ((hheard id hid).2 ▸ hended)
  | duplicate i j ty n m hne hi hj hn hm hty =>
      rw [hcfg] at hi hj
      rw [(hheard i hi).1] at hn
      rw [(hheard j hj).1] at hm
      exact .duplicate i j ty n m hne hi hj hn hm hty
  | control id n hid hn hviolation =>
      rw [hcfg] at hid
      rw [(hheard id hid).1] at hn hviolation
      exact .control id n hid hn hviolation

omit [H3.Codec] in
/-- The session ended behind an error, and it said so. -/
theorem Explained.of_blames (hb : Blames e e') (ht : Tells e e') (hopen : e.closed = false)
    (hclosed : e'.closed = true) : Explained e e' := by
  obtain ⟨l, hl, hle⟩ := hb.ev
  obtain ⟨l', hl', hcount⟩ := ht
  obtain rfl := List.append_cancel_left (hl.symm.trans hl')
  have hone : 0 < l.countP Ev.isClosed := by
    rw [hopen, hclosed] at hcount
    simp only [Bool.toNat_false, Bool.toNat_true] at hcount
    omega
  obtain ⟨v, hv, hvc⟩ := List.countP_pos_iff.mp hone
  obtain ⟨before, after, rfl⟩ := List.append_of_mem hv
  cases v with
  | closed code reason remote =>
      refine ⟨before, code, reason, remote, after, by rw [hl, List.append_assoc], ?_⟩
      exact hle before code reason remote after rfl
  | _ => cases hvc

omit [H3.Codec] in
/-- The report of the last step is one of the whole call. -/
theorem Explained.after {s : Endpoint} (h : Explained s e') (ht : Tells e s) : Explained e e' := by
  obtain ⟨before, code, reason, remote, after, hev, hcause⟩ := h
  obtain ⟨l, hl, -⟩ := ht
  refine ⟨l ++ before, code, reason, remote, after, by simp [hev, hl], hcause.imp_left ?_⟩
  rintro ⟨v, hv, herr⟩
  exact ⟨v, List.mem_append_right _ hv, herr⟩

omit [H3.Codec] in
theorem Explained.append {s : Endpoint} (h : Explained e s) (ht : Tells s e') (hr : Records s e') :
    Explained e e' := by
  obtain ⟨before, code, reason, remote, after, hev, hcause⟩ := h
  obtain ⟨l, hl, -⟩ := ht
  obtain ⟨m, hm, -⟩ := hr
  exact ⟨before, code, reason, remote, after ++ l, by simp [hl, hev],
    hcause.imp_right fun hp => hp.append hm⟩

omit [H3.Codec] in
theorem Tells.opened (h : Tells e e') (hopen : e'.closed = false) : e.closed = false := by
  obtain ⟨l, -, hcount⟩ := h
  cases hc : e.closed with
  | false => rfl
  | true =>
      rw [hc, hopen] at hcount
      simp at hcount

end

/-- One pass of `on_readable` over a unidirectional stream of the peer. -/
theorem readStep_blames {e : Endpoint} (hl : e.Layout) (hg : e.Gated) (ha : e.Admitted)
    (hopen : e.closed = false) {id : Nat} (hid : id ≠ connectId) (backpressured : Bool) :
    Blames e (readStep id backpressured e).1 := by
  rcases readStep_effects (hl.readable hopen) hl.wellFormed (hl.alive_of_readable hopen id)
    backpressured with heq | ⟨cap, heff⟩
  · rw [heq]
    exact .refl e
  · have hspec := Quic.Connection.streamRecv_spec e.conn id cap
    have hl0 : Layout { e with conn := (e.conn.streamRecv id cap).2 } :=
      hl.same (.conn e hspec.isServer hspec.wellFormed hspec.phase fun hwf _ => hspec.exhausted hwf)
    have hg0 : Gated { e with conn := (e.conn.streamRecv id cap).2 } :=
      gated_whole.quiet (e := e) (.of_eq rfl rfl rfl rfl ⟨rfl, rfl, rfl⟩ rfl rfl) hg
    exact (heff.invariant (I := fun s => s.Layout ∧ (s.Gated ∧ s.Admitted) ∧ Blames e s)
      (fun s s' hs h => ⟨hs.layout h.1, admitted_whole.effect hs h.1 h.2.1,
        h.2.2.trans (hs.blames h.1 h.2.1.1 h.2.1.2 hid)⟩) ⟨hl0, ⟨hg0, ha⟩, .of_eq rfl rfl⟩).2.2

/-- What one pass reads concerns one stream. -/
theorem readStep_elsewhere {e : Endpoint} (hl : e.Layout) (hopen : e.closed = false) {id : Nat}
    (backpressured : Bool) {i : Nat} (hi : i ≠ id) :
    (readStep id backpressured e).1.conn.streams i = e.conn.streams i := by
  rcases readStep_effects (hl.readable hopen) hl.wellFormed (hl.alive_of_readable hopen id)
    backpressured with heq | ⟨cap, heff⟩
  · rw [heq]
  · have hspec := Quic.Connection.streamRecv_spec e.conn id cap
    exact (heff.conn_ne hi).trans (hspec.ne hi)

/-- A step that hears of a violation ends the session, and reports it. -/
theorem step_violation {e : Endpoint} (h : e.Disciplined) (hg : e.Gated) (ha : e.Admitted) {s : Step}
    (hs : e.StepAdmissible s) (hv : (e.step s).Violation) :
    e.Violation ∨ e.closed = false ∧ Explained e (e.step s) := by
  have hcfg : (e.step s).cfg = e.cfg := (cfg_whole e).step h.layout hs rfl
  cases hhears : Step.hears s with
  | false =>
      have hun := step_unheard h.layout hhears
      exact .inl (hv.of_heard hcfg fun i _ => ⟨hun.got i, hun.ended i⟩)
  | true =>
      cases s with
      | touch id =>
          refine .inl (hv.of_heard hcfg fun i _ => ?_)
          have hconn : (e.touch id).conn = e.conn := by
            unfold Endpoint.touch
            split <;> rfl
          show ((e.touch id).conn.streams i).recv.got = _ ∧ ((e.touch id).conn.streams i).recv.ended = _
          rw [hconn]
          exact ⟨rfl, rfl⟩
      | prune => exact .inl (hv.of_heard hcfg fun i _ => ⟨rfl, rfl⟩)
      | markClosed code reason remote =>
          refine .inl (hv.of_heard hcfg fun i _ => ?_)
          show ((e.markClosed code reason remote).conn.streams i).recv.got = _ ∧
            ((e.markClosed code reason remote).conn.streams i).recv.ended = _
          rw [markClosed_conn]
          exact ⟨rfl, rfl⟩
      | read id backpressured =>
          have hopen : e.closed = false := hs
          by_cases hid : PeerUni e.cfg.isServer id
          · refine .inr ⟨hopen, ?_⟩
            have hclosed : (e.step (.read id backpressured)).closed = true := by
              cases hc : (e.step (.read id backpressured)).closed with
              | true => rfl
              | false => exact absurd hv ((h.step hs).no_violation hc)
            exact .of_blames (readStep_blames h.layout hg ha hopen hid.ne_connectId backpressured)
              ((tells_whole e).step h.layout hs (.refl e)) hopen hclosed
          · refine .inl (hv.of_heard hcfg fun i hi => ?_)
            have hne : i ≠ id := fun heq => hid (heq ▸ hi)
            show ((readStep id backpressured e).1.conn.streams i).recv.got = _ ∧
              ((readStep id backpressured e).1.conn.streams i).recv.ended = _
            rw [readStep_elsewhere h.layout hopen backpressured hne]
            exact ⟨rfl, rfl⟩
      | _ => cases hhears

/-- What holds of a session that keeps the discipline of critical streams. -/
def Orderly (e : Endpoint) : Prop := e.Disciplined ∧ e.Gated ∧ e.Admitted

theorem Start.orderly {e : Endpoint} (h : Start e) : e.Orderly :=
  ⟨h.disciplined, h.driveable.2⟩

theorem Orderly.step {e : Endpoint} (h : e.Orderly) {s : Step} (hs : e.StepAdmissible s) :
    (e.step s).Orderly :=
  ⟨h.1.step hs, admitted_whole.step h.1.layout hs h.2⟩

/-- A call that hears of a violation ends the session, and reports it. -/
theorem call_violation {e : Endpoint} (h : e.Orderly) {c : Call} (hc : e.Admissible c) :
    (e.call c).Orderly ∧ Records e (e.call c) ∧
      ((e.call c).Violation → e.Violation ∨ e.closed = false ∧ Explained e (e.call c)) := by
  rw [call_eq]
  have hrun := execute_invariant
    (I := fun s => s.Orderly ∧ Records e s ∧ Tells e s ∧
      (s.Violation → e.Violation ∨ e.closed = false ∧ Explained e s))
    (fun s op hI hs => by
      obtain ⟨hord, hrec, htell, hheard⟩ := hI
      have hrec' := (records_whole s).step hord.1.layout hs (.refl s)
      have htell' := (tells_whole s).step hord.1.layout hs (.refl s)
      refine ⟨hord.step hs, hrec.trans hrec', htell.trans htell', fun hv => ?_⟩
      rcases step_violation hord.1 hord.2.1 hord.2.2 hs hv with hold | ⟨hopen, hreport⟩
      · exact (hheard hold).imp_right fun hr => ⟨hr.1, hr.2.append htell' hrec'⟩
      · exact .inr ⟨htell.opened hopen, hreport.after htell⟩)
    ⟨h, .refl e, .refl e, .inl⟩ (steps_admissible hc)
  exact ⟨hrun.1, hrun.2.1, hrun.2.2.2⟩

/-- The discipline of critical streams across a call. -/
structure Keeps (e : Endpoint) (c : Call) : Prop where
  oneControl : ∀ i j, (e.call c).roleOf i = some .peerControl →
    (e.call c).roleOf j = some .peerControl → i = j
  oneQpack : (e.call c).OneQpack
  /-- SETTINGS were accepted once, and stay. -/
  once : (e.call c).settingsTaken = (e.call c).peerSettings.toList
  settled : ∀ s, e.peerSettings = some s → (e.call c).peerSettings = some s
  /-- They are the first frame of the control stream. -/
  sourced : (e.call c).Sourced
  /-- A violation ends the session, which reports an error first. -/
  violation : (e.call c).Violation → (e.call c).closed = true ∧
    (e.Violation ∨ e.closed = false ∧ Explained e (e.call c))
  /-- Nothing that has arrived on such a stream is left unread. -/
  read : ∀ id backpressured ty n, c = .onReadable id backpressured → PeerUni e.cfg.isServer id →
    H3.readVarint ((e.call c).conn.streams id).recv.got = some (ty, n) → isCriticalType ty = true →
    (e.call c).closed = true ∨ (e.call c).conn.readable id = false

/-- The SETTINGS frame of `sampleControl`. -/
def sampleSettings : Bytes :=
  H3.putVarint H3.settingsEnableConnectProtocol ++ H3.putVarint 1 ++
    H3.putVarint H3.settingsH3Datagram ++ H3.putVarint 1 ++
    H3.putVarint H3.settingsEnableWebtransport ++ H3.putVarint 1

/-- The control stream begins with SETTINGS, brings a frame of no meaning, and ends. -/
def endedControl : List Call :=
  [.onEstablished, .network (.data 2 sampleControl), .onReadable 2 false,
    .network (.data 2 (H3.frame 0x21 [7])), .network (.fin 2), .onReadable 2 false]

/-- A server has buffered a request and a CLOSE capsule when the control stream
brings SETTINGS twice. -/
def concludedControl : List Call :=
  [.onEstablished, .network (.data 0 (sampleRequest ++ capsuleFrame H3.wtCloseSessionCapsule
      (closeValue 7 []))), .onReadable 0 false,
    .network (.data 2 (sampleControl ++ H3.frame H3.frameSettings [])), .onReadable 2 false]

omit [H3.Codec] in
theorem violation_of_repeated {e : Endpoint} (hid : PeerUni e.cfg.isServer 2)
    (hgot : (e.conn.streams 2).recv.got = sampleControl ++ H3.frame H3.frameSettings []) :
    e.Violation := by
  have hfirst : frameHead ((sampleControl ++ H3.frame H3.frameSettings []).drop 1) =
      .frame H3.frameSettings sampleSettings (H3.frame H3.frameSettings []) := by decide +kernel
  have hsecond : frameHead (H3.frame H3.frameSettings []) = .frame H3.frameSettings [] [] := by
    decide +kernel
  refine .control 2 1 hid ?_ ?_
  · rw [hgot]
    decide +kernel
  · rw [hgot]
    exact .later hfirst (.forbidden hsecond (by decide))

end Endpoint

end RWebTransport
