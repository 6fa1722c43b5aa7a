import RWebTransport.Session.FailClosed
import RWebTransport.Session.OwnClose

/-!
# Clean ends

A session that ends without an error was asked to: by the application, by a
CLOSE_WEBTRANSPORT_SESSION capsule, by the end of the CONNECT stream, or by the
graceful close of the peer's connection.  Two ends look clean and are not: a
RESET of the CONNECT stream of a ready session, and the close of the peer's
connection with a code that names an error.
-/

namespace RWebTransport

/-- What a driver does to a session. -/
inductive Driven where
  | call (c : Call)
  /-- The terminal branch of its loop. -/
  | finish (how : Closure)

/-- The call is the driver's own `mark_closed`. -/
def Call.isMarkClosed : Call → Bool
  | .markClosed _ _ _ => true
  | _ => false

def Step.isMarkClosed : Step → Bool
  | .markClosed _ _ _ => true
  | _ => false

/-- The peer concludes the session: with a capsule, or with a FIN that leaves
nothing unfinished. -/
def Trace.concludes : Trace → Bool
  | .capsule ty _ => ty == H3.wtCloseSessionCapsule
  | .connectFin m n => m == 0 && n == 0
  | _ => false

namespace Endpoint

def Concluded (e : Endpoint) : Prop := ∃ t ∈ e.history, t.concludes = true

instance (e : Endpoint) : Decidable e.Concluded :=
  inferInstanceAs (Decidable (∃ t ∈ e.history, t.concludes = true))

/-- The session of a server is ready behind SETTINGS that admit it. -/
def Admitted (e : Endpoint) : Prop :=
  e.cfg.isServer = true → e.ready = true → ∃ s, e.peerSettings = some s ∧ s.admitsConnect = true

/-- A pass of `on_readable` does not find the session stream of a ready session reset. -/
def ReadsNoReset (e : Endpoint) : Step → Prop
  | .read id _ => id = connectId → e.ready = true → (e.conn.streams id).recv.error = none
  | _ => True

instance (e : Endpoint) : (s : Step) → Decidable (e.ReadsNoReset s)
  | .read id _ =>
      inferInstanceAs (Decidable (id = connectId → e.ready = true → (e.conn.streams id).recv.error = none))
  | .onEstablished | .touch _ | .onDatagrams | .sendDatagram _ _ | .openStream _ _ | .streamWrite _ _ _
  | .streamFin _ | .streamReset _ _ | .streamStopSending _ _ | .setPaused _ _ | .close _ _ | .sendDrain
  | .takeTerminalError | .grantCredit | .replenish | .queueClose | .releasePendingOpens
  | .flushStream _ | .commitSent | .signalFlowControlBlocked | .prune | .gracefulClose
  | .markClosed _ _ _ | .network _ => .isTrue trivial

variable [H3.Codec]

/-- What the driver does. -/
def drive (e : Endpoint) : Driven → Endpoint
  | .call c => e.call c
  | .finish how => e.endSession how

/-- The contracts; a driver ends a session itself in its terminal branch alone. -/
def Drives (e : Endpoint) : Driven → Prop
  | .call c => e.Admissible c ∧ c.isMarkClosed = false
  | .finish _ => True

instance (e : Endpoint) : (d : Driven) → Decidable (e.Drives d)
  | .call c => inferInstanceAs (Decidable (e.Admissible c ∧ c.isMarkClosed = false))
  | .finish _ => .isTrue trivial

/-- What makes an end clean: the application's `close`, the peer's conclusion of
the session, or its graceful close of the connection. -/
def CleanEnd (e : Endpoint) : Driven → Prop
  | .call c => (e.call c).Concluded
  | .finish how => e.closeReq.isSome = true ∨
      ∃ err, how.peerError = some err ∧ err.isApp = true ∧ err.errorCode = H3.h3NoError

/-- A ready session that ends here without an error ends cleanly. -/
def ClosesClean (e : Endpoint) (d : Driven) : Prop :=
  ∀ before code reason remote after,
    (e.drive d).ev = e.ev ++ before ++ .closed code reason remote :: after →
    (∃ v ∈ e.ev ++ before, v.isReady = true) →
    (∃ v ∈ e.ev ++ before, v.isError = true) ∨ e.CleanEnd d

/-- No end that looks clean and is not. -/
def NoDisguise (e : Endpoint) : Driven → Prop
  | .call c => Along step ReadsNoReset e (e.steps c)
  | .finish how => e.closed = false → e.ready = true → e.closeReq.isNone = true →
      ∀ err ∈ how.peerError, err.isApp = true → err.errorCode = H3.h3NoError

instance (e : Endpoint) : (d : Driven) → Decidable (e.NoDisguise d)
  | .call c => inferInstanceAs (Decidable (Along step ReadsNoReset e (e.steps c)))
  | .finish how => inferInstanceAs (Decidable (e.closed = false → e.ready = true →
      e.closeReq.isNone = true → ∀ err ∈ how.peerError, err.isApp = true →
      err.errorCode = H3.h3NoError))

/-! ## What reading does -/

/-- If a ready session has ended, an error was reported first, or the peer has
concluded the session. -/
structure Ending (e e' : Endpoint) : Prop where
  history : ∃ m, e'.history = e.history ++ m
  ev : ∃ l, e'.ev = e.ev ++ l ∧ ∀ before code reason remote after,
    l = before ++ .closed code reason remote :: after → (∃ v ∈ e.ev ++ before, v.isReady = true) →
    (∃ v ∈ before, v.isError = true) ∨ e'.Concluded

omit [H3.Codec] in
theorem Concluded.append {e e' : Endpoint} (h : e.Concluded) {m : List Trace}
    (hhistory : e'.history = e.history ++ m) : e'.Concluded := by
  obtain ⟨t, ht, hconcludes⟩ := h
  exact ⟨t, hhistory ▸ List.mem_append_left _ ht, hconcludes⟩

namespace Ending

omit [H3.Codec] in
theorem trans {a b c : Endpoint} (hab : Ending a b) (hbc : Ending b c) : Ending a c := by
  obtain ⟨k, hk⟩ := hab.history
  obtain ⟨k', hk'⟩ := hbc.history
  obtain ⟨l, hl, hle⟩ := hab.ev
  obtain ⟨m, hm, hme⟩ := hbc.ev
  refine ⟨⟨k ++ k', by rw [hk', hk, List.append_assoc]⟩, l ++ m, by rw [hm, hl, List.append_assoc],
    fun before code reason remote after heq hready => ?_⟩
  rcases List.append_eq_append_iff.mp heq with ⟨mid, rfl, hmid⟩ | ⟨mid, hmid, hrest⟩
  · rw [← List.append_assoc, ← hl] at hready
    refine (hme mid code reason remote after hmid hready).imp_left ?_
    rintro ⟨v, hv, herr⟩
    exact ⟨v, List.mem_append_right _ hv, herr⟩
  · cases mid with
    | nil =>
        obtain rfl : l = before := by simpa using hmid
        rw [← hl] at hready
        refine (hme [] code reason remote after hrest.symm (by simpa using hready)).imp_left ?_
        rintro ⟨v, hv, -⟩
        cases hv
    | cons w mid =>
        obtain ⟨rfl, rfl⟩ := List.cons.inj hrest
        exact (hle before code reason remote mid hmid hready).imp_right fun h => h.append hk'

omit [H3.Codec] in
/-- The session did not end. -/
theorem calm {e e' : Endpoint} {l : List Ev} (hev : e'.ev = e.ev ++ l)
    (hevs : ∀ v ∈ l, v.isClosed = false) {m : List Trace} (hhistory : e'.history = e.history ++ m) :
    Ending e e' :=
  ⟨⟨m, hhistory⟩, l, hev, fun before code reason remote after heq _ => by
    simpa [Ev.isClosed] using hevs (.closed code reason remote) (by simp [heq])⟩

omit [H3.Codec] in
/-- Nothing was recorded. -/
theorem of_eq {e e' : Endpoint} (hev : e'.ev = e.ev) (hhistory : e'.history = e.history) :
    Ending e e' :=
  calm (l := []) (by simp [hev]) (by simp) (m := []) (by simp [hhistory])

omit [H3.Codec] in
theorem refl (e : Endpoint) : Ending e e := of_eq rfl rfl

omit [H3.Codec] in
theorem of_quiet {e e' : Endpoint} (h : Quiet e e') : Ending e e' := by
  obtain ⟨l, hl, hlq⟩ := h.ev
  obtain ⟨m, hm, -⟩ := h.history
  refine calm hl (fun v hv => ?_) hm
  have hq := hlq v hv
  cases v <;> first | rfl | cases hq

omit [H3.Codec] in
/-- The session ended behind what was reported. -/
theorem ends {e s : Endpoint} (hopen : s.closed = false) {l : List Ev} (hev : s.ev = e.ev ++ l)
    (hevs : ∀ v ∈ l, v.isClosed = false) {m : List Trace} (hhistory : s.history = e.history ++ m)
    (hclean : (∃ v ∈ e.ev ++ l, v.isReady = true) → (∃ v ∈ l, v.isError = true) ∨ s.Concluded)
    (code : Nat) (reason : Bytes) (remote : Bool) : Ending e (s.markClosed code reason remote) := by
  have hkept := (markClosed_flags s code reason remote).2.2.2.2
  refine ⟨⟨m, hkept.trans hhistory⟩, l ++ [.closed code reason remote], by
    rw [markClosed_ev hopen, hev, List.append_assoc], fun before code' reason' remote' after heq hready => ?_⟩
  have hbefore : before = l := by
    rcases List.append_eq_append_iff.mp heq with ⟨mid, hmid, hrest⟩ | ⟨mid, hmid, hrest⟩
    · cases mid with
      | nil => simpa using hmid
      | cons w mid => simp at hrest
    · cases mid with
      | nil => simpa using hmid.symm
      | cons w mid =>
          have hw : w.isClosed = false := hevs w (by simp [hmid])
          simp [← (List.cons.inj hrest).1, Ev.isClosed] at hw
  subst hbefore
  exact (hclean hready).imp_right fun h => h.append (m := []) (by simp [hkept])

omit [H3.Codec] in
/-- The session ended behind an error. -/
theorem fails {e s : Endpoint} (hopen : s.closed = false) {message : String}
    (hev : s.ev = e.ev ++ [.error message]) {m : List Trace}
    (hhistory : s.history = e.history ++ m) (code : Nat) (reason : Bytes) (remote : Bool) :
    Ending e (s.markClosed code reason remote) :=
  ends hopen hev (by simp [Ev.isClosed]) hhistory (fun _ => .inl ⟨_, List.mem_singleton.mpr rfl, rfl⟩)
    code reason remote

end Ending

/-- A session that takes the first HEADERS frame is not ready. -/
theorem Gated.not_ready {e : Endpoint} (h : e.Gated) (hd : e.connectDone = some false) :
    e.ready = false := by
  cases hr : e.ready with
  | false => rfl
  | true => simpa [hd] using (h.ready hr).1

omit [H3.Codec] in
/-- A rejection ends the session behind an error. -/
theorem Ending.refuse {e : Endpoint} (hopen : e.closed = false) (id : Nat) (frame : Option Bytes) {messages : List String}
    (hne : messages ≠ []) (status : Nat) : Ending e (e.refuse id frame messages status) := by
  rw [refuse_eq]
  obtain ⟨-, -, hclosed, -, -, -, -, hev, hhistory⟩ := refusing_session e id frame messages status
  refine .ends (hclosed.trans hopen) hev (by simp [Ev.isClosed]) hhistory (fun _ => .inl ?_) _ _ _
  obtain ⟨message, hm⟩ := List.exists_mem_of_ne_nil messages hne
  exact ⟨_, List.mem_map_of_mem hm, rfl⟩

omit [H3.Codec] in
theorem recvError_shutdown (c : Quic.Connection) (id err i : Nat) :
    ((c.streamShutdownRead id err).streams i).recv.error = (c.streams i).recv.error := by
  unfold Quic.Connection.streamShutdownRead
  split_ifs
  · rw [Quic.Connection.streams_set]
    split_ifs with hi
    · subst hi
      unfold Quic.RecvBuf.shutdown
      simp only
      split_ifs <;> rfl
    · rfl
  · rfl

omit [H3.Codec] in
theorem recvError_streamRecv (c : Quic.Connection) (id cap i : Nat) :
    ((c.streamRecv id cap).2.streams i).recv.error = (c.streams i).recv.error := by
  have hspec := Quic.Connection.streamRecv_spec c id cap
  generalize (c.streamRecv id cap).1 = res at hspec
  generalize (c.streamRecv id cap).2 = c' at hspec
  cases hspec with
  | none => rfl
  | reset cond | read cond =>
      rw [Quic.Connection.collectIf_recv, Quic.Connection.streams_set]
      split_ifs with hi
      · subst hi
        rfl
      · rfl

/-- The RESET of a stream is the network's. -/
theorem Effect.recvError {r : Nat} {e e' : Endpoint} (h : Effect r e e') (i : Nat) :
    (e'.conn.streams i).recv.error = (e.conn.streams i).recv.error := by
  rcases h.conn with hs | ⟨hs, -⟩
  · rw [hs]
  · rw [hs, recvError_shutdown]

/-- What an effect of reading does, if the session stream was not reset. -/
theorem Effect.ending {r : Nat} {e e' : Endpoint} (h : Effect r e e') (hl : e.Layout) (hg : e.Gated)
    (ha : e.Admitted) (hreset : r = connectId → (e.conn.streams r).recv.error = none) :
    Ending e e' := by
  cases h with
  | fail message code reason remote hc =>
      exact .fails (e := e) (s := e.emit (.error message)) hc rfl (List.append_nil _).symm _ _ _
  | finish code reason remote hc hend =>
      refine .ends (e := e) (l := []) hc (List.append_nil _).symm (by simp) (List.append_nil _).symm
        (fun _ => .inr ?_) _ _ _
      rcases hend with ⟨value, hlast⟩ | ⟨-, -, hlast⟩
      · exact ⟨_, List.mem_of_getLast? hlast, rfl⟩
      · exact ⟨_, List.mem_of_getLast? hlast, rfl⟩
  | killFail message code reason remote hc =>
      exact .fails (e := e) (s := (e.killRecv r).emit (.error message)) hc rfl (List.append_nil _).symm
        _ _ _
  | resetFail message code reason remote hc =>
      exact .fails (e := e) (s := (e.setRecvDead r).emit (.error message)) hc rfl
        (List.append_nil _).symm _ _ _
  | resetClose code reason remote hc hrole hready hread =>
      have hnone := hreset (connectDone_of_role hl hrole).1
      simp [Quic.QStream.ResetRead, hnone] at hread
  | credit =>
      unfold setCreditLimit
      split_ifs <;> exact .of_eq rfl rfl
  | @reject id block frame messages status hserver hc hrole hdone hne =>
      have hready : e.ready = false :=
        hg.not_ready ((connectDone_of_role hl hrole).2.trans (congrArg some hdone))
      have htake : Ending e (e.takeHeaders id block) :=
        .calm (l := []) (List.append_nil _).symm (by simp) (m := [_]) rfl
      exact htake.trans (.refuse (e := e.takeHeaders id block) hc id frame (hne hready) status)
  | @refuse id s frame messages status hserver hc hrole hs hbad hne =>
      refine .refuse hc id frame (hne ?_) status
      cases hready : e.ready with
      | false => rfl
      | true =>
          obtain ⟨s', hs', hok⟩ := ha hserver hready
          obtain rfl := Option.some.inj (hs.symm.trans hs')
          simp [hbad] at hok
  | @ready id block =>
      refine .trans (b := e.takeHeaders id block)
        (.calm (l := []) (List.append_nil _).symm (by simp) (m := [_]) rfl) ?_
      exact .calm (l := [.ready _ _]) rfl (by simp [Ev.isClosed]) (m := [.ready]) rfl
  | @accept id s block =>
      refine .trans (b := e.takeHeaders id block)
        (.calm (l := []) (List.append_nil _).symm (by simp) (m := [_]) rfl) ?_
      exact .calm (l := [.serverReady _]) rfl (by simp [Ev.isClosed]) (m := [.ready]) rfl
  | undecoded | unanswered =>
      exact .calm (l := [_]) rfl (by simp [Ev.isClosed]) (m := [_]) rfl
  | draining | unrequested | incoming | data | finished | reset =>
      exact .calm (l := [_]) rfl (by simp [Ev.isClosed]) (List.append_nil _).symm
  | log | settings | connect | headers | moreHeaders | charge =>
      exact .calm (l := []) (List.append_nil _).symm (by simp) (m := [_]) rfl
  | _ => exact .of_eq rfl rfl

/-- The SETTINGS a session became ready with stay. -/
theorem admitted_whole : Whole fun e => e.Gated ∧ e.Admitted where
  effect {r e e'} heff hl h := by
    refine ⟨gated_whole.effect heff hl h.1, ?_⟩
    have hkept : e'.cfg = e.cfg → e'.ready = e.ready → e'.peerSettings = e.peerSettings →
        e'.Admitted := by
      intro hcfg hready hsettings
      unfold Admitted
      rw [hcfg, hready, hsettings]
      exact h.2
    cases heff with
    | fail | finish | killFail | resetFail | resetClose =>
        have hflags := @markClosed_flags
        exact hkept (markClosed_cfg _ _ _ _) (hflags _ _ _ _).1 (hflags _ _ _ _).2.2.2.1
    | reject | refuse =>
        rw [refuse_eq] at hkept ⊢
        obtain ⟨hcfg, -, -, hready, -, -, hsettings, -, -⟩ := refusing_session _ _ _ _ _
        have hflags := @markClosed_flags
        exact hkept ((markClosed_cfg _ _ _ _).trans hcfg) ((hflags _ _ _ _).1.trans hready)
          ((hflags _ _ _ _).2.2.2.1.trans hsettings)
    | credit =>
        refine hkept ?_ ?_ ?_
        all_goals
          unfold setCreditLimit
          split_ifs <;> rfl
    | @settings s hc hrole hdone =>
        -- a control stream has one SETTINGS frame, and there is one control stream
        intro hserver hready
        obtain ⟨s', hs', -⟩ := h.2 hserver hready
        rcases hl.settled (by simp [hs']) with hclosed | ⟨id, hid, htaken⟩
        · simp [hc] at hclosed
        · obtain rfl := hl.control id r hid hrole
          simp [hdone] at htaken
    | ready hclient =>
        intro hserver
        exact absurd (hclient.symm.trans hserver) (by simp)
    | accept frame hserver hc hrole hdone hs hadmits =>
        intro _ _
        exact ⟨_, hs, hadmits⟩
    | _ => exact hkept rfl rfl rfl
  quiet hq h := by
    refine ⟨gated_whole.quiet hq h.1, ?_⟩
    unfold Admitted
    rw [hq.cfg, hq.ready, hq.peerSettings]
    exact h.2
  setup e h := by
    refine ⟨gated_whole.setup e h.1, ?_⟩
    rcases onEstablished_spec e with heq | ⟨-, -, -, hcfg, -, hready, hsettings, -⟩
    · rw [heq]
      exact h.2
    · unfold Admitted
      rw [hcfg, hready, hsettings]
      exact h.2
  meet e hs hnone h := ⟨gated_whole.meet e hs hnone h.1, h.2⟩
  close e code reason remote h := by
    refine ⟨gated_whole.close e code reason remote h.1, ?_⟩
    obtain ⟨hready, -, -, hsettings, -⟩ := markClosed_flags e code reason remote
    unfold Admitted
    rw [markClosed_cfg, hready, hsettings]
    exact h.2

/-! ## The end of a session -/

/-- A pass of `on_readable`, if it does not find the session stream of a ready
session reset. -/
theorem readStep_ending {e : Endpoint} (hl : e.Layout) (hg : e.Gated) (ha : e.Admitted)
    (hopen : e.closed = false) (id : Nat) (backpressured : Bool)
    (hclean : e.ReadsNoReset (.read id backpressured)) :
    Ending e (readStep id backpressured e).1 := by
  by_cases hnone : id = connectId → (e.conn.streams id).recv.error = none
  · rcases readStep_effects (hl.readable hopen) hl.wellFormed (hl.alive_of_readable hopen id)
      backpressured with heq | ⟨cap, heff⟩
    · rw [heq]
      exact .refl e
    · have hspec := Quic.Connection.streamRecv_spec e.conn id cap
      have hl0 : Layout { e with conn := (e.conn.streamRecv id cap).2 } :=
        hl.same (.conn e hspec.isServer hspec.wellFormed hspec.phase fun hwf _ => hspec.exhausted hwf)
      have hg0 : Gated { e with conn := (e.conn.streamRecv id cap).2 } :=
        gated_whole.quiet (e := e) (.of_eq rfl rfl rfl rfl ⟨rfl, rfl, rfl⟩ rfl rfl) hg
      have hstart : (({ e with conn := (e.conn.streamRecv id cap).2 } : Endpoint).conn.streams
          id).recv.error = (e.conn.streams id).recv.error := recvError_streamRecv e.conn id cap id
      exact (heff.invariant (I := fun s => s.Layout ∧ (s.Gated ∧ s.Admitted) ∧
          (s.conn.streams id).recv.error = (e.conn.streams id).recv.error ∧ Ending e s)
        (fun s s' hs h => ⟨hs.layout h.1, admitted_whole.effect hs h.1 h.2.1,
          (hs.recvError id).trans h.2.2.1, h.2.2.2.trans (hs.ending h.1 h.2.1.1 h.2.1.2
            fun hid => h.2.2.1.trans (hnone hid))⟩)
        ⟨hl0, ⟨hg0, ha⟩, hstart, .of_eq rfl rfl⟩).2.2.2
  · -- the RESET of a session stream that is not ready
    obtain ⟨rfl, herr⟩ := Classical.not_imp.mp hnone
    have hready : e.ready = false := by
      cases hr : e.ready with
      | false => rfl
      | true => exact absurd (hclean rfl hr) herr
    unfold readStep
    split
    · exact .refl e
    next st hst =>
      have hrole : st.role = .connect := hl.connectRole st hst
      split_ifs
      · exact .refl e
      · have hspec := Quic.Connection.streamRecv_spec e.conn connectId (readLen st backpressured)
        simp only
        split
        next chunk fin conn heq =>
          rw [heq] at hspec
          generalize hres : (Except.ok (chunk, fin) : Except Quic.Error (Bytes × Bool)) = res at hspec
          cases hspec with
          | none => cases hres
          | reset => cases hres
          | read cond hc hreadable hno => exact absurd hno herr
        next code conn heq =>
          have hreset : ({ e with conn := conn } : Endpoint).recvReset connectId code
              (e.conn.streamRecvFinalSize connectId) =
              ({ e with conn := conn } : Endpoint).surfaceReset connectId code := by
            unfold recvReset
            split
            next size st' hsize hst' =>
              have hst' : e.streams.get connectId = some st' := hst'
              obtain rfl := Option.some.inj (hst.symm.trans hst')
              simp [hrole, Role.isWtData]
            · rfl
          rw [hreset]
          unfold surfaceReset
          simp only [hst, Option.map_some, hrole]
          rw [if_neg (by simp [setRecvDead, modifyStream, hopen]),
            if_neg (by simp [setRecvDead, modifyStream, hready])]
          exact .fails (e := e) (s := (({ e with conn := conn } : Endpoint).setRecvDead
            connectId).emit _) hopen rfl (List.append_nil _).symm _ _ _
        · exact .of_eq rfl rfl

/-- A step of a call. -/
theorem step_ending {e : Endpoint} (hl : e.Layout) (hg : e.Gated) (ha : e.Admitted) {s : Step}
    (hs : e.StepAdmissible s) (hmark : s.isMarkClosed = false)
    (hclean : e.ReadsNoReset s) : Ending e (e.step s) := by
  cases hloud : Step.isLoud s with
  | false => exact .of_quiet (step_quiet hl hloud)
  | true =>
      cases s with
      | onEstablished =>
          rcases onEstablished_spec e with heq | ⟨-, -, -, -, -, -, -, -, hev, hhistory, -⟩
          · exact (congrArg (Ending e) heq).mpr (.refl e)
          · exact .of_eq hev hhistory
      | touch id =>
          rcases touch_cases hl hs.2 with hq | ⟨-, -, heq⟩
          · exact .of_quiet hq
          · exact (congrArg (Ending e) heq).mpr (.of_eq rfl rfl)
      | markClosed => cases hmark
      | read id backpressured => exact readStep_ending hl hg ha hs id backpressured hclean
      | _ => cases hloud

/-- `mark_closed` is no part of another call. -/
theorem steps_not_markClosed (e : Endpoint) {c : Call} (hc : c.isMarkClosed = false) :
    Along step (fun _ s => s.isMarkClosed = false) e (e.steps c) := by
  have hreads : ∀ (id : Nat) (backpressured : Bool) (n : Nat) (s : Endpoint),
      Along step (fun _ s => s.isMarkClosed = false) s (reads id backpressured n s) := by
    intro id backpressured n
    induction n with
    | zero => exact fun _ => trivial
    | succ n ih =>
        intro s
        rw [reads]
        refine ⟨rfl, ?_⟩
        split
        · exact ih _
        · trivial
  have hflush : ∀ (ids : List Nat) (s : Endpoint),
      Along step (fun _ s => s.isMarkClosed = false) s (ids.map .flushStream) := by
    intro ids
    induction ids with
    | nil => exact fun _ => trivial
    | cons id ids ih => exact fun s => ⟨rfl, ih _⟩
  cases c with
  | onReadable id backpressured =>
      simp only [steps]
      split
      · trivial
      · refine ⟨rfl, ?_⟩
        split
        · exact hreads _ _ _ _
        · trivial
  | flush order =>
      simp only [steps]
      exact along_append.mpr ⟨⟨rfl, rfl, rfl, rfl, rfl, trivial⟩,
        along_append.mpr ⟨hflush _ _, ⟨rfl, rfl, rfl, rfl, trivial⟩⟩⟩
  | markClosed => cases hc
  | _ => exact ⟨rfl, trivial⟩

/-- What holds of every session a driver runs. -/
def Driveable (e : Endpoint) : Prop := (e.Layout ∧ e.OwnClose) ∧ e.Gated ∧ e.Admitted

/-- A call ends a ready session behind an error, or the peer has concluded it. -/
theorem call_ending {e : Endpoint} (h : e.Driveable) {c : Call} (hc : e.Admissible c)
    (hmark : c.isMarkClosed = false)
    (hclean : Along step ReadsNoReset e (e.steps c)) : Ending e (e.call c) := by
  rw [call_eq]
  refine (execute_invariant (I := fun s => (s.Layout ∧ s.Gated ∧ s.Admitted) ∧ Ending e s)
    (P := fun s op => s.StepAdmissible op ∧
      op.isMarkClosed = false ∧ s.ReadsNoReset op)
    (fun s op hI hs => ⟨⟨hI.1.1.step hs.1, admitted_whole.step hI.1.1 hs.1 hI.1.2⟩,
      hI.2.trans (step_ending hI.1.1 hI.1.2.1 hI.1.2.2 hs.1 hs.2.1 hs.2.2)⟩)
    ⟨⟨h.1.1, h.2⟩, .refl e⟩ ?_).2
  exact along_and (steps_admissible hc) (along_and (steps_not_markClosed e hmark) hclean)

theorem Driveable.drive {e : Endpoint} (h : e.Driveable) {d : Driven} (hd : e.Drives d) :
    (e.drive d).Driveable := by
  cases d with
  | call c =>
      exact ⟨OwnClose.call h.1 hd.1, (admitted_whole.call ⟨h.1.1, h.2⟩ hd.1).2⟩
  | finish how =>
      have hwhole := admitted_whole.endSession ⟨h.1.1, h.2⟩ how
      refine ⟨⟨hwhole.1, ?_⟩, hwhole.2⟩
      show (e.endSession how).OwnClose
      unfold endSession
      split
      · exact h.1.2
      · split
        · exact h.1.2.leaves (.markClosed _ _ _ _)
        · simp only
          refine h.1.2.leaves (.trans ?_ (.markClosed _ _ _ _))
          cases (closureInfo e.conn how).2.2.2 <;> exact ⟨rfl, rfl, rfl, rfl, fun h => h⟩

/-- The terminal branch ends a session cleanly exactly when nothing was disguised. -/
theorem endSession_clean {e : Endpoint} (h : e.Driveable) (how : Closure)
    (hclean : e.NoDisguise (.finish how)) : e.ClosesClean (.finish how) := by
  intro before code reason remote after heq hready
  have heq : (e.endSession how).ev = e.ev ++ before ++ .closed code reason remote :: after := heq
  unfold endSession at heq
  split at heq
  next hclosed =>
    have hlen := congrArg List.length heq
    simp only [List.length_append, List.length_cons] at hlen
    omega
  next hopen =>
    have hopen : e.closed = false := by simpa using hopen
    split at heq
    next info hinfo =>
      refine .inr (.inl ?_)
      cases hreq : e.closeReq with
      | none => simp [localCloseInfo, hreq] at hinfo
      | some req => rfl
    next hinfo =>
      have hnone : e.closeReq = none := by
        cases hreq : e.closeReq with
        | none => rfl
        | some req => simp [localCloseInfo, hreq] at hinfo
      simp only at heq
      cases hmessage : (closureInfo e.conn how).2.2.2 with
      | some message =>
          rw [hmessage, emitError, markClosed_ev (by exact hopen)] at heq
          simp only [emit, List.append_assoc, List.append_cancel_left_eq] at heq
          refine .inl ⟨.error message, List.mem_append_right _ ?_, rfl⟩
          cases before with
          | nil => simp at heq
          | cons v before => simp [(List.cons.inj heq).1]
      | none =>
          rw [hmessage, emitError, markClosed_ev hopen] at heq
          simp only [List.append_assoc, List.append_cancel_left_eq] at heq
          have hbefore : before = [] := by
            cases before with
            | nil => rfl
            | cons v before => simp at heq
          subst hbefore
          have hr : e.ready = true := by
            cases hr : e.ready with
            | true => rfl
            | false =>
                obtain ⟨v, hv, hvr⟩ := hready
                simp [(h.2.1.waiting hr).1 v (by simpa using hv)] at hvr
          unfold closureInfo at hmessage
          split at hmessage
          next err herr =>
            split_ifs at hmessage with happ
            exact .inr (.inr ⟨err, herr, happ, hclean hopen hr (by simp [hnone]) err herr happ⟩)
          next hpeer =>
            split at hmessage
            next err herr =>
              split_ifs at hmessage with happ
              rcases h.1.2.issued err herr happ with hc | hc
              · simp [hopen] at hc
              · simp [hnone] at hc
            · split_ifs at hmessage

/-- Behind a step that disguises nothing, a session that ended without an error
was concluded. -/
theorem drive_clean {e : Endpoint} (h : e.Driveable) {d : Driven} (hd : e.Drives d)
    (hclean : e.NoDisguise d) : e.ClosesClean d := by
  cases d with
  | finish how => exact endSession_clean h how hclean
  | call c =>
      obtain ⟨l, hl, hends⟩ := (call_ending h hd.1 hd.2 hclean).ev
      intro before code reason remote after heq hready
      have hsame : e.ev ++ l = e.ev ++ (before ++ .closed code reason remote :: after) :=
        hl.symm.trans (by simpa [drive] using heq)
      have hsplit := List.append_cancel_left hsame
      refine (hends before code reason remote after hsplit hready).imp_left ?_
      rintro ⟨v, hv, herr⟩
      exact ⟨v, List.mem_append_right _ hv, herr⟩

theorem Start.driveable {e : Endpoint} (h : Start e) : e.Driveable := by
  refine ⟨⟨h.layout, ?_⟩, h.gated, ?_⟩
  · cases h with
    | client authority path origin extraHeaders protocols conn heap hfresh
    | server remote supportedProtocols allowedOrigins responseHeaders parent conn heap hfresh =>
        refine ⟨fun h => (by cases h), fun h => (by cases h), fun err herr _ => ?_⟩
        exact absurd (hfresh.2.2.symm.trans herr) (by simp)
  · cases h <;> exact fun _ h => (by cases h)

/-- As long as nothing is disguised, every ready session that ends without an
error was concluded by the application or by the peer. -/
theorem closes_clean {e : Endpoint} (hstart : Start e) {steps : List Driven}
    (hrun : Along drive (fun e d => e.Drives d ∧ e.NoDisguise d) e steps) :
    Along drive ClosesClean e steps :=
  along_imp (I := Driveable) (fun _ _ hI hd => ⟨drive_clean hI hd.1 hd.2, hI.drive hd.1⟩)
    hstart.driveable hrun

/-- A handshake, and the graceful close of the peer. -/
def closedHandshake : List Driven :=
  serverHandshake.map .call ++ [.finish ⟨some ⟨true, H3.h3NoError, []⟩, false⟩]

/-- A handshake, and a RESET of the session stream. -/
def resetHandshake : List Driven :=
  clientHandshake.map .call ++ [.call (.network (.reset 0 7 100))]

omit [H3.Codec] in
theorem closedHandshake_undisguised :
    letI := H3.Codec.plain
    Along drive NoDisguise sampleServer closedHandshake := by decide +kernel

omit [H3.Codec] in
theorem closes_clean_sample :
    letI := H3.Codec.plain
    Along drive ClosesClean sampleServer closedHandshake ∧
      (execute drive sampleServer closedHandshake).closed = true :=
  letI := H3.Codec.plain
  ⟨closes_clean sampleServer_start (along_and (by decide +kernel) closedHandshake_undisguised),
    by decide +kernel⟩

omit [H3.Codec] in
/-- The session of the client ends, and nothing tells that it was reset. -/
theorem not_closes_clean :
    letI := H3.Codec.plain
    Start sampleClient ∧ Along drive Drives sampleClient (resetHandshake ++ [.call (.onReadable 0 false)]) ∧
      ¬Along drive ClosesClean sampleClient (resetHandshake ++ [.call (.onReadable 0 false)]) := by
  let _ := H3.Codec.plain
  refine ⟨sampleClient_start, by decide +kernel, fun h => ?_⟩
  have hlast := (along_append.mp h).2.1
  have hev : ((execute drive sampleClient resetHandshake).drive (.call (.onReadable 0 false))).ev =
      (execute drive sampleClient resetHandshake).ev ++ [] ++ [.closed 7 [] true] := by
    decide +kernel
  have hready : ∃ v ∈ (execute drive sampleClient resetHandshake).ev ++ [], v.isReady = true := by
    decide +kernel
  have herror : ¬∃ v ∈ (execute drive sampleClient resetHandshake).ev ++ [], v.isError = true := by
    decide +kernel
  have hend : ¬((execute drive sampleClient resetHandshake).call (.onReadable 0 false)).Concluded := by
    decide +kernel
  generalize execute drive sampleClient resetHandshake = e at hlast hev hready herror hend
  exact (hlast [] 7 [] true [] hev hready).elim herror hend

end Endpoint

end RWebTransport
