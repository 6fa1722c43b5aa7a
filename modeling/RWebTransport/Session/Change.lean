import RWebTransport.Session.Layout
import RWebTransport.Session.Sending

/-!
# The session as a whole

Only reading a stream, the setup of the session and the driver's `mark_closed`
change the flags of a session.  Every other step is `Quiet`: it may append to
the events and to the history what the send side writes there.
-/

namespace RWebTransport

/-- The events of the send side, and of datagrams. -/
def Ev.isQuiet : Ev → Bool
  | .streamOpened _ _ | .writeAck _ | .streamStopSending _ _ | .datagram _ | .datagramAck _ _ => true
  | _ => false

/-- The history of the send side. -/
def Trace.isQuiet : Trace → Bool
  | .written _ _ _ | .streamReset _ | .dropped _ _ | .acked _ _ | .closeQueued | .accepted _ _ | .returned _ _ => true
  | _ => false

namespace Endpoint

/-- Whether there is a CONNECT stream, and whether its first HEADERS frame was taken. -/
def connectDone (e : Endpoint) : Option Bool := (e.streams.get connectId).map Stream.headersDone

theorem connectDone_modify {e e' : Endpoint} (id : Nat) {f : Stream → Stream}
    (h : e'.streams = e.streams.modify id f) (hf : ∀ st, (f st).headersDone = st.headersDone) :
    e'.connectDone = e.connectDone := by
  rw [connectDone, connectDone, h, Table.get_modify]
  split
  · cases e.streams.get connectId with
    | none => rfl
    | some st => simp [hf]
  · rfl

/-- No flag of the session has changed. -/
structure Quiet (e e' : Endpoint) : Prop where
  cfg : e'.cfg = e.cfg
  closed : e'.closed = e.closed
  ready : e'.ready = e.ready
  peerSettings : e'.peerSettings = e.peerSettings
  setup : e'.setupSent = e.setupSent ∧ e'.connectPending = e.connectPending ∧
    e'.drainEmitted = e.drainEmitted
  connect : e'.connectDone = e.connectDone
  ev : ∃ l, e'.ev = e.ev ++ l ∧ ∀ v ∈ l, v.isQuiet = true
  history : ∃ l, e'.history = e.history ++ l ∧ ∀ t ∈ l, t.isQuiet = true

namespace Quiet

theorem trans {a b c : Endpoint} (hab : Quiet a b) (hbc : Quiet b c) : Quiet a c where
  cfg := hbc.cfg.trans hab.cfg
  closed := hbc.closed.trans hab.closed
  ready := hbc.ready.trans hab.ready
  peerSettings := hbc.peerSettings.trans hab.peerSettings
  setup := ⟨hbc.setup.1.trans hab.setup.1, hbc.setup.2.1.trans hab.setup.2.1,
    hbc.setup.2.2.trans hab.setup.2.2⟩
  connect := hbc.connect.trans hab.connect
  ev := by
    obtain ⟨l, hl, hlm⟩ := hab.ev
    obtain ⟨m, hm, hmm⟩ := hbc.ev
    exact ⟨l ++ m, by rw [hm, hl, List.append_assoc], List.forall_mem_append.mpr ⟨hlm, hmm⟩⟩
  history := by
    obtain ⟨l, hl, hlm⟩ := hab.history
    obtain ⟨m, hm, hmm⟩ := hbc.history
    exact ⟨l ++ m, by rw [hm, hl, List.append_assoc], List.forall_mem_append.mpr ⟨hlm, hmm⟩⟩

/-- Only fields that concern no flag have changed. -/
theorem of_eq {e e' : Endpoint} (hcfg : e'.cfg = e.cfg) (hclosed : e'.closed = e.closed)
    (hready : e'.ready = e.ready) (hsettings : e'.peerSettings = e.peerSettings)
    (hsetup : e'.setupSent = e.setupSent ∧ e'.connectPending = e.connectPending ∧
      e'.drainEmitted = e.drainEmitted) (hev : e'.ev = e.ev) (hhistory : e'.history = e.history)
    (hconnect : e'.connectDone = e.connectDone := by rfl) : Quiet e e' :=
  ⟨hcfg, hclosed, hready, hsettings, hsetup, hconnect, ⟨[], by simp [hev]⟩,
    ⟨[], by simp [hhistory]⟩⟩

theorem refl (e : Endpoint) : Quiet e e := of_eq rfl rfl rfl rfl ⟨rfl, rfl, rfl⟩ rfl rfl

/-- One entry has changed. -/
theorem modifyStream (e : Endpoint) (id : Nat) {f : Stream → Stream}
    (hf : ∀ st, (f st).headersDone = st.headersDone) : Quiet e (e.modifyStream id f) :=
  of_eq rfl rfl rfl rfl ⟨rfl, rfl, rfl⟩ rfl rfl (connectDone_modify id rfl hf)

/-- Something was appended to the events and to the history. -/
theorem append {e e' : Endpoint} (evs : List Ev) (ts : List Trace) (hcfg : e'.cfg = e.cfg)
    (hclosed : e'.closed = e.closed) (hready : e'.ready = e.ready)
    (hsettings : e'.peerSettings = e.peerSettings)
    (hsetup : e'.setupSent = e.setupSent ∧ e'.connectPending = e.connectPending ∧
      e'.drainEmitted = e.drainEmitted) (hev : e'.ev = e.ev ++ evs)
    (hhistory : e'.history = e.history ++ ts) (hevs : ∀ v ∈ evs, v.isQuiet = true)
    (hts : ∀ t ∈ ts, t.isQuiet = true) (hconnect : e'.connectDone = e.connectDone := by rfl) :
    Quiet e e' :=
  ⟨hcfg, hclosed, hready, hsettings, hsetup, hconnect, ⟨evs, hev, hevs⟩, ⟨ts, hhistory, hts⟩⟩

theorem headersDone_of_queued {st st' : Stream} (h : Queued st st') :
    st'.headersDone = st.headersDone := by
  induction h with
  | refl => rfl
  | push _ _ ih | finish _ _ ih => exact ih

theorem of_aside {e e' : Endpoint} (h : Aside e e') : Quiet e e' := by
  have hconnect : e'.connectDone = e.connectDone := by
    unfold connectDone
    cases hst' : e'.streams.get connectId with
    | some st' =>
        obtain ⟨st, hst, hq⟩ := h.connect st' hst'
        simp [hst, headersDone_of_queued hq]
    | none =>
        cases hst : e.streams.get connectId with
        | none => rfl
        | some st =>
            have hkey : connectId ∈ e'.streams.keys := h.keys ▸ Table.mem_keys_of_get hst
            obtain ⟨st', hst''⟩ := Table.exists_get_of_mem_keys hkey
            simp [hst'] at hst''
  obtain ⟨l, hl, hlm⟩ := h.ev
  obtain ⟨m, hm, hmm⟩ := h.history
  refine ⟨h.cfg, h.closed, h.ready, h.peerSettings, h.setup, hconnect, ⟨l, hl, fun v hv => ?_⟩,
    ⟨m, hm, fun t ht => by rw [hmm t ht]; rfl⟩⟩
  have hd := hlm v hv
  cases v <;> simp_all [Ev.isDatagram, Ev.isQuiet]

theorem ackOf_quiet (c : OutChunk) : ∀ v ∈ ackOf c, v.isQuiet = true := by
  unfold ackOf
  cases c.requestId with
  | none => simp
  | some r => simp [Ev.isQuiet]

theorem ackTrace_quiet (id : Nat) (c : OutChunk) : ∀ t ∈ ackTrace id c, t.isQuiet = true := by
  unfold ackTrace
  cases c.requestId with
  | none => simp
  | some r => simp [Trace.isQuiet]

theorem of_sending {id : Nat} {e e' : Endpoint} (h : Sending id e e') : Quiet e e' := by
  cases h with
  | returned =>
      exact append [] [_] rfl rfl rfl rfl ⟨rfl, rfl, rfl⟩ (List.append_nil _).symm rfl (by simp)
        (by simp [Trace.isQuiet]) (connectDone_modify id rfl fun _ => rfl)
  | refused => exact of_eq rfl rfl rfl rfl ⟨rfl, rfl, rfl⟩ rfl rfl
  | sent =>
      refine append _ _ rfl rfl rfl rfl ⟨rfl, rfl, rfl⟩ rfl rfl (fun v hv => ?_) (fun t ht => ?_)
        (connectDone_modify id rfl fun _ => rfl)
      · split at hv
        · exact ackOf_quiet _ v hv
        · cases hv
      · rcases List.mem_append.mp ht with ht | ht
        · split at ht
          · rw [List.mem_singleton.mp ht]
            rfl
          · cases ht
        · split at ht
          · exact ackTrace_quiet _ _ t ht
          · cases ht
  | stopped =>
      refine append _ _ rfl rfl rfl rfl ⟨rfl, rfl, rfl⟩ rfl rfl (fun v hv => ?_) (fun t ht => ?_)
        (connectDone_modify id rfl fun _ => rfl)
      · rcases List.mem_cons.mp hv with rfl | hv
        · rfl
        · obtain ⟨c, -, hc⟩ := List.mem_flatMap.mp hv
          exact ackOf_quiet c v hc
      · obtain ⟨c, -, hc⟩ := List.mem_flatMap.mp ht
        exact ackTrace_quiet _ c t hc
  | fin =>
      exact of_eq rfl rfl rfl rfl ⟨rfl, rfl, rfl⟩ rfl rfl (connectDone_modify id rfl fun _ => rfl)

theorem flushStream (e : Endpoint) (id : Nat) : Quiet e (e.flushStream id) :=
  flushStream_invariant (I := Quiet e) (fun _ _ hs h => h.trans (of_sending hs)) (refl e)

theorem reconcileSendFinalSize (e : Endpoint) (id : Nat) : Quiet e (e.reconcileSendFinalSize id) := by
  rcases reconcileSendFinalSize_sending e id with h | h
  · rw [h]
    exact refl e
  · exact of_sending h

theorem dropQueue (e : Endpoint) (id : Nat) : Quiet e (e.dropQueue id) := by
  unfold Endpoint.dropQueue
  split
  · exact refl e
  · refine append [] _ rfl rfl rfl rfl ⟨rfl, rfl, rfl⟩ (List.append_nil _).symm rfl (by simp)
      (fun t ht => ?_) (connectDone_modify id rfl fun _ => rfl)
    obtain ⟨r, -, rfl⟩ := List.mem_map.mp ht
    rfl

theorem allocateStream {e : Endpoint} (hl : e.Layout) (bidi : Bool) (requestId : Nat) :
    Quiet e (e.allocateStream bidi requestId) := by
  obtain ⟨k, hk⟩ := hl.next bidi
  have hne : connectId ≠ e.nextId bidi := hk ▸ (ownId_ne_connectId _ _ _).symm
  cases bidi
  all_goals
    refine append [_] [] rfl rfl rfl rfl ⟨rfl, rfl, rfl⟩ rfl (List.append_nil _).symm
      (by simp [Ev.isQuiet]) (by simp) ?_
    exact congrArg (Option.map Stream.headersDone) (Table.get_insert_ne hne)

theorem releasePendingOpens {e : Endpoint} (hl : e.Layout) : Quiet e e.releasePendingOpens :=
  (releasePendingOpens_invariant (I := fun s => s.Layout ∧ Quiet e s)
    (fun _ _ h => ⟨h.1.same (.session rfl rfl rfl rfl rfl rfl rfl rfl rfl),
      h.2.trans (of_eq rfl rfl rfl rfl ⟨rfl, rfl, rfl⟩ rfl rfl)⟩)
    (fun _ bidi requestId _ _ _ h => ⟨h.1.allocateStream bidi requestId,
      h.2.trans (allocateStream h.1 bidi requestId)⟩) ⟨hl, refl e⟩).2

theorem streamWrite (e : Endpoint) (id : Nat) (data : Bytes) (requestId : Nat) :
    Quiet e (e.streamWrite id data requestId) := by
  unfold Endpoint.streamWrite
  simp only
  split
  · exact append [] [_] rfl rfl rfl rfl ⟨rfl, rfl, rfl⟩ (List.append_nil _).symm rfl (by simp)
      (by simp [Trace.isQuiet]) (connectDone_modify id rfl fun _ => rfl)
  · exact append [_] [.written id data requestId, .acked id requestId] rfl rfl rfl rfl
      ⟨rfl, rfl, rfl⟩ rfl (by simp [log, emit]) (by simp [Ev.isQuiet]) (by simp [Trace.isQuiet])

theorem streamReset (e : Endpoint) (id code : Nat) : Quiet e (e.streamReset id code) := by
  unfold Endpoint.streamReset
  split
  · simp only
    generalize e.conn.streamShutdownWrite id (H3.webtransportCodeToHttpCode code) = c
    have hconn : Quiet e { e.log (.streamReset id) with conn := c } :=
      append [] [_] rfl rfl rfl rfl ⟨rfl, rfl, rfl⟩ (List.append_nil _).symm rfl (by simp)
        (by simp [Trace.isQuiet]) rfl
    exact ((hconn.trans (reconcileSendFinalSize _ id)).trans (dropQueue _ id)).trans
      (modifyStream _ id fun _ => rfl)
  · exact refl e

theorem streamStopSending (e : Endpoint) (id code : Nat) : Quiet e (e.streamStopSending id code) := by
  unfold Endpoint.streamStopSending
  split
  · exact .trans (b := e.shutdownRead id (H3.webtransportCodeToHttpCode code))
      (of_eq rfl rfl rfl rfl ⟨rfl, rfl, rfl⟩ rfl rfl) (modifyStream _ id fun _ => rfl)
  · exact refl e

/-- The session meets a stream that is not the CONNECT stream. -/
theorem touch {e : Endpoint} {id : Nat}
    (h : id ≠ connectId ∨ e.streams.get connectId ≠ none) : Quiet e (e.touch id) := by
  unfold Endpoint.touch
  split
  · exact refl e
  next hnone =>
    refine of_eq rfl rfl rfl rfl ⟨rfl, rfl, rfl⟩ rfl rfl ?_
    have hne : connectId ≠ id := by
      rintro rfl
      rcases h with h | h
      · exact h rfl
      · exact h (by simpa [Table.contains] using hnone)
    exact congrArg (Option.map Stream.headersDone) (Table.get_insert_ne hne)

theorem prune (e : Endpoint) : Quiet e e.prune := by
  refine of_eq rfl rfl rfl rfl ⟨rfl, rfl, rfl⟩ rfl rfl ?_
  simp only [connectDone, Endpoint.prune, Table.get_filter]
  cases e.streams.get connectId with
  | none => rfl
  | some st => simp [retains]

end Quiet

/-- The setup of the session, apart from the streams. -/
theorem onEstablished_spec (e : Endpoint) : e.onEstablished = e ∨
    e.setupSent = false ∧ e.onEstablished.setupSent = true ∧
      e.onEstablished.connectPending = (e.connectPending || !e.cfg.isServer) ∧
      e.onEstablished.cfg = e.cfg ∧ e.onEstablished.closed = e.closed ∧
      e.onEstablished.ready = e.ready ∧ e.onEstablished.peerSettings = e.peerSettings ∧
      e.onEstablished.drainEmitted = e.drainEmitted ∧ e.onEstablished.ev = e.ev ∧
      e.onEstablished.history = e.history ∧ e.onEstablished.connectDone = e.connectDone := by
  unfold onEstablished
  split
  · exact .inl rfl
  next h =>
    refine .inr ⟨by simpa using h, ?_⟩
    simp only
    generalize he4 : ((({ e with setupSent := true } : Endpoint).insertLocal _ _).insertLocal _ _).insertLocal
      (qpackDecId e.cfg.isServer) (H3.putVarint H3.qpackDecoderStreamType) = e4
    have hsame : e4.cfg = e.cfg ∧ e4.closed = e.closed ∧ e4.ready = e.ready ∧
        e4.peerSettings = e.peerSettings ∧ e4.setupSent = true ∧
        e4.connectPending = e.connectPending ∧ e4.drainEmitted = e.drainEmitted ∧ e4.ev = e.ev ∧
        e4.history = e.history ∧ e4.connectDone = e.connectDone := by
      subst he4
      refine ⟨rfl, rfl, rfl, rfl, rfl, rfl, rfl, rfl, rfl, ?_⟩
      have hne : ∀ isServer, connectId ≠ controlId isServer ∧ connectId ≠ qpackEncId isServer ∧
          connectId ≠ qpackDecId isServer := by decide
      obtain ⟨h1, h2, h3⟩ := hne e.cfg.isServer
      exact congrArg (Option.map Stream.headersDone) ((Table.get_insert_ne h3).trans
        ((Table.get_insert_ne h2).trans (Table.get_insert_ne h1)))
    obtain ⟨hcfg, hclosed, hready, hsettings, hsetup, hpending, hdrain, hev, hhistory, hdone⟩ := hsame
    cases hs : e4.cfg.isServer with
    | true =>
        rw [if_pos rfl]
        exact ⟨hsetup, by simp [hpending, ← hcfg, hs], hcfg, hclosed, hready, hsettings, hdrain, hev,
          hhistory, hdone⟩
    | false =>
        rw [if_neg (by simp)]
        exact ⟨hsetup, by simp [← hcfg, hs], hcfg, hclosed, hready, hsettings, hdrain, hev,
          hhistory, hdone⟩

/-- The steps that are not quiet as such. -/
def Step.isLoud : Step → Bool
  | .onEstablished | .touch _ | .read _ _ | .markClosed _ _ _ => true
  | _ => false

section

variable [H3.Codec]

/-- Every other step is. -/
theorem step_quiet {e : Endpoint} (hl : e.Layout) {s : Step} (hs : Step.isLoud s = false) :
    Quiet e (e.step s) := by
  cases s with
  | onEstablished | touch | read | markClosed => cases hs
  | onDatagrams => exact .of_aside (.onDatagrams e)
  | sendDatagram data requestId => exact .of_aside (.sendDatagram e data requestId)
  | openStream bidi requestId =>
      exact .trans (b := { e with pendingOpens := e.pendingOpens ++ [(bidi, requestId)] })
        (.of_eq rfl rfl rfl rfl ⟨rfl, rfl, rfl⟩ rfl rfl)
        (.releasePendingOpens (hl.same (.session rfl rfl rfl rfl rfl rfl rfl rfl rfl)))
  | streamWrite id data requestId => exact .streamWrite e id data requestId
  | streamFin id | setPaused id => exact .modifyStream e id fun _ => rfl
  | commitSent | network => exact .of_eq rfl rfl rfl rfl ⟨rfl, rfl, rfl⟩ rfl rfl
  | prune => exact .prune e
  | streamReset id code => exact .streamReset e id code
  | streamStopSending id code => exact .streamStopSending e id code
  | close code reason => exact .of_aside (.close e code reason)
  | sendDrain => exact .of_aside (.sendDrain e)
  | takeTerminalError => exact .of_aside (.takeTerminalError e)
  | grantCredit => exact .of_aside (.grantCredit e)
  | replenish => exact .of_aside (.replenish e)
  | queueClose => exact .of_aside (.queueClose e)
  | releasePendingOpens => exact .releasePendingOpens hl
  | flushStream id => exact .flushStream e id
  | signalFlowControlBlocked => exact .of_aside (.signalFlowControlBlocked e)
  | gracefulClose => exact .of_aside (.gracefulClose e)

/-- The session of a server meets the CONNECT stream. -/
def meetConnect (e : Endpoint) : Endpoint :=
  e.insertStream connectId (.new .connect e.parserMemory)

omit [H3.Codec] in
theorem touch_cases {e : Endpoint} (hl : e.Layout) {id : Nat} (hr : e.conn.readable id = true) :
    Quiet e (e.touch id) ∨ e.cfg.isServer = true ∧ e.streams.get connectId = none ∧
      e.touch id = e.meetConnect := by
  by_cases h : id ≠ connectId ∨ e.streams.get connectId ≠ none
  · exact .inl (.touch h)
  · simp only [not_or, ne_eq, Decidable.not_not] at h
    obtain ⟨rfl, hnone⟩ := h
    have hserver : e.cfg.isServer = true := by
      cases hs : e.cfg.isServer with
      | true => rfl
      | false =>
          have hlive := Quic.Connection.readable_live hr
          exact absurd (roleOf_eq_none.mpr hnone) (hl.connect_known hs (by simp [hlive]))
    refine .inr ⟨hserver, hnone, ?_⟩
    have hno : e.streams.contains connectId = false := by simp [Table.contains, hnone]
    rw [Endpoint.touch, hno]
    simp [meetConnect, classifyNew, hserver, connectId]

/-- A property of the session as a whole: every effect of reading, the setup,
the CONNECT stream of a server, the driver's `mark_closed` and every quiet step
preserve it. -/
structure Whole (I : Endpoint → Prop) : Prop where
  effect : ∀ {r e e'}, Effect r e e' → e.Layout → I e → I e'
  quiet : ∀ {e e'}, Quiet e e' → I e → I e'
  setup : ∀ e : Endpoint, I e → I e.onEstablished
  meet : ∀ e : Endpoint, e.cfg.isServer = true → e.streams.get connectId = none → I e →
    I e.meetConnect
  close : ∀ (e : Endpoint) code reason remote, I e → I (e.markClosed code reason remote)

namespace Whole

variable {I : Endpoint → Prop}

theorem step (h : Whole I) {e : Endpoint} {s : Step} (hl : e.Layout) (hs : e.StepAdmissible s)
    (he : I e) : I (e.step s) := by
  cases hloud : Step.isLoud s with
  | false => exact h.quiet (step_quiet hl hloud) he
  | true =>
      cases s with
      | onEstablished => exact h.setup e he
      | touch id =>
          rcases touch_cases hl hs.2 with hq | ⟨hserver, hnone, heq⟩
          · exact h.quiet hq he
          · exact (congrArg I heq).mpr (h.meet e hserver hnone he)
      | markClosed code reason remote => exact h.close e code reason remote he
      | read id backpressured =>
          rcases readStep_effects (hl.readable hs) hl.wellFormed (hl.alive_of_readable hs id)
            backpressured with heq | ⟨cap, heff⟩
          · simpa [Endpoint.step, heq] using he
          · have hspec := Quic.Connection.streamRecv_spec e.conn id cap
            have hl0 : Layout { e with conn := (e.conn.streamRecv id cap).2 } :=
              hl.same (.conn e hspec.isServer hspec.wellFormed hspec.phase fun hwf _ =>
                hspec.exhausted hwf)
            have hI0 : I { e with conn := (e.conn.streamRecv id cap).2 } :=
              h.quiet (e := e) (.of_eq rfl rfl rfl rfl ⟨rfl, rfl, rfl⟩ rfl rfl) he
            exact (heff.invariant (I := fun e => e.Layout ∧ I e)
              (fun _ _ hs hI => ⟨hs.layout hI.1, h.effect hs hI.1 hI.2⟩) ⟨hl0, hI0⟩).2
      | _ => cases hloud

/-- A property of the session as a whole is kept by a call. -/
theorem call (h : Whole I) {e : Endpoint} {c : Call} (he : e.Layout ∧ I e) (hc : e.Admissible c) :
    (e.call c).Layout ∧ I (e.call c) :=
  call_invariant (P := fun _ _ => True) (I := fun e => e.Layout ∧ I e)
    (fun _ _ hI hs _ => ⟨hI.1.step hs, h.step hI.1 hs hI.2⟩) he (meets_true hc)

/-- A property of the session as a whole holds along runs. -/
theorem run (h : Whole I) {e : Endpoint} {calls : List Call} (he : e.Layout ∧ I e)
    (hrun : Along Endpoint.call Admissible e calls) :
    (execute Endpoint.call e calls).Layout ∧ I (execute Endpoint.call e calls) :=
  execute_invariant (I := fun e => e.Layout ∧ I e) (fun _ _ hI hc => h.call hI hc) he hrun

/-- What belongs to reading may also happen outside of it. -/
theorem effects (h : Whole I) {r : Nat} {e e' : Endpoint} (heff : Effect r e e')
    (he : e.Layout ∧ I e) : e'.Layout ∧ I e' :=
  ⟨heff.layout he.1, h.effect heff he.1 he.2⟩

theorem markClosed (h : Whole I) {e : Endpoint} (code : Nat) (reason : Bytes) (remote : Bool)
    (he : e.Layout ∧ I e) :
    (e.markClosed code reason remote).Layout ∧ I (e.markClosed code reason remote) :=
  ⟨he.1.same (.markClosed e code reason remote), h.close e code reason remote he.2⟩

/-- The driver closes the connection. -/
theorem closeConn (h : Whole I) {e : Endpoint} (code : Nat) (reason : Bytes) (he : e.Layout ∧ I e) :
    (e.closeConn code reason).Layout ∧ I (e.closeConn code reason) :=
  ⟨he.1.same (.closeConn e code reason),
    h.quiet (e := e) (.of_eq rfl rfl rfl rfl ⟨rfl, rfl, rfl⟩ rfl rfl) he.2⟩

end Whole

end

end Endpoint

end RWebTransport
