import RWebTransport.QuicUses
import RWebTransport.Session.Outgoing

/-!
# Two sessions over one connection

The two ends of a connection take turns in any order: a session is called by its
application and its driver, or what quiche accepted of a stream at one end
arrives at the other, in pieces of any length and at any time.  In every such
run the application at one end is told of a stream, in order and without a gap,
what the application at the other end wrote on it, and that the stream is
finished only behind all of it.
-/

namespace RWebTransport

open Quic (NetEvent Drawn Poured)
open Quic.Connection (Uses Use)

/-- The bytes an event hands to the application. -/
def Ev.data : Ev → Bytes
  | .streamData _ data => data
  | _ => []

namespace Endpoint

open Quic (RecvBuf isBidi isLocal)

/-- The data of a stream that the application was told. -/
def receivedOn (e : Endpoint) (i : Nat) : Bytes := (e.toldOf i).flatMap Ev.data

/-- How much of a stream has arrived. -/
def arrived (e : Endpoint) (i : Nat) : Nat :=
  (e.conn.streams i).recv.off + (e.conn.streams i).recv.data.length

/-- What was put into packets of a stream and has not arrived. -/
def inFlight (sender receiver : Endpoint) (i : Nat) : Bytes :=
  ((sender.conn.streams i).send.data.take (sender.conn.streams i).send.emitOff).drop (receiver.arrived i)

/-! ## What was told is what was read -/

section

variable {own : Bool} {i : Nat} {r : RecvBuf} {l : List Ev}

theorem data_opening (own : Bool) (i : Nat) : (opening own i).flatMap Ev.data = [] := by
  cases own <;> rfl

theorem data_chunks (i : Nat) (chunks : List Bytes) :
    (chunks.map (Ev.streamData i)).flatMap Ev.data = chunks.flatten := by
  rw [List.flatMap_map]
  exact List.flatMap_id

theorem Closing.data {last : List Ev} (h : Closing i r last) : last.flatMap Ev.data = [] := by
  cases h <;> rfl

theorem ToldAll.data (h : ToldAll own i r l) :
    ∃ start, dataStart own (isBidi i) r.got = some start ∧ l.flatMap Ev.data = r.got.drop start := by
  obtain ⟨start, chunks, last, hstart, -, hflat, hlast, rfl⟩ := h
  refine ⟨start, hstart, ?_⟩
  rw [List.flatMap_append, List.flatMap_append, data_opening, data_chunks, hlast.data, hflat]
  simp

theorem Transcript.data (h : Transcript own i r l) : l.flatMap Ev.data = [] ∨
    ∃ start, dataStart own (isBidi i) r.got = some start ∧ l.flatMap Ev.data <+: r.got.drop start := by
  cases h with
  | silent hl => exact .inl (by rw [hl]; rfl)
  | told htold =>
      obtain ⟨start, hstart, hdata⟩ := htold.data
      exact .inr ⟨start, hstart, hdata ▸ List.prefix_rfl⟩
  | cut hstart _ hspelled hl =>
      refine .inr ⟨_, hstart, ?_⟩
      rw [hl, List.flatMap_append, data_opening, data_chunks, List.nil_append]
      exact hspelled

/-- A stream is told to be finished behind all that was read. -/
theorem Transcript.finished (h : Transcript own i r l) (hfin : .streamFinished i ∈ l) :
    ToldAll own i r l ∧ r.finOff = some r.got.length := by
  have hopening : Ev.streamFinished i ∉ opening own i := by cases own <;> simp [opening]
  cases h with
  | silent hl => simp [hl] at hfin
  | told htold =>
      refine ⟨htold, ?_⟩
      obtain ⟨start, chunks, last, -, -, -, hlast, rfl⟩ := htold
      cases hlast with
      | unfinished | reset => simp [hopening] at hfin
      | finished _ hfinal => exact hfinal
  | cut _ _ _ hl => simp [hl, hopening] at hfin

/-- A reset that is told was read. -/
theorem Transcript.reset (h : Transcript own i r l) {told : Nat} (hreset : .streamReset i told ∈ l) :
    ∃ code, r.error = some code ∧ told = resetCode code := by
  have hopening : Ev.streamReset i told ∉ opening own i := by cases own <;> simp [opening]
  cases h with
  | silent hl => simp [hl] at hreset
  | told htold =>
      obtain ⟨start, chunks, last, -, -, -, hlast, rfl⟩ := htold
      cases hlast with
      | unfinished | finished => simp [hopening] at hreset
      | reset _ herr => exact ⟨_, herr, by simpa [hopening] using hreset⟩
  | cut _ _ _ hl => simp [hl, hopening] at hreset

/-- Only a stream of the peer is told to come in, and with its own direction. -/
theorem Transcript.incoming (h : Transcript own i r l) {bidi : Bool} (hin : .incomingStream i bidi ∈ l) :
    own = false ∧ bidi = isBidi i := by
  have hopening : Ev.incomingStream i bidi ∈ opening own i → own = false ∧ bidi = isBidi i := by
    cases own <;> simp [opening]
  cases h with
  | silent hl => simp [hl] at hin
  | told htold =>
      obtain ⟨start, chunks, last, -, -, -, hlast, rfl⟩ := htold
      refine hopening ?_
      cases hlast <;> simpa using hin
  | cut _ _ _ hl => exact hopening (by simpa [hl] using hin)

end

/-- A signal is as long as it says. -/
theorem signalLength_streamSignal (bidi : Bool) (rest : Bytes) :
    signalLength bidi (streamSignal bidi ++ rest) = some (streamSignal bidi).length := by
  have htype : signalType bidi < 2 ^ 62 := by cases bidi <;> decide
  have hsession : connectId < 2 ^ 62 := by decide
  have hsignal : streamSignal bidi = H3.putVarint (signalType bidi) ++ H3.putVarint connectId := rfl
  unfold signalLength
  rw [hsignal, List.append_assoc, H3.readVarint_putVarint htype, Option.bind_some]
  simp only [if_true]
  rw [← H3.length_putVarint, List.drop_left, H3.readVarint_putVarint hsession, Option.bind_some,
    if_pos rfl, ← H3.length_putVarint, List.length_append]

/-- Behind the signal of a stream there is what was written on it. -/
theorem data_behind {own bidi : Bool} {got written : Bytes} {start : Nat}
    (hstart : dataStart (!own) bidi got = some start) (hgot : got <+: signalOf own bidi ++ written) :
    got.drop start <+: written ∧ (got = signalOf own bidi ++ written → got.drop start = written) := by
  have hlen : start = (signalOf own bidi).length := by
    cases own with
    | true =>
        obtain ⟨rest, hrest⟩ := hgot
        have hsignal := signalLength_append (show signalLength bidi got = some start from hstart) rest
        rw [hrest] at hsignal
        exact Option.some.inj (hsignal.symm.trans (signalLength_streamSignal bidi written))
    | false => exact (Option.some.inj hstart).symm
  have hdrop : (signalOf own bidi ++ written).drop start = written := by rw [hlen, List.drop_left]
  refine ⟨?_, fun heq => heq ▸ hdrop⟩
  obtain ⟨rest, hrest⟩ := hgot
  rw [← hrest, List.drop_append_of_le_length (dataStart_le hstart)] at hdrop
  exact ⟨rest, hdrop⟩

/-! ## A session uses its connection -/

section

variable {e e' : Endpoint} {id : Nat}

theorem uses_of_aside (h : Aside e e') : Uses e.conn e'.conn := .single (.same h.conn)

theorem Sending.uses (h : Sending id e e') : Uses e.conn e'.conn := by
  cases h with
  | returned => exact .refl
  | refused _ hsend | sent _ _ _ hsend | stopped _ _ hsend | fin _ _ _ _ hsend =>
      exact .single (.send hsend)

theorem uses_releasePendingOpens (e : Endpoint) : Uses e.conn e.releasePendingOpens.conn := by
  refine releasePendingOpens_invariant (I := fun s => Uses e.conn s.conn) (fun _ _ hs => hs)
    (fun s bidi requestId _ _ _ hs => ?_) .refl
  cases bidi <;> exact hs

theorem uses_streamReset (e : Endpoint) (id code : Nat) : Uses e.conn (e.streamReset id code).conn := by
  unfold Endpoint.streamReset
  split
  · simp only
    show Uses e.conn (Endpoint.dropQueue _ id).conn
    have hdrop : ∀ s : Endpoint, (s.dropQueue id).conn = s.conn := by
      intro s
      unfold Endpoint.dropQueue
      split <;> rfl
    rw [hdrop, reconcileSendFinalSize_conn]
    exact .single (.shutdownWrite id _)
  · exact .refl

variable [H3.Codec]

theorem Effect.uses (h : Effect id e e') : Uses e.conn e'.conn := by
  rcases h.conn with hsame | ⟨hshut, -⟩
  · exact .single (.same hsame)
  · exact .single (.shutdownRead id 0 hshut)

theorem Effects.uses (h : Effects id e e') : Uses e.conn e'.conn :=
  h.rel (R := fun e e' => Uses e.conn e'.conn) (fun _ => .refl) (fun hab hbc => hab.trans hbc)
    fun _ _ hs => hs.uses

/-- Whatever a session does, it does to its connection by calls. -/
theorem step_uses (hl : e.Layout) {s : Step} (hs : e.StepAdmissible s)
    (hnet : ∀ event, s ≠ .network event) : Uses e.conn (e.step s).conn := by
  cases s with
  | onEstablished =>
      show Uses e.conn e.onEstablished.conn
      unfold Endpoint.onEstablished
      simp only
      split_ifs <;> exact .refl
  | touch id =>
      show Uses e.conn (e.touch id).conn
      unfold Endpoint.touch
      split <;> exact .refl
  | read id backpressured =>
      show Uses e.conn (readStep id backpressured e).1.conn
      rcases readStep_effects (hl.readable hs) hl.wellFormed (hl.alive_of_readable hs id) backpressured
        with heq | ⟨cap, heff⟩
      · rw [heq]
      · exact (Relation.ReflTransGen.single
          (.recv (Quic.Connection.streamRecv_spec e.conn id cap))).trans heff.uses
  | onDatagrams => exact uses_of_aside (.onDatagrams e)
  | sendDatagram data requestId => exact uses_of_aside (.sendDatagram e data requestId)
  | openStream bidi requestId =>
      exact uses_releasePendingOpens { e with pendingOpens := e.pendingOpens ++ [(bidi, requestId)] }
  | streamWrite id data requestId =>
      show Uses e.conn (e.streamWrite id data requestId).conn
      unfold Endpoint.streamWrite
      simp only
      split <;> exact .refl
  | streamFin id | setPaused id => exact .refl
  | streamReset id code => exact uses_streamReset e id code
  | streamStopSending id code =>
      show Uses e.conn (e.streamStopSending id code).conn
      unfold Endpoint.streamStopSending
      split
      · exact .single (.shutdownRead id _ rfl)
      · exact .refl
  | close code reason => exact uses_of_aside (.close e code reason)
  | sendDrain => exact uses_of_aside (.sendDrain e)
  | takeTerminalError => exact uses_of_aside (.takeTerminalError e)
  | grantCredit => exact uses_of_aside (.grantCredit e)
  | replenish => exact uses_of_aside (.replenish e)
  | queueClose => exact uses_of_aside (.queueClose e)
  | releasePendingOpens => exact uses_releasePendingOpens e
  | flushStream id =>
      exact flushStream_invariant (I := fun s => Uses e.conn s.conn) (fun _ _ hsend hI => hI.trans hsend.uses)
        .refl
  | commitSent => exact .refl
  | signalFlowControlBlocked => exact uses_of_aside (.signalFlowControlBlocked e)
  | prune => exact .refl
  | gracefulClose => exact uses_of_aside (.gracefulClose e)
  | markClosed code reason remote =>
      show Uses e.conn (e.markClosed code reason remote).conn
      rw [markClosed_conn]
  | network event => exact absurd rfl (hnet event)

/-- Sending goes on behind what was accepted. -/
theorem step_poured (hl : e.Layout) {s : Step} (hs : e.StepAdmissible s) (i : Nat) :
    Poured (e.conn.streams i).send ((e.step s).conn.streams i).send := by
  by_cases hnet : ∃ event, s = .network event
  · obtain ⟨event, rfl⟩ := hnet
    exact Quic.Connection.poured_net hl.wellFormed event i
  · exact (step_uses hl hs fun event heq => hnet ⟨event, heq⟩).poured hl.wellFormed i

/-- Until something arrives, a stream is only read or thrown away. -/
theorem step_drawn (hl : e.Layout) {s : Step} (hs : e.StepAdmissible s) {i : Nat}
    (hquiet : ∀ event, s = .network event → event.delivers ≠ some i) :
    Drawn (e.conn.streams i).recv ((e.step s).conn.streams i).recv := by
  by_cases hnet : ∃ event, s = .network event
  · obtain ⟨event, rfl⟩ := hnet
    show Drawn _ ((e.conn.net event).streams i).recv
    rw [Quic.Connection.net_recv hl.wellFormed (hquiet event rfl)]
    exact .refl _
  · exact (step_uses hl hs fun event heq => hnet ⟨event, heq⟩).drawn hl.wellFormed i

end

/-! ## A reset stream does not finish -/

section

variable {e : Endpoint} {id : Nat}

theorem surfaceReset_unfinished {code i : Nat} (h : .streamFinished i ∈ (e.surfaceReset id code).toldOf i) :
    .streamFinished i ∈ e.toldOf i := by
  unfold surfaceReset at h
  simp only at h
  split at h
  · rw [toldOf_append (l := [_]) rfl] at h
    exact (List.mem_append.mp h).resolve_right fun hm => by simp [List.mem_filter] at hm
  · rwa [toldOf_protocolError] at h
  · rwa [toldOf_protocolError] at h
  · split_ifs at h
    · exact h
    · rwa [toldOf_markClosed] at h
    · rwa [toldOf_markClosed, toldOf_emit (v := .error _) _ rfl] at h
  · exact h

theorem recvReset_unfinished {code : Nat} {finalSize : Option Nat} {i : Nat}
    (h : .streamFinished i ∈ (e.recvReset id code finalSize).toldOf i) : .streamFinished i ∈ e.toldOf i := by
  unfold recvReset at h
  split at h
  next size st hst =>
    split at h
    · have hacc := toldOf_accountReceive e id (size - st.recvPrefix - st.recvPayload) i
      split at h
      next e1 heq =>
        rw [heq] at hacc
        exact hacc ▸ h
      next e1 heq =>
        rw [heq] at hacc
        exact hacc ▸ surfaceReset_unfinished h
    · exact surfaceReset_unfinished h
  · exact surfaceReset_unfinished h

variable [H3.Codec]

theorem readStep_finishes (hl : e.Layout) (he : e.closed = false) (id : Nat) (backpressured : Bool) {i : Nat}
    (h : .streamFinished i ∈ (readStep id backpressured e).1.toldOf i) :
    .streamFinished i ∈ e.toldOf i ∨ (e.conn.streams i).recv.error = none := by
  by_cases hi : i = id
  · subst hi
    unfold readStep at h
    split at h
    · exact .inl h
    next st hst =>
      split at h
      · exact .inl h
      · have hspec := Quic.Connection.streamRecv_spec e.conn i (readLen st backpressured)
        simp only at h
        split at h
        next chunk fin c heq =>
          rw [heq] at hspec
          generalize hres : (Except.ok (chunk, fin) : Except Quic.Error (Bytes × Bool)) = res at hspec
          cases hspec with
          | none => cases hres
          | reset => cases hres
          | read _ _ _ herr => exact .inr herr
        next conn heq => exact .inl (recvReset_unfinished (e := { e with conn := conn }) h)
        · exact .inl h
  · rcases readStep_effects (hl.readable he) hl.wellFormed (hl.alive_of_readable he id) backpressured
      with heq | ⟨cap, heff⟩
    · exact .inl (heq ▸ h)
    · refine .inl ?_
      rw [heff.told_ne hi] at h
      exact h

/-- A stream is not told to be finished once it was reset. -/
theorem step_finishes (hl : e.Layout) {s : Step} (hs : e.StepAdmissible s) {i : Nat}
    (h : .streamFinished i ∈ (e.step s).toldOf i) :
    .streamFinished i ∈ e.toldOf i ∨ (e.conn.streams i).recv.error = none := by
  cases hhears : Step.hears s with
  | false => exact .inl ((step_unread hl hhears).2 i ▸ h)
  | true =>
      cases s with
      | touch id =>
          have hsame : (e.touch id).toldOf i = e.toldOf i := by
            unfold Endpoint.touch
            split <;> rfl
          exact .inl (hsame ▸ h)
      | prune => exact .inl h
      | markClosed code reason remote => exact .inl ((toldOf_markClosed e code reason remote i) ▸ h)
      | read id backpressured => exact readStep_finishes hl hs id backpressured h
      | _ => cases hhears

end

/-! ## A stream between its two ends -/

/-- What one end has of a stream fits what the other end sent of it. -/
structure Joined (i : Nat) (sender receiver : Endpoint) : Prop where
  outgoing : Outgoing i sender
  candid : receiver.Candid
  roles : receiver.owns i = !sender.owns i
  text : (receiver.conn.streams i).recv.got ++ (receiver.conn.streams i).recv.data <+:
    (sender.conn.streams i).send.data
  ending : ∀ f, (receiver.conn.streams i).recv.finOff = some f → (receiver.conn.streams i).recv.error = none →
    (sender.conn.streams i).send.fin = true ∧ f = (sender.conn.streams i).send.data.length
  failed : ∀ code, (receiver.conn.streams i).recv.error = some code →
    code ∈ (sender.conn.streams i).send.resetCodes
  finished : .streamFinished i ∈ receiver.toldOf i → (sender.conn.streams i).send.fin = true ∧
    (receiver.conn.streams i).recv.got = (sender.conn.streams i).send.data

/-- What the application at one end of a stream is told fits what the application
at the other end did with it. -/
structure Faithful (sender receiver : Endpoint) (i : Nat) (written : Bytes) : Prop where
  data : receiver.receivedOn i <+: written
  finished : .streamFinished i ∈ receiver.ev →
    receiver.receivedOn i = written ∧ (sender.conn.streams i).send.fin = true
  reset : ∀ told, .streamReset i told ∈ receiver.ev →
    ∃ code ∈ (sender.conn.streams i).send.resetCodes, told = resetCode code
  incoming : ∀ bidi, .incomingStream i bidi ∈ receiver.ev → sender.owns i = true ∧ bidi = isBidi i
  /-- An open session that has read the stream to its end has told all of it. -/
  whole : receiver.closed = false → (∃ bidi, receiver.roleOf i = some (.wtData bidi)) →
    (receiver.conn.streams i).recv.got = signalOf (sender.owns i) (isBidi i) ++ written →
    receiver.receivedOn i = written

section

variable {i : Nat} {sender receiver : Endpoint}

theorem mem_toldOf {e : Endpoint} {v : Ev} (hv : v.tellsOf i = true) : v ∈ e.toldOf i ↔ v ∈ e.ev := by
  rw [toldOf, List.mem_filter, and_iff_left hv]

/-- What is told of a stream whose two ends fit. -/
theorem Joined.faithful (h : Joined i sender receiver) :
    Faithful sender receiver i (sender.writtenOn i) := by
  have hconveyed := h.candid.conveyed i h.outgoing.carrier.session
  have htranscript := hconveyed.transcript
  have hgot : (receiver.conn.streams i).recv.got <+: sender.textOf i :=
    ((List.prefix_append _ _).trans h.text).trans h.outgoing.spelled.starts
  have hbehind : ∀ {start}, dataStart (receiver.owns i) (isBidi i) (receiver.conn.streams i).recv.got =
      some start → (receiver.conn.streams i).recv.got.drop start <+: sender.writtenOn i ∧
        ((receiver.conn.streams i).recv.got = sender.textOf i →
          (receiver.conn.streams i).recv.got.drop start = sender.writtenOn i) := by
    intro start hstart
    rw [h.roles] at hstart
    exact data_behind hstart hgot
  have hall : ToldAll (receiver.owns i) i (receiver.conn.streams i).recv (receiver.toldOf i) →
      (receiver.conn.streams i).recv.got = sender.textOf i →
      receiver.receivedOn i = sender.writtenOn i := by
    intro htold heq
    obtain ⟨start, hstart, hdata⟩ := htold.data
    exact hdata.trans ((hbehind hstart).2 heq)
  refine ⟨?_, fun hfin => ?_, fun told hreset => ?_, fun bidi hin => ?_, fun hopen hrole hread => ?_⟩
  · rcases htranscript.data with hnone | ⟨start, hstart, hdata⟩
    · rw [receivedOn, hnone]
      exact List.nil_prefix
    · exact hdata.trans (hbehind hstart).1
  · have hmem := (mem_toldOf (i := i) (by simp [Ev.tellsOf])).mpr hfin
    obtain ⟨hsent, heq⟩ := h.finished hmem
    exact ⟨hall (htranscript.finished hmem).1 (heq.trans (h.outgoing.spelled.whole hsent)), hsent⟩
  · obtain ⟨code, herr, htold⟩ := htranscript.reset ((mem_toldOf (i := i) (by simp [Ev.tellsOf])).mpr hreset)
    exact ⟨code, h.failed code herr, htold⟩
  · obtain ⟨hown, hbidi⟩ := htranscript.incoming ((mem_toldOf (i := i) (by simp [Ev.tellsOf])).mpr hin)
    rw [h.roles] at hown
    exact ⟨by simpa using hown, hbidi⟩
  · obtain ⟨bidi, hrole⟩ := hrole
    exact hall (hconveyed.truthful.current hopen bidi hrole) hread

theorem owns_of_cfg {e e' : Endpoint} (h : e'.cfg = e.cfg) (i : Nat) : e'.owns i = e.owns i := by
  rw [owns, owns, h]

/-- At the start nothing was sent and nothing was told. -/
theorem Joined.start (hsender : Start sender) (hreceiver : Start receiver)
    (hroles : receiver.cfg.isServer = !sender.cfg.isServer) (hi : Carrier sender.cfg.isServer i) :
    Joined i sender receiver := by
  have hempty : ∀ {e}, Start e → e.ev = [] ∧ e.conn.streams i = {} := by
    intro e he
    cases he with
    | client _ _ _ _ _ _ _ hfresh => exact ⟨rfl, hfresh.2.1 i⟩
    | server _ _ _ _ _ _ _ hfresh => exact ⟨rfl, hfresh.2.1 i⟩
  obtain ⟨hev, hconn⟩ := hempty hreceiver
  refine ⟨⟨hsender.layout, hi, hsender.spelled⟩, hreceiver.candid, ?_, ?_, fun f hf => ?_,
    fun code hc => ?_, fun hfin => ?_⟩
  · rw [owns, owns, hroles]
    unfold isLocal
    rcases Nat.mod_two_eq_zero_or_one i with hm | hm <;> cases sender.cfg.isServer <;> simp [hm]
  · rw [hconn]
    exact List.nil_prefix
  · rw [hconn] at hf
    cases hf
  · rw [hconn] at hc
    cases hc
  · simp [toldOf, hev] at hfin

variable [H3.Codec]

/-- The sender goes on. -/
theorem Joined.sent (h : Joined i sender receiver) {s : Step} (hs : sender.StepAdmissible s)
    (hk : sender.KeepsEnd s) : Joined i (sender.step s) receiver := by
  have hp := step_poured h.outgoing.layout hs i
  have hcfg : (sender.step s).cfg = sender.cfg := (cfg_whole sender).step h.outgoing.layout hs rfl
  refine ⟨h.outgoing.step hs hk, h.candid, ?_, h.text.trans hp.data, fun f hf herr => ?_,
    fun code hc => hp.resetCodes.subset (h.failed code hc), fun hfin => ?_⟩
  · rw [h.roles, owns_of_cfg hcfg]
  · obtain ⟨hsent, hlen⟩ := h.ending f hf herr
    obtain ⟨hsent', hdata⟩ := hp.fin hsent
    exact ⟨hsent', hdata.symm ▸ hlen⟩
  · obtain ⟨hsent, heq⟩ := h.finished hfin
    obtain ⟨hsent', hdata⟩ := hp.fin hsent
    exact ⟨hsent', heq.trans hdata.symm⟩

/-- The receiver goes on, without an arrival on the stream. -/
theorem Joined.received (h : Joined i sender receiver) {s : Step} (hs : receiver.StepAdmissible s)
    (hquiet : ∀ event, s = .network event → event.delivers ≠ some i) : Joined i sender (receiver.step s) := by
  have hl := h.candid.layout
  have hdrawn := step_drawn hl hs hquiet
  have hcandid := h.candid.step hs
  have hcfg : (receiver.step s).cfg = receiver.cfg := (cfg_whole receiver).step hl hs rfl
  have hending : ∀ f, ((receiver.step s).conn.streams i).recv.finOff = some f →
      ((receiver.step s).conn.streams i).recv.error = none → (sender.conn.streams i).send.fin = true ∧
        f = (sender.conn.streams i).send.data.length :=
    fun f hf herr => h.ending f (hdrawn.final ▸ hf) (hdrawn.error ▸ herr)
  have htext := hdrawn.text.trans h.text
  have hgot := (List.prefix_append _ _).trans htext
  refine ⟨h.outgoing, hcandid, ?_, htext, hending, fun code hc => h.failed code (hdrawn.error ▸ hc),
    fun hfin => ?_⟩
  · rw [owns_of_cfg hcfg, h.roles]
  · rcases step_finishes hl hs hfin with hbefore | herr
    · obtain ⟨hsent, heq⟩ := h.finished hbefore
      exact ⟨hsent, hgot.eq_of_length_le (heq ▸ hdrawn.got.length_le)⟩
    · -- the end that is told now was not taken from a reset
      have hfinal := ((hcandid.conveyed i h.outgoing.carrier.session).transcript.finished hfin).2
      obtain ⟨hsent, hlen⟩ := hending _ hfinal (hdrawn.error.trans herr)
      exact ⟨hsent, hgot.eq_of_length hlen⟩

/-- Something arrives, of which nothing is read yet. -/
theorem Joined.arrives (h : Joined i sender receiver) (event : NetEvent)
    (hgot : ((receiver.conn.net event).streams i).recv.got = (receiver.conn.streams i).recv.got)
    (htext : ((receiver.conn.net event).streams i).recv.got ++
      ((receiver.conn.net event).streams i).recv.data <+: (sender.conn.streams i).send.data)
    (hending : ∀ f, ((receiver.conn.net event).streams i).recv.finOff = some f →
      ((receiver.conn.net event).streams i).recv.error = none →
        (sender.conn.streams i).send.fin = true ∧ f = (sender.conn.streams i).send.data.length)
    (hfailed : ∀ code, ((receiver.conn.net event).streams i).recv.error = some code →
      code ∈ (sender.conn.streams i).send.resetCodes) :
    Joined i sender (receiver.step (.network event)) :=
  ⟨h.outgoing, h.candid.step (s := .network event) trivial, h.roles, htext, hending, hfailed, fun hfin =>
    (h.finished hfin).imp_right hgot.trans⟩

/-- Bytes in flight arrive. -/
theorem Joined.data (h : Joined i sender receiver) (n : Nat) :
    Joined i sender (receiver.step (.network (.data i ((sender.inFlight receiver i).take n)))) := by
  have hwf := h.candid.layout.wellFormed
  have hcounted := (h.candid.conveyed i h.outgoing.carrier.session).counted
  rcases Quic.Connection.net_arrives hwf i ((sender.inFlight receiver i).take n)
    with hsame | ⟨hfin, hdrained | ⟨hdrain, hmore⟩⟩
  · exact h.arrives _ (by rw [hsame]) (by rw [hsame]; exact h.text) (by rw [hsame]; exact h.ending)
      (by rw [hsame]; exact h.failed)
  · exact h.arrives _ (by rw [hdrained]) (by rw [hdrained]; exact h.text)
      (by rw [hdrained]; exact h.ending) (by rw [hdrained]; exact h.failed)
  · -- what is buffered goes on where it ended
    have herr : (receiver.conn.streams i).recv.error = none := by
      by_contra hsome
      have hfinal := ((hwf i).recv.failed (Option.isSome_iff_ne_none.mpr hsome)).2
      rw [hfin] at hfinal
      cases hfinal
    have hlen : receiver.arrived i =
        ((receiver.conn.streams i).recv.got ++ (receiver.conn.streams i).recv.data).length := by
      rw [arrived, hcounted hdrain herr, List.length_append]
    refine h.arrives _ (by rw [hmore]) ?_ (by rw [hmore]; exact h.ending) (by rw [hmore]; exact h.failed)
    rw [hmore]
    show _ ++ (_ ++ _) <+: _
    rw [← List.append_assoc, inFlight, hlen]
    obtain ⟨rest, hrest⟩ := h.text
    rw [← hrest]
    refine (List.prefix_append_right_inj _).mpr ((List.take_prefix _ _).trans ?_)
    exact ((List.take_prefix _ _).drop _).trans (by rw [List.drop_left])

/-- The FIN arrives behind all that was accepted. -/
theorem Joined.fin (h : Joined i sender receiver) (hsent : (sender.conn.streams i).send.fin = true)
    (hall : receiver.arrived i = (sender.conn.streams i).send.data.length) :
    Joined i sender (receiver.step (.network (.fin i))) := by
  rcases Quic.Connection.net_ends h.candid.layout.wellFormed i with hsame | ⟨marker, hends⟩
  · exact h.arrives _ (by rw [hsame]) (by rw [hsame]; exact h.text) (by rw [hsame]; exact h.ending)
      (by rw [hsame]; exact h.failed)
  · refine h.arrives _ (by rw [hends]) (by rw [hends]; exact h.text) ?_ (by rw [hends]; exact h.failed)
    rw [hends]
    intro f hf _
    exact ⟨hsent, (Option.some.inj hf).symm.trans hall⟩

/-- A RESET that was sent arrives. -/
theorem Joined.reset (h : Joined i sender receiver) {code : Nat}
    (hcode : code ∈ (sender.conn.streams i).send.resetCodes) (finalSize : Nat) :
    Joined i sender (receiver.step (.network (.reset i code finalSize))) := by
  rcases Quic.Connection.net_aborts h.candid.layout.wellFormed i code finalSize with hsame | ⟨marker, haborts⟩
  · exact h.arrives _ (by rw [hsame]) (by rw [hsame]; exact h.text) (by rw [hsame]; exact h.ending)
      (by rw [hsame]; exact h.failed)
  · refine h.arrives _ (by rw [haborts]) ?_ ?_ ?_
    · rw [haborts]
      show _ ++ [] <+: _
      rw [List.append_nil]
      exact (List.prefix_append _ _).trans h.text
    · rw [haborts]
      intro f _ herr
      cases herr
    · rw [haborts]
      intro code' hc
      exact Option.some.inj hc ▸ hcode

end

end Endpoint

open Endpoint (Joined Faithful Carrier KeepsEnd Start flushOnce)

/-! ## Both ends -/

/-- The two ends of a connection. -/
structure Link where
  client : Endpoint
  server : Endpoint

/-- What happens next: a call at one end, or something that the other end sent
arrives there. -/
inductive Move where
  | call (atServer : Bool) (c : Call)
  | data (atServer : Bool) (id n : Nat)
  | fin (atServer : Bool) (id : Nat)
  | reset (atServer : Bool) (id code finalSize : Nat)

/-- The stream that something arrives on. -/
def Call.arrival : Call → Option Nat
  | .network event => event.delivers
  | _ => none

namespace Link

def party (l : Link) : Bool → Endpoint
  | true => l.server
  | false => l.client

def put (l : Link) : Bool → Endpoint → Link
  | true, e => { l with server := e }
  | false, e => { l with client := e }

@[simp] theorem party_put (l : Link) (a b : Bool) (e : Endpoint) :
    (l.put a e).party b = if b = a then e else l.party b := by
  cases a <;> cases b <;> rfl

/-- Both sessions are about to begin. -/
structure Begins (l : Link) : Prop where
  start : ∀ b, Start (l.party b)
  roles : ∀ b, (l.party b).cfg.isServer = b

end Link

namespace Move

/-- The end at which something happens. -/
def side : Move → Bool
  | .call b _ | .data b _ _ | .fin b _ | .reset b _ _ _ => b

/-- What happens there. -/
def made (l : Link) : Move → Call
  | .call _ c => c
  | .data b id n => .network (.data id (((l.party !b).inFlight (l.party b) id).take n))
  | .fin _ id => .network (.fin id)
  | .reset _ id code finalSize => .network (.reset id code finalSize)

/-- What a move writes on a stream at one end. -/
def wrote (b : Bool) (i : Nat) : Move → Option Bytes
  | .call a c => if a = b then Call.wrote i c else none
  | _ => none

end Move

section

variable [H3.Codec]

namespace Link

def move (l : Link) (m : Move) : Link := l.put m.side ((l.party m.side).call (m.made l))

/-- A session is called as its callers promise, and its application writes nothing
behind the end of a stream; a FIN arrives behind all the bytes in front of it, and
a RESET only if it was sent. -/
def Allowed (l : Link) : Move → Prop
  | .call b c => (l.party b).Meets KeepsEnd c ∧ c.arrival = none
  | .data _ _ _ => True
  | .fin b id => ((l.party !b).conn.streams id).send.fin = true ∧
      (l.party b).arrived id = ((l.party !b).conn.streams id).send.data.length
  | .reset b id code finalSize => code ∈ ((l.party !b).conn.streams id).send.resetCodes ∧
      ((l.party !b).conn.streams id).send.finOff = some finalSize

instance (l : Link) : (m : Move) → Decidable (l.Allowed m)
  | .call b c => inferInstanceAs (Decidable ((l.party b).Meets KeepsEnd c ∧ c.arrival = none))
  | .data _ _ _ => .isTrue trivial
  | .fin b id => inferInstanceAs (Decidable (((l.party !b).conn.streams id).send.fin = true ∧
      (l.party b).arrived id = ((l.party !b).conn.streams id).send.data.length))
  | .reset b id code finalSize =>
      inferInstanceAs (Decidable (code ∈ ((l.party !b).conn.streams id).send.resetCodes ∧
        ((l.party !b).conn.streams id).send.finOff = some finalSize))

end Link

variable {l : Link} {m : Move} {b : Bool} {i : Nat} {sender receiver : Endpoint}

/-- A call hands the network's events on one at a time. -/
theorem Endpoint.network_of_mem_steps {e : Endpoint} {c : Call} {event : NetEvent}
    (h : .network event ∈ e.steps c) : c = .network event := by
  cases c with
  | onReadable id backpressured =>
      simp only [Endpoint.steps] at h
      split_ifs at h
      · cases h
      · rcases List.mem_cons.mp h with hs | hs
        · cases hs
        · cases Endpoint.mem_reads hs
      · simp at h
  | flush order => simp [Endpoint.steps, Endpoint.flushHead, Endpoint.flushTail] at h
  | network event' => exact congrArg Call.network (Step.network.inj (List.mem_singleton.mp h)).symm
  | _ => simp [Endpoint.steps] at h

theorem Endpoint.Joined.call_sent (h : Joined i sender receiver) {c : Call} (hc : sender.Meets KeepsEnd c) :
    Joined i (sender.call c) receiver :=
  Endpoint.call_invariant (I := fun s => Joined i s receiver) (fun _ _ h ha hk => h.sent ha hk) h hc

theorem Endpoint.Joined.call_received (h : Joined i sender receiver) {c : Call}
    (hc : receiver.Admissible c) (hnone : c.arrival = none) : Joined i sender (receiver.call c) := by
  refine Endpoint.call_invariant (I := fun r => Joined i sender r)
    (P := fun _ s => ∀ event, s = .network event → event.delivers ≠ some i)
    (fun _ _ h ha hquiet => h.received ha hquiet) h ⟨hc, along_of_forall fun s hs _ event heq => ?_⟩
  obtain rfl := Endpoint.network_of_mem_steps (heq ▸ hs)
  rw [show event.delivers = none from hnone]
  exact nofun

theorem Link.Allowed.meets (h : l.Allowed m) : (l.party m.side).Meets KeepsEnd (m.made l) := by
  cases m with
  | call b c => exact h.1
  | data | fin | reset => exact ⟨trivial, trivial, trivial⟩

/-- What either end does keeps the two ends of a stream together. -/
theorem Endpoint.Joined.move (h : Joined i (l.party b) (l.party !b)) (hm : l.Allowed m) :
    Joined i ((l.move m).party b) ((l.move m).party !b) := by
  simp only [Link.move, Link.party_put]
  by_cases hside : b = m.side
  · subst hside
    rw [if_pos rfl, if_neg (by simp)]
    exact h.call_sent hm.meets
  · obtain rfl : b = !m.side := by cases b <;> cases hs : m.side <;> simp [hs] at hside ⊢
    rw [Bool.not_not] at h ⊢
    rw [if_neg (by simp), if_pos rfl]
    -- an arrival on another stream is one of the things that leave this one alone
    have hother : ∀ event : NetEvent, event.delivers ≠ some i →
        Joined i (l.party !m.side) ((l.party m.side).step (.network event)) :=
      fun event hne => h.received (s := .network event) trivial fun event' heq => by
        cases heq
        exact hne
    cases m with
    | call a c => exact h.call_received hm.1.1 hm.2
    | data a id n =>
        by_cases hid : id = i
        · subst hid
          exact h.data n
        · exact hother _ (by simpa [NetEvent.delivers] using hid)
    | fin a id =>
        by_cases hid : id = i
        · subst hid
          exact h.fin hm.1 hm.2
        · exact hother _ (by simpa [NetEvent.delivers] using hid)
    | reset a id code finalSize =>
        by_cases hid : id = i
        · subst hid
          exact h.reset hm.1 finalSize
        · exact hother _ (by simpa [NetEvent.delivers] using hid)

theorem Link.move_wrote (hl : (l.party b).Layout) (hm : l.Allowed m) (i : Nat) :
    ((l.move m).party b).chunksOf i = (l.party b).chunksOf i ++ (m.wrote b i).toList := by
  simp only [Link.move, Link.party_put]
  split
  next hside =>
    subst hside
    rw [Endpoint.call_wrote hl hm.meets.1]
    cases m with
    | call a c => simp [Move.wrote, Move.side, Move.made]
    | data | fin | reset => rfl
  next hside =>
    have hnone : m.wrote b i = none := by
      cases m with
      | call a c => exact if_neg fun heq => hside heq.symm
      | _ => rfl
    rw [hnone, Option.toList_none, List.append_nil]

end

/-! ## Concrete runs -/

/-- A client and a server that know nothing of each other yet. -/
def sampleLink : Link := ⟨Endpoint.sampleClient, Endpoint.sampleServer⟩

/-- What was accepted of a stream is put into packets, arrives and is read. -/
def carried (atServer : Bool) (id : Nat) : List Move :=
  [.call (!atServer) (.network (.serialize id (2 ^ 16))), .data atServer id (2 ^ 16),
    .call atServer (.onReadable id false)]

/-- The two sessions are set up, the client opens a stream, and what it writes
arrives in two parts. -/
def linkRun : List Move :=
  [.call false .onEstablished, .call true .onEstablished, .call false flushOnce, .call true flushOnce] ++
    carried true 2 ++ carried false 3 ++ [.call false flushOnce] ++ carried true 0 ++
    [.call true flushOnce] ++ carried false 0 ++
    [.call false (.openStream true 1), .call false (.streamWrite 4 [7] 2), .call false flushOnce] ++
    carried true 4 ++
    [.call false (.streamWrite 4 [8] 3), .call false (.streamFin 4), .call false flushOnce] ++
    carried true 4 ++ [.fin true 4, .call true (.onReadable 4 false)]

theorem sampleLink_begins : sampleLink.Begins where
  start b := by
    cases b
    · exact .client _ _ _ _ _ _ _ ⟨rfl, fun _ => rfl, rfl⟩
    · exact Endpoint.sampleServer_start
  roles b := by cases b <;> rfl

theorem linkRun_allowed :
    letI := H3.Codec.plain
    Along Link.move Link.Allowed sampleLink linkRun := by
  decide +kernel

end RWebTransport
