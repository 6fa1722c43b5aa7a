import Mathlib.Logic.Relation
import RWebTransport.QuicInvariant
import RWebTransport.Session.Run

/-!
# What sending can do

The counterpart of `Effect` for the send side: `flush_stream` is a sequence of
small effects on one stream.  The other parts of `flush` and the remaining
commands change at most the entry of the CONNECT stream (`Aside`).
-/

namespace RWebTransport

/-- The event is about datagrams. -/
def Ev.isDatagram : Ev → Bool
  | .datagram _ | .datagramAck _ _ => true
  | _ => false

namespace Endpoint

open Relation (ReflTransGen)
open Quic.Connection (Send streamSend_spec)

/-! ## The send loop -/

/-- One effect of flushing the stream `id`. -/
inductive Sending (id : Nat) (e : Endpoint) : Endpoint → Prop
  | returned {st : Stream} {finalSize : Nat} : e.streams.get id = some st →
      st.role.isWtData = true → e.conn.streamSendFinalSize id = some finalSize →
      finalSize - st.sendPrefix < st.sendPayload →
      Sending id e { e with
        fcDataSent := e.fcDataSent - (st.sendPayload - (finalSize - st.sendPrefix))
        streams := e.streams.modify id fun st => { st with sendPayload := finalSize - st.sendPrefix }
        history := e.history ++ [.returned id (st.sendPayload - (finalSize - st.sendPrefix))] }
  | refused {st : Stream} {bytes : Bytes} {fin : Bool} {err : Quic.Error} {c : Quic.Connection} :
      e.streams.get id = some st → Send e.conn id bytes fin (.error err) c →
      Sending id e { e with conn := c }
  | sent {st : Stream} {front : OutChunk} {rest : List OutChunk} {n : Nat} {c : Quic.Connection} :
      e.streams.get id = some st → st.out = front :: rest →
      (e.sendAmount st front = 0 → front.data.length - front.off = 0) →
      Send e.conn id ((front.data.drop front.off).take (e.sendAmount st front)) false (.ok n) c →
      Sending id e (({ e with conn := c } : Endpoint).advance id front rest (isPayload st front) n)
  | stopped {st : Stream} {bytes : Bytes} {code : Nat} {c : Quic.Connection} :
      e.streams.get id = some st → st.out ≠ [] →
      Send e.conn id bytes false (.error (.streamStopped code)) c →
      Sending id e (({ e with conn := c } : Endpoint).surfaceStop id code st.out)
  | fin {st : Stream} {n : Nat} {c : Quic.Connection} : e.streams.get id = some st → st.out = [] →
      st.finQueued = true → st.finSent = false → Send e.conn id [] true (.ok n) c →
      Sending id e (({ e with conn := c } : Endpoint).modifyStream id fun st =>
        { st with finSent := true })

/-- What `reconcile_send_final_size` does. -/
theorem reconcileSendFinalSize_sending (e : Endpoint) (id : Nat) :
    e.reconcileSendFinalSize id = e ∨ Sending id e (e.reconcileSendFinalSize id) := by
  unfold reconcileSendFinalSize
  split
  next finalSize st hfinal hst =>
    simp only
    split
    next h =>
      have hs := Sending.returned hst h.1 hfinal h.2
      refine .inr ?_
      convert hs using 3
      exact Table.modify_congr hst rfl
    · exact .inl rfl
  · exact .inl rfl

theorem sendStep_sending (id : Nat) (e : Endpoint) :
    (sendStep id e).1 = e ∨ Sending id e (sendStep id e).1 := by
  unfold sendStep
  split
  · exact .inl rfl
  next st hst =>
    split
    · exact .inl rfl
    next front rest hout =>
      simp only
      split
      · exact .inl rfl
      next hamount =>
        have hspec := streamSend_spec e.conn id
          ((front.data.drop front.off).take (e.sendAmount st front)) false
        split
        next n c heq =>
          rw [heq] at hspec
          exact .inr (.sent hst hout (by tauto) hspec)
        next code c heq =>
          rw [heq] at hspec
          exact .inr (.stopped hst (by simp [hout]) hspec)
        next err c hne heq =>
          rw [heq] at hspec
          exact .inr (.refused hst hspec)

theorem sendFin_sending (e : Endpoint) (id : Nat) :
    e.sendFin id = e ∨ Sending id e (e.sendFin id) := by
  unfold sendFin
  split
  · exact .inl rfl
  next st hst =>
    split
    next h =>
      simp only [Bool.and_eq_true, List.isEmpty_iff, Bool.not_eq_true'] at h
      have hspec := streamSend_spec e.conn id [] true
      split
      next n c heq =>
        rw [heq] at hspec
        exact .inr (.fin hst h.1.1 h.1.2 h.2 hspec)
      next err c heq =>
        rw [heq] at hspec
        exact .inr (.refused hst hspec)
    · exact .inl rfl

/-- `flush_stream` is a sequence of effects on its stream. -/
theorem flushStream_sending (e : Endpoint) (id : Nat) :
    ReflTransGen (Sending id) e (e.flushStream id) := by
  have hmaybe : ∀ {a b : Endpoint}, b = a ∨ Sending id a b → ReflTransGen (Sending id) a b := by
    rintro a b (rfl | h)
    · exact .refl
    · exact .single h
  unfold flushStream
  refine .trans (hmaybe (reconcileSendFinalSize_sending e id)) (.trans ?_ (hmaybe (sendFin_sending _ id)))
  exact iterate_rel (I := fun _ => True) (fun _ => .refl) .trans
    (fun s _ => ⟨hmaybe (sendStep_sending id s), trivial⟩) _ trivial

/-- What every effect on the stream preserves, `flush_stream` preserves. -/
theorem flushStream_invariant {I : Endpoint → Prop} {id : Nat}
    (hI : ∀ e e', Sending id e e' → I e → I e') {e : Endpoint} (he : I e) : I (e.flushStream id) := by
  have h := flushStream_sending e id
  generalize e.flushStream id = e' at h
  induction h with
  | refl => exact he
  | tail _ hstep ih => exact hI _ _ hstep ih

section

variable {id : Nat} {e e' : Endpoint}

theorem Sending.conn_ne (h : Sending id e e') {i : Nat} (hi : i ≠ id) :
    e'.conn.streams i = e.conn.streams i := by
  cases h with
  | returned => rfl
  | refused _ hs => exact hs.ne hi
  | sent _ _ _ hs => exact hs.ne hi
  | stopped _ _ hs => exact hs.ne hi
  | fin _ _ _ _ hs => exact hs.ne hi

theorem Sending.get_ne (h : Sending id e e') {i : Nat} (hi : i ≠ id) :
    e'.streams.get i = e.streams.get i := by
  cases h with
  | refused => rfl
  | returned | sent | stopped | fin => exact Table.get_modify_ne hi

theorem Sending.session (h : Sending id e e') : e'.cfg = e.cfg ∧ e'.closed = e.closed ∧
    e'.peerSettings = e.peerSettings ∧ e'.fcMaxDataRemote = e.fcMaxDataRemote := by
  cases h <;> exact ⟨rfl, rfl, rfl, rfl⟩

theorem Sending.keys (h : Sending id e e') : e'.streams.keys = e.streams.keys := by
  cases h <;> rfl

end

/-! ## Steps that leave the data streams alone -/

/-- Bytes of our own are queued on a stream, and possibly its end. -/
inductive Queued : Stream → Stream → Prop
  | refl (st : Stream) : Queued st st
  | push {st st' : Stream} (body : Bytes) : Queued st st' → Queued st (st'.push body none)
  | finish {st st' : Stream} (body : Bytes) : Queued st st' →
      Queued st { st'.push body none with finQueued := true }

theorem Queued.trans {a b c : Stream} (hab : Queued a b) (hbc : Queued b c) : Queued a c := by
  induction hbc with
  | refl => exact hab
  | push body _ ih => exact .push body ih
  | finish body _ ih => exact .finish body ih

/-- Nothing has changed that concerns a stream other than CONNECT. -/
structure Aside (e e' : Endpoint) : Prop where
  cfg : e'.cfg = e.cfg
  isServer : e'.conn.isServer = e.conn.isServer
  conn : e'.conn.streams = e.conn.streams
  get : ∀ i, i ≠ connectId → e'.streams.get i = e.streams.get i
  connect : ∀ st', e'.streams.get connectId = some st' →
    ∃ st, e.streams.get connectId = some st ∧ Queued st st'
  keys : e'.streams.keys = e.streams.keys
  closed : e'.closed = e.closed
  ready : e'.ready = e.ready
  peerSettings : e'.peerSettings = e.peerSettings
  setup : e'.setupSent = e.setupSent ∧ e'.connectPending = e.connectPending ∧
    e'.drainEmitted = e.drainEmitted
  limits : e'.fcMaxDataRemote = e.fcMaxDataRemote ∧
    e'.fcMaxStreamsBidiRemote = e.fcMaxStreamsBidiRemote ∧
    e'.fcMaxStreamsUniRemote = e.fcMaxStreamsUniRemote
  sent : e'.fcDataSent = e.fcDataSent ∧ e'.wtSent = e.wtSent
  history : ∃ l, e'.history = e.history ++ l ∧ ∀ t ∈ l, t = .closeQueued
  ev : ∃ l, e'.ev = e.ev ++ l ∧ ∀ v ∈ l, v.isDatagram = true

namespace Aside

theorem refl (e : Endpoint) : Aside e e :=
  ⟨rfl, rfl, rfl, fun _ _ => rfl, fun st h => ⟨st, h, .refl st⟩, rfl, rfl, rfl, rfl, ⟨rfl, rfl, rfl⟩,
    ⟨rfl, rfl, rfl⟩, ⟨rfl, rfl⟩, ⟨[], by simp⟩, ⟨[], by simp⟩⟩

theorem trans {a b c : Endpoint} (hab : Aside a b) (hbc : Aside b c) : Aside a c where
  cfg := hbc.cfg.trans hab.cfg
  isServer := hbc.isServer.trans hab.isServer
  conn := hbc.conn.trans hab.conn
  get i hi := (hbc.get i hi).trans (hab.get i hi)
  connect st'' h := by
    obtain ⟨st', h', hq'⟩ := hbc.connect st'' h
    obtain ⟨st, hst, hq⟩ := hab.connect st' h'
    exact ⟨st, hst, hq.trans hq'⟩
  keys := hbc.keys.trans hab.keys
  closed := hbc.closed.trans hab.closed
  ready := hbc.ready.trans hab.ready
  peerSettings := hbc.peerSettings.trans hab.peerSettings
  setup := ⟨hbc.setup.1.trans hab.setup.1, hbc.setup.2.1.trans hab.setup.2.1,
    hbc.setup.2.2.trans hab.setup.2.2⟩
  limits := ⟨hbc.limits.1.trans hab.limits.1, hbc.limits.2.1.trans hab.limits.2.1,
    hbc.limits.2.2.trans hab.limits.2.2⟩
  sent := ⟨hbc.sent.1.trans hab.sent.1, hbc.sent.2.trans hab.sent.2⟩
  history := by
    obtain ⟨l, hl, hlm⟩ := hab.history
    obtain ⟨m, hm, hmm⟩ := hbc.history
    exact ⟨l ++ m, by rw [hm, hl, List.append_assoc], List.forall_mem_append.mpr ⟨hlm, hmm⟩⟩
  ev := by
    obtain ⟨l, hl, hlm⟩ := hab.ev
    obtain ⟨m, hm, hmm⟩ := hbc.ev
    exact ⟨l ++ m, by rw [hm, hl, List.append_assoc], List.forall_mem_append.mpr ⟨hlm, hmm⟩⟩

/-- Fields of the session that concern no stream. -/
theorem session {e e' : Endpoint} (hcfg : e'.cfg = e.cfg) (hserver : e'.conn.isServer = e.conn.isServer)
    (hconn : e'.conn.streams = e.conn.streams) (hstreams : e'.streams = e.streams)
    (hclosed : e'.closed = e.closed) (hready : e'.ready = e.ready)
    (hsettings : e'.peerSettings = e.peerSettings)
    (hlimits : e'.fcMaxDataRemote = e.fcMaxDataRemote ∧
      e'.fcMaxStreamsBidiRemote = e.fcMaxStreamsBidiRemote ∧
      e'.fcMaxStreamsUniRemote = e.fcMaxStreamsUniRemote)
    (hsent : e'.fcDataSent = e.fcDataSent ∧ e'.wtSent = e.wtSent) (hhistory : e'.history = e.history)
    (hev : e'.ev = e.ev) (hsetup : e'.setupSent = e.setupSent ∧
      e'.connectPending = e.connectPending ∧ e'.drainEmitted = e.drainEmitted) : Aside e e' :=
  ⟨hcfg, hserver, hconn, fun _ _ => by rw [hstreams], fun st h => ⟨st, hstreams ▸ h, .refl st⟩,
    by rw [hstreams], hclosed, hready, hsettings, hsetup, hlimits, hsent, ⟨[], by simp [hhistory]⟩,
    ⟨[], by simp [hev]⟩⟩

/-- Something is queued on the CONNECT stream. -/
theorem onConnect (e : Endpoint) {f : Stream → Stream} (hf : ∀ st, Queued st (f st)) :
    Aside e (e.modifyStream connectId f) := by
  refine ⟨rfl, rfl, rfl, fun i hi => Table.get_modify_ne hi, fun st' h => ?_, rfl, rfl, rfl, rfl,
    ⟨rfl, rfl, rfl⟩, ⟨rfl, rfl, rfl⟩, ⟨rfl, rfl⟩, ⟨[], by simp [modifyStream]⟩, ⟨[], by simp [modifyStream]⟩⟩
  simp only [modifyStream, Table.get_modify_self, Option.map_eq_some_iff] at h
  obtain ⟨st, hst, rfl⟩ := h
  exact ⟨st, hst, hf st⟩

theorem queueOnConnect (e : Endpoint) (body : Bytes) : Aside e (e.queueOnConnect body) :=
  onConnect e fun st => .push body (.refl st)

theorem queueSessionCapsule (e : Endpoint) (ty value : Nat) :
    Aside e (e.queueSessionCapsule ty value) :=
  queueOnConnect e _

theorem closeConn (e : Endpoint) (code : Nat) (reason : Bytes) :
    Aside e (e.closeConn code reason) :=
  session rfl (by simp [Endpoint.closeConn]) (by simp [Endpoint.closeConn]) rfl rfl rfl rfl
    ⟨rfl, rfl, rfl⟩ ⟨rfl, rfl⟩ rfl rfl ⟨rfl, rfl, rfl⟩

theorem takeTerminalError (e : Endpoint) : Aside e e.takeTerminalError := by
  unfold Endpoint.takeTerminalError
  split
  · refine .trans ?_ (closeConn _ _ _)
    exact session rfl rfl rfl rfl rfl rfl rfl ⟨rfl, rfl, rfl⟩ ⟨rfl, rfl⟩ rfl rfl ⟨rfl, rfl, rfl⟩
  · exact refl e

theorem grantCredit (e : Endpoint) : Aside e e.grantCredit := by
  unfold Endpoint.grantCredit
  split
  · refine .trans (.trans (.trans ?_ (queueSessionCapsule _ _ _)) (queueSessionCapsule _ _ _))
      (queueSessionCapsule _ _ _)
    exact session rfl rfl rfl rfl rfl rfl rfl ⟨rfl, rfl, rfl⟩ ⟨rfl, rfl⟩ rfl rfl ⟨rfl, rfl, rfl⟩
  · exact refl e

theorem raiseDataLimit (e : Endpoint) (limit : Nat) : Aside e (e.raiseDataLimit limit) := by
  refine .trans ?_ (queueSessionCapsule _ _ _)
  exact session rfl rfl rfl rfl rfl rfl rfl ⟨rfl, rfl, rfl⟩ ⟨rfl, rfl⟩ rfl rfl ⟨rfl, rfl, rfl⟩

theorem raiseStreamsLimit (e : Endpoint) (bidi : Bool) (limit : Nat) :
    Aside e (e.raiseStreamsLimit bidi limit) := by
  refine .trans ?_ (queueSessionCapsule _ _ _)
  exact session rfl rfl rfl rfl rfl rfl rfl ⟨rfl, rfl, rfl⟩ ⟨rfl, rfl⟩ rfl rfl ⟨rfl, rfl, rfl⟩

theorem replenishData (e : Endpoint) : Aside e e.replenishData := by
  unfold Endpoint.replenishData
  simp only
  split_ifs
  · exact raiseDataLimit e _
  · exact refl e
  · exact refl e

theorem replenishStreams (e : Endpoint) (bidi : Bool) : Aside e (e.replenishStreams bidi) := by
  unfold Endpoint.replenishStreams
  simp only
  split_ifs
  · exact raiseStreamsLimit e bidi _
  · exact refl e
  · exact refl e

theorem replenish (e : Endpoint) : Aside e e.replenish := by
  unfold Endpoint.replenish
  split
  · exact ((replenishData e).trans (replenishStreams _ _)).trans (replenishStreams _ _)
  · exact refl e

theorem queueClose (e : Endpoint) : Aside e e.queueClose := by
  unfold Endpoint.queueClose
  split
  · exact refl e
  next req hreq =>
    simp only
    split_ifs
    · exact refl e
    · have hlog : Aside e (({ e with
          closeReq := some { req with capsuleQueued := true } } : Endpoint).log .closeQueued) :=
        ⟨rfl, rfl, rfl, fun _ _ => rfl, fun st h => ⟨st, h, .refl st⟩, rfl, rfl, rfl, rfl,
          ⟨rfl, rfl, rfl⟩, ⟨rfl, rfl, rfl⟩, ⟨rfl, rfl⟩, ⟨[.closeQueued], rfl, by simp⟩, ⟨[], by simp [log]⟩⟩
      exact hlog.trans (onConnect _ fun st => .finish _ (.refl st))
    · exact session rfl rfl rfl rfl rfl rfl rfl ⟨rfl, rfl, rfl⟩ ⟨rfl, rfl⟩ rfl rfl ⟨rfl, rfl, rfl⟩

theorem signalDataBlocked (e : Endpoint) : Aside e e.signalDataBlocked := by
  unfold Endpoint.signalDataBlocked
  split
  · exact (queueSessionCapsule e _ _).trans
      (session rfl rfl rfl rfl rfl rfl rfl ⟨rfl, rfl, rfl⟩ ⟨rfl, rfl⟩ rfl rfl ⟨rfl, rfl, rfl⟩)
  · exact refl e

theorem signalStreamsBlocked (e : Endpoint) (bidi : Bool) : Aside e (e.signalStreamsBlocked bidi) := by
  unfold Endpoint.signalStreamsBlocked
  simp only
  split_ifs
  · exact (queueSessionCapsule e _ _).trans
      (session rfl rfl rfl rfl rfl rfl rfl ⟨rfl, rfl, rfl⟩ ⟨rfl, rfl⟩ rfl rfl ⟨rfl, rfl, rfl⟩)
  · exact (queueSessionCapsule e _ _).trans
      (session rfl rfl rfl rfl rfl rfl rfl ⟨rfl, rfl, rfl⟩ ⟨rfl, rfl⟩ rfl rfl ⟨rfl, rfl, rfl⟩)
  · exact refl e

theorem signalFlowControlBlocked (e : Endpoint) : Aside e e.signalFlowControlBlocked := by
  unfold Endpoint.signalFlowControlBlocked
  split
  · exact refl e
  · exact ((signalDataBlocked e).trans (signalStreamsBlocked _ _)).trans (signalStreamsBlocked _ _)

theorem gracefulClose (e : Endpoint) : Aside e e.gracefulClose := by
  have harm : Aside e e.armQuicClose := by
    unfold armQuicClose
    split
    · split
      · exact session rfl rfl rfl rfl rfl rfl rfl ⟨rfl, rfl, rfl⟩ ⟨rfl, rfl⟩ rfl rfl ⟨rfl, rfl, rfl⟩
      · exact refl e
    · exact refl e
  unfold Endpoint.gracefulClose
  split
  · exact refl e
  · simp only
    split_ifs
    · refine harm.trans (.trans ?_ (closeConn _ _ _))
      exact session rfl rfl rfl rfl rfl rfl rfl ⟨rfl, rfl, rfl⟩ ⟨rfl, rfl⟩ rfl rfl ⟨rfl, rfl, rfl⟩
    · refine harm.trans ?_
      exact session rfl rfl rfl rfl rfl rfl rfl ⟨rfl, rfl, rfl⟩ ⟨rfl, rfl⟩ rfl rfl ⟨rfl, rfl, rfl⟩
    · exact harm

theorem sendDrain (e : Endpoint) : Aside e e.sendDrain := by
  unfold Endpoint.sendDrain
  split_ifs
  · exact refl e
  · exact (queueOnConnect e _).trans
      (session rfl rfl rfl rfl rfl rfl rfl ⟨rfl, rfl, rfl⟩ ⟨rfl, rfl⟩ rfl rfl ⟨rfl, rfl, rfl⟩)
  · exact refl e

theorem close (e : Endpoint) (code : Nat) (reason : Bytes) : Aside e (e.close code reason) := by
  unfold Endpoint.close
  split
  · exact session rfl rfl rfl rfl rfl rfl rfl ⟨rfl, rfl, rfl⟩ ⟨rfl, rfl⟩ rfl rfl ⟨rfl, rfl, rfl⟩
  · exact refl e

/-- An event about datagrams. -/
theorem emit (e : Endpoint) {v : Ev} (hv : v.isDatagram = true) : Aside e (e.emit v) :=
  ⟨rfl, rfl, rfl, fun _ _ => rfl, fun st h => ⟨st, h, .refl st⟩, rfl, rfl, rfl, rfl, ⟨rfl, rfl, rfl⟩,
    ⟨rfl, rfl, rfl⟩, ⟨rfl, rfl⟩, ⟨[], by simp [Endpoint.emit]⟩, ⟨[v], rfl, by simpa using hv⟩⟩

theorem onDatagrams (e : Endpoint) : Aside e e.onDatagrams := by
  refine iterate_rel (I := fun _ => True) refl trans (fun s _ => ⟨?_, trivial⟩) _ trivial
  have hconn : Aside s { s with conn := s.conn.dgramRecv.2 } := by
    refine session rfl ?_ ?_ rfl rfl rfl rfl ⟨rfl, rfl, rfl⟩ ⟨rfl, rfl⟩ rfl rfl ⟨rfl, rfl, rfl⟩
    all_goals
      unfold Quic.Connection.dgramRecv
      split <;> rfl
  unfold datagramStep
  split
  next c heq =>
    rw [heq] at hconn
    exact hconn
  next data c heq =>
    rw [heq] at hconn
    simp only
    split
    · exact hconn
    · split
      · exact hconn.trans (emit _ rfl)
      · exact hconn

theorem sendDatagram (e : Endpoint) (data : Bytes) (requestId : Nat) :
    Aside e (e.sendDatagram data requestId) := by
  have hconn : ∀ d, Aside e { e with conn := (e.conn.dgramSend d).2 } := by
    intro d
    refine session rfl ?_ ?_ rfl rfl rfl rfl ⟨rfl, rfl, rfl⟩ ⟨rfl, rfl⟩ rfl rfl ⟨rfl, rfl, rfl⟩
    all_goals
      unfold Quic.Connection.dgramSend
      split <;> rfl
  exact (hconn _).trans (emit _ rfl)

end Aside

theorem commitSent_streams (e : Endpoint) : e.commitSent.streams = e.streams := rfl

/-! ## Opening streams -/

/-- What `release_pending_opens` preserves. -/
theorem releasePendingOpens_invariant {I : Endpoint → Prop}
    (hpending : ∀ (e : Endpoint) l, I e → I { e with pendingOpens := l })
    (halloc : ∀ (e : Endpoint) (bidi : Bool) (requestId : Nat), e.ready = true → e.closed = false →
      (e.usesSessionFlowControl = true → e.opened bidi < e.fcMaxStreamsRemote bidi) → I e →
      I (e.allocateStream bidi requestId)) {e : Endpoint} (he : I e) : I e.releasePendingOpens := by
  have hfold : ∀ (l : List (Bool × Nat)) (s : Endpoint), s.ready = true → s.closed = false → I s →
      I (l.foldl releaseOpen s) := by
    intro l
    induction l with
    | nil => exact fun s _ _ hs => hs
    | cons q l ih =>
        intro s hready hclosed hs
        rw [List.foldl_cons]
        unfold releaseOpen
        split
        · exact ih _ hready hclosed (hpending _ _ hs)
        next hlimit =>
          refine ih _ ?_ ?_ (halloc s q.1 q.2 hready hclosed ?_ hs)
          · cases hq : q.1 <;> simpa [allocateStream, insertStream, emit] using hready
          · cases hq : q.1 <;> simpa [allocateStream, insertStream, emit] using hclosed
          · intro huses
            simp only [huses, true_and, not_le] at hlimit
            exact hlimit
  unfold releasePendingOpens
  split
  · exact he
  next h =>
    simp only [Bool.not_eq_true', not_or, Bool.not_eq_false, Bool.not_eq_true] at h
    exact hfold _ _ h.1 h.2 (hpending _ _ he)

/-! ## A whole flush -/

theorem flushStream_keys (e : Endpoint) (id : Nat) :
    (e.flushStream id).streams.keys = e.streams.keys :=
  flushStream_invariant (I := fun s => s.streams.keys = e.streams.keys)
    (fun _ _ hs h => hs.keys.trans h) rfl

section

variable [H3.Codec] {P : Endpoint → Step → Prop} {I : Endpoint → Prop} {S : Nat → Endpoint → Prop}

/-- What the send loop establishes for each stream it visits. -/
theorem flushStreams_settle
    (hstep : ∀ e s, I e → e.StepAdmissible s → P e s → I (e.step s))
    (hsettle : ∀ e id, I e → P e (.flushStream id) → S id (e.flushStream id))
    (hkeep : ∀ e i j, i ≠ j → I e → S i e → S i (e.flushStream j)) :
    ∀ (ids : List Nat) (e : Endpoint), ids.Nodup → I e →
      Along step P e (ids.map .flushStream) →
      I (execute step e (ids.map .flushStream)) ∧
        (∀ i ∈ ids, S i (execute step e (ids.map .flushStream))) ∧
        (∀ i, i ∉ ids → S i e → S i (execute step e (ids.map .flushStream))) ∧
        (execute step e (ids.map .flushStream)).streams.keys = e.streams.keys
  | [], e, _, hI, _ => ⟨hI, by simp, fun _ _ h => h, rfl⟩
  | j :: ids, e, hnodup, hI, hP => by
      obtain ⟨hnot, hnodup⟩ := List.nodup_cons.mp hnodup
      have hI1 : I (e.flushStream j) := hstep e (.flushStream j) hI trivial hP.1
      have hSj := hsettle e j hI hP.1
      obtain ⟨hI2, hall, hrest, hkeys⟩ :=
        flushStreams_settle hstep hsettle hkeep ids (e.flushStream j) hnodup hI1 hP.2
      refine ⟨hI2, fun i hi => ?_, fun i hi hS => ?_, hkeys.trans (flushStream_keys e j)⟩
      · rcases List.mem_cons.mp hi with rfl | hi
        · exact hrest i hnot hSj
        · exact hall i hi
      · obtain ⟨hij, hi⟩ := not_or.mp (mt List.mem_cons.mpr hi)
        exact hrest i hi (hkeep e i j hij hI hS)

/-- A flush in two parts: up to the pruning, where the send loop has visited
every stream, and the rest. -/
theorem flush_settle
    (hstep : ∀ e s, I e → e.StepAdmissible s → P e s → I (e.step s))
    (hsettle : ∀ e id, I e → P e (.flushStream id) → S id (e.flushStream id))
    (hkeep : ∀ e i j, i ≠ j → I e → S i e → S i (e.flushStream j))
    (htail : ∀ e i, I e → S i e → S i e.commitSent ∧ S i e.signalFlowControlBlocked)
    {e : Endpoint} {order : HashOrder} (hI : I e) (hc : e.Meets P (.flush order)) :
    ∃ e1, I e1 ∧ (∀ i st, e1.streams.get i = some st → S i e1) ∧ P e1 .prune ∧
      P e1.prune .gracefulClose ∧ e.call (.flush order) = e1.prune.gracefulClose := by
  have hall := along_and (steps_admissible hc.1) hc.2
  obtain ⟨hhead, hrest⟩ := along_append.mp hall
  have hI0 := execute_invariant (fun e s hI hs => hstep e s hI hs.1 hs.2) hI hhead
  have hloop := along_append.mp hrest
  obtain ⟨-, hP⟩ := along_and_iff.mp hloop.1
  have hperm := order.perm (execute step e flushHead).streams.keys
  obtain ⟨hI1, hS, -, hkeys⟩ := flushStreams_settle hstep hsettle hkeep (flushIds order e) _
    (hperm.nodup_iff.mpr (execute step e flushHead).streams.nodup) hI0 hP
  obtain ⟨⟨-, hcommit⟩, ⟨-, hsignal⟩, ⟨-, hprune⟩, ⟨-, hclose⟩, -⟩ := hloop.2
  have hI2 := hstep _ .commitSent hI1 trivial hcommit
  have hI3 := hstep _ .signalFlowControlBlocked hI2 trivial hsignal
  refine ⟨_, hI3, fun i st hg => ?_, hprune, hclose, ?_⟩
  · have hmem := Table.mem_keys_of_get hg
    rw [show (Endpoint.step _ .signalFlowControlBlocked).streams.keys = _ from
      (Aside.signalFlowControlBlocked _).keys] at hmem
    have hmem : i ∈ flushIds order e := by
      refine hperm.mem_iff.mpr ?_
      rw [← hkeys]
      exact hmem
    exact (htail _ i hI2 (htail _ i hI1 (hS i hmem)).1).2
  · rw [call_eq]
    simp only [steps, execute_append]
    rfl

end

end Endpoint

end RWebTransport
