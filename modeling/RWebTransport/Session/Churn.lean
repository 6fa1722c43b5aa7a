import RWebTransport.Session.Pruning
import RWebTransport.Session.StopSending

/-!
# Churned streams leave the table

The marks of the stream table are followed through every step, one stream at a
time: along a run that keeps to `KeepsTidy` they agree with the connection, and
a flush leaves nothing behind that QUIC has no use for.
-/

namespace RWebTransport.Endpoint

open Quic (isBidi isLocal QStream)
open Quic.Connection (Send streamSend_spec)

/-! ## The marks of one stream -/

/-- The marks of one stream are right. -/
structure TidyAt (e : Endpoint) (id : Nat) : Prop where
  send : ∀ st, e.streams.get id = some st → Droppable id st →
    TidyStream e.cfg.isServer id (e.conn.streams id) st
  bare : isLocal id e.cfg.isServer = false → e.streams.get id = none →
    (e.conn.streams id).send.fin = true ∨ (e.conn.streams id).send.shut = true →
    e.closed = true ∨ (e.conn.streams id).Exhausted
  recv : e.TidyRecv id

theorem Tidy.at {e : Endpoint} (h : e.Tidy) (id : Nat) : e.TidyAt id :=
  ⟨h.entry id, h.bare id, h.recv id⟩

theorem Tidy.of_at {e : Endpoint} (hdead : e.AllDead) (h : ∀ id, e.TidyAt id) : e.Tidy :=
  ⟨⟨fun id => (h id).send, fun id => (h id).bare, hdead⟩, fun id => (h id).recv⟩

/-- What the marks are compared with is as before. -/
structure SameEnds (q q' : QStream) : Prop where
  recv : q'.recv.ended = q.recv.ended ∧ q'.recv.drain = q.recv.drain
  send : q'.send.fin = q.send.fin ∧ q'.send.shut = q.send.shut
  stopped : q.send.error.isSome = true → q'.send.error.isSome = true
  exhausted : q.Exhausted → q'.Exhausted

theorem SameEnds.refl (q : QStream) : SameEnds q q := ⟨⟨rfl, rfl⟩, ⟨rfl, rfl⟩, id, id⟩

/-- The marks of an entry are as before, and its queue as far as they depend on it. -/
structure SameMarks (st st' : Stream) : Prop where
  finSent : st'.finSent = st.finSent
  out : st.finSent = true ∨ Unsurfaced st → st.out = [] → st'.out = []
  finQueued : Unsurfaced st → st'.finQueued = st.finQueued

theorem SameMarks.refl (st : Stream) : SameMarks st st := ⟨rfl, fun _ h => h, fun _ => rfl⟩

/-- Nothing has changed that the marks depend on. -/
structure Tends (e e' : Endpoint) : Prop where
  cfg : e'.cfg = e.cfg
  closed : e'.closed = e.closed
  ends : ∀ i, SameEnds (e.conn.streams i) (e'.conn.streams i)
  entry : ∀ i st', e'.streams.get i = some st' → ∃ st, e.streams.get i = some st ∧
    st'.role = st.role ∧ (st.recvDead = true → st'.recvDead = true) ∧
    (i ≠ connectId → SameMarks st st')
  gone : ∀ i, e'.streams.get i = none → e.streams.get i = none

section

variable {e e' : Endpoint} {i id : Nat}

theorem Tends.allDead (h : Tends e e') (hall : e.AllDead) : e'.AllDead := by
  intro hc i st' hg hrole
  obtain ⟨st, hst, hr, hdead, -⟩ := h.entry i st' hg
  exact hdead (hall (h.closed ▸ hc) i st hst (hr ▸ hrole))

theorem SameMarks.tidyStream {isServer : Bool} {q q' : QStream} {st st' : Stream}
    (h : SameMarks st st') (hrole : st'.role = st.role) (hq : SameEnds q q')
    (ht : TidyStream isServer i q st) : TidyStream isServer i q' st' where
  send hover := by
    rw [hq.send.1, hq.send.2] at hover
    exact h.finSent.trans (ht.send hover)
  queue hsent := by
    rw [h.finSent] at hsent
    exact (ht.queue hsent).imp (h.out (.inl hsent)) hq.stopped
  idle hu := by
    have hu' : Unsurfaced st := by
      unfold Unsurfaced at hu ⊢
      rwa [hrole] at hu
    obtain ⟨hpeer, hsent, hqueued, hout⟩ := ht.idle hu'
    exact ⟨hpeer, h.finSent.trans hsent, (h.finQueued hu').trans hqueued, h.out (.inr hu') hout⟩

theorem Tends.tidyAt (h : Tends e e') (ht : e.TidyAt i) : e'.TidyAt i where
  send st' hg hd := by
    obtain ⟨st, hst, hrole, -, hmarks⟩ := h.entry i st' hg
    rw [h.cfg]
    exact (hmarks hd.1).tidyStream hrole (h.ends i) (ht.send st hst ⟨hd.1, hrole ▸ hd.2⟩)
  bare hi hnone hover := by
    rw [(h.ends i).send.1, (h.ends i).send.2] at hover
    exact (ht.bare (h.cfg ▸ hi) (h.gone i hnone) hover).imp h.closed.trans (h.ends i).exhausted
  recv st' hg hd hover := by
    obtain ⟨st, hst, hrole, hdead, -⟩ := h.entry i st' hg
    rw [(h.ends i).recv.1, (h.ends i).recv.2] at hover
    refine (ht.recv st hst ⟨hd.1, hrole ▸ hd.2⟩ hover).imp hdead fun ⟨hr, hb⟩ => ⟨?_, hb⟩
    exact hrole.trans hr

theorem Tends.tidy (h : Tends e e') (ht : e.Tidy) : e'.Tidy :=
  .of_at (h.allDead ht.allDead) fun i => h.tidyAt (ht.at i)

/-- One stream has changed. -/
theorem Tidy.change (ht : e.Tidy) (id : Nat) (hcfg : e'.cfg = e.cfg) (hclosed : e'.closed = e.closed)
    (hget : ∀ i, i ≠ id → e'.streams.get i = e.streams.get i)
    (hconn : ∀ i, i ≠ id → e'.conn.streams i = e.conn.streams i)
    (hdead : ∀ st', e'.streams.get id = some st' → e.closed = true → st'.role ≠ .localControlPlane →
      st'.recvDead = true) (hid : e'.TidyAt id) : e'.Tidy := by
  refine .of_at (fun hc i st' hg hrole => ?_) fun i => ?_
  · by_cases hi : i = id
    · subst hi
      exact hdead st' hg (hclosed ▸ hc) hrole
    · rw [hget i hi] at hg
      exact ht.allDead (hclosed ▸ hc) i st' hg hrole
  · by_cases hi : i = id
    · exact hi ▸ hid
    · refine ⟨fun st hg hd => ?_, fun hl hnone hover => ?_, fun st hg hd hover => ?_⟩
      · rw [hget i hi] at hg
        rw [hcfg, hconn i hi]
        exact ht.entry i st hg hd
      · rw [hget i hi] at hnone
        rw [hconn i hi] at hover ⊢
        exact (ht.bare i (hcfg ▸ hl) hnone hover).imp_left hclosed.trans
      · rw [hget i hi] at hg
        rw [hconn i hi] at hover
        exact ht.recv i st hg hd hover

/-- A stream the application may write to is one that `flush` may drop. -/
theorem Tidy.writable (ht : e.Tidy) (hl : e.Layout) (hw : e.Writable id) {st : Stream}
    (hst : e.streams.get id = some st) : Droppable id st ∧ ¬Unsurfaced st := by
  obtain ⟨hne, hctl⟩ := hl.writable_ne hw
  have hrole : e.roleOf id = some st.role := by rw [roleOf, hst, Option.map_some]
  have hd : Droppable id st := ⟨hne, fun hr => hctl (hl.roles id .localControlPlane (hr ▸ hrole))⟩
  refine ⟨hd, fun hu => ?_⟩
  have hdata := hl.data id st.role ((ht.entry id st hst hd).idle hu).1 hw.surfaced hrole
  rcases hu with hu | hu | hu <;> rw [hu] at hdata <;> cases hdata

end

/-! ## Steps that leave the marks alone -/

theorem Queued.kept {st st' : Stream} (h : Queued st st') :
    st'.role = st.role ∧ st'.recvDead = st.recvDead := by
  induction h with
  | refl => exact ⟨rfl, rfl⟩
  | push _ _ ih => exact ih
  | finish _ _ ih => exact ih

namespace Tends

variable {e e' : Endpoint} {id : Nat}

theorem trans {a b c : Endpoint} (hab : Tends a b) (hbc : Tends b c) : Tends a c where
  cfg := hbc.cfg.trans hab.cfg
  closed := hbc.closed.trans hab.closed
  ends i := by
    have h1 := hab.ends i
    have h2 := hbc.ends i
    exact ⟨⟨h2.recv.1.trans h1.recv.1, h2.recv.2.trans h1.recv.2⟩,
      ⟨h2.send.1.trans h1.send.1, h2.send.2.trans h1.send.2⟩, h2.stopped ∘ h1.stopped,
      h2.exhausted ∘ h1.exhausted⟩
  entry i st'' hg := by
    obtain ⟨st', hst', hrole', hdead', hmarks'⟩ := hbc.entry i st'' hg
    obtain ⟨st, hst, hrole, hdead, hmarks⟩ := hab.entry i st' hst'
    refine ⟨st, hst, hrole'.trans hrole, hdead' ∘ hdead, fun hi => ?_⟩
    have h1 := hmarks hi
    have h2 := hmarks' hi
    have hu : Unsurfaced st → Unsurfaced st' := fun hu => by
      unfold Unsurfaced
      rwa [hrole]
    exact ⟨h2.finSent.trans h1.finSent,
      fun hcase hout => h2.out (hcase.imp (h1.finSent ▸ ·) hu) (h1.out hcase hout),
      fun hcase => (h2.finQueued (hu hcase)).trans (h1.finQueued hcase)⟩
  gone i hnone := hab.gone i (hbc.gone i hnone)

/-- Fields have changed that the marks do not depend on. -/
theorem of_eq (hcfg : e'.cfg = e.cfg) (hclosed : e'.closed = e.closed)
    (hconn : e'.conn.streams = e.conn.streams) (hstreams : e'.streams = e.streams) : Tends e e' :=
  ⟨hcfg, hclosed, fun _ => hconn ▸ .refl _,
    fun _ st' hg => ⟨st', hstreams ▸ hg, rfl, fun h => h, fun _ => .refl st'⟩,
    fun _ hnone => hstreams ▸ hnone⟩

theorem refl (e : Endpoint) : Tends e e := of_eq rfl rfl rfl rfl

theorem of_aside (h : Aside e e') : Tends e e' where
  cfg := h.cfg
  closed := h.closed
  ends i := h.conn ▸ .refl _
  entry i st' hg := by
    by_cases hi : i = connectId
    · subst hi
      obtain ⟨st, hst, hq⟩ := h.connect st' hg
      exact ⟨st, hst, hq.kept.1, fun hd => hq.kept.2.trans hd, fun hne => absurd rfl hne⟩
    · rw [h.get i hi] at hg
      exact ⟨st', hg, rfl, fun h => h, fun _ => .refl st'⟩
  gone i hnone := by
    by_contra hsome
    obtain ⟨st, hst⟩ := Option.ne_none_iff_exists'.mp hsome
    have hmem := Table.mem_keys_of_get hst
    rw [← h.keys] at hmem
    obtain ⟨st', hst'⟩ := Table.exists_get_of_mem_keys hmem
    simp [hnone] at hst'

theorem modify (e : Endpoint) (id : Nat) {f : Stream → Stream}
    (hf : ∀ st, e.streams.get id = some st → (f st).role = st.role ∧
      (f st).recvDead = st.recvDead ∧ SameMarks st (f st)) : Tends e (e.modifyStream id f) := by
  refine ⟨rfl, rfl, fun i => .refl _, fun i st' hg => ?_, fun i hnone => ?_⟩
  · by_cases hi : i = id
    · subst hi
      simp only [modifyStream, Table.get_modify_self, Option.map_eq_some_iff] at hg
      obtain ⟨st, hst, rfl⟩ := hg
      obtain ⟨hrole, hdead, hmarks⟩ := hf st hst
      exact ⟨st, hst, hrole, hdead.trans, fun _ => hmarks⟩
    · rw [show (e.modifyStream id f).streams.get i = e.streams.get i from Table.get_modify_ne hi] at hg
      exact ⟨st', hg, rfl, fun h => h, fun _ => .refl st'⟩
  · simp only [modifyStream, Table.get_modify] at hnone
    split at hnone
    · simpa using hnone
    · exact hnone

/-- The connection has changed. -/
theorem conn (e : Endpoint) {c : Quic.Connection}
    (h : ∀ i, SameEnds (e.conn.streams i) (c.streams i)) : Tends e { e with conn := c } :=
  ⟨rfl, rfl, h, fun _ st' hg => ⟨st', hg, rfl, fun h => h, fun _ => .refl st'⟩, fun _ h => h⟩

theorem network (hl : e.Layout) (event : Quic.NetEvent) :
    Tends e { e with conn := e.conn.net event } := by
  refine conn e fun i => ?_
  obtain ⟨hended, hdrain, hfin, hshut⟩ :=
    Quic.Connection.net_flags (fun i => (hl.wellFormed i).absent) event i
  exact ⟨⟨hended, hdrain⟩, ⟨hfin, hshut⟩,
    Quic.Connection.net_stopped (fun i => (hl.wellFormed i).absent) event,
    fun hx => Quic.Connection.exhausted_net hl.wellFormed hx event⟩

theorem setPaused (e : Endpoint) (id : Nat) (paused : Bool) : Tends e (e.setPaused id paused) :=
  modify e id fun _ _ => ⟨rfl, rfl, rfl, fun _ h => h, fun _ => rfl⟩

theorem streamFin (ht : e.Tidy) (hl : e.Layout) (hw : e.Writable id) : Tends e (e.streamFin id) :=
  modify e id fun _ hst => ⟨rfl, rfl, rfl, fun _ h => h, fun hu => absurd hu (ht.writable hl hw hst).2⟩

end Tends

/-! ## Steps on one stream -/

section

variable {e e' : Endpoint} {id : Nat}

/-- Fields have changed that the marks do not depend on. -/
theorem Tidy.same (ht : e.Tidy) (hcfg : e'.cfg = e.cfg) (hclosed : e'.closed = e.closed)
    (hconn : e'.conn.streams = e.conn.streams) (hstreams : e'.streams = e.streams) : e'.Tidy :=
  (Tends.of_eq hcfg hclosed hconn hstreams).tidy ht

/-- The send side of a stream is marked as over. -/
theorem Tidy.seal (ht : e.Tidy) {st : Stream} (st' : Stream) (hcfg : e'.cfg = e.cfg)
    (hclosed : e'.closed = e.closed) (hget : ∀ i, i ≠ id → e'.streams.get i = e.streams.get i)
    (hconn : ∀ i, i ≠ id → e'.conn.streams i = e.conn.streams i)
    (hrecv : (e'.conn.streams id).recv = (e.conn.streams id).recv)
    (hst : e.streams.get id = some st) (hst' : e'.streams.get id = some st')
    (hrole : st'.role = st.role) (hdead : st'.recvDead = st.recvDead) (hsent : st'.finSent = true)
    (hout : st'.out = []) (hactive : Droppable id st → ¬Unsurfaced st) : e'.Tidy := by
  have hentry : ∀ st2, e'.streams.get id = some st2 → st2 = st' := fun _ h2 =>
    Option.some.inj (h2.symm.trans hst')
  refine ht.change id hcfg hclosed hget hconn (fun st2 h2 hc hr => ?_)
    ⟨fun st2 h2 hd => ?_, fun _ hnone => ?_, fun st2 h2 hd hover => ?_⟩
  · rw [hentry st2 h2] at hr ⊢
    exact hdead.trans (ht.allDead hc id st hst (hrole ▸ hr))
  · rw [hentry st2 h2] at hd ⊢
    refine ⟨fun _ => hsent, fun _ => .inl hout, fun hu => ?_⟩
    refine absurd ?_ (hactive ⟨hd.1, hrole ▸ hd.2⟩)
    unfold Unsurfaced at hu ⊢
    rwa [hrole] at hu
  · rw [hst'] at hnone
    cases hnone
  · rw [hentry st2 h2] at hd ⊢
    rw [hrecv] at hover
    rw [hdead, hrole]
    exact ht.recv id st hst ⟨hd.1, hrole ▸ hd.2⟩ hover

/-- A write in front of our end of the stream, or on a stopped one. -/
theorem Tidy.streamWrite (ht : e.Tidy) (hl : e.Layout) (hw : e.Writable id)
    (hopen : ∀ st, e.streams.get id = some st → st.finSent = true →
      (e.conn.streams id).send.error.isSome = true) (data : Bytes) (requestId : Nat) :
    (e.streamWrite id data requestId).Tidy := by
  unfold Endpoint.streamWrite
  simp only
  split
  next hcontains =>
    obtain ⟨st, hst⟩ := Option.isSome_iff_exists.mp hcontains
    have hst : e.streams.get id = some st := hst
    have hget : ((e.log (.written id data requestId)).modifyStream id fun st =>
        st.push data (some requestId)).streams.get id = some (st.push data (some requestId)) := by
      simp [modifyStream, log, hst]
    have hentry : ∀ st2, ((e.log (.written id data requestId)).modifyStream id fun st =>
        st.push data (some requestId)).streams.get id = some st2 →
        st2 = st.push data (some requestId) := fun _ h2 => Option.some.inj (h2.symm.trans hget)
    obtain ⟨hd, hactive⟩ := ht.writable hl hw hst
    refine ht.change id rfl rfl (fun i hi => Table.get_modify_ne hi) (fun _ _ => rfl)
      (fun st2 h2 hc hr => ?_) ⟨fun st2 h2 _ => ?_, fun _ hnone => ?_, fun st2 h2 _ hover => ?_⟩
    · rw [hentry st2 h2] at hr ⊢
      exact ht.allDead hc id st hst hr
    · rw [hentry st2 h2]
      exact ⟨(ht.entry id st hst hd).send, fun hsent => .inr (hopen st hst hsent),
        fun hu => absurd hu hactive⟩
    · rw [hget] at hnone
      cases hnone
    · rw [hentry st2 h2]
      exact ht.recv id st hst hd hover
  · exact ht.same rfl rfl rfl rfl

theorem Tidy.streamReset (ht : e.Tidy) (hl : e.Layout) (hw : e.Writable id) (code : Nat) :
    (e.streamReset id code).Tidy := by
  rcases streamReset_spec e id code with heq | ⟨st, hst, hreset⟩
  · rwa [heq]
  obtain ⟨n, hn⟩ := hreset.entry
  refine ht.seal { st with sendPayload := n, out := [], finSent := true } hreset.cfg hreset.closed
    hreset.get_ne (fun i hi => ?_) ?_ hst hn rfl rfl rfl rfl fun _ => (ht.writable hl hw hst).2
  · rw [hreset.conn]
    rcases Quic.Connection.streamShutdownWrite_streams e.conn id
      (H3.webtransportCodeToHttpCode code) i with hs | ⟨hi', -⟩
    · exact hs
    · exact absurd hi' hi
  · rw [hreset.conn]
    exact Quic.Connection.streamShutdownWrite_recv _ _ _ _

theorem Tidy.streamStopSending (ht : e.Tidy) (id code : Nat) : (e.streamStopSending id code).Tidy := by
  unfold Endpoint.streamStopSending
  split
  next hcontains =>
    obtain ⟨st, hst⟩ := Option.isSome_iff_exists.mp hcontains
    have hget : ((e.shutdownRead id (H3.webtransportCodeToHttpCode code)).setRecvDead id).streams.get id =
        some { st with recvDead := true } := by
      simp [setRecvDead, modifyStream, Endpoint.shutdownRead, hst]
    have hentry : ∀ st2, ((e.shutdownRead id (H3.webtransportCodeToHttpCode code)).setRecvDead
        id).streams.get id = some st2 → st2 = { st with recvDead := true } := fun _ h2 =>
      Option.some.inj (h2.symm.trans hget)
    refine ht.change id rfl rfl (fun i hi => Table.get_modify_ne hi) (fun i hi => ?_)
      (fun st2 h2 _ _ => by rw [hentry st2 h2]) ⟨fun st2 h2 hd => ?_, fun _ hnone => ?_,
        fun st2 h2 _ _ => .inl (by rw [hentry st2 h2])⟩
    · rcases Quic.Connection.streamShutdownRead_streams e.conn id
        (H3.webtransportCodeToHttpCode code) i with hs | ⟨hi', -⟩
      · exact hs
      · exact absurd hi' hi
    · rw [hentry st2 h2] at hd ⊢
      have h : TidyStream e.cfg.isServer id
          ((e.conn.streamShutdownRead id (H3.webtransportCodeToHttpCode code)).streams id) st :=
        (ht.entry id st hst hd).congr (by rw [Quic.Connection.streamShutdownRead_send])
          (by rw [Quic.Connection.streamShutdownRead_send])
          (by rw [Quic.Connection.streamShutdownRead_send]; exact fun hstop => hstop)
      exact ⟨h.send, h.queue, h.idle⟩
    · rw [hget] at hnone
      cases hnone
  · exact ht

/-- A stream that was never used is as the connection makes it. -/
theorem Layout.untouched (hl : e.Layout) (habs : (e.conn.streams id).phase = .absent) :
    e.conn.streams id = {} := (hl.wellFormed id).absent habs

theorem Tidy.insertLocal (ht : e.Tidy) (hmem : id ∈ controlIds e.cfg.isServer) (bytes : Bytes) :
    (e.insertLocal id bytes).Tidy := by
  have hentry : ∀ st2, (e.insertLocal id bytes).streams.get id = some st2 →
      st2 = .withPrefix .localControlPlane bytes e.parserMemory := fun _ h2 =>
    Option.some.inj (h2.symm.trans (Table.get_insert_self _ _ _))
  refine ht.change id rfl rfl (fun i hi => Table.get_insert_ne hi) (fun _ _ => rfl)
    (fun st2 h2 _ hr => absurd (by rw [hentry st2 h2]; rfl) hr)
    ⟨fun st2 h2 hd => absurd (by rw [hentry st2 h2]; rfl) hd.2, fun hpeer => ?_,
      fun st2 h2 hd _ => absurd (by rw [hentry st2 h2]; rfl) hd.2⟩
  have hpeer : isLocal id e.cfg.isServer = false := hpeer
  simp [controlIds_local hmem] at hpeer

theorem Tidy.onEstablished (ht : e.Tidy) : e.onEstablished.Tidy := by
  have hids : controlId e.cfg.isServer ∈ controlIds e.cfg.isServer ∧
      qpackEncId e.cfg.isServer ∈ controlIds e.cfg.isServer ∧
      qpackDecId e.cfg.isServer ∈ controlIds e.cfg.isServer := by simp [controlIds]
  unfold Endpoint.onEstablished
  split_ifs
  · exact ht
  · have h1 : Tidy { e with setupSent := true } := ht.same rfl rfl rfl rfl
    have h4 := ((h1.insertLocal hids.1 H3.controlStreamPrefix).insertLocal hids.2.1
      (H3.putVarint H3.qpackEncoderStreamType)).insertLocal hids.2.2
      (H3.putVarint H3.qpackDecoderStreamType)
    simp only
    split_ifs
    · exact h4
    · exact h4.same rfl rfl rfl rfl

theorem Tidy.touch (ht : e.Tidy) (hl : e.Layout) (hc : e.closed = false)
    (hr : e.conn.readable id = true)
    (hpeer : e.streams.contains id = true ∨ isLocal id e.cfg.isServer = false) :
    (e.touch id).Tidy := by
  unfold Endpoint.touch
  split
  · exact ht
  next hcontains =>
    have hpeer := hpeer.resolve_left hcontains
    have hnone : e.streams.get id = none := by simpa [Table.contains] using hcontains
    have hready : (e.conn.streams id).recv.ready = true := by
      simp only [Quic.Connection.readable, Bool.and_eq_true] at hr
      exact hr.2
    have hunread : ¬((e.conn.streams id).recv.ended = true ∨ (e.conn.streams id).recv.drain = true) :=
      fun hover => by simp [(hl.wellFormed id).recv.not_ready hover.symm] at hready
    have hunsent : ¬((e.conn.streams id).send.fin = true ∨ (e.conn.streams id).send.shut = true) := by
      intro hover
      rcases ht.bare id hpeer hnone hover with hclosed | hx
      · simp [hc] at hclosed
      · simp [Quic.Connection.not_readable_of_exhausted (hl.wellFormed id) hx] at hr
    have hentry : ∀ st2, (e.insertStream id (.new (classifyNew id e.cfg.isServer)
        e.parserMemory)).streams.get id = some st2 →
        st2 = .new (classifyNew id e.cfg.isServer) e.parserMemory := fun _ h2 =>
      Option.some.inj (h2.symm.trans (Table.get_insert_self _ _ _))
    refine ht.change id rfl rfl (fun i hi => Table.get_insert_ne hi) (fun _ _ => rfl)
      (fun _ _ hclosed _ => by simp [hc] at hclosed)
      ⟨fun st2 h2 hd => ?_, fun _ _ hover => absurd hover hunsent, fun _ _ _ hover => absurd hover hunread⟩
    rw [hentry st2 h2]
    exact ⟨fun hover => absurd hover hunsent, fun hsent => (by cases hsent),
      fun _ => ⟨hpeer, rfl, rfl, rfl⟩⟩

theorem Tidy.allocateStream (ht : e.Tidy) (hl : e.Layout) (hc : e.closed = false) (bidi : Bool)
    (requestId : Nat) : (e.allocateStream bidi requestId).Tidy := by
  obtain ⟨k, hk⟩ := hl.next bidi
  have hlocal : isLocal (e.nextId bidi) e.cfg.isServer = true := hk ▸ isLocal_ownId _ _ _
  have hnew : e.conn.streams (e.nextId bidi) = {} :=
    hl.untouched (hk ▸ (hl.fresh bidi k hk.le).2)
  have hcfg : (e.allocateStream bidi requestId).cfg = e.cfg := by cases bidi <;> rfl
  have hclosed : (e.allocateStream bidi requestId).closed = e.closed := by cases bidi <;> rfl
  have hconn : (e.allocateStream bidi requestId).conn = e.conn := by cases bidi <;> rfl
  have hstreams : (e.allocateStream bidi requestId).streams = e.streams.insert (e.nextId bidi)
      (.withPrefix (.wtData bidi) (streamSignal bidi) e.parserMemory) := by
    cases bidi <;> rfl
  have hentry : ∀ st2, (e.allocateStream bidi requestId).streams.get (e.nextId bidi) = some st2 →
      st2 = .withPrefix (.wtData bidi) (streamSignal bidi) e.parserMemory := fun st2 h2 => by
    rw [hstreams, Table.get_insert_self] at h2
    exact (Option.some.inj h2).symm
  refine ht.change (e.nextId bidi) hcfg hclosed (fun i hi => ?_) (fun i _ => by rw [hconn])
    (fun _ _ h _ => by simp [hc] at h)
    ⟨fun st2 h2 hd => ?_, fun hpeer => ?_, fun st2 h2 hd hover => ?_⟩
  · rw [hstreams, Table.get_insert_ne hi]
  · rw [hentry st2 h2, hconn, hnew]
    refine ⟨fun hover => by simp at hover, fun hsent => (by cases hsent), fun hu => ?_⟩
    rcases hu with hu | hu | hu <;> cases hu
  · rw [hcfg, hlocal] at hpeer
    cases hpeer
  · rw [hconn, hnew] at hover
    simp at hover

theorem Tidy.releasePendingOpens (ht : e.Tidy) (hl : e.Layout) : e.releasePendingOpens.Tidy := by
  have hboth := releasePendingOpens_invariant (I := fun s => s.Layout ∧ s.Tidy)
    (fun s l h => ⟨h.1.same (.session rfl rfl rfl rfl rfl rfl rfl rfl rfl),
      h.2.same rfl rfl rfl rfl⟩)
    (fun s bidi requestId _ hc _ h => ⟨h.1.allocateStream bidi requestId,
      h.2.allocateStream h.1 hc bidi requestId⟩) ⟨hl, ht⟩
  exact hboth.2

/-- A stream of the peer that was dropped has no further input. -/
theorem Tidy.prune (ht : e.Tidy) (hl : e.Layout) : e.prune.Tidy := by
  have hget : ∀ {i st}, e.prune.streams.get i = some st → e.streams.get i = some st := by
    intro i st hg
    simp only [Endpoint.prune, Table.get_filter, Option.filter_eq_some_iff] at hg
    exact hg.1
  refine .of_at (fun hc i st hg hr => ht.allDead hc i st (hget hg) hr) fun i =>
    ⟨fun st hg hd => ht.entry i st (hget hg) hd, fun hi hnone hover => ?_,
      fun st hg hd hover => ht.recv i st (hget hg) hd hover⟩
  cases hst : e.streams.get i with
  | none => exact ht.bare i hi hst hover
  | some st =>
      simp only [Endpoint.prune, Table.get_filter, hst, Option.filter_eq_none_iff] at hnone
      have hdropped : retains e.cfg.isServer i st = false := by simpa using hnone st rfl
      exact hl.ended i st hi hst (recvDead_of_dropped hi hdropped)

theorem Tidy.markClosed (ht : e.Tidy) (code : Nat) (reason : Bytes) (remote : Bool) :
    (e.markClosed code reason remote).Tidy := by
  cases hc : e.closed with
  | true => rwa [Endpoint.markClosed, if_pos hc]
  | false =>
      have hget : ∀ {i st'}, (e.markClosed code reason remote).streams.get i = some st' →
          ∃ st, e.streams.get i = some st ∧ st' = st.dead := by
        intro i st' hg
        rw [markClosed_streams hc, Table.get_map] at hg
        obtain ⟨st, hst, rfl⟩ := Option.map_eq_some_iff.mp hg
        exact ⟨st, hst, rfl⟩
      refine .of_at (fun _ i st' hg _ => ?_) fun i => ⟨fun st' hg hd => ?_,
        fun _ _ _ => .inl (markClosed_closed _ _ _ _), fun st' hg _ _ => ?_⟩
      · obtain ⟨st, -, rfl⟩ := hget hg
        rfl
      · obtain ⟨st, hst, rfl⟩ := hget hg
        rw [markClosed_cfg, markClosed_conn]
        have h := ht.entry i st hst hd
        exact ⟨h.send, h.queue, h.idle⟩
      · obtain ⟨st, -, rfl⟩ := hget hg
        exact .inl rfl

end

/-! ## The send loop -/

section

variable {e e' : Endpoint} {i id : Nat}

/-- Sending keeps both ends of a stream as they are, unless the FIN is accepted. -/
theorem SameEnds.of_send {c c' : Quic.Connection} {bytes : Bytes} {fin : Bool}
    {r : Except Quic.Error Nat} (h : Send c id bytes fin r c') (hwf : c.WellFormed)
    (hfin : fin = false ∨ ∃ err, r = .error err) (i : Nat) :
    SameEnds (c.streams i) (c'.streams i) := by
  obtain ⟨hsent, hshut, herr⟩ := h.flags (fun i => (hwf i).absent) hfin i
  have hrecv := h.recv (fun i => (hwf i).absent) i
  exact ⟨⟨by rw [hrecv], by rw [hrecv]⟩, ⟨hsent, hshut⟩, fun hstop => herr ▸ hstop, h.exhausted hwf⟩

/-- An effect of the send loop keeps the marks right. -/
theorem Sending.tidy (h : Sending id e e') (hwf : e.conn.WellFormed) (ht : e.Tidy) : e'.Tidy := by
  have hne := fun i (hi : i ≠ id) => h.get_ne hi
  have hconn := fun i (hi : i ≠ id) => h.conn_ne hi
  cases h with
  | @returned st finalSize hst hdata hfinal hlt =>
      have hmodify : Tends e (e.modifyStream id fun st =>
          { st with sendPayload := finalSize - st.sendPrefix }) :=
        .modify e id fun _ _ => ⟨rfl, rfl, rfl, fun _ h => h, fun _ => rfl⟩
      exact (hmodify.tidy ht).same rfl rfl rfl rfl
  | refused hst hs => exact (Tends.conn e (.of_send hs hwf (.inr ⟨_, rfl⟩))).tidy ht
  | @sent st front rest n c hst hout hamount hs =>
      have hsent := (Tends.conn e (.of_send hs hwf (.inl rfl))).tidy ht
      have hmodify : Tends { e with conn := c } (({ e with conn := c } : Endpoint).modifyStream id
          fun st' => { st' with
            sendPayload := if isPayload st front then st'.sendPayload + n else st'.sendPayload
            out := if decide (front.data.length ≤ front.off + n) then rest
              else { front with off := front.off + n } :: rest }) := by
        refine .modify _ id fun st' hst' => ⟨rfl, rfl, rfl, fun _ hempty => ?_, fun _ => rfl⟩
        obtain rfl : st = st' := Option.some.inj (hst.symm.trans hst')
        rw [hout] at hempty
        cases hempty
      exact (hmodify.tidy hsent).same rfl rfl rfl rfl
  | @stopped st bytes code c hst hout hs =>
      refine ht.seal { st with out := [], finSent := true } rfl rfl hne hconn
        (hs.recv (fun i => (hwf i).absent) id) hst ?_ rfl rfl rfl rfl fun hd hu => ?_
      · simp [surfaceStop, Table.get_modify_self, hst]
      · exact hout ((ht.entry id st hst hd).idle hu).2.2.2
  | @fin st n c hst hout hqueued hnot hs =>
      refine ht.seal { st with finSent := true } rfl rfl hne hconn
        (hs.recv (fun i => (hwf i).absent) id) hst ?_ rfl rfl rfl hout fun hd hu => ?_
      · simp [modifyStream, hst]
      · simp [((ht.entry id st hst hd).idle hu).2.2.1] at hqueued

theorem Sending.wellFormed (h : Sending id e e') (hwf : e.conn.WellFormed) : e'.conn.WellFormed := by
  cases h with
  | returned => exact hwf
  | refused _ hs | sent _ _ _ hs | stopped _ _ hs | fin _ _ _ _ hs => exact hs.wellFormed hwf

theorem Tidy.flushStream (ht : e.Tidy) (hwf : e.conn.WellFormed) (id : Nat) :
    (e.flushStream id).Tidy :=
  (flushStream_invariant (I := fun s => s.conn.WellFormed ∧ s.Tidy)
    (fun _ _ hs h => ⟨hs.wellFormed h.1, hs.tidy h.1 h.2⟩) ⟨hwf, ht⟩).2

/-- A stream is not stopped on account of sending on it. -/
theorem stopped_of_send {c c' : Quic.Connection} {bytes : Bytes} {fin : Bool}
    {r : Except Quic.Error Nat} (h : Send c id bytes fin r c')
    (herr : (c'.streams i).send.error.isSome = true) : (c.streams i).send.error.isSome = true := by
  by_cases hi : i = id
  · subst hi
    cases h with
    | refused => exact herr
    | blocked _ _ _ hnone hstreams =>
        rw [hstreams, hnone] at herr
        cases herr
    | stopped => rwa [Quic.Connection.collectIf_send] at herr
    | sent _ _ _ hnone hacc => simp [hacc.error, hnone] at herr
  · rwa [h.ne hi] at herr

/-- What flushing does not undo. -/
structure Flushes (e e' : Endpoint) : Prop where
  recv : ∀ i, (e'.conn.streams i).recv = (e.conn.streams i).recv
  isServer : e'.conn.isServer = e.conn.isServer
  error : ∀ i, (e'.conn.streams i).send.error.isSome = true → (e.conn.streams i).send.error.isSome = true
  entry : ∀ i st', e'.streams.get i = some st' → ∃ st, e.streams.get i = some st ∧
    st'.role = st.role ∧ (st.finSent = true ∧ st.out = [] → st'.finSent = true ∧ st'.out = [])

theorem Flushes.refl (e : Endpoint) : Flushes e e :=
  ⟨fun _ => rfl, rfl, fun _ h => h, fun _ st' hg => ⟨st', hg, rfl, fun h => h⟩⟩

theorem Flushes.trans {a b c : Endpoint} (hab : Flushes a b) (hbc : Flushes b c) : Flushes a c where
  recv i := (hbc.recv i).trans (hab.recv i)
  isServer := hbc.isServer.trans hab.isServer
  error i h := hab.error i (hbc.error i h)
  entry i st'' hg := by
    obtain ⟨st', hst', hrole', hsent'⟩ := hbc.entry i st'' hg
    obtain ⟨st, hst, hrole, hsent⟩ := hab.entry i st' hst'
    exact ⟨st, hst, hrole'.trans hrole, hsent' ∘ hsent⟩

theorem Sending.flushes (h : Sending id e e') (hwf : e.conn.WellFormed) : Flushes e e' := by
  have hentry : ∀ i st', e'.streams.get i = some st' → ∃ st, e.streams.get i = some st ∧
      st'.role = st.role ∧ (st.finSent = true ∧ st.out = [] → st'.finSent = true ∧ st'.out = []) := by
    intro i st' hg
    by_cases hi : i = id
    · subst hi
      cases h with
      | refused => exact ⟨st', hg, rfl, fun h => h⟩
      | returned | stopped | fin =>
          obtain ⟨st, hst, rfl⟩ := Option.map_eq_some_iff.mp ((Table.get_modify_self _ _ _).symm.trans hg)
          exact ⟨st, hst, rfl, fun h => (by first | exact h | exact ⟨rfl, rfl⟩ | exact ⟨rfl, h.2⟩)⟩
      | @sent st0 front rest n c hst0 hout =>
          obtain ⟨st, hst, rfl⟩ := Option.map_eq_some_iff.mp ((Table.get_modify_self _ _ _).symm.trans hg)
          refine ⟨st, hst, rfl, fun h => ?_⟩
          obtain rfl : st0 = st := Option.some.inj (hst0.symm.trans hst)
          simp [hout] at h
    · rw [h.get_ne hi] at hg
      exact ⟨st', hg, rfl, fun h => h⟩
  cases h with
  | returned => exact ⟨fun _ => rfl, rfl, fun _ h => h, hentry⟩
  | refused _ hs | sent _ _ _ hs | stopped _ _ hs | fin _ _ _ _ hs =>
      exact ⟨hs.recv fun i => (hwf i).absent, hs.isServer, fun _ => stopped_of_send hs, hentry⟩

theorem Flushes.flushStream (hwf : e.conn.WellFormed) (id : Nat) : Flushes e (e.flushStream id) :=
  (flushStream_invariant (I := fun s => s.conn.WellFormed ∧ Flushes e s)
    (fun _ _ hs h => ⟨hs.wellFormed h.1, h.2.trans (hs.flushes h.1)⟩) ⟨hwf, .refl e⟩).2

/-! ## Stopped streams -/

/-- If the peer has stopped the stream and there is nothing to receive, the
session has noticed. -/
def Noticed (id : Nat) (e : Endpoint) : Prop :=
  ∀ st, e.streams.get id = some st → Droppable id st → e.RecvOver id → e.conn.canSend id = true →
    (e.conn.streams id).send.error.isSome = true → st.finSent = true ∧ st.out = []

/-- What makes a flush notice a stop holds already in front of it. -/
theorem Flushes.noticed (h : Flushes e e') {st' : Stream} (hg : e'.streams.get id = some st')
    (hd : Droppable id st') (hover : e'.RecvOver id) (hsend : e'.conn.canSend id = true)
    (herr : (e'.conn.streams id).send.error.isSome = true) {P : Prop}
    (hP : ∀ st, e.streams.get id = some st → Droppable id st →
      (st.finSent = true ∧ st.out = [] → st'.finSent = true ∧ st'.out = []) →
      e.RecvOver id → e.conn.canSend id = true → (e.conn.streams id).send.error.isSome = true → P) :
    P := by
  obtain ⟨st, hst, hrole, hsent⟩ := h.entry id st' hg
  refine hP st hst ⟨hd.1, hrole ▸ hd.2⟩ hsent ?_ ?_ (h.error id herr)
  · unfold RecvOver Quic.Connection.canRecv at hover ⊢
    rwa [h.recv, h.isServer] at hover
  · unfold Quic.Connection.canSend at hsend ⊢
    rwa [h.isServer] at hsend

theorem Noticed.keep (hn : Noticed id e) (h : Flushes e e') : Noticed id e' :=
  fun _ hg hd hover hsend herr => h.noticed hg hd hover hsend herr
    fun st hst hd hsent hover hsend herr => hsent (hn st hst hd hover hsend herr)

theorem Noticed.aside (hn : Noticed id e) (h : Aside e e') : Noticed id e' := by
  intro st hg hd hover hsend herr
  unfold RecvOver Quic.Connection.canRecv at hover
  unfold Quic.Connection.canSend at hsend
  rw [h.conn, h.isServer] at hover
  rw [h.isServer] at hsend
  rw [h.conn] at herr
  rw [h.get id hd.1] at hg
  exact hn st hg hd hover hsend herr

/-- Flushing a stream notices that the peer stopped it. -/
theorem Noticed.flushStream (hwf : e.conn.WellFormed) (hk : e.KeepsTidy (.flushStream id)) :
    Noticed id (e.flushStream id) := by
  intro st' hg hd hover hsend herr
  refine (Flushes.flushStream hwf id).noticed hg hd hover hsend herr
    fun st hst hd hsent hover hsend herr => ?_
  by_cases hold : st.finSent = true ∧ st.out = []
  · exact hsent hold
  rw [not_and_or, Bool.not_eq_true] at hold
  obtain ⟨hlive, ⟨st2, hst2, hout⟩, hheld⟩ := hk st hst hd hover herr hold
  obtain ⟨code, hcode⟩ := Option.isSome_iff_exists.mp herr
  obtain ⟨bytes, c, -, heq⟩ := flushStream_stopped hst2 hout hheld hlive hsend hcode
  obtain ⟨n, hn⟩ := reconcileSendFinalSize_get hst2
  rw [heq] at hg
  simp only [surfaceStop, Table.get_modify_self, hn, Option.map_some, Option.some.injEq] at hg
  rw [← hg]
  exact ⟨rfl, rfl⟩

end

/-! ## Reading -/

section

variable {e e' : Endpoint} {r : Nat}

theorem ended_surfaceReset (e : Endpoint) (id code : Nat) : (e.surfaceReset id code).Ended id := by
  unfold surfaceReset
  simp only
  split
  · exact ended_setRecvDead e id
  · exact .closed (protocolError_closed _ _ _)
  · exact .closed (protocolError_closed _ _ _)
  · split
    next h => exact .closed h
    · exact .closed (markClosed_closed _ _ _ _)
  · exact ended_setRecvDead e id

/-- A stream is not read on behind a RESET. -/
theorem ended_recvReset (e : Endpoint) (id code : Nat) (finalSize : Option Nat) :
    (e.recvReset id code finalSize).Ended id := by
  unfold recvReset
  split
  · split
    · split
      next e1 heq => exact .closed (accountReceive_closed heq)
      · exact ended_surfaceReset _ _ _
    · exact ended_surfaceReset _ _ _
  · exact ended_surfaceReset _ _ _

theorem Ended.tidyRecv (h : e.Ended r) (hall : e.AllDead) : e.TidyRecv r := by
  intro st hg hd _
  refine .inl ?_
  rcases h with hc | hno
  · exact hall hc r st hg hd.2
  · by_contra hdead
    exact hno ⟨st, hg, by simpa using hdead⟩

/-- A stream that was read is over if its end was read. -/
theorem recv_over {c c' : Quic.Connection} {id cap : Nat} {chunk : Bytes} {fin : Bool}
    (h : Quic.Connection.Recv c id cap (.ok (chunk, fin)) c') (hwf : c.WellFormed) :
    (c'.streams id).recv.ended = fin ∧ (c'.streams id).recv.drain = false := by
  generalize hres : (Except.ok (chunk, fin) : Except Quic.Error (Bytes × Bool)) = res at h
  cases h with
  | none => cases hres
  | reset => cases hres
  | read cond _ hr =>
      cases hres
      simp only [Quic.Connection.readable, Bool.and_eq_true] at hr
      have hunread : ¬((c.streams id).recv.drain = true ∨ (c.streams id).recv.ended = true) :=
        fun hover => by simp [(hwf id).recv.not_ready hover] at hr
      simp only [not_or, Bool.not_eq_true] at hunread
      rw [Quic.Connection.collectIf_recv]
      simp [Quic.RecvBuf.emit, hunread, Quic.RecvBuf.isFin]

variable [H3.Codec]

/-- The marks are right, but for the receive side of the stream that is read. -/
structure ReadTidy (r : Nat) (e : Endpoint) : Prop where
  layout : e.Layout
  send : e.TidySend
  recv : ∀ i, i ≠ r → e.TidyRecv i

theorem ReadTidy.effects (ht : ReadTidy r e) (h : Effects r e e') : ReadTidy r e' :=
  h.invariant (fun _ _ heff ht => ⟨heff.layout ht.layout, heff.tidySend ht.layout ht.send,
    fun i hi => heff.tidyRecv hi (ht.recv i hi)⟩) ht

omit [H3.Codec] in
theorem ReadTidy.tidy (ht : ReadTidy r e) (hr : e.TidyRecv r) : e.Tidy := by
  refine ⟨ht.send, fun i => ?_⟩
  by_cases hi : i = r
  · exact hi ▸ hr
  · exact ht.recv i hi

omit [H3.Codec] in
/-- The connection was read. -/
theorem Tidy.received (ht : e.Tidy) (hl : e.Layout) {c : Quic.Connection} {cap : Nat}
    {res : Except Quic.Error (Bytes × Bool)} (h : Quic.Connection.Recv e.conn r cap res c) :
    ReadTidy r { e with conn := c } where
  layout := hl.same (.conn e h.isServer h.wellFormed h.phase fun hwf _ => h.exhausted hwf)
  send :=
    { entry := fun i st hg hd => (ht.entry i st hg hd).congr (by rw [h.send]) (by rw [h.send])
        (by rw [h.send]; exact fun hstop => hstop)
      bare := fun i hi hnone hover => by
        rw [show (({ e with conn := c } : Endpoint).conn.streams i).send = _ from h.send i] at hover
        exact (ht.bare i hi hnone hover).imp_right (h.exhausted hl.wellFormed)
      allDead := ht.allDead }
  recv i hi st hg hd hover := by
    rw [show ({ e with conn := c } : Endpoint).conn.streams i = _ from h.ne hi] at hover
    exact ht.recv i st hg hd hover

/-- A chunk was read, and the stream is not one that its classification drops. -/
theorem TidyRecv.processRecv (hl : e.Layout) (he : e.closed = false) {st : Stream}
    (hst : e.streams.get r = some st) (halive : e.Pending r → e.Alive r) {chunk : Bytes} {fin : Bool}
    (hx : fin = true → (e.conn.streams r).Exhausted) (hread : fin = true → (e.conn.streams r).FinRead)
    (hunended : fin = false →
      ¬((e.conn.streams r).recv.ended = true ∨ (e.conn.streams r).recv.drain = true))
    (hall : (e.processRecv r chunk fin).AllDead)
    (hno : st.role = .pendingUni → discardsUni (st.classBuf.data ++ chunk) fin = false) :
    (e.processRecv r chunk fin).TidyRecv r := by
  have hrole : e.roleOf r = some st.role := by rw [roleOf, hst, Option.map_some]
  have heff := processRecv_effects (hl.readable he) halive chunk hx hread
  intro st' hg hd hover
  have hrole' : (e.processRecv r chunk fin).roleOf r = some st'.role := by
    rw [roleOf, hg, Option.map_some]
  have hlocal : e.roleOf r ≠ some .localControlPlane := fun h =>
    hd.2 (role_of_roleOf hg (heff.roleOf h (by simp) fun hr => absurd hr hd.1))
  -- the unidirectional streams are kept only in an order that `hno` excludes
  have hignored : e.Pending r → st'.role = .ignored → (e.processRecv r chunk fin).closed = true ∨
      isBidi r = true := by
    rintro (hp | hp) hign
    · have hpu := role_of_roleOf hst hp
      have heq : e.processRecv r chunk fin = e.resolvePendingUni r chunk fin := by
        unfold Endpoint.processRecv
        simp [hst, hpu]
      refine .inl ?_
      rw [heq] at hrole' hover ⊢
      have hkept := resolvePendingUni_kept (Q := fun s => s.closed = true ∨
          s.roleOf r ≠ some .ignored ∨ s.conn = e.conn ∧ fin = false) hst hpu hl.idle hl.connectRole
        (halive (.inl hp)) (hno hpu) (fun _ hc => .inl hc) (fun _ hne => .inr (.inl hne))
        (fun _ hc hf => .inr (.inr ⟨hc, hf⟩))
      rcases hkept with hc | hne | ⟨hc, hf⟩
      · exact hc
      · exact absurd (hrole'.trans (congrArg some hign)) hne
      · rw [hc] at hover
        exact absurd hover (hunended hf)
    · exact .inr (hl.roles r .pendingBidi hp).2.1
  have hdone : (e.processRecv r chunk fin).Ended r ∨ st'.role = .ignored ∧ isBidi r = true := by
    have hcase : (e.processRecv r chunk fin).Ended r ∨
        e.Pending r ∧ (e.processRecv r chunk fin).roleOf r = some .ignored := by
      cases hf : fin with
      | true =>
          refine processRecv_ended (fun h => hd.1 (hl.roles r .connect h)) hlocal chunk
      | false =>
          subst hf
          rcases heff.conn hd.1 with hc | hc | hp
          · rw [hc] at hover
            exact absurd hover (hunended rfl)
          · exact .inl (.closed hc)
          · exact .inr hp
    rcases hcase with hend | ⟨hp, hr⟩
    · exact .inl hend
    · have hign := role_of_roleOf hg hr
      exact (hignored hp hign).imp .closed fun hb => ⟨hign, hb⟩
  exact hdone.elim (fun hend => hend.tidyRecv hall st' hg hd hover) .inr

/-- A pass of the loop of `on_readable` keeps the marks right. -/
theorem Tidy.read (ht : e.Tidy) (hl : e.Layout) (he : e.closed = false) {backpressured : Bool}
    (hk : e.KeepsTidy (.read r backpressured)) : (readStep r backpressured e).1.Tidy := by
  unfold readStep
  cases hst : e.streams.get r with
  | none => exact ht
  | some st =>
      simp only
      split
      · exact ht
      have hspec := Quic.Connection.streamRecv_spec e.conn r (readLen st backpressured)
      have hno := hk st
      generalize e.conn.streamRecv r (readLen st backpressured) = res at hspec hno
      obtain ⟨res, c⟩ := res
      have hpre := ht.received hl hspec
      rcases res with err | ⟨chunk, fin⟩
      · cases err with
        | streamReset code =>
            have hpost := hpre.effects (recvReset_effects (e := { e with conn := c }) he
              (hspec.exhausted_of_reset hl.wellFormed) hspec.resetRead code
              (e.conn.streamRecvFinalSize r))
            exact hpost.tidy ((ended_recvReset _ _ _ _).tidyRecv hpost.send.allDead)
        | _ =>
            cases hspec
            exact ht
      · have hx : fin = true → (c.streams r).Exhausted := fun hf => by
          subst hf
          exact hspec.exhausted_of_fin hl.wellFormed
        have hread : fin = true → (c.streams r).FinRead := fun hf => by
          subst hf
          exact hspec.finRead
        have halive : Pending { e with conn := c } r → Alive { e with conn := c } r :=
          hl.alive_of_readable he r hspec.readable
        have hover : (c.streams r).recv.ended = fin ∧ (c.streams r).recv.drain = false :=
          recv_over hspec hl.wellFormed
        have hpost := hpre.effects (processRecv_effects (hpre.layout.readable he) halive chunk hx hread)
        refine hpost.tidy (TidyRecv.processRecv hpre.layout he hst halive hx hread (fun hf => ?_)
          hpost.send.allDead fun hrole => hno chunk fin hst hrole rfl)
        simpa [hover] using hf

/-- Every step that keeps to the condition keeps the marks right. -/
theorem Tidy.step (ht : e.Tidy) (hl : e.Layout) {s : Step} (hs : e.StepAdmissible s)
    (hk : e.KeepsTidy s) : (e.step s).Tidy := by
  have haside : ∀ {e' : Endpoint}, Aside e e' → e'.Tidy := fun h => (Tends.of_aside h).tidy ht
  cases s with
  | onEstablished => exact ht.onEstablished
  | touch id => exact ht.touch hl hs.1 hs.2 hk
  | read id backpressured => exact ht.read hl hs hk
  | onDatagrams => exact haside (.onDatagrams e)
  | sendDatagram data requestId => exact haside (.sendDatagram e data requestId)
  | openStream bidi requestId =>
      exact (ht.same rfl rfl rfl rfl : Tidy { e with
        pendingOpens := e.pendingOpens ++ [(bidi, requestId)] }).releasePendingOpens
          (hl.same (.session rfl rfl rfl rfl rfl rfl rfl rfl rfl))
  | streamWrite id data requestId => exact ht.streamWrite hl hs hk data requestId
  | streamFin id => exact (Tends.streamFin ht hl hs).tidy ht
  | streamReset id code => exact ht.streamReset hl hs code
  | streamStopSending id code => exact ht.streamStopSending id code
  | setPaused id paused => exact (Tends.setPaused e id paused).tidy ht
  | close code reason => exact haside (.close e code reason)
  | sendDrain => exact haside (.sendDrain e)
  | takeTerminalError => exact haside (.takeTerminalError e)
  | grantCredit => exact haside (.grantCredit e)
  | replenish => exact haside (.replenish e)
  | queueClose => exact haside (.queueClose e)
  | releasePendingOpens => exact ht.releasePendingOpens hl
  | flushStream id => exact ht.flushStream hl.wellFormed id
  | commitSent => exact ht.same rfl rfl rfl rfl
  | signalFlowControlBlocked => exact haside (.signalFlowControlBlocked e)
  | prune => exact ht.prune hl
  | gracefulClose => exact haside (.gracefulClose e)
  | markClosed code reason remote => exact ht.markClosed code reason remote
  | network event => exact (Tends.network hl event).tidy ht

end

/-! ## Behind a flush -/

section

variable {e e' : Endpoint} {id : Nat}

/-- A stream marked as over in the directions it has is dropped. -/
theorem retains_eq_false (isServer : Bool) {st : Stream} (hd : Droppable id st)
    (hrecv : isBidi id = true ∨ isLocal id isServer = false → st.recvDead = true)
    (hsend : isBidi id = true ∨ isLocal id isServer = true → st.finSent = true ∧ st.out = []) :
    retains isServer id st = false := by
  unfold retains
  rw [if_neg (not_or.mpr hd)]
  unfold isBidi isLocal at hrecv hsend
  have hbidi : (id / 2 % 2 == 1) = !(id / 2 % 2 == 0) := by
    rcases Nat.mod_two_eq_zero_or_one (id / 2) with h | h <;> simp [h]
  have hinit : (if isServer then id % 2 == 1 else id % 2 == 0) =
      (id % 2 == if isServer then 1 else 0) := by
    cases isServer <;> rfl
  simp only [hbidi, hinit]
  generalize (id / 2 % 2 == 0) = bidi at hrecv hsend ⊢
  generalize (id % 2 == if isServer then 1 else 0) = own at hrecv hsend ⊢
  cases bidi <;> cases own <;> simp_all

/-- With the marks right and every stop noticed, pruning leaves nothing that is over. -/
theorem Tidy.prune_bounded (ht : e.Tidy) (hl : e.Layout)
    (hn : ∀ id st, e.streams.get id = some st → Noticed id e) : e.prune.Bounded := by
  rintro id st hg hd ⟨hrecv, hsend⟩
  simp only [Endpoint.prune, Table.get_filter, Option.filter_eq_some_iff] at hg
  obtain ⟨hst, hretains⟩ := hg
  have hmarks := ht.entry id st hst hd
  have hrecv : e.RecvOver id := hrecv
  have hsend : e.SendOver id := hsend
  have hsent : e.conn.canSend id = true → st.finSent = true ∧ st.out = [] := by
    intro hcan
    have hnoticed := hn id st hst st hst hd hrecv hcan
    have hfinished : st.finSent = true → st.finSent = true ∧ st.out = [] := fun hfin =>
      (hmarks.queue hfin).elim (⟨hfin, ·⟩) hnoticed
    rcases hsend with hno | hfin | hshut | herr
    · simp [hcan] at hno
    · exact hfinished (hmarks.send (.inl hfin))
    · exact hfinished (hmarks.send (.inr hshut))
    · exact hnoticed herr
  have hdead : e.conn.canRecv id = true → st.recvDead = true := by
    intro hcan
    rcases ht.recv id st hst hd (hrecv.resolve_left (by simp [hcan])) with hdead | ⟨hign, hbidi⟩
    · exact hdead
    · have hfin := (hsent (by simp [Quic.Connection.canSend, hbidi])).1
      simp [(hmarks.idle (.inl hign)).2.1] at hfin
  have hdropped := retains_eq_false e.cfg.isServer hd
    (fun h => hdead (by simpa [Quic.Connection.canRecv, hl.server] using h))
    (fun h => hsent (by simpa [Quic.Connection.canSend, hl.server] using h))
  simp [hdropped] at hretains

theorem Bounded.aside (hb : e.Bounded) (h : Aside e e') : e'.Bounded := by
  rintro id st hg hd ⟨hrecv, hsend⟩
  rw [h.get id hd.1] at hg
  refine hb id st hg hd ⟨?_, ?_⟩
  · unfold RecvOver Quic.Connection.canRecv at hrecv ⊢
    rwa [h.conn, h.isServer] at hrecv
  · unfold SendOver Quic.Connection.canSend at hsend ⊢
    rwa [h.conn, h.isServer] at hsend

theorem Start.tidy (h : Start e) : e.Tidy := by
  have hempty : e.streams = .empty := by
    cases h <;> rfl
  have hnew : ∀ id, e.conn.streams id = {} := by
    cases h with
    | client _ _ _ _ _ _ _ hfresh | server _ _ _ _ _ _ _ hfresh => exact hfresh.2.1
  refine .of_at (fun _ i st hg => ?_) fun i => ⟨fun st hg => ?_, fun _ _ hover => ?_, fun st hg => ?_⟩
  · simp [hempty] at hg
  · simp [hempty] at hg
  · simp [hnew] at hover
  · simp [hempty] at hg

end

variable [H3.Codec]

/-- Behind a flush no entry is left that QUIC has no use for, and so the table
is no larger than what QUIC still has open and what waits to be opened. -/
theorem table_bounded {e : Endpoint} (hstart : Start e) {calls : List Call} {order : HashOrder}
    (hrun : Along call (Meets KeepsTidy) e (calls ++ [.flush order])) :
    (execute call e (calls ++ [.flush order])).SmallTable := by
  obtain ⟨hpre, hflush, -⟩ := along_append.mp hrun
  have hstep : ∀ (s : Endpoint) (t : Step), (s.Layout ∧ s.Tidy) → s.StepAdmissible t →
      s.KeepsTidy t → (s.step t).Layout ∧ (s.step t).Tidy :=
    fun s t h hs hk => ⟨h.1.step hs, h.2.step h.1 hs hk⟩
  have hI : (execute call e calls).Layout ∧ (execute call e calls).Tidy :=
    run_invariant hstep ⟨hstart.layout, Start.tidy hstart⟩ hpre
  have hend := call_invariant hstep hI hflush
  obtain ⟨e1, ⟨hl1, ht1⟩, hsettled, -, -, heq⟩ := flush_settle (S := Noticed) hstep
    (fun s id h hk => .flushStream h.1.wellFormed hk)
    (fun s i j _ h hS => hS.keep (.flushStream h.1.wellFormed j))
    (fun s i _ hS => ⟨fun st hg => hS st hg, hS.aside (.signalFlowControlBlocked s)⟩) hI hflush
  have hbounded : (Endpoint.call (execute call e calls) (.flush order)).Bounded := by
    rw [heq]
    exact (ht1.prune_bounded hl1 hsettled).aside (.gracefulClose _)
  rw [execute_append]
  exact ⟨hbounded, fun _ _ hopens hwaiting => hbounded.length_keys hend.1 hopens hwaiting⟩

/-! ## Concrete runs -/

section

omit [H3.Codec]

variable (e : Endpoint) (id : Nat)

instance : Decidable (e.RecvOver id) := inferInstanceAs (Decidable (_ ∨ _ ∨ _))

instance : Decidable (e.SendOver id) := inferInstanceAs (Decidable (_ ∨ _ ∨ _ ∨ _))

instance (st : Stream) : Decidable (Droppable id st) := inferInstanceAs (Decidable (_ ∧ _))

instance : (s : Step) → Decidable (e.KeepsTidy s)
  | .touch id => inferInstanceAs (Decidable (_ ∨ _))
  | .read id backpressured => decidable_of_iff (∀ st ∈ e.streams.get id, st.role = .pendingUni →
      ∀ p ∈ (e.conn.streamRecv id (readLen st backpressured)).1.toOption,
        discardsUni (st.classBuf.data ++ p.1) p.2 = false) (by
      constructor
      · intro h st chunk fin hst hrole hread
        exact h st hst hrole (chunk, fin) (by simp [hread, Except.toOption])
      · intro h st hst hrole p hp
        refine h st p.1 p.2 hst hrole ?_
        generalize (e.conn.streamRecv id (readLen st backpressured)).1 = res at hp
        cases res with
        | error err => simp [Except.toOption] at hp
        | ok q => simpa [Except.toOption] using hp)
  | .streamWrite id _ _ =>
      inferInstanceAs (Decidable (∀ st ∈ e.streams.get id, st.finSent = true →
        (e.conn.streams id).send.error.isSome = true))
  | .flushStream id => inferInstanceAs (Decidable (∀ st ∈ e.streams.get id, Droppable id st →
      e.RecvOver id → (e.conn.streams id).send.error.isSome = true →
      st.finSent = false ∨ st.out ≠ [] → e.Notices id))
  | .onEstablished | .onDatagrams | .sendDatagram _ _ | .openStream _ _ | .streamFin _
  | .streamReset _ _ | .streamStopSending _ _ | .setPaused _ _ | .close _ _ | .sendDrain
  | .takeTerminalError | .grantCredit | .replenish | .queueClose | .releasePendingOpens
  | .commitSent | .signalFlowControlBlocked | .prune | .gracefulClose | .markClosed _ _ _
  | .network _ => .isTrue trivial

end

instance (e : Endpoint) (c : Call) : Decidable (e.Meets KeepsTidy c) :=
  inferInstanceAs (Decidable (_ ∧ _))

/-- The peer opens a stream behind the handshake and ends it with its first bytes. -/
def churnRun (id : Nat) (bytes : Bytes) (more : List Call) : List Call :=
  serverHandshake ++ [.network (.data id bytes), .network (.fin id), .onReadable id false] ++ more

omit [H3.Codec] in
theorem churnRun_keeps :
    letI := H3.Codec.plain
    Along call (Meets KeepsTidy) sampleServer
      (churnRun 6 (streamSignal false ++ [7]) [] ++ [flushOnce]) := by decide +kernel

omit [H3.Codec] in
/-- The peer opens and ends a stream for this session. -/
theorem table_bounded_sample :
    letI := H3.Codec.plain
    (execute call sampleServer
      (churnRun 6 (streamSignal false ++ [7]) [] ++ [flushOnce])).SmallTable :=
  letI := H3.Codec.plain
  table_bounded sampleServer_start churnRun_keeps

omit [H3.Codec] in
/-- An entry that is left of a stream which is over. -/
theorem not_bounded_of_left {e : Endpoint} (id : Nat)
    (h : ∃ st ∈ e.streams.get id, Droppable id st ∧ e.RecvOver id ∧ e.SendOver id) : ¬e.Bounded := by
  obtain ⟨st, hst, hd, hover⟩ := h
  exact fun hb => hb id st hst hd hover

omit [H3.Codec] in
/-- The peer ends a unidirectional stream of an unknown type with its type, and
it ends and stops a bidirectional stream that is not for this session. -/
theorem not_table_bounded :
    letI := H3.Codec.plain
    Start sampleServer ∧
      (Along call Admissible sampleServer (churnRun 6 [0x21] [] ++ [flushOnce]) ∧
        ¬(execute call sampleServer (churnRun 6 [0x21] [] ++ [flushOnce])).Bounded) ∧
      Along call Admissible sampleServer
        (churnRun 4 [0x21] [.network (.stopSending 4 0)] ++ [flushOnce]) ∧
      ¬(execute call sampleServer
        (churnRun 4 [0x21] [.network (.stopSending 4 0)] ++ [flushOnce])).Bounded := by
  let _ := H3.Codec.plain
  refine ⟨sampleServer_start, ⟨by decide +kernel, ?_⟩, by decide +kernel, ?_⟩
  · exact not_bounded_of_left 6 (by decide +kernel)
  · exact not_bounded_of_left 4 (by decide +kernel)

end RWebTransport.Endpoint
