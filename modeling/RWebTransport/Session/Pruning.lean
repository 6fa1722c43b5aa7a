import RWebTransport.Session.Layout
import RWebTransport.Session.Sending

/-!
# The stream table stays small

`flush` drops a stream both of whose directions the session has marked as
over.  Here the marks are compared with what is over at the QUIC level: along
every run that avoids four situations (`KeepsTidy`) no stream remains behind a
flush that QUIC has no use for.
-/

namespace RWebTransport.Endpoint

open Quic (isBidi isLocal QStream)

/-! ## What is over at the QUIC level -/

/-- We cannot receive on the stream, its FIN or RESET was read, or we shut it
down for reading. -/
def RecvOver (e : Endpoint) (id : Nat) : Prop :=
  e.conn.canRecv id = false ∨ (e.conn.streams id).recv.ended = true ∨
    (e.conn.streams id).recv.drain = true

/-- We cannot send on the stream, our FIN was accepted, we reset it, or the
peer stopped it. -/
def SendOver (e : Endpoint) (id : Nat) : Prop :=
  e.conn.canSend id = false ∨ (e.conn.streams id).send.fin = true ∨
    (e.conn.streams id).send.shut = true ∨ (e.conn.streams id).send.error.isSome = true

/-- An entry that `flush` may drop. -/
def Droppable (id : Nat) (st : Stream) : Prop := id ≠ connectId ∧ st.role ≠ .localControlPlane

/-- No entry is left that QUIC has no use for. -/
def Bounded (e : Endpoint) : Prop :=
  ∀ id st, e.streams.get id = some st → Droppable id st → ¬(e.RecvOver id ∧ e.SendOver id)

/-- QUIC knows the stream, and has use for it. -/
def InUse (e : Endpoint) (id : Nat) : Prop :=
  (e.conn.streams id).phase ≠ .absent ∧ ¬(e.RecvOver id ∧ e.SendOver id)

/-- A stream we have opened and QUIC has not seen yet. -/
def Unstarted (e : Endpoint) (id : Nat) : Prop :=
  e.Surfaced id ∧ (e.conn.streams id).phase = .absent

/-- Nothing is left that QUIC has no use for, so that the number of entries is
bounded by what QUIC still has open and what waits to be opened. -/
structure SmallTable (e : Endpoint) : Prop where
  bounded : e.Bounded
  length : ∀ opens waiting : List Nat, (∀ id, e.InUse id → id ∈ opens) →
    (∀ id, e.Unstarted id → id ∈ waiting) →
    e.streams.keys.length ≤ opens.length + waiting.length + 4

theorem Bounded.length_keys {e : Endpoint} (h : e.Bounded) (hl : e.Layout) {opens waiting : List Nat}
    (hopens : ∀ id, e.InUse id → id ∈ opens) (hwaiting : ∀ id, e.Unstarted id → id ∈ waiting) :
    e.streams.keys.length ≤ opens.length + waiting.length + 4 := by
  have hsub : e.streams.keys ⊆ opens ++ waiting ++ connectId :: controlIds e.cfg.isServer := by
    intro id hid
    obtain ⟨st, hst⟩ := Table.exists_get_of_mem_keys hid
    have hrole : e.roleOf id = some st.role := by rw [roleOf, hst, Option.map_some]
    by_cases hd : Droppable id st
    · refine List.mem_append_left _ (List.mem_append.mpr ?_)
      by_cases habs : (e.conn.streams id).phase = .absent
      · refine .inr (hwaiting id ⟨?_, habs⟩)
        have hlocal : isLocal id e.cfg.isServer = true := by
          by_contra hpeer
          exact hl.created id (by simpa using hpeer) (by simp [hrole]) habs
        rcases hl.own id st.role hrole hlocal with hr | hr | hs
        · exact absurd hr hd.2
        · exact absurd (hl.roles id .connect (hr ▸ hrole)) hd.1
        · exact hs
      · exact .inl (hopens id ⟨habs, h id st hst hd⟩)
    · refine List.mem_append_right _ ?_
      simp only [Droppable, not_and_or, ne_eq, Decidable.not_not] at hd
      rcases hd with rfl | hlocal
      · exact List.mem_cons_self
      · have hfits := hl.roles id .localControlPlane (hlocal ▸ hrole)
        exact List.mem_cons_of_mem _ hfits
  have hlen := (e.streams.nodup.subperm hsub).length_le
  simpa [controlIds, Nat.add_assoc] using hlen

/-! ## What keeps the marks right -/

/-- The classification of `buf` drops a stream of the peer without marking its
receive side. -/
def discardsUni (buf : Bytes) (fin : Bool) : Bool :=
  match H3.readVarint buf with
  | none => false
  | some (ty, n) =>
      if ty = H3.h3ControlStreamType ∨ ty = H3.qpackEncoderStreamType ∨
          ty = H3.qpackDecoderStreamType then false
      else if ty = H3.wtUniStreamType then
        match H3.readVarint (buf.drop n) with
        | none => false
        | some (session, _) => session != connectId
      else fin

/-- Session credit admits nothing of the first queued chunk. -/
def Held (e : Endpoint) (id : Nat) : Prop :=
  ∃ st front rest, e.streams.get id = some st ∧ st.out = front :: rest ∧
    e.sendAmount st front = 0 ∧ front.data.length - front.off ≠ 0

/-- The next flush of the stream will notice that the peer stopped it. -/
def Notices (e : Endpoint) (id : Nat) : Prop :=
  (e.conn.streams id).phase = .live ∧ (∃ st, e.streams.get id = some st ∧ st.out ≠ []) ∧
    ¬(e.reconcileSendFinalSize id).Held id

/-- The situations a step must avoid: an entry made anew for a stream of our
own, a peer's unidirectional stream dropped by its classification, a write
behind our own end of a stream, and a stopped stream that a flush does not
notice. -/
def KeepsTidy (e : Endpoint) : Step → Prop
  | .touch id => e.streams.contains id = true ∨ isLocal id e.cfg.isServer = false
  | .read id backpressured => ∀ st chunk fin, e.streams.get id = some st → st.role = .pendingUni →
      (e.conn.streamRecv id (readLen st backpressured)).1 = .ok (chunk, fin) →
      discardsUni (st.classBuf.data ++ chunk) fin = false
  | .streamWrite id _ _ => ∀ st, e.streams.get id = some st → st.finSent = true →
      (e.conn.streams id).send.error.isSome = true
  | .flushStream id => ∀ st, e.streams.get id = some st → Droppable id st → e.RecvOver id →
      (e.conn.streams id).send.error.isSome = true → st.finSent = false ∨ st.out ≠ [] → e.Notices id
  | _ => True

/-! ## The invariant -/

/-- The stream carries no signal that the application knows. -/
def Unsurfaced (st : Stream) : Prop :=
  st.role = .ignored ∨ st.role = .pendingUni ∨ st.role = .pendingBidi

/-- The marks of the send side of an entry agree with the stream of the
connection. -/
structure TidyStream (isServer : Bool) (id : Nat) (q : QStream) (st : Stream) : Prop where
  send : q.send.fin = true ∨ q.send.shut = true → st.finSent = true
  queue : st.finSent = true → st.out = [] ∨ q.send.error.isSome = true
  idle : Unsurfaced st → isLocal id isServer = false ∧ st.finSent = false ∧
    st.finQueued = false ∧ st.out = []

/-- The marks of the receive side do. -/
def TidyRecv (e : Endpoint) (id : Nat) : Prop :=
  ∀ st, e.streams.get id = some st → Droppable id st →
    (e.conn.streams id).recv.ended = true ∨ (e.conn.streams id).recv.drain = true →
    st.recvDead = true ∨ st.role = .ignored ∧ isBidi id = true

/-- The marks of all send sides are right, and a stream of the peer without an
entry is not one we have finished. -/
structure TidySend (e : Endpoint) : Prop where
  entry : ∀ id st, e.streams.get id = some st → Droppable id st →
    TidyStream e.cfg.isServer id (e.conn.streams id) st
  bare : ∀ id, isLocal id e.cfg.isServer = false → e.streams.get id = none →
    (e.conn.streams id).send.fin = true ∨ (e.conn.streams id).send.shut = true →
    e.closed = true ∨ (e.conn.streams id).Exhausted
  allDead : e.AllDead

/-- The marks of all entries are right. -/
structure Tidy (e : Endpoint) : Prop extends TidySend e where
  recv : ∀ id, e.TidyRecv id

/-! ## Reading -/

section

variable {r : Nat}

theorem protocolError_closed (e : Endpoint) (code : Nat) (message : String) :
    (e.protocolError code message).closed = true := by
  unfold protocolError
  split
  next h => exact h
  · exact markClosed_closed _ _ _ _

theorem flowError_closed (e : Endpoint) (message : String) : (e.flowError message).closed = true := by
  unfold flowError
  split
  next h => exact h
  · exact markClosed_closed _ _ _ _

theorem parserLimitExceeded_closed (e : Endpoint) : e.parserLimitExceeded.closed = true := by
  unfold parserLimitExceeded
  split
  next h => exact h
  · exact markClosed_closed _ _ _ _

theorem accountReceive_closed {e e1 : Endpoint} {id amount : Nat}
    (h : e.accountReceive id amount = (e1, false)) : e1.closed = true := by
  unfold accountReceive at h
  simp only at h
  split at h
  · exact (Prod.mk.inj h).1 ▸ flowError_closed _ _
  · simp at h

theorem accountIncoming_closed {e e1 : Endpoint} {bidi : Bool}
    (h : e.accountIncoming bidi = (e1, false)) : e1.closed = true := by
  unfold accountIncoming at h
  simp only at h
  split at h
  · exact (Prod.mk.inj h).1 ▸ flowError_closed _ _
  · simp at h

/-- The session is closed, or the stream, if it is still there, is not read on. -/
def Ended (e : Endpoint) (id : Nat) : Prop :=
  e.closed = true ∨ ¬(∃ st, e.streams.get id = some st ∧ st.recvDead = false)

theorem Ended.closed {e : Endpoint} {id : Nat} (h : e.closed = true) : e.Ended id := .inl h

theorem ended_setRecvDead (e : Endpoint) (id : Nat) : (e.setRecvDead id).Ended id := by
  refine .inr ?_
  rintro ⟨st, hg, hd⟩
  simp only [setRecvDead, modifyStream, Table.get_modify_self, Option.map_eq_some_iff] at hg
  obtain ⟨st0, -, rfl⟩ := hg
  cases hd

theorem ended_surfaceData (e : Endpoint) (id : Nat) (chunk : Bytes) :
    (e.surfaceData id chunk true).Ended id := by
  unfold surfaceData
  simp only [if_true]
  exact ended_setRecvDead (if chunk.isEmpty then e else e.emit (.streamData id chunk)) id

theorem ended_recvData (e : Endpoint) (id : Nat) (chunk : Bytes) :
    (e.recvData id chunk true).Ended id := by
  unfold recvData
  split
  next e1 heq => exact .closed (accountReceive_closed heq)
  · exact ended_surfaceData _ _ _

theorem ended_surfaceStream (e : Endpoint) (id : Nat) (bidi : Bool) (buf : Bytes) (header : Nat) :
    (e.surfaceStream id bidi buf header true).Ended id := by
  unfold surfaceStream
  simp only
  split
  next e2 heq => exact .closed (accountIncoming_closed heq)
  · split
    next e3 heq => exact .closed (accountReceive_closed heq)
    · exact ended_surfaceData _ _ _

theorem ended_forgetIf (e : Endpoint) (id : Nat) : (e.forgetIf id true).Ended id := by
  refine .inr ?_
  rintro ⟨st, hg, -⟩
  simp [forgetIf, removeStream, Table.get_erase] at hg

theorem killRecv_closed (e : Endpoint) (id : Nat) : (e.killRecv id).closed = e.closed := rfl

variable [H3.Codec]

/-- The end of the peer's control stream is the end of the session. -/
theorem recvControl_closed (e : Endpoint) (id : Nat) (chunk : Bytes) :
    (e.recvControl id chunk true).closed = true := by
  unfold recvControl
  simp only [true_and]
  generalize (e.pushFrames id chunk).parseControlFrames id = e1
  have h2 : (if (!e1.closed) = true then
      e1.protocolError 0x104 "peer closed the HTTP/3 control stream" else e1).closed = true := by
    split
    · exact protocolError_closed _ _ _
    next h => simpa using h
  generalize (if (!e1.closed) = true then
      e1.protocolError 0x104 "peer closed the HTTP/3 control stream" else e1) = e2 at h2 ⊢
  rw [killRecv_closed, h2]
  simp only [if_true]
  split
  · exact h2
  · exact h2

omit [H3.Codec] in
theorem pushClass_data {e e1 : Endpoint} {id : Nat} {chunk buf : Bytes}
    (h : e.pushClass id chunk = (e1, some buf)) :
    ∃ st, e.streams.get id = some st ∧ buf = st.classBuf.data ++ chunk := by
  unfold pushClass at h
  split at h
  · simp at h
  next st hst =>
    split at h
    · simp at h
    next b h1 hx =>
      simp only [Prod.mk.injEq, Option.some.injEq] at h
      exact ⟨st, hst, h.2 ▸ ParserBuffer.extendFromSlice_data hx⟩

omit [H3.Codec] in
theorem pushClass_none {e e1 : Endpoint} {id : Nat} {chunk : Bytes}
    (h : e.pushClass id chunk = (e1, none)) (hid : (e.roleOf id).isSome = true) :
    e1.closed = true := by
  unfold pushClass at h
  split at h
  next hst => simp [roleOf, hst] at hid
  · split at h
    · simp only [Prod.mk.injEq, and_true] at h
      exact h ▸ parserLimitExceeded_closed _
    · simp at h

/-- The end of a stream was read: the stream is not read on, unless its
classification made it an ignored one. -/
theorem processRecv_ended {e : Endpoint} (hconnect : e.roleOf r ≠ some .connect)
    (hlocal : e.roleOf r ≠ some .localControlPlane) (chunk : Bytes) :
    (e.processRecv r chunk true).Ended r ∨
      e.Pending r ∧ (e.processRecv r chunk true).roleOf r = some .ignored := by
  have hignored : ∀ (e1 e2 : Endpoint), e2.streams = e1.streams → (e1.roleOf r).isSome = true →
      (e2.classify r .ignored).roleOf r = some .ignored := by
    intro e1 e2 hs hsome
    refine roleOf_classify ?_
    rw [roleOf, hs]
    exact hsome
  unfold processRecv
  split
  next hnone =>
    refine .inl (.inr ?_)
    rintro ⟨st, hst, -⟩
    simp [hst] at hnone
  next h => exact absurd h hlocal
  · exact .inl (.closed (protocolError_closed _ _ _))
  · exact .inl (ended_setRecvDead _ _)
  · exact .inl (.closed (recvControl_closed _ _ _))
  next h => exact absurd h hconnect
  · exact .inl (ended_recvData _ _ _)
  next hrole =>
    have hrole : e.roleOf r = some .pendingUni := hrole
    unfold resolvePendingUni
    split
    next e1 heq => exact .inl (.closed (pushClass_none heq (by simp [hrole])))
    next e1 buf heq =>
      have hsome : (e1.roleOf r).isSome = true := by rw [(pushClass_ok heq).1, hrole]; rfl
      split
      · exact .inl (ended_forgetIf _ _)
      · simp only
        split_ifs
        · exact .inl (.closed (protocolError_closed _ _ _))
        · exact .inl (.closed (recvControl_closed _ _ _))
        · exact .inl (.closed (protocolError_closed _ _ _))
        · exact .inl (.closed (protocolError_closed _ _ _))
        · split
          · exact .inl (ended_forgetIf _ _)
          · split_ifs
            · exact .inr ⟨.inl hrole, hignored e1 _ rfl hsome⟩
            · exact .inl (ended_surfaceStream _ _ _ _ _)
        · exact .inr ⟨.inl hrole, hignored e1 _ rfl hsome⟩
  next hrole =>
    have hrole : e.roleOf r = some .pendingBidi := hrole
    unfold resolvePendingBidi
    split
    next e1 heq => exact .inl (.closed (pushClass_none heq (by simp [hrole])))
    next e1 buf heq =>
      have hsome : (e1.roleOf r).isSome = true := by rw [(pushClass_ok heq).1, hrole]; rfl
      split
      · exact .inl (ended_forgetIf _ _)
      · split_ifs
        · exact .inr ⟨.inr hrole, hignored e1 _ rfl hsome⟩
        · split
          · exact .inl (ended_forgetIf _ _)
          · split_ifs
            · exact .inr ⟨.inr hrole, hignored e1 _ rfl hsome⟩
            · exact .inl (ended_surfaceStream _ _ _ _ _)

theorem surfaceStream_roleOf {e : Endpoint} (hsome : (e.roleOf r).isSome = true)
    (hne : r ≠ connectId) (bidi : Bool) (buf : Bytes) (header : Nat) (fin : Bool) :
    (e.surfaceStream r bidi buf header fin).roleOf r = some (.wtData bidi) := by
  have hresolved : ((e.classify r (.wtData bidi)).modifyStream r fun st =>
      { st with recvPrefix := header }).roleOf r = some (.wtData bidi) := by
    rw [← (roleOf_classify hsome : (e.classify r (.wtData bidi)).roleOf r = some (.wtData bidi))]
    exact Same.role_modify _ r (f := fun st => { st with recvPrefix := header }) (fun _ => rfl) r
  have hstay : ∀ {a b : Endpoint}, Effects r a b → a.roleOf r = some (.wtData bidi) →
      b.roleOf r = some (.wtData bidi) := fun h ha => h.roleOf ha (by simp) fun hr => absurd hr hne
  unfold surfaceStream
  simp only
  generalize ((e.classify r (.wtData bidi)).modifyStream r fun st =>
      { st with recvPrefix := header }) = e1 at hresolved ⊢
  have hcount := hstay (accountIncoming_effects e1 bidi) hresolved
  split
  next e2 heq =>
    rw [heq] at hcount
    exact hcount
  next e2 heq =>
    rw [heq] at hcount
    have hacc := hstay (accountReceive_effects hcount (buf.drop header).length) hcount
    split
    next e3 heq3 =>
      rw [heq3] at hacc
      exact hacc
    next e3 heq3 =>
      rw [heq3] at hacc
      unfold surfaceData
      simp only
      split
      · rw [← hacc]
        split <;> exact Same.roleOf_setRecvDead _ r r
      · split <;> exact hacc

/-- A unidirectional stream that its classification does not drop: the session
is closed, the stream is not an ignored one, or it has not ended. -/
theorem resolvePendingUni_kept {e : Endpoint} {st : Stream} {chunk : Bytes} {fin : Bool}
    (hst : e.streams.get r = some st) (hrole : st.role = .pendingUni) (hidle : e.ServerIdle)
    (hconnect : e.ConnectRole) (halive : e.Alive r)
    (hno : discardsUni (st.classBuf.data ++ chunk) fin = false) {Q : Endpoint → Prop}
    (hclosed : ∀ e', e'.closed = true → Q e') (hother : ∀ e', e'.roleOf r ≠ some .ignored → Q e')
    (hkept : ∀ e', e'.conn = e.conn → fin = false → Q e') : Q (e.resolvePendingUni r chunk fin) := by
  have hr : e.roleOf r = some .pendingUni := by rw [roleOf, hst, Option.map_some, hrole]
  have hne : r ≠ connectId := by
    rintro rfl
    simp [hconnect st hst] at hrole
  have hpush := pushClass_effects (r := r) (.inl hr) chunk
  unfold resolvePendingUni
  split
  next e1 heq => exact hclosed _ (pushClass_none heq (by simp [hr]))
  next e1 buf heq =>
    rw [heq] at hpush
    obtain ⟨st0, hst0, hbuf⟩ := pushClass_data heq
    obtain rfl : st = st0 := by simpa [hst] using hst0
    obtain ⟨hroles, hconn, -, hkeep⟩ := pushClass_ok heq
    have hr1 : e1.roleOf r = some .pendingUni := (hroles r).trans hr
    have hsome : (e1.roleOf r).isSome = true := by simp [hr1]
    have hforget : Q (e1.forgetIf r fin) := by
      refine hother _ ?_
      unfold forgetIf
      split
      · simp [roleOf, removeStream, Table.get_erase]
      · simp [hr1]
    rw [← hbuf] at hno
    unfold discardsUni at hno
    split
    · exact hforget
    next ty n hty =>
      simp only [hty] at hno ⊢
      split_ifs with hcontrol hdup hqpack hdup hend hwt
      · exact hclosed _ (protocolError_closed _ _ _)
      · have hclass : Effect r e1 (e1.classify r .peerControl) :=
          .classify e1 hr1 (hkeep halive) (.inr ⟨.inl rfl, by simpa using hdup⟩)
        have hstream : ControlStream r (e1.classify r .peerControl) :=
          ⟨roleOf_classify hsome, hclass.serverIdle (hpush.invariant (fun _ _ h => h.serverIdle) hidle),
            hclass.connectRole (hpush.invariant (fun _ _ h => h.connectRole) hconnect)⟩
        have hrole' := (recvControl_effects hstream (buf.drop n) fin).roleOf hstream.role (by simp)
          fun h => absurd h hne
        exact hother _ (by simp [hrole'])
      · exact hclosed _ (protocolError_closed _ _ _)
      · exact hclosed _ (protocolError_closed _ _ _)
      · exact hother _ (by simp [roleOf_classify hsome])
      · split
        · exact hforget
        next session n2 hsession =>
          split_ifs with hforeign
          · simp [hwt, hsession, hforeign, H3.wtUniStreamType, H3.h3ControlStreamType,
              H3.qpackEncoderStreamType, H3.qpackDecoderStreamType] at hno
          · exact hother _ (by simp [surfaceStream_roleOf hsome hne false])
      · refine hkept _ hconn ?_
        rwa [if_neg (by simp only [not_or] at hqpack ⊢; exact ⟨hcontrol, hqpack⟩), if_neg hwt] at hno

/-! ### What effects keep -/

omit [H3.Codec] in
theorem EntryEffect.droppable {i : Nat} {st st' : Stream} (h : EntryEffect st st')
    (hd : Droppable i st') : Droppable i st :=
  ⟨hd.1, fun hl => hd.2 (by rw [h.role (by simp [hl]), hl])⟩

omit [H3.Codec] in
/-- The stream of the connection matters only with its flags of the send side. -/
theorem TidyStream.congr {isServer : Bool} {i : Nat} {q q' : QStream} {st : Stream}
    (h : TidyStream isServer i q st) (hfin : q'.send.fin = q.send.fin)
    (hshut : q'.send.shut = q.send.shut)
    (hstop : q.send.error.isSome = true → q'.send.error.isSome = true) :
    TidyStream isServer i q' st :=
  ⟨by rw [hfin, hshut]; exact h.send, fun hsent => (h.queue hsent).imp_right hstop, h.idle⟩

omit [H3.Codec] in
theorem EntryEffect.tidyStream {isServer : Bool} {i : Nat} {q : QStream} {st st' : Stream}
    (h : EntryEffect st st') (hconnect : st.role ≠ .connect) (ht : TidyStream isServer i q st) :
    TidyStream isServer i q st' := by
  cases h with
  | respond _ _ _ hr | refuse _ _ hr => exact absurd hr hconnect
  | classify role hp => exact ⟨ht.send, ht.queue, fun _ => ht.idle (.inr hp)⟩
  | resolve bidi header hp =>
      refine ⟨ht.send, ht.queue, fun hu => ?_⟩
      rcases hu with hu | hu | hu <;> cases hu
  | _ => exact ⟨ht.send, ht.queue, ht.idle⟩

/-- Only a pending entry is dropped. -/
theorem Effect.pending_of_removed {e e' : Endpoint} (h : Effect r e e') {i : Nat} {st : Stream}
    (hst : e.streams.get i = some st) (hnone : e'.streams.get i = none) :
    st.role = .pendingUni ∨ st.role = .pendingBidi := by
  by_contra hp
  have hrole : e.roleOf i = some st.role := by simp [Endpoint.roleOf, hst]
  simpa [hnone] using h.get_isSome hrole (not_or.mp hp)

theorem Effect.send {e e' : Endpoint} (h : Effect r e e') (i : Nat) :
    (e'.conn.streams i).send = (e.conn.streams i).send := by
  rcases h.conn with hc | ⟨hc, -⟩
  · rw [hc]
  · rw [hc, Quic.Connection.streamShutdownRead_send]

theorem Effect.tidySend {e e' : Endpoint} (h : Effect r e e') (hl : e.Layout) (ht : e.TidySend) :
    e'.TidySend := by
  refine ⟨fun i st' hg hd => ?_, fun i hi hnone hover => ?_, h.allDead ht.allDead⟩
  · rcases h.entry hg with ⟨st, hst, heff⟩ | ⟨hi, -⟩
    · have hrole : st.role ≠ .connect := fun hr =>
        hd.1 (hl.roles i .connect (by simp [Endpoint.roleOf, hst, hr]))
      rw [h.cfg]
      exact (heff.tidyStream hrole (ht.entry i st hst (heff.droppable hd))).congr
        (by rw [h.send]) (by rw [h.send]) (by rw [h.send]; exact fun hstop => hstop)
    · exact absurd hi hd.1
  · rw [h.send] at hover
    rw [h.cfg] at hi
    cases hst : e.streams.get i with
    | none =>
        refine (ht.bare i hi hst hover).imp h.closed fun hx => ?_
        rcases h.conn with hc | ⟨hc, -⟩
        · rwa [hc]
        · rw [hc]
          exact Quic.Connection.exhausted_shutdownRead hx 0
    | some st =>
        have hp := h.pending_of_removed hst hnone
        have hd : Droppable i st := by
          refine ⟨?_, by rcases hp with hp | hp <;> simp [hp]⟩
          rintro rfl
          have hr := hl.connectRole st hst
          rcases hp with hp | hp <;> simp [hr] at hp
        have hentry := ht.entry i st hst hd
        have := (hentry.idle (.inr hp)).2.1
        simp [hentry.send hover] at this

/-- The receive side of the other streams is as before. -/
theorem Effect.tidyRecv {e e' : Endpoint} (h : Effect r e e') {i : Nat} (hi : i ≠ r)
    (ht : e.TidyRecv i) : e'.TidyRecv i := by
  intro st' hg hd hover
  have hconn : e'.conn.streams i = e.conn.streams i := by
    rcases h.conn with hc | ⟨hc, -⟩
    · rw [hc]
    · rcases Quic.Connection.streamShutdownRead_streams e.conn r 0 i with hs | ⟨hir, -⟩
      · rw [hc, hs]
      · exact absurd hir hi
  rcases h.entry hg with ⟨st, hst, heff⟩ | ⟨hc, -⟩
  · rw [hconn] at hover
    refine (ht st hst (heff.droppable hd) hover).imp heff.stays_dead fun ⟨hr, hb⟩ => ⟨?_, hb⟩
    rw [heff.role (by simp [hr]), hr]
  · exact absurd hc hd.1

/-- A stream that is pending was so before. -/
theorem Effects.pending_of {e e' : Endpoint} (h : Effects r e e') {i : Nat} (hp : e'.Pending i) :
    e.Pending i := by
  induction h with
  | refl => exact hp
  | tail _ hstep ih =>
      refine ih ?_
      rename_i b c _
      have hpend : ∀ {st' role}, c.roleOf i = some role → c.streams.get i = some st' →
          st'.role = role := fun hr hg => role_of_roleOf hg hr
      obtain ⟨st', hg⟩ : ∃ st', c.streams.get i = some st' := by
        cases hg : c.streams.get i with
        | none => rcases hp with hp | hp <;> simp [Endpoint.roleOf, hg] at hp
        | some st' => exact ⟨st', rfl⟩
      have hr' : st'.role = .pendingUni ∨ st'.role = .pendingBidi :=
        hp.imp (hpend · hg) (hpend · hg)
      rcases hstep.entry hg with ⟨st, hst, heff⟩ | ⟨-, -, -, -, frame, rfl⟩
      · have hr : st.role = .pendingUni ∨ st.role = .pendingBidi := by
          by_contra hset
          rw [heff.role (not_or.mp hset)] at hr'
          exact hset hr'
        exact hr.imp (fun hr => by simp [Endpoint.roleOf, hst, hr])
          fun hr => by simp [Endpoint.roleOf, hst, hr]
      · rcases hr' with hr' | hr' <;> cases hr'

/-- The connection is as it was, or the session is closed, or the stream became
an ignored one. -/
theorem Effects.conn {e e' : Endpoint} (h : Effects r e e') (hne : r ≠ connectId) :
    e'.conn.streams = e.conn.streams ∨ e'.closed = true ∨
      e.Pending r ∧ e'.roleOf r = some .ignored := by
  induction h with
  | refl => exact .inl rfl
  | tail hpre hstep ih =>
      rcases ih with hc | hc | ⟨hp, hr⟩
      · rcases hstep.conn with hs | ⟨-, hs | ⟨hp, hr⟩⟩
        · exact .inl (hs.trans hc)
        · exact .inr (.inl hs)
        · exact .inr (.inr ⟨Effects.pending_of hpre hp, hr⟩)
      · exact .inr (.inl (hstep.closed hc))
      · exact .inr (.inr ⟨hp, hstep.roleOf hr (by simp) fun hr => absurd hr hne⟩)

end

end RWebTransport.Endpoint
