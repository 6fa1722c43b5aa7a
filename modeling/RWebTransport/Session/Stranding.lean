import RWebTransport.Session.Churn
import RWebTransport.Session.Delivery
import RWebTransport.Session.Ledger

/-!
# Requests to write

A request of `stream_write` is acknowledged, or dropped by a reset, in the order
of the writes, or it is still queued.  Along every run that writes to no stream
whose send side is over, and in which a flush notices each stop that has
requests queued behind it, what a flush leaves queued can still be sent.

A step takes requests off the head of a queue and settles them (`Settling`);
only `stream_write` adds any.
-/

namespace RWebTransport

/-! ## Requests -/

/-- The request that an event acknowledges. -/
def Ev.acks : Ev → Option Nat
  | .writeAck r => some r
  | _ => none

namespace Trace

def acks : Trace → Option Nat
  | .acked _ r => some r
  | _ => none

/-- The request that was written on the stream. -/
def writes (id : Nat) : Trace → Option Nat
  | .written i _ r => if i = id then some r else none
  | _ => none

/-- The request of the stream that was acknowledged or dropped. -/
def settles (id : Nat) : Trace → Option Nat
  | .acked i r | .dropped i r => if i = id then some r else none
  | _ => none

/-- The record is about the requests of a stream. -/
def isRequest : Trace → Bool
  | .written _ _ _ | .streamReset _ | .dropped _ _ | .acked _ _ => true
  | _ => false

theorem of_not_isRequest {t : Trace} (h : t.isRequest = false) (id : Nat) :
    t.acks = none ∧ t.writes id = none ∧ t.settles id = none := by
  cases t with
  | written | acked | dropped => cases h
  | _ => exact ⟨rfl, rfl, rfl⟩

theorem isRequest_of_quiet {t : Trace} (h : t.isQuiet = false) : t.isRequest = false := by
  cases t with
  | written | streamReset | dropped | acked => cases h
  | _ => rfl

end Trace

/-- The request that a call writes on the stream. -/
def Call.writes (id : Nat) : Call → Option Nat
  | .streamWrite i _ r => if i = id then some r else none
  | _ => none

/-- The requests that are queued. -/
def Stream.requests (st : Stream) : List Nat := st.out.filterMap OutChunk.requestId

/-- The queued requests, and whether the end behind them is marked as sent. -/
def Stream.slot (st : Stream) : List Nat × Bool :=
  if st.requests = [] then ([], false) else (st.requests, st.finSent)

theorem Stream.slot_fst (st : Stream) : st.slot.1 = st.requests := by
  unfold slot
  split
  next h => exact h.symm
  · rfl

theorem Stream.slot_snd {st : Stream} (h : st.requests ≠ []) : st.slot.2 = st.finSent := by
  rw [slot, if_neg h]

theorem Stream.slot_congr {st st' : Stream} (hrequests : st'.requests = st.requests)
    (hsent : st.requests ≠ [] → st'.finSent = st.finSent) : st'.slot = st.slot := by
  unfold slot
  rw [hrequests]
  split
  · rfl
  next h => rw [hsent h]

namespace Endpoint

open Quic (isBidi isLocal QStream)
open Quic.Connection (Send)

/-- The requests written on the stream. -/
def writesOf (e : Endpoint) (id : Nat) : List Nat := e.history.filterMap (Trace.writes id)

/-- The requests of the stream that were acknowledged or dropped. -/
def settledOf (e : Endpoint) (id : Nat) : List Nat := e.history.filterMap (Trace.settles id)

/-- The requests that are queued on the stream. -/
def slotOf (e : Endpoint) (id : Nat) : List Nat × Bool :=
  ((e.streams.get id).map Stream.slot).getD ([], false)

theorem slotOf_get {e : Endpoint} {id : Nat} {s : Stream} (h : e.streams.get id = some s) :
    e.slotOf id = s.slot := by simp [slotOf, h]

theorem slotOf_none {e : Endpoint} {id : Nat} (h : e.streams.get id = none) :
    e.slotOf id = ([], false) := by simp [slotOf, h]

theorem slotOf_congr {e e' : Endpoint} {id : Nat} (h : e'.streams.get id = e.streams.get id) :
    e'.slotOf id = e.slotOf id := by rw [slotOf, slotOf, h]

/-- A stream on which nothing is queued. -/
theorem slotOf_empty {e : Endpoint} {id : Nat} (h : (e.slotOf id).1 = []) :
    e.slotOf id = ([], false) := by
  cases hst : e.streams.get id with
  | none => exact slotOf_none hst
  | some st =>
      rw [slotOf_get hst] at h ⊢
      rw [Stream.slot_fst] at h
      rw [Stream.slot, if_pos h]

theorem slotOf_ne {e : Endpoint} {id : Nat} (h : (e.slotOf id).1 ≠ []) :
    ∃ st, e.streams.get id = some st ∧ st.requests = (e.slotOf id).1 ∧
      st.finSent = (e.slotOf id).2 := by
  cases hst : e.streams.get id with
  | none => exact absurd (by rw [slotOf_none hst]) h
  | some st =>
      rw [slotOf_get hst] at h ⊢
      refine ⟨st, rfl, st.slot_fst.symm, ?_⟩
      rw [Stream.slot_fst] at h
      rw [Stream.slot, if_neg h]

/-! ## The property -/

/-- What is queued can still be sent. -/
def Unstranded (e : Endpoint) : Prop :=
  ∀ id, (e.slotOf id).1 ≠ [] → (e.slotOf id).2 = false ∧ (e.conn.streams id).send.error = none

/-- Every request that the calls wrote was acknowledged or dropped, in the order
of the writes, or is queued on a stream that we have neither reset nor finished. -/
structure InWriteOrder (e : Endpoint) (calls : List Call) : Prop where
  /-- An acknowledgement is one of a write. -/
  acks : e.ev.filterMap Ev.acks = e.history.filterMap Trace.acks
  order : ∀ id, calls.filterMap (Call.writes id) = e.settledOf id ++ (e.slotOf id).1
  /-- Only a reset of its stream drops a request. -/
  dropped : ∀ id r, .dropped id r ∈ e.history → .streamReset id ∈ e.history
  unended : ∀ id, (e.slotOf id).1 ≠ [] → e.Unended id
  flushed : ∀ before order, calls = before ++ [.flush order] → e.Unstranded

/-- What a step must avoid while the session is open: a write to a stream that
we have reset or finished, or marked as such for no stop of the peer, and a
flush that does not notice a stop behind which requests are queued. -/
def KeepsRequests (e : Endpoint) : Step → Prop
  | .streamWrite id _ _ => e.closed = false → ∀ st, e.streams.get id = some st →
      e.Unended id ∧ (st.finSent = true → (e.conn.streams id).send.error.isSome = true)
  | .flushStream id => e.closed = false → (e.slotOf id).1 ≠ [] →
      (e.conn.streams id).send.error.isSome = true → e.Notices id
  | _ => True

/-! ## Settling requests -/

/-- The send side of a stream is no nearer to its end. -/
structure SameSend (q q' : QStream) : Prop where
  fin : q'.send.fin = q.send.fin
  error : q.send.error.isSome = true → q'.send.error.isSome = true

theorem SameSend.refl (q : QStream) : SameSend q q := ⟨rfl, fun h => h⟩

theorem SameSend.of_send {q q' : QStream} (h : q'.send = q.send) : SameSend q q' :=
  ⟨by rw [h], fun herr => by rwa [h]⟩

/-- Requests were taken off the heads of the queues and settled, and none was added. -/
structure Settling (e e' : Endpoint) : Prop where
  writable : ∀ {id}, e.Writable id → e'.Writable id
  acks : ∃ l, e'.ev.filterMap Ev.acks = e.ev.filterMap Ev.acks ++ l ∧
    e'.history.filterMap Trace.acks = e.history.filterMap Trace.acks ++ l
  writes : ∀ id, e'.writesOf id = e.writesOf id
  history : ∀ t ∈ e.history, t ∈ e'.history
  dropped : ∀ id r, .dropped id r ∈ e'.history →
    .dropped id r ∈ e.history ∨ .streamReset id ∈ e'.history
  taken : ∀ id, ∃ l, e'.settledOf id = e.settledOf id ++ l ∧ (e.slotOf id).1 = l ++ (e'.slotOf id).1
  rest : ∀ id, (e'.slotOf id).1 ≠ [] → (e'.slotOf id).2 = (e.slotOf id).2 ∧
    SameSend (e.conn.streams id) (e'.conn.streams id) ∧
    (.streamReset id ∈ e'.history → .streamReset id ∈ e.history)

/-- Where every request is. -/
structure Requested (e : Endpoint) : Prop where
  acks : e.ev.filterMap Ev.acks = e.history.filterMap Trace.acks
  order : ∀ id, e.writesOf id = e.settledOf id ++ (e.slotOf id).1
  dropped : ∀ id r, .dropped id r ∈ e.history → .streamReset id ∈ e.history
  unended : ∀ id, (e.slotOf id).1 ≠ [] → e.Unended id ∧
    ((e.slotOf id).2 = true → (e.conn.streams id).send.error.isSome = true)

theorem Settling.requested {e e' : Endpoint} (h : Settling e e') (hr : e.Requested) :
    e'.Requested where
  acks := by
    obtain ⟨l, hev, hhistory⟩ := h.acks
    rw [hev, hhistory, hr.acks]
  order id := by
    obtain ⟨l, hsettled, hslot⟩ := h.taken id
    rw [h.writes, hr.order, hslot, hsettled, List.append_assoc]
  dropped id r hd := by
    rcases h.dropped id r hd with hd | hreset
    · exact h.history _ (hr.dropped id r hd)
    · exact hreset
  unended id hne := by
    obtain ⟨l, -, hslot⟩ := h.taken id
    obtain ⟨hsent, hsend, hreset⟩ := h.rest id hne
    obtain ⟨hold, herror⟩ := hr.unended id (by simp [hslot, hne])
    refine ⟨⟨h.writable hold.writable, fun hmem => hold.unreset (hreset hmem), ?_⟩, fun hfin => ?_⟩
    · rw [hsend.fin, hold.fin]
    · exact hsend.error (herror (hsent ▸ hfin))

namespace Settling

theorem trans {a b c : Endpoint} (hab : Settling a b) (hbc : Settling b c) : Settling a c where
  writable hw := hbc.writable (hab.writable hw)
  acks := by
    obtain ⟨l, hl, hl'⟩ := hab.acks
    obtain ⟨m, hm, hm'⟩ := hbc.acks
    exact ⟨l ++ m, by rw [hm, hl, List.append_assoc], by rw [hm', hl', List.append_assoc]⟩
  writes id := (hbc.writes id).trans (hab.writes id)
  history t ht := hbc.history t (hab.history t ht)
  dropped id r hd := by
    rcases hbc.dropped id r hd with hd | hreset
    · exact (hab.dropped id r hd).imp_right (hbc.history _)
    · exact .inr hreset
  taken id := by
    obtain ⟨l, hl, hl'⟩ := hab.taken id
    obtain ⟨m, hm, hm'⟩ := hbc.taken id
    exact ⟨l ++ m, by rw [hm, hl, List.append_assoc], by rw [hl', hm', List.append_assoc]⟩
  rest id hne := by
    obtain ⟨l, -, hslot⟩ := hbc.taken id
    obtain ⟨hsent, hsend, hreset⟩ := hab.rest id (by simp [hslot, hne])
    obtain ⟨hsent', hsend', hreset'⟩ := hbc.rest id hne
    exact ⟨hsent'.trans hsent, ⟨hsend'.fin.trans hsend.fin, hsend'.error ∘ hsend.error⟩,
      hreset ∘ hreset'⟩

/-- The queues are as they were, and nothing was said about a request. -/
theorem of_slots {e e' : Endpoint} {l : List Ev} (hev : e'.ev = e.ev ++ l)
    (hl : ∀ v ∈ l, v.acks = none) {m : List Trace} (hhistory : e'.history = e.history ++ m)
    (hm : ∀ t ∈ m, t.isRequest = false)
    (hsend : ∀ i, SameSend (e.conn.streams i) (e'.conn.streams i))
    (hslot : ∀ i, e'.slotOf i = e.slotOf i) : Settling e e' where
  writable hw := hw.mono fun v hv => hev ▸ List.mem_append_left _ hv
  acks := by
    have hnone : l.filterMap Ev.acks = [] := List.filterMap_eq_nil_iff.mpr hl
    have hnone' : m.filterMap Trace.acks = [] :=
      List.filterMap_eq_nil_iff.mpr fun t ht => (Trace.of_not_isRequest (hm t ht) 0).1
    exact ⟨[], by simp [hev, hnone], by simp [hhistory, hnone']⟩
  writes id := by
    have hnone : m.filterMap (Trace.writes id) = [] :=
      List.filterMap_eq_nil_iff.mpr fun t ht => (Trace.of_not_isRequest (hm t ht) id).2.1
    simp [writesOf, hhistory, hnone]
  history t ht := hhistory ▸ List.mem_append_left _ ht
  dropped id r hd := by
    rw [hhistory] at hd
    rcases List.mem_append.mp hd with hd | hd
    · exact .inl hd
    · cases hm _ hd
  taken id := by
    have hnone : m.filterMap (Trace.settles id) = [] :=
      List.filterMap_eq_nil_iff.mpr fun t ht => (Trace.of_not_isRequest (hm t ht) id).2.2
    exact ⟨[], by simp [settledOf, hhistory, hnone], by simp [hslot]⟩
  rest id _ := by
    refine ⟨by rw [hslot], hsend id, fun hreset => ?_⟩
    rw [hhistory] at hreset
    rcases List.mem_append.mp hreset with hreset | hreset
    · exact hreset
    · cases hm _ hreset

/-- Nothing was said at all. -/
theorem of_same {e e' : Endpoint} (hev : e'.ev = e.ev) (hhistory : e'.history = e.history)
    (hsend : ∀ i, SameSend (e.conn.streams i) (e'.conn.streams i))
    (hslot : ∀ i, e'.slotOf i = e.slotOf i) : Settling e e' :=
  of_slots (l := []) (by simp [hev]) (by simp) (m := []) (by simp [hhistory]) (by simp) hsend hslot

/-- The queues and the connection are the same. -/
theorem of_eq {e e' : Endpoint} (hev : e'.ev = e.ev) (hhistory : e'.history = e.history)
    (hconn : e'.conn.streams = e.conn.streams) (hstreams : e'.streams = e.streams) : Settling e e' :=
  of_same hev hhistory (fun i => hconn ▸ .refl _) fun i => slotOf_congr (by rw [hstreams])

theorem refl (e : Endpoint) : Settling e e := of_eq rfl rfl rfl rfl

theorem conn (e : Endpoint) {c : Quic.Connection}
    (h : ∀ i, SameSend (e.conn.streams i) (c.streams i)) : Settling e { e with conn := c } :=
  of_same rfl rfl h fun _ => rfl

end Settling

/-- One entry has changed, and not its requests. -/
theorem slotOf_modify (e : Endpoint) (id : Nat) {f : Stream → Stream}
    (hf : ∀ st, e.streams.get id = some st → (f st).requests = st.requests ∧
      (f st).finSent = st.finSent) (i : Nat) : (e.modifyStream id f).slotOf i = e.slotOf i := by
  by_cases hi : i = id
  · subst hi
    cases hst : e.streams.get i with
    | none => rw [slotOf_none (by simp [modifyStream, hst]), slotOf_none hst]
    | some st =>
        rw [slotOf_get (s := f st) (by simp [modifyStream, hst]), slotOf_get hst]
        exact Stream.slot_congr (hf st hst).1 fun _ => (hf st hst).2
  · exact slotOf_congr (Table.get_modify_ne hi)

theorem Settling.modify (e : Endpoint) (id : Nat) {f : Stream → Stream}
    (hf : ∀ st, (f st).requests = st.requests ∧ (f st).finSent = st.finSent) :
    Settling e (e.modifyStream id f) :=
  .of_same rfl rfl (fun _ => .refl _) (slotOf_modify e id fun st _ => hf st)

/-- An entry without requests is made where none were queued. -/
theorem slotOf_insert {e : Endpoint} {id : Nat} (hnone : (e.slotOf id).1 = []) {st : Stream}
    (hst : st.requests = []) (i : Nat) : (e.insertStream id st).slotOf i = e.slotOf i := by
  by_cases hi : i = id
  · subst hi
    rw [slotOf_empty hnone, slotOf_get (Table.get_insert_self _ _ _), Stream.slot, if_pos hst]
  · exact slotOf_congr (Table.get_insert_ne hi)

theorem requests_withPrefix (role : Role) (bytes : Bytes) (memory : Nat) :
    (Stream.withPrefix role bytes memory).requests = [] :=
  List.filterMap_eq_nil_iff.mpr fun c hc => (withPrefix_out role bytes memory c hc).2

theorem Queued.requests {st st' : Stream} (h : Queued st st') :
    st'.requests = st.requests ∧ st'.finSent = st.finSent := by
  induction h with
  | refl => exact ⟨rfl, rfl⟩
  | push _ _ ih | finish _ _ ih => exact ⟨by simpa [Stream.requests, Stream.push] using ih.1, ih.2⟩

theorem Settling.of_aside {e e' : Endpoint} (h : Aside e e') : Settling e e' := by
  obtain ⟨l, hl, hdatagram⟩ := h.ev
  obtain ⟨m, hm, hclose⟩ := h.history
  refine .of_slots hl (fun v hv => ?_) hm (fun t ht => by rw [hclose t ht]; rfl)
    (fun i => h.conn ▸ .refl _) fun i => ?_
  · have hd := hdatagram v hv
    cases v <;> first | rfl | cases hd
  · by_cases hi : i = connectId
    · subst hi
      cases hg : e'.streams.get connectId with
      | none =>
          rw [slotOf_none hg, slotOf_none ((Tends.of_aside h).gone connectId hg)]
      | some st' =>
          obtain ⟨st, hst, hq⟩ := h.connect st' hg
          rw [slotOf_get hg, slotOf_get hst]
          exact Stream.slot_congr hq.requests.1 fun _ => hq.requests.2
    · exact slotOf_congr (h.get i hi)

/-! ## Steps that send nothing -/

section

variable {e : Endpoint} {id : Nat}

/-- Nothing is queued where nothing may be written. -/
theorem Requested.slotOf_nil (hr : e.Requested) (h : ¬e.Writable id) : (e.slotOf id).1 = [] := by
  by_contra hne
  exact h (hr.unended id hne).1.writable

namespace Settling

theorem insert (hnone : (e.slotOf id).1 = []) {st : Stream} (hst : st.requests = []) :
    Settling e (e.insertStream id st) :=
  .of_same rfl rfl (fun _ => .refl _) (slotOf_insert hnone hst)

theorem onEstablished (hr : e.Requested) (hl : e.Layout) : Settling e e.onEstablished := by
  have hnone : ∀ i ∈ controlIds e.cfg.isServer, (e.slotOf i).1 = [] :=
    fun i hi => hr.slotOf_nil fun hw => (hl.writable_ne hw).2 hi
  have hids : controlId e.cfg.isServer ∈ controlIds e.cfg.isServer ∧
      qpackEncId e.cfg.isServer ∈ controlIds e.cfg.isServer ∧
      qpackDecId e.cfg.isServer ∈ controlIds e.cfg.isServer := by simp [controlIds]
  -- each control stream is made where nothing was queued, and changes no queue
  have hlocal : ∀ (s : Endpoint) (i : Nat) (bytes : Bytes), i ∈ controlIds e.cfg.isServer →
      (∀ j, s.slotOf j = e.slotOf j) → Settling s (s.insertLocal i bytes) ∧
        ∀ j, (s.insertLocal i bytes).slotOf j = e.slotOf j := by
    intro s i bytes hi hs
    have hempty : (s.slotOf i).1 = [] := by rw [hs]; exact hnone i hi
    have hreq := requests_withPrefix .localControlPlane bytes s.parserMemory
    exact ⟨insert hempty hreq, fun j => (slotOf_insert hempty hreq j).trans (hs j)⟩
  unfold Endpoint.onEstablished
  split_ifs
  · exact refl e
  · obtain ⟨h1, hs1⟩ := hlocal { e with setupSent := true } (controlId e.cfg.isServer)
      H3.controlStreamPrefix hids.1 fun _ => rfl
    obtain ⟨h2, hs2⟩ := hlocal _ (qpackEncId e.cfg.isServer) (H3.putVarint H3.qpackEncoderStreamType)
      hids.2.1 hs1
    obtain ⟨h3, -⟩ := hlocal _ (qpackDecId e.cfg.isServer) (H3.putVarint H3.qpackDecoderStreamType)
      hids.2.2 hs2
    have h4 := (((of_eq rfl rfl rfl rfl : Settling e { e with setupSent := true }).trans h1).trans
      h2).trans h3
    simp only
    split_ifs
    · exact h4
    · exact h4.trans (of_eq rfl rfl rfl rfl)

theorem touch (e : Endpoint) (id : Nat) : Settling e (e.touch id) := by
  unfold Endpoint.touch
  split
  · exact refl e
  next hcontains =>
    have hnone : e.streams.get id = none := by simpa [Table.contains] using hcontains
    exact insert (by rw [slotOf_none hnone]) rfl

theorem allocateStream (hr : e.Requested) (hl : e.Layout) (bidi : Bool) (requestId : Nat) :
    Settling e (e.allocateStream bidi requestId) := by
  have hnone : (e.slotOf (e.nextId bidi)).1 = [] := hr.slotOf_nil (hl.nextId_new bidi).1
  have hinsert : ∀ s : Endpoint, s.streams = e.streams → Settling s ((s.insertStream (e.nextId bidi)
      (.withPrefix (.wtData bidi) (streamSignal bidi) s.parserMemory)).emit
      (.streamOpened requestId (e.nextId bidi))) := by
    intro s hs
    have hslot : s.slotOf (e.nextId bidi) = e.slotOf (e.nextId bidi) := slotOf_congr (by rw [hs])
    have hempty : (s.slotOf (e.nextId bidi)).1 = [] := by rw [hslot, hnone]
    exact (insert hempty (requests_withPrefix _ _ _)).trans (of_slots rfl (by simp [Ev.acks])
      (m := []) (List.append_nil _).symm (by simp) (fun _ => .refl _) fun _ => rfl)
  cases bidi with
  | false =>
      exact (of_eq rfl rfl rfl rfl : Settling e { e with nextUni := e.nextUni + 4 }).trans
        (hinsert _ rfl)
  | true =>
      exact (of_eq rfl rfl rfl rfl : Settling e { e with nextBidi := e.nextBidi + 4 }).trans
        (hinsert _ rfl)

theorem releasePendingOpens (hr : e.Requested) (hl : e.Layout) : Settling e e.releasePendingOpens :=
  (releasePendingOpens_invariant (I := fun s => s.Layout ∧ s.Requested ∧ Settling e s)
    (fun s l h => ⟨h.1.same (.session rfl rfl rfl rfl rfl rfl rfl rfl rfl),
      (of_eq rfl rfl rfl rfl : Settling s { s with pendingOpens := l }).requested h.2.1,
      h.2.2.trans (of_eq rfl rfl rfl rfl)⟩)
    (fun s bidi requestId _ _ _ h => by
      have hs := allocateStream h.2.1 h.1 bidi requestId
      exact ⟨h.1.allocateStream bidi requestId, hs.requested h.2.1, h.2.2.trans hs⟩)
    ⟨hl, hr, refl e⟩).2.2

theorem streamStopSending (e : Endpoint) (id code : Nat) : Settling e (e.streamStopSending id code) := by
  unfold Endpoint.streamStopSending
  split_ifs
  · have hconn : Settling e (e.shutdownRead id (H3.webtransportCodeToHttpCode code)) :=
      conn e fun i => .of_send (Quic.Connection.streamShutdownRead_send _ _ _ _)
    exact hconn.trans (.modify _ id fun _ => ⟨rfl, rfl⟩)
  · exact refl e

theorem markClosed (e : Endpoint) (code : Nat) (reason : Bytes) (remote : Bool) :
    Settling e (e.markClosed code reason remote) := by
  cases hc : e.closed with
  | true =>
      rw [Endpoint.markClosed, if_pos hc]
      exact refl e
  | false =>
      refine of_slots (markClosed_ev hc code reason remote) (by simp [Ev.acks]) (m := [])
        (by simp [(markClosed_flags e code reason remote).2.2.2.2]) (by simp)
        (fun i => by rw [markClosed_conn]; exact .refl _) fun i => ?_
      have hget : (e.markClosed code reason remote).streams.get i = (e.streams.get i).map Stream.dead := by
        rw [markClosed_streams hc, Table.get_map]
      cases hst : e.streams.get i with
      | none => rw [slotOf_none hst, slotOf_none (by rw [hget, hst, Option.map_none])]
      | some st =>
          rw [slotOf_get hst, slotOf_get (s := st.dead) (by rw [hget, hst, Option.map_some])]
          rfl

/-- A stream with requests behind it is not dropped. -/
theorem prune (hr : e.Requested) (hl : e.Layout) : Settling e e.prune := by
  refine of_same rfl rfl (fun _ => .refl _) fun i => ?_
  cases hst : e.streams.get i with
  | none => rw [slotOf_none hst, slotOf_none (by simp [Endpoint.prune, Table.get_filter, hst])]
  | some st =>
      by_cases hkept : retains e.cfg.isServer i st = true
      · exact slotOf_congr (by simp [Endpoint.prune, Table.get_filter, hst, hkept])
      · rw [slotOf_none (by simp [Endpoint.prune, Table.get_filter, hst, hkept]), slotOf_get hst]
        have hnil : st.requests = [] := by
          by_contra hne
          have hw := (hr.unended i (by rwa [slotOf_get hst, Stream.slot_fst])).1.writable
          have hout := (sent_of_dropped (hl.canSend hw) (by simpa using hkept)).2
          simp [Stream.requests, hout] at hne
        rw [Stream.slot, if_pos hnil]

theorem network (hl : e.Layout) (event : Quic.NetEvent) :
    Settling e { e with conn := e.conn.net event } :=
  conn e fun i => ⟨(Quic.Connection.net_flags (fun i => (hl.wellFormed i).absent) event i).2.2.1,
    Quic.Connection.net_stopped (fun i => (hl.wellFormed i).absent) event⟩

end Settling

end

/-! ## Reading -/

theorem Ev.acks_of_not_quiet {v : Ev} (h : v.isQuiet = false) : v.acks = none := by
  cases v with
  | writeAck => cases h
  | _ => rfl

theorem EntryEffect.slot {st st' : Stream} (h : EntryEffect st st') : st'.slot = st.slot := by
  obtain ⟨more, hout, hown⟩ := h.out
  have hnone : more.filterMap OutChunk.requestId = [] :=
    List.filterMap_eq_nil_iff.mpr fun c hc => (hown c hc).2
  refine Stream.slot_congr (by simp [Stream.requests, hout, hnone]) fun _ => ?_
  cases h <;> rfl

section

variable [H3.Codec] {r : Nat} {e e' : Endpoint}

/-- Reading settles no request, and drops no stream that has any. -/
theorem Effect.settling (h : Effect r e e') (hl : e.Layout) (hr : e.Requested) : Settling e e' := by
  have hslot : ∀ i, e'.slotOf i = e.slotOf i := by
    intro i
    cases hg : e'.streams.get i with
    | some st' =>
        rw [slotOf_get hg]
        rcases h.entry hg with ⟨st, hst, heff⟩ | ⟨rfl, -, -, -, frame, rfl⟩
        · rw [slotOf_get hst, heff.slot]
        · rw [slotOf_empty (hr.slotOf_nil fun hw => (hl.writable_ne hw).1 rfl), Stream.slot,
            if_pos (requests_withPrefix _ _ _)]
    | none =>
        rw [slotOf_none hg]
        cases hst : e.streams.get i with
        | none => rw [slotOf_none hst]
        | some st =>
            have hp : e.Pending i := by
              simpa [Pending, Endpoint.roleOf, hst] using h.pending_of_removed hst hg
            rw [slotOf_empty (hr.slotOf_nil fun hw => hl.pending_new hp hw.surfaced)]
  rcases h.silent with ⟨⟨l, hev, hstill⟩, m, hhistory, hquiet⟩ | ⟨rfl, -⟩
  · exact .of_slots hev (fun v hv => Ev.acks_of_not_quiet (hstill v hv).2) hhistory
      (fun t ht => Trace.isRequest_of_quiet (hquiet t ht)) (fun i => .of_send (h.send i)) hslot
  · exact .of_slots rfl (by simp [Ev.acks]) (m := []) (List.append_nil _).symm (by simp)
      (fun i => .refl _) hslot

theorem Effects.settling (h : Effects r e e') (hl : e.Layout) (hr : e.Requested) : Settling e e' :=
  (h.invariant (I := fun s => s.Layout ∧ s.Requested ∧ Settling e s)
    (fun _ _ heff hI => by
      have hs := heff.settling hI.1 hI.2.1
      exact ⟨heff.layout hI.1, hs.requested hI.2.1, hI.2.2.trans hs⟩) ⟨hl, hr, .refl e⟩).2.2

end

/-! ## Resetting and writing -/

/-- The records that settle requests of one stream. -/
structure Settles (id : Nat) (rs : List Nat) (m : List Trace) : Prop where
  writes : ∀ i, m.filterMap (Trace.writes i) = []
  settles : ∀ i, m.filterMap (Trace.settles i) = if i = id then rs else []
  reset : ∀ i, i ≠ id → .streamReset i ∉ m

theorem Settles.append {id : Nat} {rs rs' : List Nat} {m m' : List Trace} (h : Settles id rs m)
    (h' : Settles id rs' m') : Settles id (rs ++ rs') (m ++ m') where
  writes i := by rw [List.filterMap_append, h.writes, h'.writes, List.append_nil]
  settles i := by
    rw [List.filterMap_append, h.settles, h'.settles]
    split <;> rfl
  reset i hi hmem := by
    rcases List.mem_append.mp hmem with hmem | hmem
    · exact h.reset i hi hmem
    · exact h'.reset i hi hmem

theorem Settles.none (id : Nat) {m : List Trace} (hm : ∀ t ∈ m, t.isRequest = false) :
    Settles id [] m where
  writes i := List.filterMap_eq_nil_iff.mpr fun t ht => (Trace.of_not_isRequest (hm t ht) i).2.1
  settles i := by
    rw [ite_self]
    exact List.filterMap_eq_nil_iff.mpr fun t ht => (Trace.of_not_isRequest (hm t ht) i).2.2
  reset i _ hmem := by cases hm _ hmem

theorem Settles.streamReset (id : Nat) : Settles id [] [.streamReset id] where
  writes _ := rfl
  settles i := by rw [ite_self]; rfl
  reset i hi hmem := hi (by simpa using hmem)

theorem Settles.dropped (id r : Nat) : Settles id [r] [.dropped id r] where
  writes _ := rfl
  settles i := by
    by_cases hi : id = i
    · simp [Trace.settles, hi]
    · simp [Trace.settles, hi, Ne.symm hi]
  reset _ _ hmem := by simp at hmem

theorem Settles.acked (id r : Nat) : Settles id [r] [.acked id r] where
  writes _ := rfl
  settles i := by
    by_cases hi : id = i
    · simp [Trace.settles, hi]
    · simp [Trace.settles, hi, Ne.symm hi]
  reset _ _ hmem := by simp at hmem

theorem Settles.drops (id : Nat) (rs : List Nat) : Settles id rs (rs.map (.dropped id)) := by
  induction rs with
  | nil => exact .none id (by simp)
  | cons r rs ih => exact (Settles.dropped id r).append ih

theorem Settles.ackTrace (id : Nat) (c : OutChunk) :
    Settles id c.requestId.toList (ackTrace id c) := by
  unfold Endpoint.ackTrace
  cases c.requestId with
  | none => exact .none id (by simp)
  | some r => exact .acked id r

theorem Settles.ackTraces (id : Nat) (out : List OutChunk) :
    Settles id (out.filterMap OutChunk.requestId) (out.flatMap (Endpoint.ackTrace id)) := by
  induction out with
  | nil => exact .none id (by simp)
  | cons c out ih =>
      have h := (Settles.ackTrace id c).append ih
      cases hr : c.requestId <;> simpa [hr] using h

/-- The requests `rs` were taken off one queue and settled, those in `a` by an
acknowledgement. -/
theorem Settling.take {e e' : Endpoint} {id : Nat} {rs a : List Nat} {l : List Ev}
    (hev : e'.ev = e.ev ++ l) (hl : l.filterMap Ev.acks = a) {m : List Trace}
    (hhistory : e'.history = e.history ++ m) (hm : Settles id rs m)
    (hacks : m.filterMap Trace.acks = a)
    (hdropped : ∀ i r, .dropped i r ∈ m → .streamReset i ∈ m)
    (hne : ∀ i, i ≠ id → e'.slotOf i = e.slotOf i ∧
      SameSend (e.conn.streams i) (e'.conn.streams i))
    (htaken : (e.slotOf id).1 = rs ++ (e'.slotOf id).1)
    (hrest : (e'.slotOf id).1 ≠ [] → (e'.slotOf id).2 = (e.slotOf id).2 ∧
      SameSend (e.conn.streams id) (e'.conn.streams id) ∧ .streamReset id ∉ m) : Settling e e' where
  writable hw := hw.mono fun v hv => hev ▸ List.mem_append_left _ hv
  acks := ⟨a, by rw [hev, List.filterMap_append, hl], by rw [hhistory, List.filterMap_append, hacks]⟩
  writes i := by rw [writesOf, hhistory, List.filterMap_append, hm.writes, List.append_nil]; rfl
  history t ht := hhistory ▸ List.mem_append_left _ ht
  dropped i r hd := by
    rw [hhistory] at hd ⊢
    rcases List.mem_append.mp hd with hd | hd
    · exact .inl hd
    · exact .inr (List.mem_append_right _ (hdropped i r hd))
  taken i := by
    refine ⟨if i = id then rs else [], ?_, ?_⟩
    · rw [settledOf, hhistory, List.filterMap_append, hm.settles]
      rfl
    · by_cases hi : i = id
      · rw [if_pos hi, hi, htaken]
      · rw [if_neg hi, (hne i hi).1, List.nil_append]
  rest i hi := by
    have hmem : ∀ {j}, .streamReset j ∉ m → .streamReset j ∈ e'.history → .streamReset j ∈ e.history := by
      intro j hj hreset
      rw [hhistory] at hreset
      exact (List.mem_append.mp hreset).resolve_right hj
    by_cases heq : i = id
    · subst heq
      obtain ⟨hsent, hsend, hreset⟩ := hrest hi
      exact ⟨hsent, hsend, hmem hreset⟩
    · exact ⟨by rw [(hne i heq).1], (hne i heq).2, hmem (hm.reset i heq)⟩

section

variable {e : Endpoint} {id : Nat}

/-- A reset drops all that is queued on its stream. -/
theorem Settling.streamReset (e : Endpoint) (id code : Nat) : Settling e (e.streamReset id code) := by
  rcases streamReset_spec e id code with heq | ⟨st, hst, hreset⟩
  · rw [heq]
    exact .refl e
  obtain ⟨n, hn⟩ := hreset.entry
  obtain ⟨m, hreturned, hhistory⟩ := hreset.history
  have hm : ∀ t ∈ m, t.isRequest = false := by
    intro t ht
    obtain ⟨k, rfl⟩ := hreturned t ht
    rfl
  have hgone : (e.streamReset id code).slotOf id = ([], false) := by
    rw [slotOf_get hn]
    rfl
  refine .take (l := []) (by simp [hreset.ev]) rfl hhistory
    (((Settles.streamReset id).append (.none id hm)).append (.drops id _)) ?_ ?_
    (fun i hi => ⟨slotOf_congr (hreset.get_ne i hi), ?_⟩) ?_ fun hne => absurd (by rw [hgone]) hne
  · refine List.filterMap_eq_nil_iff.mpr fun t ht => ?_
    simp only [List.cons_append, List.mem_cons, List.mem_append, List.mem_map] at ht
    rcases ht with rfl | ht | ⟨r, -, rfl⟩
    · rfl
    · exact (Trace.of_not_isRequest (hm t ht) 0).1
    · rfl
  · intro i r hd
    simp only [List.cons_append, List.mem_cons, reduceCtorEq, List.mem_append, List.mem_map,
      Trace.dropped.injEq, false_or] at hd
    rcases hd with hd | ⟨q, -, rfl, -⟩
    · cases hm _ hd
    · exact List.mem_cons_self
  · rw [hreset.conn]
    rcases Quic.Connection.streamShutdownWrite_streams e.conn id
      (H3.webtransportCodeToHttpCode code) i with hs | ⟨hi', -⟩
    · rw [hs]
      exact .refl _
    · exact absurd hi' hi
  · rw [hgone, slotOf_get hst, Stream.slot_fst, List.append_nil]
    rfl

/-- A write is queued behind the others, or acknowledged at once. -/
theorem Requested.streamWrite (hr : e.Requested) (hw : e.Writable id)
    (hopen : ∀ st, e.streams.get id = some st → e.Unended id ∧
      (st.finSent = true → (e.conn.streams id).send.error.isSome = true))
    (data : Bytes) (requestId : Nat) : (e.streamWrite id data requestId).Requested := by
  unfold Endpoint.streamWrite
  simp only
  split
  next hcontains =>
    obtain ⟨st, hst⟩ := Option.isSome_iff_exists.mp hcontains
    have hst : e.streams.get id = some st := hst
    obtain ⟨hunended, herror⟩ := hopen st hst
    generalize he' : (e.log (.written id data requestId)).modifyStream id (fun st =>
      st.push data (some requestId)) = e'
    have hconn : e'.conn = e.conn := by rw [← he']; rfl
    have hev : e'.ev = e.ev := by rw [← he']; rfl
    have hhistory : e'.history = e.history ++ [.written id data requestId] := by rw [← he']; rfl
    have hne : ∀ i, i ≠ id → e'.slotOf i = e.slotOf i := fun i hi =>
      slotOf_congr (by rw [← he']; exact Table.get_modify_ne hi)
    have hreq : (st.push data (some requestId)).requests = st.requests ++ [requestId] := by
      simp [Stream.requests, Stream.push]
    have hslot : e'.slotOf id = (st.requests ++ [requestId], st.finSent) := by
      rw [slotOf_get (s := st.push data (some requestId)) (by rw [← he']; simp [modifyStream, log, hst]),
        Stream.slot, if_neg (by simp [hreq]), hreq]
      rfl
    refine ⟨?_, fun i => ?_, fun i r hd => ?_, fun i hi => ?_⟩
    · rw [hev, hhistory, List.filterMap_append, hr.acks]
      simp [Trace.acks]
    · have hold := hr.order i
      rw [writesOf, settledOf, hhistory, List.filterMap_append, List.filterMap_append]
      by_cases hid : i = id
      · subst hid
        rw [slotOf_get hst, Stream.slot_fst] at hold
        rw [hslot]
        unfold writesOf settledOf at hold
        simp [hold, Trace.writes, Trace.settles]
      · rw [hne i hid]
        unfold writesOf settledOf at hold
        simp [hold, Trace.writes, Trace.settles, Ne.symm hid]
    · rw [hhistory] at hd ⊢
      rcases List.mem_append.mp hd with hd | hd
      · exact List.mem_append_left _ (hr.dropped i r hd)
      · simp at hd
    · have hunended' : ∀ {i}, e.Unended i → e'.Unended i := fun h =>
        ⟨h.writable.mono fun v hv => hev.symm ▸ hv, by simpa [hhistory] using h.unreset,
          by rw [hconn]; exact h.fin⟩
      rw [hconn]
      by_cases hid : i = id
      · subst hid
        rw [hslot]
        exact ⟨hunended' hunended, herror⟩
      · rw [hne i hid] at hi ⊢
        exact (hr.unended i hi).imp_left hunended'
  next hcontains =>
    have hnone : e.streams.get id = none := by simpa [Table.contains, log] using hcontains
    have hslot : ∀ i, (((e.log (.written id data requestId)).log (.acked id requestId)).emit
        (.writeAck requestId)).slotOf i = e.slotOf i := fun _ => rfl
    refine ⟨?_, fun i => ?_, fun i r hd => ?_, fun i hi => ?_⟩
    · simp [log, emit, hr.acks, List.filterMap_cons, Ev.acks, Trace.acks]
    · have hold := hr.order i
      rw [hslot]
      unfold writesOf settledOf at hold ⊢
      by_cases hid : i = id
      · subst hid
        rw [slotOf_none hnone] at hold ⊢
        simp [log, emit, hold, List.filterMap_cons, Trace.writes, Trace.settles]
      · simp [log, emit, hold, List.filterMap_cons, Trace.writes, Trace.settles, Ne.symm hid]
    · have hd : .dropped i r ∈ e.history := by simpa [log, emit] using hd
      simpa [log, emit] using hr.dropped i r hd
    · rw [hslot] at hi ⊢
      obtain ⟨hunended, herror⟩ := hr.unended i hi
      exact ⟨⟨hunended.writable.mono fun v hv => List.mem_append_left _ hv,
        by simpa [log, emit] using hunended.unreset, hunended.fin⟩, herror⟩

end

/-! ## The send loop -/

section

variable {e e' : Endpoint} {id : Nat}

theorem acks_ackOf (c : OutChunk) : (ackOf c).filterMap Ev.acks = c.requestId.toList := by
  unfold ackOf
  cases c.requestId <;> rfl

theorem acks_ackTrace (id : Nat) (c : OutChunk) :
    (ackTrace id c).filterMap Trace.acks = c.requestId.toList := by
  unfold ackTrace
  cases c.requestId <;> rfl

theorem acks_flatMap {α β : Type} {f : α → Option Nat} {g : β → List α} {h : β → Option Nat}
    (hg : ∀ b, (g b).filterMap f = (h b).toList) (l : List β) :
    (l.flatMap g).filterMap f = l.filterMap h := by
  induction l with
  | nil => rfl
  | cons b l ih =>
      rw [List.flatMap_cons, List.filterMap_append, hg, ih]
      cases hb : h b <;> simp [hb]

theorem mem_ackTrace {id : Nat} {c : OutChunk} {t : Trace} (h : t ∈ ackTrace id c) :
    ∃ r, t = .acked id r := by
  unfold ackTrace at h
  cases hr : c.requestId with
  | none => simp [hr] at h
  | some r => exact ⟨r, by simpa [hr] using h⟩

/-- An effect of the send loop acknowledges requests at the head of the queue. -/
theorem Sending.settling (h : Sending id e e') (hwf : e.conn.WellFormed) : Settling e e' := by
  have habs : ∀ i, (e.conn.streams i).phase = .absent → e.conn.streams i = {} :=
    fun i => (hwf i).absent
  have hsame : ∀ {c : Quic.Connection} {bytes : Bytes} {fin : Bool} {res : Except Quic.Error Nat},
      Send e.conn id bytes fin res c → (fin = false ∨ ∃ err, res = .error err) →
      ∀ i, SameSend (e.conn.streams i) (c.streams i) := fun hs hfin i => by
    obtain ⟨hsent, -, herr⟩ := hs.flags habs hfin i
    exact ⟨hsent, fun hstop => herr ▸ hstop⟩
  have hne : ∀ i, i ≠ id → e'.slotOf i = e.slotOf i := fun i hi => slotOf_congr (h.get_ne hi)
  cases h with
  | @returned st finalSize hst hdata hfinal hlt =>
      have hmodify : Settling e (e.modifyStream id fun st =>
          { st with sendPayload := finalSize - st.sendPrefix }) := .modify e id fun _ => ⟨rfl, rfl⟩
      exact hmodify.trans (.of_slots (l := []) (List.append_nil _).symm (by simp) (m := [_]) rfl
        (by simp [Trace.isRequest]) (fun _ => .refl _) fun _ => rfl)
  | refused hst hs => exact .conn e (hsame hs (.inr ⟨_, rfl⟩))
  | @sent st front rest n c hst hout hamount hs =>
      have hpayload : ∀ t ∈ (if isPayload st front then [Trace.accepted id n] else []),
          t.isRequest = false := by
        intro t ht
        split at ht <;> simp at ht
        rw [ht]
        rfl
      have hget : ((({ e with conn := c } : Endpoint).advance id front rest (isPayload st front) n)).streams.get
          id = some { st with
            sendPayload := if isPayload st front then st.sendPayload + n else st.sendPayload
            out := if decide (front.data.length ≤ front.off + n) then rest
              else { front with off := front.off + n } :: rest } := by
        simp only [advance, Table.get_modify_self, hst, Option.map_some]
      have hrequests : st.requests = front.requestId.toList ++ rest.filterMap OutChunk.requestId := by
        unfold Stream.requests
        rw [hout]
        cases hr : front.requestId <;> simp [hr]
      have hend : ∀ (rs : List Nat) {st' : Stream}, st'.finSent = st.finSent →
          st.requests = rs ++ st'.requests → st'.slot.1 ≠ [] → st'.slot.2 = st.slot.2 := by
        intro rs st' hsent htaken hne
        rw [Stream.slot_fst] at hne
        rw [Stream.slot_snd hne, Stream.slot_snd (by simp [htaken, hne]), hsent]
      have hothers := fun i (hi : i ≠ id) => (⟨hne i hi, hsame hs (.inl rfl) i⟩ : _ ∧ _)
      have hquiet := Settles.none id hpayload
      have hreset : .streamReset id ∉ (if isPayload st front then [Trace.accepted id n] else []) :=
        fun hmem => by cases hpayload _ hmem
      have hacks : (if isPayload st front then [Trace.accepted id n] else []).filterMap Trace.acks = [] :=
        List.filterMap_eq_nil_iff.mpr fun t ht => (Trace.of_not_isRequest (hpayload t ht) 0).1
      have hev : ((({ e with conn := c } : Endpoint).advance id front rest (isPayload st front) n)).ev =
          e.ev ++ if decide (front.data.length ≤ front.off + n) then ackOf front else [] := rfl
      have hhistory : ((({ e with conn := c } : Endpoint).advance id front rest
          (isPayload st front) n)).history = e.history ++ ((if isPayload st front then
          [Trace.accepted id n] else []) ++
            if decide (front.data.length ≤ front.off + n) then ackTrace id front else []) := rfl
      -- the first request is settled with the last byte of its chunk
      cases hdone : decide (front.data.length ≤ front.off + n) with
      | true =>
          rw [hdone] at hget hev hhistory
          refine .take hev (acks_ackOf front) hhistory (hquiet.append (.ackTrace id front)) ?_ ?_
            hothers ?_ fun hi => ?_
          · rw [if_pos rfl, List.filterMap_append, hacks, acks_ackTrace, List.nil_append]
          · intro i r hd
            rcases List.mem_append.mp hd with hd | hd
            · cases hpayload _ hd
            · obtain ⟨q, hq⟩ := mem_ackTrace hd
              cases hq
          · rw [slotOf_get hst, slotOf_get hget, Stream.slot_fst, Stream.slot_fst]
            exact hrequests
          · rw [slotOf_get hget] at hi ⊢
            rw [slotOf_get hst]
            refine ⟨hend _ rfl hrequests hi, hsame hs (.inl rfl) id, fun hmem => ?_⟩
            rcases List.mem_append.mp hmem with hmem | hmem
            · exact hreset hmem
            · obtain ⟨q, hq⟩ := mem_ackTrace hmem
              cases hq
      | false =>
          rw [hdone] at hget hev hhistory
          refine .take hev rfl hhistory (hquiet.append (.none id (by simp))) ?_ ?_
            hothers ?_ fun hi => ?_
          · rw [List.filterMap_append, hacks]
            rfl
          · intro i r hd
            rcases List.mem_append.mp hd with hd | hd
            · cases hpayload _ hd
            · simp at hd
          · rw [slotOf_get hst, slotOf_get hget, Stream.slot_fst, Stream.slot_fst]
            unfold Stream.requests
            rw [hout]
            rfl
          · rw [slotOf_get hget] at hi ⊢
            rw [slotOf_get hst]
            refine ⟨hend [] rfl ?_ hi, hsame hs (.inl rfl) id, fun hmem => ?_⟩
            · unfold Stream.requests
              rw [hout]
              rfl
            · rcases List.mem_append.mp hmem with hmem | hmem
              · exact hreset hmem
              · simp at hmem
  | @stopped st bytes code c hst hout hs =>
      have hgone : (({ e with conn := c } : Endpoint).surfaceStop id code st.out).slotOf id =
          ([], false) := by
        rw [slotOf_get (s := { st with out := [], finSent := true })
          (by simp [surfaceStop, Table.get_modify_self, hst])]
        rfl
      refine .take rfl ?_ rfl (.ackTraces id st.out) (acks_flatMap (acks_ackTrace id) _) ?_
        (fun i hi => ⟨hne i hi, hsame hs (.inr ⟨_, rfl⟩) i⟩) ?_ fun hne => absurd (by rw [hgone]) hne
      · exact acks_flatMap acks_ackOf st.out
      · intro i r hd
        obtain ⟨c, -, hd⟩ := List.mem_flatMap.mp hd
        obtain ⟨q, hq⟩ := mem_ackTrace hd
        cases hq
      · rw [hgone, slotOf_get hst, Stream.slot_fst, List.append_nil]
        rfl
  | @fin st n c hst hout hqueued hnot hs =>
      have hempty : (e.slotOf id) = ([], false) := by
        rw [slotOf_get hst, Stream.slot, if_pos (by simp [Stream.requests, hout])]
      have hgone : (({ e with conn := c } : Endpoint).modifyStream id fun st =>
          { st with finSent := true }).slotOf id = ([], false) := by
        rw [slotOf_get (s := { st with finSent := true }) (by simp [modifyStream, hst]),
          Stream.slot, if_pos (by simp [Stream.requests, hout])]
      refine .take (l := []) (List.append_nil _).symm rfl (m := []) (List.append_nil _).symm
        (.none id (by simp)) rfl (by simp) (fun i hi => ⟨hne i hi, ?_⟩) (by rw [hgone, hempty]; rfl)
        fun hne => absurd (by rw [hgone]) hne
      rw [show ((({ e with conn := c } : Endpoint).modifyStream id fun st =>
        { st with finSent := true }).conn.streams i) = _ from hs.ne hi]
      exact .refl _

theorem flushStream_settling (hwf : e.conn.WellFormed) (id : Nat) : Settling e (e.flushStream id) :=
  (flushStream_invariant (I := fun s => s.conn.WellFormed ∧ Settling e s)
    (fun _ _ h hI => ⟨h.wellFormed hI.1, hI.2.trans (h.settling hI.1)⟩) ⟨hwf, .refl e⟩).2

end

/-! ## Whole steps -/

section

variable [H3.Codec] {e : Endpoint}

/-- A step other than a write settles requests. -/
theorem step_settling (hl : e.Layout) (hr : e.Requested) {s : Step} (hs : e.StepAdmissible s)
    (hwrite : ∀ id data requestId, s ≠ .streamWrite id data requestId) : Settling e (e.step s) := by
  cases s with
  | streamWrite id data requestId => exact absurd rfl (hwrite id data requestId)
  | onEstablished => exact .onEstablished hr hl
  | touch id => exact .touch e id
  | read id backpressured =>
      show Settling e (readStep id backpressured e).1
      rcases readStep_effects (hl.readable hs) hl.wellFormed (hl.alive_of_readable hs id) backpressured
        with heq | ⟨cap, heff⟩
      · rw [heq]
        exact .refl e
      · have hspec := Quic.Connection.streamRecv_spec e.conn id cap
        have hconn : Settling e { e with conn := (e.conn.streamRecv id cap).2 } :=
          .conn e fun i => .of_send (hspec.send i)
        exact hconn.trans (heff.settling (hl.same (.conn e hspec.isServer hspec.wellFormed hspec.phase
          fun hwf _ => hspec.exhausted hwf)) (hconn.requested hr))
  | onDatagrams => exact .of_aside (.onDatagrams e)
  | sendDatagram data requestId => exact .of_aside (.sendDatagram e data requestId)
  | openStream bidi requestId =>
      have hpending : Settling e { e with pendingOpens := e.pendingOpens ++ [(bidi, requestId)] } :=
        .of_eq rfl rfl rfl rfl
      exact hpending.trans (.releasePendingOpens (hpending.requested hr)
        (hl.same (.session rfl rfl rfl rfl rfl rfl rfl rfl rfl)))
  | streamFin id | setPaused id => exact .modify e id fun _ => ⟨rfl, rfl⟩
  | streamReset id code => exact .streamReset e id code
  | streamStopSending id code => exact .streamStopSending e id code
  | close code reason => exact .of_aside (.close e code reason)
  | sendDrain => exact .of_aside (.sendDrain e)
  | takeTerminalError => exact .of_aside (.takeTerminalError e)
  | grantCredit => exact .of_aside (.grantCredit e)
  | replenish => exact .of_aside (.replenish e)
  | queueClose => exact .of_aside (.queueClose e)
  | releasePendingOpens => exact .releasePendingOpens hr hl
  | flushStream id => exact flushStream_settling hl.wellFormed id
  | commitSent => exact .of_eq rfl rfl rfl rfl
  | signalFlowControlBlocked => exact .of_aside (.signalFlowControlBlocked e)
  | prune => exact .prune hr hl
  | gracefulClose => exact .of_aside (.gracefulClose e)
  | markClosed code reason remote => exact .markClosed e code reason remote
  | network event => exact .network hl event

/-- While the session is open, every request is accounted for. -/
def RequestsKept (e : Endpoint) : Prop := e.closed = true ∨ e.Requested

theorem RequestsKept.step (hr : e.RequestsKept) (hl : e.Layout) {s : Step} (hs : e.StepAdmissible s)
    (hk : e.KeepsRequests s) : (e.step s).RequestsKept := by
  cases hc : e.closed with
  | true =>
      refine .inl (step_stays_closed hc fun id backpressured heq => ?_)
      subst heq
      exact absurd (hc.symm.trans hs) (by simp)
  | false =>
      have hr := hr.resolve_left (by simp [hc])
      by_cases hwrite : ∃ id data requestId, s = .streamWrite id data requestId
      · obtain ⟨id, data, requestId, rfl⟩ := hwrite
        exact .inr (hr.streamWrite hs (hk hc) data requestId)
      · refine .inr ((step_settling hl hr hs fun id data requestId heq => ?_).requested hr)
        exact hwrite ⟨id, data, requestId, heq⟩

omit [H3.Codec] in
theorem Start.requested (h : Start e) : e.Requested := by
  have hempty : e.ev = [] ∧ e.streams = .empty ∧ e.history = [] := by
    cases h <;> exact ⟨rfl, rfl, rfl⟩
  obtain ⟨hev, hstreams, hhistory⟩ := hempty
  have hslot : ∀ id, e.slotOf id = ([], false) := fun id => slotOf_none (by simp [hstreams])
  exact ⟨by simp [hev, hhistory], fun id => by simp [writesOf, settledOf, hhistory, hslot],
    by simp [hhistory], fun id hne => absurd (by rw [hslot]) hne⟩

/-! ## What was written -/

/-- The request that a step writes on the stream. -/
def Step.writes (id : Nat) : Step → Option Nat
  | .streamWrite i _ r => if i = id then some r else none
  | _ => none

theorem step_writes (hl : e.Layout) {s : Step} (hs : e.StepAdmissible s) (id : Nat) :
    (e.step s).writesOf id = e.writesOf id ++ (Step.writes id s).toList := by
  cases hsends : Step.sends s with
  | false =>
      obtain ⟨-, -, ⟨m, hhistory, hm⟩, -⟩ := step_unsent hl hs hsends
      have hnone : m.filterMap (Trace.writes id) = [] := by
        refine List.filterMap_eq_nil_iff.mpr fun t ht => ?_
        have hquiet := hm t ht
        cases t with
        | written => cases hquiet
        | _ => rfl
      have hwrites : Step.writes id s = none := by
        cases s with
        | streamWrite => cases hsends
        | _ => rfl
      simp [writesOf, hhistory, hnone, hwrites]
  | true =>
      cases s with
      | streamWrite i data requestId =>
          show (e.streamWrite i data requestId).writesOf id = _
          unfold Endpoint.streamWrite
          simp only
          split <;> by_cases hi : i = id <;>
            simp [writesOf, modifyStream, emit, log, List.filterMap_cons, Trace.writes, Step.writes, hi]
      | flushStream i =>
          have h := flushStream_settling hl.wellFormed i
          exact (h.writes id).trans (List.append_nil _).symm
      | _ => cases hsends

theorem steps_writes (e : Endpoint) (c : Call) (id : Nat) :
    (e.steps c).filterMap (Step.writes id) = (Call.writes id c).toList := by
  cases c with
  | onReadable i backpressured =>
      refine List.filterMap_eq_nil_iff.mpr fun s hs => ?_
      simp only [steps] at hs
      split at hs
      · cases hs
      · rcases List.mem_cons.mp hs with rfl | hs
        · rfl
        · split at hs
          · rw [mem_reads hs]
            rfl
          · cases hs
  | flush order =>
      refine List.filterMap_eq_nil_iff.mpr fun s hs => ?_
      simp only [steps, flushHead, flushTail, List.mem_append, List.mem_cons, List.mem_map,
        List.not_mem_nil, or_false] at hs
      rcases hs with (rfl | rfl | rfl | rfl | rfl) | ⟨i, -, rfl⟩ | rfl | rfl | rfl | rfl <;> rfl
  | streamWrite i data requestId =>
      by_cases hi : i = id <;> simp [steps, Step.writes, Call.writes, hi]
  | _ => rfl

/-- The writes of a run are those of its calls. -/
theorem run_writes (hl : e.Layout) {calls : List Call} (hrun : Along call Admissible e calls)
    (id : Nat) :
    (execute call e calls).writesOf id = e.writesOf id ++ calls.filterMap (Call.writes id) := by
  refine execute_collects (I := Layout) (fun s => s.writesOf id) (Call.writes id)
    (fun s c hl hc => ⟨?_, ?_⟩) hl hrun
  · rw [call_eq, ← steps_writes]
    exact execute_collects (I := Layout) (fun s => s.writesOf id) (Step.writes id)
      (fun t a ht ha => ⟨step_writes ht ha id, ht.step ha⟩) hl (steps_admissible hc)
  · exact call_invariant (I := Layout) (fun _ _ hl hs _ => hl.step hs) hl (meets_true hc)

end

/-! ## Behind a flush -/

section

variable {e e' : Endpoint} {id : Nat}

/-- No request is queued on the stream, or it is not stopped. -/
def Runs (id : Nat) (e : Endpoint) : Prop :=
  e.closed = true ∨ ((e.slotOf id).1 ≠ [] → (e.conn.streams id).send.error = none)

/-- A stream is not stopped by what settles requests. -/
theorem Runs.settling (h : Runs id e) (hs : Settling e e') (hclosed : e.closed = true → e'.closed = true)
    (herror : (e'.conn.streams id).send.error.isSome = true →
      (e.conn.streams id).send.error.isSome = true) : Runs id e' := by
  refine h.imp hclosed fun hnone hne => ?_
  obtain ⟨l, -, htaken⟩ := hs.taken id
  have hold := hnone (by simp [htaken, hne])
  by_contra herr
  simp [hold] at herror
  exact herr herror

theorem Runs.aside (h : Runs id e) (ha : Aside e e') : Runs id e' :=
  h.settling (.of_aside ha) ha.closed.trans fun herr => by rwa [ha.conn] at herr

theorem flushStream_open (e : Endpoint) (id : Nat) : (e.flushStream id).closed = e.closed :=
  flushStream_invariant (I := fun s => s.closed = e.closed) (fun _ _ h hI => h.session.2.1.trans hI) rfl

theorem Runs.flushOther (hwf : e.conn.WellFormed) (h : Runs id e) (j : Nat) :
    Runs id (e.flushStream j) :=
  h.settling (flushStream_settling hwf j) (flushStream_open e j).trans ((Flushes.flushStream hwf j).error id)

/-- A flush that notices every stop leaves nothing queued on a stopped stream. -/
theorem Runs.flushStream (hl : e.Layout) (hr : e.RequestsKept) (hk : e.KeepsRequests (.flushStream id)) :
    Runs id (e.flushStream id) := by
  cases hc : e.closed with
  | true => exact .inl ((flushStream_open e id).trans hc)
  | false =>
      have hr := hr.resolve_left (by simp [hc])
      refine .inr fun hne => ?_
      by_contra herr
      have hstop := (Flushes.flushStream hl.wellFormed id).error id
        (Option.isSome_iff_ne_none.mpr herr)
      obtain ⟨l, -, htaken⟩ := (flushStream_settling hl.wellFormed id).taken id
      have hqueued : (e.slotOf id).1 ≠ [] := by simp [htaken, hne]
      obtain ⟨hlive, ⟨st, hst, hout⟩, hheld⟩ := hk hc hqueued hstop
      obtain ⟨code, hcode⟩ := Option.isSome_iff_exists.mp hstop
      have hsend : e.conn.canSend id = true := by
        simpa [Quic.Connection.canSend, hl.server] using hl.canSend (hr.unended id hqueued).1.writable
      obtain ⟨bytes, c, -, heq⟩ := flushStream_stopped hst hout hheld hlive hsend hcode
      obtain ⟨n, hn⟩ := reconcileSendFinalSize_get hst
      refine hne ?_
      rw [heq, slotOf_get (s := { st with sendPayload := n, out := [], finSent := true })
        (by simp [surfaceStop, Table.get_modify_self, hn])]
      rfl

end

variable [H3.Codec]

section

omit [H3.Codec]

instance (e : Endpoint) : (s : Step) → Decidable (e.KeepsRequests s)
  | .streamWrite id _ _ => inferInstanceAs (Decidable (e.closed = false → ∀ st ∈ e.streams.get id,
      e.Unended id ∧ (st.finSent = true → (e.conn.streams id).send.error.isSome = true)))
  | .flushStream id => inferInstanceAs (Decidable (e.closed = false → (e.slotOf id).1 ≠ [] →
      (e.conn.streams id).send.error.isSome = true → e.Notices id))
  | .onEstablished | .touch _ | .read _ _ | .onDatagrams | .sendDatagram _ _ | .openStream _ _
  | .streamFin _ | .streamReset _ _ | .streamStopSending _ _ | .setPaused _ _ | .close _ _
  | .sendDrain | .takeTerminalError | .grantCredit | .replenish | .queueClose
  | .releasePendingOpens | .commitSent | .signalFlowControlBlocked | .prune | .gracefulClose
  | .markClosed _ _ _ | .network _ => .isTrue trivial

end

instance (e : Endpoint) (c : Call) : Decidable (e.Meets KeepsRequests c) :=
  inferInstanceAs (Decidable (_ ∧ _))

/-- The server opens a stream, and uses it. -/
def requestRun (more : List Call) : List Call :=
  serverHandshake ++ [.openStream true 1, flushOnce] ++ more ++ [flushOnce]

omit [H3.Codec] in
theorem requestRun_keeps :
    letI := H3.Codec.plain
    Along call (Meets KeepsRequests) sampleServer
      (requestRun [.streamWrite 1 [7] 2, flushOnce, .streamWrite 1 [7] 3, .streamReset 1 0]) := by
  decide +kernel

omit [H3.Codec] in
theorem not_inWriteOrder_of_queued {e : Endpoint} {calls : List Call} (id : Nat)
    (h : (e.slotOf id).1 ≠ [] ∧ ¬e.Unended id) : ¬InWriteOrder e calls :=
  fun horder => h.2 (horder.unended id h.1)

end Endpoint

end RWebTransport
