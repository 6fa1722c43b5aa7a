import RWebTransport.Session.CleanClose

/-!
# What comes behind a CLOSE capsule

`flush` queues the CLOSE_WEBTRANSPORT_SESSION capsule with the end of the
CONNECT stream, so whatever is queued behind it can never be sent, and the QUIC
close that waits for the queue to drain never comes.  Five places queue on the
CONNECT stream without asking whether a close is under way: `send_drain`, the
answer to a CONNECT request, the initial credit, its replenishment and the
BLOCKED signals.
-/

namespace RWebTransport

namespace Endpoint

open Quic (Connection)

/-! ## The send side of the CONNECT stream -/

/-- What is queued on a stream, and whether its end is queued and was accepted. -/
structure SendSide where
  queue : List Bytes
  finQueued : Bool
  finSent : Bool

/-- The send side of an entry. -/
def sideOf (st : Stream) : SendSide := ⟨st.out.map OutChunk.data, st.finQueued, st.finSent⟩

def connectSide (e : Endpoint) : Option SendSide := (e.streams.get connectId).map sideOf

/-- The chunks on the CONNECT stream. -/
def connectQueue (e : Endpoint) : List Bytes := (e.connectSide.map SendSide.queue).getD []

/-- `fin_sent` of the CONNECT stream. -/
def connectFinSent (e : Endpoint) : Bool := e.connectSide.any SendSide.finSent

/-- `flush` has queued the CLOSE capsule on the CONNECT stream. -/
def CloseQueued (e : Endpoint) : Prop := .closeQueued ∈ e.history

instance (e : Endpoint) : Decidable e.CloseQueued := inferInstanceAs (Decidable (_ ∈ _))

/-- Nothing was queued: chunks may have left the queue at its front, and the end
is sent only behind all of them. -/
structure Shorter (s s' : SendSide) : Prop where
  queue : s'.queue <:+ s.queue
  finQueued : s'.finQueued = s.finQueued
  sent : s.finSent = true → s'.finSent = true
  ended : s'.finSent = true → s.finSent = true ∨ s'.queue = []

theorem Shorter.refl (s : SendSide) : Shorter s s := ⟨List.suffix_rfl, rfl, id, .inl⟩

theorem Shorter.trans {s t u : SendSide} (hst : Shorter s t) (htu : Shorter t u) : Shorter s u where
  queue := htu.queue.trans hst.queue
  finQueued := htu.finQueued.trans hst.finQueued
  sent h := htu.sent (hst.sent h)
  ended h := by
    rcases htu.ended h with ht | hu
    · rcases hst.ended ht with hs | hempty
      · exact .inl hs
      · exact .inr (List.suffix_nil.mp (hempty ▸ htu.queue))
    · exact .inr hu

/-- Nothing was queued on the CONNECT stream. -/
def OnlyDrains (e e' : Endpoint) : Prop :=
  ∀ s, e.connectSide = some s → ∃ s', e'.connectSide = some s' ∧ Shorter s s'

namespace OnlyDrains

theorem of_eq {e e' : Endpoint} (h : e'.connectSide = e.connectSide) : OnlyDrains e e' :=
  fun s hs => ⟨s, h.trans hs, .refl s⟩

theorem refl (e : Endpoint) : OnlyDrains e e := of_eq rfl

theorem trans {a b c : Endpoint} (hab : OnlyDrains a b) (hbc : OnlyDrains b c) : OnlyDrains a c := fun s hs => by
  obtain ⟨t, ht, hst⟩ := hab s hs
  obtain ⟨u, hu, htu⟩ := hbc t ht
  exact ⟨u, hu, hst.trans htu⟩

/-- The entry of the CONNECT stream is as it was. -/
theorem of_get {e e' : Endpoint} (h : e'.streams.get connectId = e.streams.get connectId) :
    OnlyDrains e e' := of_eq (congrArg (Option.map sideOf) h)

/-- One entry has changed, but not its send side. -/
theorem modify {e e' : Endpoint} (id : Nat) {f : Stream → Stream}
    (h : e'.streams = e.streams.modify id f) (hf : ∀ st, sideOf (f st) = sideOf st) :
    OnlyDrains e e' := by
  refine of_eq ?_
  rw [connectSide, connectSide, h, Table.get_modify]
  split
  · cases e.streams.get connectId with
    | none => rfl
    | some st => simp [hf]
  · rfl

/-- Another entry has changed. -/
theorem modify_ne {e e' : Endpoint} {id : Nat} (hid : id ≠ connectId) {f : Stream → Stream}
    (h : e'.streams = e.streams.modify id f) : OnlyDrains e e' :=
  of_get (by rw [h, Table.get_modify_ne (Ne.symm hid)])

theorem markClosed (e : Endpoint) (code : Nat) (reason : Bytes) (remote : Bool) :
    OnlyDrains e (e.markClosed code reason remote) := by
  unfold Endpoint.markClosed
  split
  · exact refl e
  · refine of_eq ?_
    simp only [connectSide, Table.get_map, Option.map_map]
    rfl

/-- The entry of the CONNECT stream has changed. -/
theorem shorten {e e' : Endpoint} {f : Stream → Stream}
    (h : e'.streams = e.streams.modify connectId f) {st : Stream}
    (hst : e.streams.get connectId = some st) (hf : Shorter (sideOf st) (sideOf (f st))) :
    OnlyDrains e e' := by
  intro s hs
  obtain rfl : sideOf st = s := by simpa [connectSide, hst] using hs
  exact ⟨_, by rw [connectSide, h, Table.get_modify_self, hst]; rfl, hf⟩

/-- One effect of `flush_stream`. -/
theorem of_sending {id : Nat} {e e' : Endpoint} (h : Sending id e e') : OnlyDrains e e' := by
  by_cases hid : id = connectId
  · subst hid
    cases h with
    | returned hst => exact shorten rfl hst (.refl _)
    | refused hst => exact of_get rfl
    | @sent st front rest n c hst hout =>
        refine shorten rfl hst ⟨?_, rfl, id, .inl⟩
        simp only [sideOf, hout, List.map_cons]
        split
        · exact List.suffix_cons _ _
        · exact List.suffix_rfl
    | stopped hst => exact shorten rfl hst ⟨List.nil_suffix, rfl, fun _ => rfl, fun _ => .inr rfl⟩
    | fin hst hout =>
        refine shorten rfl hst ⟨List.suffix_rfl, rfl, fun _ => rfl, fun _ => .inr ?_⟩
        simp [sideOf, hout]
  · cases h with
    | refused => exact of_get rfl
    | returned | sent | stopped | fin => exact modify_ne hid rfl

theorem flushStream (e : Endpoint) (id : Nat) : OnlyDrains e (e.flushStream id) :=
  flushStream_invariant (I := OnlyDrains e) (fun _ _ hs h => h.trans (of_sending hs)) (refl e)

/-- A stream of ours is opened. -/
theorem allocateStream {e : Endpoint} (hl : e.Layout) (bidi : Bool) (requestId : Nat) :
    OnlyDrains e (e.allocateStream bidi requestId) := by
  obtain ⟨k, hk⟩ := hl.next bidi
  have hne : connectId ≠ e.nextId bidi := hk ▸ (ownId_ne_connectId _ _ _).symm
  cases bidi
  all_goals exact of_get (Table.get_insert_ne hne)

theorem releasePendingOpens {e : Endpoint} (hl : e.Layout) : OnlyDrains e e.releasePendingOpens :=
  (releasePendingOpens_invariant (I := fun s => s.Layout ∧ OnlyDrains e s)
    (fun _ _ h => ⟨h.1.same (.session rfl rfl rfl rfl rfl rfl rfl rfl rfl), h.2.trans (of_get rfl)⟩)
    (fun _ bidi requestId _ _ _ h => ⟨h.1.allocateStream bidi requestId,
      h.2.trans (allocateStream h.1 bidi requestId)⟩) ⟨hl, refl e⟩).2

theorem onEstablished (e : Endpoint) : OnlyDrains e e.onEstablished := by
  unfold Endpoint.onEstablished
  split
  · exact refl e
  · have hne : ∀ isServer, connectId ≠ controlId isServer ∧ connectId ≠ qpackEncId isServer ∧
        connectId ≠ qpackDecId isServer := by decide
    obtain ⟨h1, h2, h3⟩ := hne e.cfg.isServer
    simp only
    split
    all_goals
      exact of_get ((Table.get_insert_ne h3).trans
        ((Table.get_insert_ne h2).trans (Table.get_insert_ne h1)))

theorem touch {e : Endpoint} (hconnect : e.connectSide ≠ none) (id : Nat) : OnlyDrains e (e.touch id) := by
  unfold Endpoint.touch
  split
  · exact refl e
  next hnone =>
    have hne : connectId ≠ id := by
      rintro rfl
      exact hconnect (by simpa [connectSide, Table.contains] using hnone)
    exact of_get (Table.get_insert_ne hne)

/-- A data stream is reset. -/
theorem streamReset {e : Endpoint} {id : Nat} (hid : id ≠ connectId) (code : Nat) :
    OnlyDrains e (e.streamReset id code) := by
  have hreturn : ∀ s : Endpoint, OnlyDrains s (s.reconcileSendFinalSize id) := fun s =>
    (reconcileSendFinalSize_sending s id).elim (fun h => h.symm ▸ refl s) of_sending
  have hdrop : ∀ s : Endpoint, OnlyDrains s (s.dropQueue id) := fun s => by
    unfold Endpoint.dropQueue
    split
    · exact refl s
    · exact modify_ne hid rfl
  unfold Endpoint.streamReset
  split
  · simp only
    generalize e.conn.streamShutdownWrite id (H3.webtransportCodeToHttpCode code) = c
    have hlog : OnlyDrains e { e.log (.streamReset id) with conn := c } := of_get rfl
    exact ((hlog.trans (hreturn _)).trans (hdrop _)).trans (modify_ne hid rfl)
  · exact refl e

theorem onDatagrams (e : Endpoint) : OnlyDrains e e.onDatagrams := by
  refine iterate_rel (I := fun _ => True) refl trans (fun s _ => ⟨?_, trivial⟩) _ trivial
  unfold datagramStep
  split
  · exact of_get rfl
  · simp only
    split
    · exact of_get rfl
    · split <;> exact of_get rfl

theorem gracefulClose (e : Endpoint) : OnlyDrains e e.gracefulClose := by
  have harm : OnlyDrains e e.armQuicClose := by
    unfold armQuicClose
    split
    · split <;> exact of_get rfl
    · exact refl e
  unfold Endpoint.gracefulClose
  split
  · exact refl e
  · simp only
    split_ifs
    · exact harm.trans (of_get rfl)
    · exact harm.trans (of_get rfl)
    · exact harm

theorem prune (e : Endpoint) : OnlyDrains e e.prune := by
  refine of_get ?_
  simp only [Endpoint.prune, Table.get_filter]
  cases e.streams.get connectId with
  | none => rfl
  | some st => simp [retains]

end OnlyDrains

/-! ## What a close rests on -/

/-- Nothing about a close has changed, and a session that is ready, closed or
has announced its credit stays so. -/
structure KeepsClose (e e' : Endpoint) : Prop where
  closeReq : e'.closeReq = e.closeReq
  wantQuicClose : e'.wantQuicClose = e.wantQuicClose
  issued : e'.quicCloseIssued = e.quicCloseIssued
  deferred : e'.closeDeferredOnce = e.closeDeferredOnce
  ready : e.ready = true → e'.ready = true
  closed : e.closed = true → e'.closed = true
  granted : e.fcCreditGranted = true → e'.fcCreditGranted = true
  history : ∃ l, e'.history = e.history ++ l ∧ .closeQueued ∉ l

namespace KeepsClose

theorem of_eq {e e' : Endpoint} (hreq : e'.closeReq = e.closeReq)
    (hwant : e'.wantQuicClose = e.wantQuicClose) (hissued : e'.quicCloseIssued = e.quicCloseIssued)
    (hdeferred : e'.closeDeferredOnce = e.closeDeferredOnce) (hready : e'.ready = e.ready)
    (hclosed : e'.closed = e.closed) (hgranted : e'.fcCreditGranted = e.fcCreditGranted)
    {l : List Trace} (hhistory : e'.history = e.history ++ l) (hl : .closeQueued ∉ l) : KeepsClose e e' :=
  ⟨hreq, hwant, hissued, hdeferred, hready.trans, hclosed.trans, hgranted.trans, l, hhistory, hl⟩

/-- Only fields that concern no close have changed. -/
theorem same {e e' : Endpoint} (hreq : e'.closeReq = e.closeReq)
    (hwant : e'.wantQuicClose = e.wantQuicClose) (hissued : e'.quicCloseIssued = e.quicCloseIssued)
    (hdeferred : e'.closeDeferredOnce = e.closeDeferredOnce) (hready : e'.ready = e.ready)
    (hclosed : e'.closed = e.closed) (hgranted : e'.fcCreditGranted = e.fcCreditGranted)
    (hhistory : e'.history = e.history) : KeepsClose e e' :=
  of_eq hreq hwant hissued hdeferred hready hclosed hgranted (l := []) (by simp [hhistory]) (by simp)

theorem refl (e : Endpoint) : KeepsClose e e := same rfl rfl rfl rfl rfl rfl rfl rfl

theorem trans {a b c : Endpoint} (hab : KeepsClose a b) (hbc : KeepsClose b c) : KeepsClose a c where
  closeReq := hbc.closeReq.trans hab.closeReq
  wantQuicClose := hbc.wantQuicClose.trans hab.wantQuicClose
  issued := hbc.issued.trans hab.issued
  deferred := hbc.deferred.trans hab.deferred
  ready h := hbc.ready (hab.ready h)
  closed h := hbc.closed (hab.closed h)
  granted h := hbc.granted (hab.granted h)
  history := by
    obtain ⟨l, hl, hnl⟩ := hab.history
    obtain ⟨m, hm, hnm⟩ := hbc.history
    exact ⟨l ++ m, by rw [hm, hl, List.append_assoc], by simp [hnl, hnm]⟩

/-- Nothing about a queued close was recorded. -/
theorem closeQueued {e e' : Endpoint} (h : KeepsClose e e') : e'.CloseQueued ↔ e.CloseQueued := by
  obtain ⟨l, hl, hn⟩ := h.history
  simp [CloseQueued, hl, hn]

theorem markClosed (e : Endpoint) (code : Nat) (reason : Bytes) (remote : Bool) :
    KeepsClose e (e.markClosed code reason remote) := by
  refine ⟨?_, ?_, ?_, ?_, fun h => ?_, fun _ => markClosed_closed e code reason remote, fun h => ?_,
    ⟨[], ?_, by simp⟩⟩
  all_goals
    unfold Endpoint.markClosed
    split <;> simp_all

theorem of_sending {id : Nat} {e e' : Endpoint} (h : Sending id e e') : KeepsClose e e' := by
  cases h with
  | returned => exact of_eq rfl rfl rfl rfl rfl rfl rfl rfl (by simp)
  | refused => exact same rfl rfl rfl rfl rfl rfl rfl rfl
  | @sent st front =>
      refine of_eq rfl rfl rfl rfl rfl rfl rfl rfl ?_
      unfold ackTrace
      split_ifs <;> simp
  | @stopped st =>
      refine of_eq rfl rfl rfl rfl rfl rfl rfl rfl ?_
      unfold ackTrace
      simp
  | fin => exact same rfl rfl rfl rfl rfl rfl rfl rfl

theorem flushStream (e : Endpoint) (id : Nat) : KeepsClose e (e.flushStream id) :=
  flushStream_invariant (I := KeepsClose e) (fun _ _ hs h => h.trans (of_sending hs)) (refl e)

theorem releasePendingOpens (e : Endpoint) : KeepsClose e e.releasePendingOpens :=
  releasePendingOpens_invariant (I := KeepsClose e)
    (fun _ _ h => h.trans (same rfl rfl rfl rfl rfl rfl rfl rfl))
    (fun _ bidi _ _ _ _ h => h.trans (by
      cases bidi <;> exact same rfl rfl rfl rfl rfl rfl rfl rfl)) (refl e)

theorem queueSessionCapsule (e : Endpoint) (ty value : Nat) :
    KeepsClose e (e.queueSessionCapsule ty value) := same rfl rfl rfl rfl rfl rfl rfl rfl

theorem grantCredit (e : Endpoint) : KeepsClose e e.grantCredit := by
  unfold Endpoint.grantCredit
  split
  · exact ⟨rfl, rfl, rfl, rfl, id, id, fun _ => rfl, [], (List.append_nil _).symm, by simp⟩
  · exact refl e

theorem raiseDataLimit (e : Endpoint) (limit : Nat) : KeepsClose e (e.raiseDataLimit limit) :=
  same rfl rfl rfl rfl rfl rfl rfl rfl

theorem raiseStreamsLimit (e : Endpoint) (bidi : Bool) (limit : Nat) :
    KeepsClose e (e.raiseStreamsLimit bidi limit) := same rfl rfl rfl rfl rfl rfl rfl rfl

theorem replenish (e : Endpoint) : KeepsClose e e.replenish := by
  have hstreams : ∀ (s : Endpoint) bidi, KeepsClose s (s.replenishStreams bidi) := by
    intro s bidi
    unfold replenishStreams
    simp only
    split_ifs
    · exact raiseStreamsLimit s bidi _
    · exact refl s
    · exact refl s
  unfold Endpoint.replenish replenishData
  split
  · simp only
    split_ifs
    · exact ((raiseDataLimit e _).trans (hstreams _ _)).trans (hstreams _ _)
    · exact (hstreams _ _).trans (hstreams _ _)
    · exact (hstreams _ _).trans (hstreams _ _)
  · exact refl e

theorem signalDataBlocked (e : Endpoint) : KeepsClose e e.signalDataBlocked := by
  unfold Endpoint.signalDataBlocked
  split
  · exact same rfl rfl rfl rfl rfl rfl rfl rfl
  · exact refl e

theorem signalStreamsBlocked (e : Endpoint) (bidi : Bool) :
    KeepsClose e (e.signalStreamsBlocked bidi) := by
  unfold Endpoint.signalStreamsBlocked
  simp only
  split_ifs
  · exact same rfl rfl rfl rfl rfl rfl rfl rfl
  · exact same rfl rfl rfl rfl rfl rfl rfl rfl
  · exact refl e

theorem signalFlowControlBlocked (e : Endpoint) : KeepsClose e e.signalFlowControlBlocked := by
  unfold Endpoint.signalFlowControlBlocked
  split
  · exact refl e
  · exact ((signalDataBlocked e).trans (signalStreamsBlocked _ _)).trans (signalStreamsBlocked _ _)

theorem onDatagrams (e : Endpoint) : KeepsClose e e.onDatagrams := by
  refine iterate_rel (I := fun _ => True) refl trans (fun s _ => ⟨?_, trivial⟩) _ trivial
  unfold datagramStep
  split
  · exact same rfl rfl rfl rfl rfl rfl rfl rfl
  · simp only
    split
    · exact same rfl rfl rfl rfl rfl rfl rfl rfl
    · split <;> exact same rfl rfl rfl rfl rfl rfl rfl rfl

end KeepsClose

/-! ## Reading -/

section

variable [H3.Codec] {r : Nat} {e e' : Endpoint}

omit [H3.Codec] in
theorem closeQueued_ne_input {t : Trace} (ht : t.isInput = true) : Trace.closeQueued ∉ [t] := by
  rintro h
  obtain rfl := List.mem_singleton.mp h
  cases ht

theorem Effect.keepsClose (h : Effect r e e') : KeepsClose e e' := by
  cases h with
  | log ht => exact .of_eq rfl rfl rfl rfl rfl rfl rfl rfl (closeQueued_ne_input ht)
  | fail message => exact .trans (b := e.emit (.error message)) (.same rfl rfl rfl rfl rfl rfl rfl rfl) (.markClosed _ _ _ _)
  | finish => exact .markClosed _ _ _ _
  | killFail message =>
      exact .trans (b := (e.killRecv r).emit (.error message)) (.same rfl rfl rfl rfl rfl rfl rfl rfl)
        (.markClosed _ _ _ _)
  | credit =>
      unfold setCreditLimit
      split_ifs <;> exact .same rfl rfl rfl rfl rfl rfl rfl rfl
  | settings | connect | headers | undecoded | unanswered | charge | moreHeaders =>
      exact .of_eq rfl rfl rfl rfl rfl rfl rfl rfl (by simp)
  | @ready id block =>
      exact ⟨rfl, rfl, rfl, rfl, fun _ => rfl, fun h => h, fun h => h, [.connectFrame H3.frameHeaders block, .ready],
        (List.append_assoc _ _ _), by simp⟩
  | @accept id s block =>
      exact ⟨rfl, rfl, rfl, rfl, fun _ => rfl, fun h => h, fun h => h, [.connectFrame H3.frameHeaders block, .ready],
        (List.append_assoc _ _ _), by simp⟩
  | @reject id block frame messages status =>
      rw [refuse_eq]
      have hframe : KeepsClose e (e.takeHeaders id block) := .of_eq rfl rfl rfl rfl rfl rfl rfl rfl (by simp)
      refine (hframe.trans ?_).trans (.markClosed _ _ _ _)
      cases frame <;> exact .of_eq rfl rfl rfl rfl rfl rfl rfl rfl (by simp)
  | @refuse id s frame messages status =>
      rw [refuse_eq]
      refine .trans ?_ (.markClosed _ _ _ _)
      cases frame <;> exact .of_eq rfl rfl rfl rfl rfl rfl rfl rfl (by simp)
  | resetFail message =>
      exact .trans (b := (e.setRecvDead r).emit (.error message)) (.same rfl rfl rfl rfl rfl rfl rfl rfl)
        (.markClosed _ _ _ _)
  | resetClose =>
      exact .trans (b := e.setRecvDead r) (.same rfl rfl rfl rfl rfl rfl rfl rfl) (.markClosed _ _ _ _)
  | _ => exact .same rfl rfl rfl rfl rfl rfl rfl rfl

/-- A server answers one request, and a client sends one: neither is queued by a
session that is ready or closed. -/
theorem Effect.onlyDrains (h : Effect r e e') (hl : e.Layout) (hg : e.Gated) (ha : e.Admitted)
    (hsettled : e.ready = true ∨ e.closed = true) (hconnect : e.connectSide ≠ none) : OnlyDrains e e' := by
  have hready : e.closed = false → e.ready = true := fun hc => hsettled.resolve_right (by simp [hc])
  have hanswered : ∀ {id : Nat}, e.closed = false → e.roleOf id = some .connect →
      e.headersDone id = false → False := by
    intro id hc hrole hd
    have hone := (hg.ready (hready hc)).1
    rw [(connectDone_of_role hl hrole).2, hd] at hone
    cases hone
  cases h with
  | frames | classBuf | controlDone | kill | settings | classify | discard | charge | finished |
      reset | recvDead => exact .modify _ rfl fun _ => rfl
  | headers | undecoded | unanswered => exact .modify _ rfl fun _ => rfl
  | fail message => exact .trans (b := e.emit (.error message)) (.of_get rfl) (.markClosed _ _ _ _)
  | finish => exact .markClosed _ _ _ _
  | killFail message =>
      exact .trans (b := (e.killRecv r).emit (.error message)) (.modify _ rfl fun _ => rfl)
        (.markClosed _ _ _ _)
  | credit => exact .of_get (by rw [setCreditLimit_streams])
  | @connect s frame hc hp hs =>
      have hclient : e.cfg.isServer = false := by
        cases hserver : e.cfg.isServer with
        | false => rfl
        | true => exact absurd (hl.idle hserver) (by simp [hp])
      have hdone : e.connectDone ≠ none := fun hnone => hconnect (by
        simpa [connectDone, connectSide] using hnone)
      have hpending := (hg.queued (hg.entry hclient hdone)).2.1
      exact absurd (hp.symm.trans hpending) (by simp)
  | ready hclient hc hnready => exact absurd ((hready hc).symm.trans hnready) (by simp)
  | accept frame hserver hc hrole hd => exact (hanswered hc hrole hd).elim
  | reject frame status hserver hc hrole hd => exact (hanswered hc hrole hd).elim
  | refuse frame status hserver hc hrole hs hno =>
      obtain ⟨s, hs', hadmits⟩ := ha hserver (hready hc)
      obtain rfl := Option.some.inj (hs.symm.trans hs')
      exact absurd (hno.symm.trans hadmits) (by simp)
  | resolve header => exact .trans (b := e.classify r _) (.modify _ rfl fun _ => rfl) (.modify _ rfl fun _ => rfl)
  | resetFail message =>
      exact .trans (b := (e.setRecvDead r).emit (.error message)) (.modify _ rfl fun _ => rfl)
        (.markClosed _ _ _ _)
  | resetClose =>
      exact .trans (b := e.setRecvDead r) (.modify _ rfl fun _ => rfl) (.markClosed _ _ _ _)
  | forget hp =>
      have hne : connectId ≠ r := by
        rintro rfl
        rcases hp with hp | hp <;> cases connectDone_role hl hp
      exact .of_get (by simp [removeStream, Table.get_erase, hne])
  | _ => exact .of_get rfl

end

/-! ## Who queues behind a close -/

/-- Half of the last grant of data credit is used up. -/
def DataDue (e : Endpoint) : Prop :=
  e.fcMaxDataLocal - e.fcDataReceived ≤ wtGrantMaxData / 2 ∧
    e.fcMaxDataLocal < min (e.fcDataReceived + wtGrantMaxData) (2 ^ 62 - 1)

/-- Half of the last grant of streams of a direction is used up. -/
def StreamsDue (e : Endpoint) (bidi : Bool) : Prop :=
  e.fcMaxStreamsLocal bidi - e.fcStreamsReceived bidi ≤ wtGrantMaxStreams / 2 ∧
    e.fcMaxStreamsLocal bidi < min (e.fcStreamsReceived bidi + wtGrantMaxStreams) (2 ^ 60)

/-- The session owes its peer credit. -/
def CreditDue (e : Endpoint) : Prop :=
  (e.ready = true ∧ e.fcCreditGranted = true ∧ e.usesSessionFlowControl = true ∧ e.closed = false) ∧
    (e.DataDue ∨ e.StreamsDue false ∨ e.StreamsDue true)

/-- Payload waits for the peer's data limit, which was not told of it. -/
def DataBlocked (e : Endpoint) : Prop :=
  e.fcMaxDataRemote ≤ e.fcDataSent ∧ e.dataBlockedAt ≠ some e.fcMaxDataRemote ∧
    e.hasPendingPayload = true

/-- A request to open a stream waits for the peer's limit, which was not told of it. -/
def StreamsBlocked (e : Endpoint) (bidi : Bool) : Prop :=
  e.fcMaxStreamsRemote bidi ≤ e.opened bidi ∧ (e.pendingOpens.any fun p => p.1 == bidi) = true ∧
    e.streamsBlockedAt bidi ≠ some (e.fcMaxStreamsRemote bidi)

/-- The session has a limit of the peer to complain about. -/
def BlockedDue (e : Endpoint) : Prop :=
  (e.usesSessionFlowControl = true ∧ e.closed = false) ∧
    (e.DataBlocked ∨ e.StreamsBlocked true ∨ e.StreamsBlocked false)

/-- A close was requested, and its capsule can be queued now. -/
def ClosePending (e : Endpoint) : Prop :=
  (e.closeReq.any fun req => !req.capsuleQueued) = true ∧ e.streams.contains connectId = true

/-- Nothing is queued behind a close: `flush` queues the capsule in a session that
is ready or closed, on a CONNECT stream whose end was not sent; from then on no
drain is requested, and no flush finds credit to replenish or a limit to signal. -/
def GivesWay (e : Endpoint) : Step → Prop
  | .queueClose => e.ClosePending →
      (e.ready = true ∨ e.closed = true) ∧ e.connectFinSent = false
  | .sendDrain => e.CloseQueued → e.closed = true ∨ e.drainSent = true
  | .replenish => e.CloseQueued → ¬e.CreditDue
  | .signalFlowControlBlocked => e.CloseQueued → ¬e.BlockedDue
  | _ => True

instance (e : Endpoint) : Decidable e.CreditDue :=
  inferInstanceAs (Decidable (_ ∧ ((_ ∧ _) ∨ (_ ∧ _) ∨ (_ ∧ _))))

instance (e : Endpoint) : Decidable e.BlockedDue :=
  inferInstanceAs (Decidable (_ ∧ ((_ ∧ _ ∧ _) ∨ (_ ∧ _ ∧ _) ∨ (_ ∧ _ ∧ _))))

instance (e : Endpoint) : Decidable e.ClosePending := inferInstanceAs (Decidable (_ ∧ _))

instance (e : Endpoint) : (s : Step) → Decidable (e.GivesWay s)
  | .queueClose => inferInstanceAs (Decidable (_ → (_ ∨ _) ∧ _))
  | .sendDrain => inferInstanceAs (Decidable (_ → _ ∨ _))
  | .replenish | .signalFlowControlBlocked => inferInstanceAs (Decidable (_ → ¬_))
  | .onEstablished | .touch _ | .read _ _ | .onDatagrams | .sendDatagram _ _ | .openStream _ _
  | .streamWrite _ _ _ | .streamFin _ | .streamReset _ _ | .streamStopSending _ _ | .setPaused _ _
  | .close _ _ | .takeTerminalError | .grantCredit | .releasePendingOpens | .flushStream _
  | .commitSent | .prune | .gracefulClose | .markClosed _ _ _ | .network _ => .isTrue trivial

theorem replenish_idle {e : Endpoint} (h : ¬e.CreditDue) : e.replenish = e := by
  unfold replenish
  split
  next hgo =>
    simp only [CreditDue, not_and, not_or] at h
    obtain ⟨hdata, huni, hbidi⟩ := h ⟨hgo.1, hgo.2.1, hgo.2.2.1, by simpa using hgo.2.2.2⟩
    have hstreams : ∀ bidi, ¬e.StreamsDue bidi → e.replenishStreams bidi = e := by
      intro bidi hno
      unfold replenishStreams
      split
      next hhalf =>
        simp only
        split
        next hlimit => exact absurd ⟨hhalf, hlimit⟩ hno
        · rfl
      · rfl
    have hraise : e.replenishData = e := by
      unfold replenishData
      split
      next hhalf =>
        simp only
        split
        next hlimit => exact absurd ⟨hhalf, hlimit⟩ hdata
        · rfl
      · rfl
    rw [hraise, hstreams false huni, hstreams true hbidi]
  · rfl

theorem signalFlowControlBlocked_idle {e : Endpoint} (h : ¬e.BlockedDue) :
    e.signalFlowControlBlocked = e := by
  unfold signalFlowControlBlocked
  split
  · rfl
  next hgo =>
    simp only [Bool.not_eq_true', not_or, Bool.not_eq_false, Bool.not_eq_true] at hgo
    simp only [BlockedDue, not_and, not_or] at h
    obtain ⟨hdata, hbidi, huni⟩ := h hgo
    have hstreams : ∀ bidi, ¬e.StreamsBlocked bidi → e.signalStreamsBlocked bidi = e := by
      intro bidi hno
      exact if_neg hno
    have hsignal : e.signalDataBlocked = e := if_neg hdata
    rw [hsignal, hstreams true hbidi, hstreams false huni]

/-! ## The invariant -/

/-- A queued close that nothing stands in the way of. -/
structure Standing (e : Endpoint) : Prop where
  queued : ∃ req, e.closeReq = some req ∧ req.capsuleQueued = true
  settled : e.closed = true ∨ e.ready = true ∧ e.fcCreditGranted = true
  side : ∃ s, e.connectSide = some s ∧ s.finQueued = true ∧ (s.finSent = true → s.queue = [])

theorem Standing.keep {e e' : Endpoint} (h : e.Standing) (hf : KeepsClose e e') (hd : OnlyDrains e e') :
    e'.Standing where
  queued := hf.closeReq.symm ▸ h.queued
  settled := h.settled.imp hf.closed fun hs => ⟨hf.ready hs.1, hf.granted hs.2⟩
  side := by
    obtain ⟨s, hs, hfin, hempty⟩ := h.side
    obtain ⟨s', hs', hshort⟩ := hd s hs
    refine ⟨s', hs', hshort.finQueued.trans hfin, fun hsent => ?_⟩
    rcases hshort.ended hsent with hold | hnow
    · exact List.suffix_nil.mp (hempty hold ▸ hshort.queue)
    · exact hnow

/-- A close that was queued stands, and the QUIC close is deferred only once it is armed. -/
structure CloseOrder [H3.Codec] (e : Endpoint) : Prop where
  layout : e.Layout
  gate : e.Gated ∧ e.Admitted
  standing : e.CloseQueued → e.Standing
  deferred : e.closeDeferredOnce = true → e.wantQuicClose.isSome = true ∨ e.quicCloseIssued = true

/-- The steps that act on a close. -/
def Step.closes : Step → Bool
  | .close _ _ | .queueClose | .gracefulClose => true
  | _ => false

/-- The grant comes in front of the close in a flush. -/
def GrantedFirst (e : Endpoint) (s : Step) : Prop :=
  s = .queueClose → e.ready = true → e.closed = true ∨ e.fcCreditGranted = true

theorem sendDrain_idle {e : Endpoint} (h : e.closed = true ∨ e.drainSent = true) : e.sendDrain = e :=
  if_pos h

theorem grantCredit_idle {e : Endpoint} (h : e.closed = true ∨ e.fcCreditGranted = true) :
    e.grantCredit = e := by
  refine if_neg fun hgo => ?_
  rcases h with h | h <;> simp [h] at hgo

theorem queueClose_idle {e : Endpoint} (h : ∃ req, e.closeReq = some req ∧ req.capsuleQueued = true) :
    e.queueClose = e := by
  obtain ⟨req, hreq, hqueued⟩ := h
  unfold queueClose
  rw [hreq]
  exact if_pos hqueued

theorem close_idle {e : Endpoint} (h : ∃ req, e.closeReq = some req ∧ req.capsuleQueued = true)
    (code : Nat) (reason : Bytes) : e.close code reason = e := by
  obtain ⟨req, hreq, -⟩ := h
  exact if_neg (by simp [hreq])

section

variable [H3.Codec] {e : Endpoint}

/-- Every step but three leaves a close as it is. -/
theorem step_keepsClose (hl : e.Layout) {s : Step} (hs : e.StepAdmissible s)
    (hcloses : Step.closes s = false) : KeepsClose e (e.step s) := by
  cases s with
  | close | queueClose | gracefulClose => cases hcloses
  | onEstablished =>
      show KeepsClose e e.onEstablished
      unfold onEstablished
      split_ifs
      · exact .refl e
      · simp only
        split_ifs <;> exact .same rfl rfl rfl rfl rfl rfl rfl rfl
  | touch id =>
      show KeepsClose e (e.touch id)
      unfold touch
      split_ifs <;> exact .same rfl rfl rfl rfl rfl rfl rfl rfl
  | read id backpressured =>
      rcases readStep_effects (hl.readable hs) hl.wellFormed (hl.alive_of_readable hs id)
        backpressured with heq | ⟨cap, heff⟩
      · exact (congrArg (KeepsClose e) heq).mpr (.refl e)
      · refine .trans (b := { e with conn := (e.conn.streamRecv id cap).2 })
          (.same rfl rfl rfl rfl rfl rfl rfl rfl) ?_
        exact heff.rel .refl .trans fun _ _ => Effect.keepsClose
  | onDatagrams => exact .onDatagrams e
  | openStream bidi requestId =>
      exact .trans (b := { e with pendingOpens := e.pendingOpens ++ [(bidi, requestId)] })
        (.same rfl rfl rfl rfl rfl rfl rfl rfl) (.releasePendingOpens _)
  | streamWrite id data requestId =>
      show KeepsClose e (e.streamWrite id data requestId)
      unfold streamWrite
      simp only
      split
      · exact .of_eq rfl rfl rfl rfl rfl rfl rfl rfl (l := [_]) (by simp)
      · exact .of_eq rfl rfl rfl rfl rfl rfl rfl (l := [_, _])
          (List.append_assoc e.history [.written id data requestId] [.acked id requestId]) (by simp)
  | streamReset id code =>
      show KeepsClose e (e.streamReset id code)
      unfold streamReset
      split
      · simp only
        generalize e.conn.streamShutdownWrite id (H3.webtransportCodeToHttpCode code) = c
        have hlog : KeepsClose e { e.log (.streamReset id) with conn := c } :=
          .of_eq rfl rfl rfl rfl rfl rfl rfl rfl (l := [_]) (by simp)
        have hreturn : ∀ s : Endpoint, KeepsClose s (s.reconcileSendFinalSize id) := fun s =>
          (reconcileSendFinalSize_sending s id).elim (fun h => h.symm ▸ .refl s) .of_sending
        have hdrop : ∀ s : Endpoint, KeepsClose s (s.dropQueue id) := fun s => by
          unfold dropQueue
          split
          · exact .refl s
          · exact .of_eq rfl rfl rfl rfl rfl rfl rfl rfl (by simp)
        exact ((hlog.trans (hreturn _)).trans (hdrop _)).trans (.same rfl rfl rfl rfl rfl rfl rfl rfl)
      · exact .refl e
  | streamStopSending id code =>
      show KeepsClose e (e.streamStopSending id code)
      unfold streamStopSending
      split
      · exact .same rfl rfl rfl rfl rfl rfl rfl rfl
      · exact .refl e
  | sendDrain =>
      show KeepsClose e e.sendDrain
      unfold sendDrain
      split_ifs <;> exact .same rfl rfl rfl rfl rfl rfl rfl rfl
  | takeTerminalError =>
      show KeepsClose e e.takeTerminalError
      unfold takeTerminalError
      split <;> exact .same rfl rfl rfl rfl rfl rfl rfl rfl
  | grantCredit => exact .grantCredit e
  | replenish => exact .replenish e
  | releasePendingOpens => exact .releasePendingOpens e
  | flushStream id => exact .flushStream e id
  | signalFlowControlBlocked => exact .signalFlowControlBlocked e
  | markClosed code reason remote => exact .markClosed e code reason remote
  | _ => exact .same rfl rfl rfl rfl rfl rfl rfl rfl

/-- No step queues anything behind a close that stands. -/
theorem step_onlyDrains (h : e.CloseOrder) (hq : e.CloseQueued) {s : Step} (hs : e.StepAdmissible s)
    (hgives : e.GivesWay s) : OnlyDrains e (e.step s) := by
  have hl := h.layout
  obtain ⟨hqueued, hsettled, hside⟩ := h.standing hq
  have hconnect : e.connectSide ≠ none := by
    obtain ⟨side, hside, -⟩ := hside
    simp [hside]
  have hdata : ∀ {id : Nat}, e.Surfaced id → id ≠ connectId := hl.surfaced_ne
  cases s with
  | onEstablished => exact .onEstablished e
  | touch id => exact .touch hconnect id
  | read id backpressured =>
      rcases readStep_effects (hl.readable hs) hl.wellFormed (hl.alive_of_readable hs id)
        backpressured with heq | ⟨cap, heff⟩
      · exact .of_eq (congrArg connectSide heq)
      · have hspec := Quic.Connection.streamRecv_spec e.conn id cap
        have hI := heff.invariant
          (I := fun s => s.Layout ∧ (s.Gated ∧ s.Admitted) ∧ (s.ready = true ∨ s.closed = true) ∧
            s.connectSide ≠ none ∧ OnlyDrains e s)
          (fun a b heff hI => ?_) ⟨?_, ?_, ?_, hconnect, .of_get rfl⟩
        · exact hI.2.2.2.2
        · obtain ⟨hl, hg, hsettled, hconnect, hd⟩ := hI
          have hstep := heff.onlyDrains hl hg.1 hg.2 hsettled hconnect
          refine ⟨heff.layout hl, admitted_whole.effect heff hl hg,
            hsettled.imp heff.keepsClose.ready heff.keepsClose.closed, ?_, hd.trans hstep⟩
          obtain ⟨side, hside⟩ := Option.ne_none_iff_exists'.mp hconnect
          obtain ⟨side', hside', -⟩ := hstep side hside
          simp [hside']
        · exact hl.same (.conn e hspec.isServer hspec.wellFormed hspec.phase fun hwf _ =>
            hspec.exhausted hwf)
        · exact admitted_whole.quiet (e := e) (.of_eq rfl rfl rfl rfl ⟨rfl, rfl, rfl⟩ rfl rfl) h.gate
        · exact hsettled.symm.imp_left And.left
  | onDatagrams => exact .onDatagrams e
  | openStream bidi requestId =>
      exact .trans (b := { e with pendingOpens := e.pendingOpens ++ [(bidi, requestId)] })
        (.of_get rfl) (.releasePendingOpens (hl.same (.session rfl rfl rfl rfl rfl rfl rfl rfl rfl)))
  | streamWrite id data requestId =>
      show OnlyDrains e (e.streamWrite id data requestId)
      unfold streamWrite
      simp only
      split
      · exact .modify_ne (hdata hs.surfaced) rfl
      · exact .of_get rfl
  | streamFin id => exact .modify_ne (hdata (Writable.surfaced hs)) rfl
  | streamReset id code =>
      exact .streamReset (hdata (Writable.surfaced hs)) code
  | streamStopSending id code =>
      show OnlyDrains e (e.streamStopSending id code)
      unfold streamStopSending
      split
      · exact .modify id rfl fun _ => rfl
      · exact .refl e
  | setPaused id => exact .modify id rfl fun _ => rfl
  | close code reason => exact .of_eq (congrArg connectSide (close_idle hqueued code reason))
  | sendDrain => exact .of_eq (congrArg connectSide (sendDrain_idle (hgives hq)))
  | takeTerminalError =>
      show OnlyDrains e e.takeTerminalError
      unfold takeTerminalError
      split <;> exact .of_get rfl
  | grantCredit =>
      exact .of_eq (congrArg connectSide (grantCredit_idle (hsettled.imp_right And.right)))
  | replenish => exact .of_eq (congrArg connectSide (replenish_idle (hgives hq)))
  | queueClose => exact .of_eq (congrArg connectSide (queueClose_idle hqueued))
  | releasePendingOpens => exact .releasePendingOpens hl
  | flushStream id => exact .flushStream e id
  | signalFlowControlBlocked =>
      exact .of_eq (congrArg connectSide (signalFlowControlBlocked_idle (hgives hq)))
  | prune => exact .prune e
  | gracefulClose => exact .gracefulClose e
  | markClosed code reason remote => exact .markClosed e code reason remote
  | sendDatagram | commitSent | network => exact .of_get rfl

/-- The capsule of a close is queued. -/
theorem CloseOrder.queueClose (h : e.CloseOrder) (hgives : e.GivesWay .queueClose)
    (hgranted : e.GrantedFirst .queueClose) :
    (e.queueClose.CloseQueued → e.queueClose.Standing) ∧ (e.queueClose.closeDeferredOnce = true →
      e.queueClose.wantQuicClose.isSome = true ∨ e.queueClose.quicCloseIssued = true) := by
  by_cases hidle : ∃ req, e.closeReq = some req ∧ req.capsuleQueued = true
  · rw [queueClose_idle hidle]
    exact ⟨h.standing, h.deferred⟩
  · have hnot : ¬e.CloseQueued := fun hq => hidle (h.standing hq).queued
    unfold Endpoint.queueClose
    cases hreq : e.closeReq with
    | none => exact ⟨fun hq => absurd hq hnot, h.deferred⟩
    | some req =>
        have hfresh : req.capsuleQueued = false := by
          by_contra hc
          exact hidle ⟨req, hreq, by simpa using hc⟩
        simp only
        rw [if_neg (by simp [hfresh])]
        split
        next hcontains =>
          obtain ⟨hsettled, hunsent⟩ := hgives ⟨by simp [hreq, hfresh], hcontains⟩
          obtain ⟨st, hst⟩ := Option.isSome_iff_exists.mp hcontains
          refine ⟨fun _ => ⟨⟨_, rfl, rfl⟩, ?_, ?_⟩, h.deferred⟩
          · rcases hsettled with hready | hclosed
            · exact (hgranted rfl hready).imp_right fun hg => ⟨hready, hg⟩
            · exact .inl hclosed
          · refine ⟨_, by simp only [connectSide, log, Endpoint.modifyStream, Table.get_modify_self, hst]; rfl,
              rfl, fun hsent => ?_⟩
            simp only [connectFinSent, connectSide, hst, Option.map_some, Option.any_some] at hunsent
            exact absurd (hsent.symm.trans hunsent) (by simp)
        · exact ⟨fun hq => absurd hq hnot, fun _ => .inl rfl⟩

/-- The QUIC close is armed or issued. -/
theorem CloseOrder.gracefulClose (h : e.CloseOrder) :
    e.gracefulClose.closeReq = e.closeReq ∧ (e.gracefulClose.CloseQueued ↔ e.CloseQueued) ∧
      e.gracefulClose.closed = e.closed ∧ e.gracefulClose.ready = e.ready ∧
      e.gracefulClose.fcCreditGranted = e.fcCreditGranted ∧ (e.gracefulClose.closeDeferredOnce = true →
        e.gracefulClose.wantQuicClose.isSome = true ∨ e.gracefulClose.quicCloseIssued = true) := by
  have harm : e.armQuicClose = e ∨ ∃ info, e.armQuicClose = { e with wantQuicClose := some info } := by
    unfold armQuicClose
    split
    · split
      · exact .inr ⟨_, rfl⟩
      · exact .inl rfl
    · exact .inl rfl
  unfold Endpoint.gracefulClose
  split
  · exact ⟨rfl, Iff.rfl, rfl, rfl, rfl, h.deferred⟩
  · simp only
    rcases harm with heq | ⟨info, heq⟩
    · rw [heq]
      split_ifs with hwant
      · exact ⟨rfl, Iff.rfl, rfl, rfl, rfl, fun _ => .inr rfl⟩
      · exact ⟨rfl, Iff.rfl, rfl, rfl, rfl, fun _ => .inl hwant⟩
      · exact ⟨rfl, Iff.rfl, rfl, rfl, rfl, h.deferred⟩
    · rw [heq]
      split_ifs with hwant
      · exact ⟨rfl, Iff.rfl, rfl, rfl, rfl, fun _ => .inr rfl⟩
      · exact ⟨rfl, Iff.rfl, rfl, rfl, rfl, fun _ => .inl rfl⟩
      · exact ⟨rfl, Iff.rfl, rfl, rfl, rfl, fun _ => .inl rfl⟩

theorem CloseOrder.step (h : e.CloseOrder) {s : Step} (hs : e.StepAdmissible s)
    (hgives : e.GivesWay s) (hgranted : e.GrantedFirst s) : (e.step s).CloseOrder := by
  have hlayout := h.layout.step hs
  have hgate := admitted_whole.step h.layout hs h.gate
  cases hcloses : Step.closes s with
  | false =>
      have hf := step_keepsClose h.layout hs hcloses
      refine ⟨hlayout, hgate, fun hq => ?_, fun hd => ?_⟩
      · have hq := hf.closeQueued.mp hq
        exact (h.standing hq).keep hf (step_onlyDrains h hq hs hgives)
      · rw [hf.wantQuicClose, hf.issued]
        exact h.deferred (hf.deferred ▸ hd)
  | true =>
      cases s with
      | close code reason =>
          refine ⟨hlayout, hgate, fun hq => ?_, ?_⟩
          · have hq : e.CloseQueued := by
              have hq : (e.close code reason).CloseQueued := hq
              unfold Endpoint.close at hq
              split_ifs at hq <;> exact hq
            exact (congrArg Standing (close_idle (h.standing hq).queued code reason)).mpr (h.standing hq)
          · show (e.close code reason).closeDeferredOnce = true →
              (e.close code reason).wantQuicClose.isSome = true ∨
                (e.close code reason).quicCloseIssued = true
            unfold Endpoint.close
            split_ifs <;> exact h.deferred
      | queueClose =>
          obtain ⟨hstanding, hdeferred⟩ := h.queueClose hgives hgranted
          exact ⟨hlayout, hgate, hstanding, hdeferred⟩
      | gracefulClose =>
          obtain ⟨hreq, hiff, hclosed, hready, hgrant, hdeferred⟩ := h.gracefulClose
          refine ⟨hlayout, hgate, fun hq => ?_, hdeferred⟩
          have hq := hiff.mp hq
          obtain ⟨hqueued, hsettled, side, hside, hfin, hempty⟩ := h.standing hq
          obtain ⟨side', hside', hshort⟩ := step_onlyDrains h hq hs hgives side hside
          refine ⟨hreq.symm ▸ hqueued, ?_, side', hside', hshort.finQueued.trans hfin, fun hsent => ?_⟩
          · show e.gracefulClose.closed = true ∨ e.gracefulClose.ready = true ∧
              e.gracefulClose.fcCreditGranted = true
            rw [hclosed, hready, hgrant]
            exact hsettled
          · rcases hshort.ended hsent with hold | hnow
            · exact List.suffix_nil.mp (hempty hold ▸ hshort.queue)
            · exact hnow
      | _ => cases hcloses

/-! ## Runs -/

/-- A step queues nothing behind a close, and the end of the CONNECT stream, once
sent, is behind everything that was queued. -/
def Stands (e : Endpoint) (s : Step) : Prop :=
  (e.CloseQueued → (e.step s).CloseQueued ∧ (e.step s).connectQueue <:+ e.connectQueue ∧
    (e.connectFinSent = true → (e.step s).connectFinSent = true)) ∧
  ((e.step s).CloseQueued → (e.step s).connectFinSent = true → (e.step s).connectQueue = [])

/-- A flush that finds the end of the CONNECT stream sent arms the QUIC close. -/
def ArmsClose (e : Endpoint) : Call → Prop
  | .flush order => e.CloseQueued → e.connectFinSent = true → e.quicCloseIssued = false →
      e.wantQuicClose = none → ∃ req, e.closeReq = some req ∧
        (e.flush order).wantQuicClose = some (req.code, req.reason)
  | _ => True

/-- A call keeps a queued close the last thing on the CONNECT stream. -/
def CloseKept (e : Endpoint) (c : Call) : Prop := Along step Stands e (e.steps c) ∧ e.ArmsClose c

/-- In every call the grant comes in front of the close. -/
theorem steps_grantedFirst (e : Endpoint) (c : Call) : Along step GrantedFirst e (e.steps c) := by
  have hother : ∀ {l : List Step} {a : Endpoint}, (∀ s ∈ l, s ≠ .queueClose) → Along step GrantedFirst a l :=
    fun hl => along_of_forall fun s hs _ heq => absurd heq (hl s hs)
  cases c with
  | onReadable id backpressured =>
      refine hother fun s hs => ?_
      simp only [steps] at hs
      split at hs
      · cases hs
      · rcases List.mem_cons.mp hs with rfl | hs
        · simp
        · split at hs
          · rw [mem_reads hs]
            simp
          · cases hs
  | flush order =>
      refine along_append.mpr ⟨⟨fun h => (by cases h), fun h => (by cases h), fun h => (by cases h),
        fun _ hready => ?_, fun h => (by cases h), trivial⟩, hother fun s hs => ?_⟩
      · -- the grant was due, if it was not made before
        have hf := KeepsClose.replenish (e.takeTerminalError.grantCredit)
        have hgrant : e.takeTerminalError.grantCredit.ready = true →
            e.takeTerminalError.grantCredit.closed = true ∨
              e.takeTerminalError.grantCredit.fcCreditGranted = true := by
          generalize e.takeTerminalError = a
          unfold Endpoint.grantCredit
          split
          · exact fun _ => .inr rfl
          next hno =>
            intro hready
            by_contra hc
            simp only [not_or, Bool.not_eq_true] at hc
            exact hno ⟨hready, by simp [hc.2], by simp [hc.1]⟩
        have hready : e.takeTerminalError.grantCredit.ready = true :=
          (Aside.replenish e.takeTerminalError.grantCredit).ready ▸ hready
        exact (hgrant hready).imp hf.closed hf.granted
      · rcases List.mem_append.mp hs with hs | hs
        · obtain ⟨id, -, rfl⟩ := List.mem_map.mp hs
          simp
        · simp only [flushTail, List.mem_cons, List.not_mem_nil, or_false] at hs
          rcases hs with rfl | rfl | rfl | rfl <;> simp
  | _ => exact hother (by simp [steps])

omit [H3.Codec] in
theorem Standing.finSent (h : e.Standing) (hsent : e.connectFinSent = true) : e.connectQueue = [] := by
  obtain ⟨side, hside, -, hempty⟩ := h.side
  simp only [connectFinSent, hside, Option.any_some] at hsent
  simp [connectQueue, hside, hempty hsent]

/-- One step. -/
theorem CloseOrder.stands (h : e.CloseOrder) {s : Step} (hs : e.StepAdmissible s)
    (hgives : e.GivesWay s) (hgranted : e.GrantedFirst s) : e.Stands s := by
  have hnext := h.step hs hgives hgranted
  refine ⟨fun hq => ?_, fun hq hsent => (hnext.standing hq).finSent hsent⟩
  obtain ⟨side, hside, -⟩ := (h.standing hq).side
  obtain ⟨side', hside', hshort⟩ := step_onlyDrains h hq hs hgives side hside
  refine ⟨?_, by simpa [connectQueue, hside, hside'] using hshort.queue,
    by simpa [connectFinSent, hside, hside'] using hshort.sent⟩
  cases hcloses : Step.closes s with
  | false => exact (step_keepsClose h.layout hs hcloses).closeQueued.mpr hq
  | true =>
      have hqueued := (h.standing hq).queued
      cases s with
      | close code reason => exact (congrArg CloseQueued (close_idle hqueued code reason)).mpr hq
      | queueClose => exact (congrArg CloseQueued (queueClose_idle hqueued)).mpr hq
      | gracefulClose => exact h.gracefulClose.2.1.mpr hq
      | _ => cases hcloses

/-- A close whose end was sent, and that was not armed yet. -/
structure Unarmed (req : CloseReq) (e : Endpoint) : Prop where
  order : e.CloseOrder
  queued : e.CloseQueued
  sent : e.connectFinSent = true
  request : e.closeReq = some req
  idle : e.wantQuicClose = none ∧ e.quicCloseIssued = false

theorem Unarmed.step {req : CloseReq} (h : e.Unarmed req) {s : Step} (hs : e.StepAdmissible s)
    (hgives : e.GivesWay s) (hgranted : e.GrantedFirst s)
    (hcloses : Step.closes s = false ∨ s = .queueClose) : (e.step s).Unarmed req := by
  rcases hcloses with hcloses | rfl
  · have hf := step_keepsClose h.order.layout hs hcloses
    obtain ⟨hq, -, hsent⟩ := (h.order.stands hs hgives hgranted).1 h.queued
    exact ⟨h.order.step hs hgives hgranted, hq, hsent h.sent, hf.closeReq.trans h.request,
      hf.wantQuicClose.trans h.idle.1, hf.issued.trans h.idle.2⟩
  · exact (congrArg (Unarmed req) (queueClose_idle (h.order.standing h.queued).queued)).mpr h

/-- The last part of the flush arms it. -/
theorem Unarmed.armed {req : CloseReq} (h : e.Unarmed req) :
    e.gracefulClose.wantQuicClose = some (req.code, req.reason) := by
  obtain ⟨⟨req', hreq', hqueued⟩, -, side, hside, -, hempty⟩ := h.order.standing h.queued
  obtain rfl := Option.some.inj (hreq'.symm.trans h.request)
  have hsent := h.sent
  simp only [connectFinSent, hside, Option.any_some] at hsent
  have hdrained : e.connectDrained = true := by
    simp only [connectSide, Option.map_eq_some_iff] at hside
    obtain ⟨st, hst, rfl⟩ := hside
    simp only [sideOf] at hsent hempty
    simp [connectDrained, hst, hsent, List.map_eq_nil_iff.mp (hempty hsent)]
  have harm : e.armQuicClose = { e with wantQuicClose := some (req'.code, req'.reason) } := by
    unfold armQuicClose
    rw [h.idle.1, hreq']
    exact if_pos ⟨hqueued, hdrained⟩
  have hdeferred : e.closeDeferredOnce = false := by
    by_contra hd
    rcases h.order.deferred (by simpa using hd) with hwant | hissued
    · simp [h.idle.1] at hwant
    · simp [h.idle.2] at hissued
  unfold gracefulClose
  rw [if_neg (by simp [h.idle.2])]
  simp only [harm, hdeferred]
  rfl

/-- A flush arms the close of a CONNECT stream whose end was sent. -/
theorem CloseOrder.armsClose (h : e.CloseOrder) {c : Call} (hc : e.Meets GivesWay c) : e.ArmsClose c := by
  cases c with
  | flush order =>
      intro hq hsent hissued hwant
      obtain ⟨req, hreq, -⟩ := (h.standing hq).queued
      refine ⟨req, hreq, ?_⟩
      have hsteps : e.steps (.flush order) = (flushHead ++ ((flushIds order e).map .flushStream ++
          [.commitSent, .signalFlowControlBlocked, .prune])) ++ [.gracefulClose] := by
        simp [steps, flushTail]
      have hall := along_and (along_and (steps_admissible hc.1) hc.2) (steps_grantedFirst e (.flush order))
      rw [hsteps] at hall
      have hbefore := execute_invariant (I := Unarmed req)
        (P := fun a s => ((a.StepAdmissible s ∧ a.GivesWay s) ∧ a.GrantedFirst s) ∧
          (Step.closes s = false ∨ s = .queueClose))
        (fun a s ha hs => ha.step hs.1.1.1 hs.1.1.2 hs.1.2 hs.2)
        ⟨h, hq, hsent, hreq, hwant, hissued⟩
        (along_and (along_append.mp hall).1 (along_of_forall fun s hs _ => ?_))
      · have heq := call_eq e (.flush order)
        rw [hsteps, execute_append] at heq
        exact (congrArg (fun a : Endpoint => a.wantQuicClose) heq).trans hbefore.armed
      · simp only [flushHead, List.mem_append, List.mem_cons, List.mem_map, List.not_mem_nil,
          or_false] at hs
        rcases hs with (rfl | rfl | rfl | rfl | rfl) | ⟨id, -, rfl⟩ | rfl | rfl | rfl
        all_goals simp [Step.closes]
  | _ => trivial

/-- A call in which everything gives way to a close keeps it. -/
theorem CloseOrder.call (h : e.CloseOrder) {c : Call} (hc : e.Meets GivesWay c) :
    e.CloseKept c ∧ (e.call c).CloseOrder := by
  have hall := along_and (along_and (steps_admissible hc.1) hc.2) (steps_grantedFirst e c)
  refine ⟨⟨?_, h.armsClose hc⟩, ?_⟩
  · exact along_imp (I := CloseOrder)
      (fun a s ha hs => ⟨ha.stands hs.1.1 hs.1.2 hs.2, ha.step hs.1.1 hs.1.2 hs.2⟩) h hall
  · rw [call_eq]
    exact execute_invariant (fun a s ha hs => ha.step hs.1.1 hs.1.2 hs.2) h hall

theorem Start.closeOrder (h : Start e) : e.CloseOrder := by
  refine ⟨h.layout, ⟨h.gated, ?_⟩, ?_, ?_⟩
  · cases h <;> exact fun _ h => (by cases h)
  · cases h <;> exact fun h => absurd h List.not_mem_nil
  · cases h <;> exact fun h => (by cases h)

/-- In a run in which everything gives way to a queued close, nothing overtakes
it, and the QUIC close follows. -/
theorem close_not_overtaken (hstart : Start e) {calls : List Call}
    (hrun : Along call (Meets GivesWay) e calls) : Along call CloseKept e calls :=
  along_imp (I := CloseOrder) (fun _ _ h hc => h.call hc) hstart.closeOrder hrun

end

/-! ## Concrete runs -/

instance [H3.Codec] (e : Endpoint) (c : Call) : Decidable (e.Meets GivesWay c) :=
  inferInstanceAs (Decidable (_ ∧ Along step GivesWay e (e.steps c)))

/-- A server closes its session. -/
def closingRun : List Call := serverHandshake ++ [.close 7 [], flushOnce, flushOnce]

theorem closingRun_givesWay :
    letI := H3.Codec.plain
    Along call (Meets GivesWay) sampleServer closingRun := by decide +kernel

theorem close_not_overtaken_sample :
    letI := H3.Codec.plain
    Along call CloseKept sampleServer closingRun ∧
      (execute call sampleServer closingRun).quicCloseIssued = true :=
  letI := H3.Codec.plain
  ⟨close_not_overtaken sampleServer_start closingRun_givesWay, by decide +kernel⟩

/-- A drain that is requested after the close is queued behind it. -/
theorem drain_overtakes_close :
    letI := H3.Codec.plain
    Start sampleServer ∧
      Along call Admissible sampleServer (serverHandshake ++ [.close 7 [], flushOnce, .sendDrain]) ∧
      ¬Along call CloseKept sampleServer (serverHandshake ++ [.close 7 [], flushOnce, .sendDrain]) := by
  let _ := H3.Codec.plain
  refine ⟨sampleServer_start, by decide +kernel, fun h => ?_⟩
  have hsplit : serverHandshake ++ [.close 7 [], flushOnce, .sendDrain] =
      (serverHandshake ++ [.close 7 [], flushOnce]) ++ [.sendDrain] := rfl
  rw [hsplit] at h
  have hlast := (along_append.mp h).2.1.1.1
  have hqueued : ((execute call sampleServer (serverHandshake ++ [.close 7 [], flushOnce])).step
      .sendDrain).CloseQueued := by decide +kernel
  have hsent : ((execute call sampleServer (serverHandshake ++ [.close 7 [], flushOnce])).step
      .sendDrain).connectFinSent = true := by decide +kernel
  have hleft : ((execute call sampleServer (serverHandshake ++ [.close 7 [], flushOnce])).step
      .sendDrain).connectQueue ≠ [] := by decide +kernel
  exact hleft (hlast.2 hqueued hsent)

end Endpoint

end RWebTransport
