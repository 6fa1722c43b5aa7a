import RWebTransport.Session.Delivery
import RWebTransport.Session.Opening

/-!
# BLOCKED signals

Behind its send loop `flush` looks whether a limit of the peer holds anything
back, and queues a BLOCKED capsule on the CONNECT stream, once for each value of
the limit.  The capsule is not offered to quiche before the next flush: a flush
that hits a new limit ends with the capsule in the queue of the session.
-/

namespace RWebTransport

open Quic.Connection (Send)

/-- The peer's limits. -/
inductive Limit where
  | data
  | streams (bidi : Bool)
deriving DecidableEq, Repr

namespace Endpoint

/-! ## Signals -/

def limit (e : Endpoint) : Limit → Nat
  | .data => e.fcMaxDataRemote
  | .streams bidi => e.fcMaxStreamsRemote bidi

/-- The value of the limit that was announced last. -/
def announcedAt (e : Endpoint) : Limit → Option Nat
  | .data => e.dataBlockedAt
  | .streams bidi => e.streamsBlockedAt bidi

def blockedCapsule : Limit → Nat
  | .data => H3.wtDataBlockedCapsule
  | .streams bidi => streamsBlockedCapsule bidi

/-- A BLOCKED capsule on the CONNECT stream. -/
def blockedFrame (k : Limit) (value : Nat) : Bytes :=
  capsuleFrame (blockedCapsule k) (H3.putVarint value)

/-- The limit is reached, and something waits for it. -/
def HeldBack (e : Endpoint) : Limit → Prop
  | .data => e.fcMaxDataRemote ≤ e.fcDataSent ∧ e.hasPendingPayload = true
  | .streams bidi => e.fcMaxStreamsRemote bidi ≤ e.opened bidi ∧
      (e.pendingOpens.any fun q => q.1 == bidi) = true

instance (e : Endpoint) : (k : Limit) → Decidable (e.HeldBack k)
  | .data => inferInstanceAs (Decidable (_ ∧ _))
  | .streams _ => inferInstanceAs (Decidable (_ ∧ _))

/-- A limit whose value is new. -/
def Hit (e : Endpoint) (k : Limit) : Prop := e.HeldBack k ∧ e.announcedAt k ≠ some (e.limit k)

instance (e : Endpoint) (k : Limit) : Decidable (e.Hit k) := inferInstanceAs (Decidable (_ ∧ _))

/-- Queues the capsule for a limit. -/
def announce (e : Endpoint) : Limit → Endpoint
  | .data => { e.queueSessionCapsule H3.wtDataBlockedCapsule e.fcMaxDataRemote with
      dataBlockedAt := some e.fcMaxDataRemote }
  | .streams true =>
      { e.queueSessionCapsule (streamsBlockedCapsule true) (e.fcMaxStreamsRemote true) with
        streamsBidiBlockedAt := some (e.fcMaxStreamsRemote true) }
  | .streams false =>
      { e.queueSessionCapsule (streamsBlockedCapsule false) (e.fcMaxStreamsRemote false) with
        streamsUniBlockedAt := some (e.fcMaxStreamsRemote false) }

/-- All limits, in the order in which they are looked at. -/
def limits : List Limit := [.data, .streams true, .streams false]

theorem mem_limits (k : Limit) : k ∈ limits := by
  cases k with
  | data => decide
  | streams bidi => cases bidi <;> decide

/-- The limits that `signal_flow_control_blocked` announces. -/
def signals (e : Endpoint) : List Limit :=
  if e.usesSessionFlowControl = true ∧ e.closed = false then
    limits.filter fun k => decide (e.Hit k)
  else []

theorem signalDataBlocked_eq (e : Endpoint) :
    e.signalDataBlocked = if e.Hit .data then e.announce .data else e := by
  have hiff : (e.fcMaxDataRemote ≤ e.fcDataSent ∧ e.dataBlockedAt ≠ some e.fcMaxDataRemote ∧
      e.hasPendingPayload = true) ↔ e.Hit .data := by
    simp only [Hit, HeldBack, announcedAt, limit]
    tauto
  unfold signalDataBlocked
  by_cases h : e.Hit .data
  · rw [if_pos (hiff.mpr h), if_pos h]
    rfl
  · rw [if_neg (mt hiff.mp h), if_neg h]

theorem signalStreamsBlocked_eq (e : Endpoint) (bidi : Bool) :
    e.signalStreamsBlocked bidi = if e.Hit (.streams bidi) then e.announce (.streams bidi) else e := by
  have hiff : (e.fcMaxStreamsRemote bidi ≤ e.opened bidi ∧
      (e.pendingOpens.any fun q => q.1 == bidi) = true ∧
      e.streamsBlockedAt bidi ≠ some (e.fcMaxStreamsRemote bidi)) ↔ e.Hit (.streams bidi) := by
    simp only [Hit, HeldBack, announcedAt, limit]
    tauto
  unfold signalStreamsBlocked
  by_cases h : e.Hit (.streams bidi)
  · simp only
    rw [if_pos (hiff.mpr h), if_pos h]
    cases bidi <;> rfl
  · simp only
    rw [if_neg (mt hiff.mp h), if_neg h]

theorem any_modify {α : Type} {t : Table α} {i : Nat} {f : α → α} {p : Nat → α → Bool}
    (h : ∀ v, t.get i = some v → p i (f v) = p i v) : (t.modify i f).any p = t.any p := by
  rw [Bool.eq_iff_iff, Table.any_eq_true, Table.any_eq_true]
  constructor
  · rintro ⟨j, v, hv, hp⟩
    rw [Table.get_modify] at hv
    split at hv
    next hj =>
      subst hj
      obtain ⟨w, hw, rfl⟩ := Option.map_eq_some_iff.mp hv
      exact ⟨j, w, hw, (h w hw).symm.trans hp⟩
    · exact ⟨j, v, hv, hp⟩
  · rintro ⟨j, v, hv, hp⟩
    by_cases hj : j = i
    · subst hj
      exact ⟨j, f v, by rw [Table.get_modify_self, hv, Option.map_some], (h v hv).trans hp⟩
    · exact ⟨j, v, by rw [Table.get_modify_ne hj, hv], hp⟩

/-- A capsule of our own is no payload. -/
theorem hasPendingPayload_queue (e : Endpoint) (ty value : Nat) :
    (e.queueSessionCapsule ty value).hasPendingPayload = e.hasPendingPayload :=
  any_modify fun st _ => by simp [Stream.push]

/-- What is announced for one limit does not matter for another. -/
theorem hit_announce {e : Endpoint} {k k' : Limit} (hne : k' ≠ k) : (e.announce k).Hit k' ↔ e.Hit k' := by
  have hheld : (e.announce k).HeldBack k' ↔ e.HeldBack k' := by
    cases k' with
    | data =>
        have hpending : (e.announce k).hasPendingPayload = e.hasPendingPayload := by
          cases k with
          | data => exact absurd rfl hne
          | streams bidi => cases bidi <;> exact hasPendingPayload_queue e _ _
        have hlimit : (e.announce k).fcMaxDataRemote = e.fcMaxDataRemote ∧
            (e.announce k).fcDataSent = e.fcDataSent := by
          cases k with
          | data => exact ⟨rfl, rfl⟩
          | streams bidi => cases bidi <;> exact ⟨rfl, rfl⟩
        simp only [HeldBack, hpending, hlimit]
    | streams bidi =>
        cases k with
        | data => exact Iff.rfl
        | streams b => cases b <;> exact Iff.rfl
  have hat : (e.announce k).announcedAt k' = e.announcedAt k' ∧ (e.announce k).limit k' = e.limit k' := by
    cases k with
    | data =>
        cases k' with
        | data => exact absurd rfl hne
        | streams bidi => exact ⟨rfl, rfl⟩
    | streams bidi =>
        cases k' with
        | data => cases bidi <;> exact ⟨rfl, rfl⟩
        | streams b =>
            cases bidi <;> cases b
            · exact absurd rfl hne
            · exact ⟨rfl, rfl⟩
            · exact ⟨rfl, rfl⟩
            · exact absurd rfl hne
  simp only [Hit, hheld, hat]

/-- Looking at one limit after the other announces those that were hit at the start. -/
theorem foldl_announce {l : List Limit} (hl : l.Nodup) (e : Endpoint) :
    l.foldl (fun s k => if s.Hit k then s.announce k else s) e =
      (l.filter fun k => decide (e.Hit k)).foldl announce e := by
  induction l generalizing e with
  | nil => rfl
  | cons k l ih =>
      obtain ⟨hk, hl⟩ := List.nodup_cons.mp hl
      rw [List.foldl_cons]
      by_cases h : e.Hit k
      · have hrest : (l.filter fun k' => decide ((e.announce k).Hit k')) =
            l.filter fun k' => decide (e.Hit k') := by
          refine List.filter_congr fun k' hk' => ?_
          rw [decide_eq_decide]
          exact hit_announce fun heq => hk (heq ▸ hk')
        rw [if_pos h, ih hl, hrest, List.filter_cons_of_pos (by simpa using h), List.foldl_cons]
      · rw [if_neg h, ih hl, List.filter_cons_of_neg (by simpa using h)]

/-- `signal_flow_control_blocked` queues a capsule for each limit that was hit. -/
theorem signalFlowControlBlocked_eq (e : Endpoint) :
    e.signalFlowControlBlocked = e.signals.foldl announce e := by
  unfold signalFlowControlBlocked signals
  by_cases h : e.usesSessionFlowControl = true ∧ e.closed = false
  · rw [if_neg (by simp [h.1, h.2]), if_pos h, ← foldl_announce (by decide), signalDataBlocked_eq,
      signalStreamsBlocked_eq, signalStreamsBlocked_eq]
    rfl
  · rw [if_neg h, if_pos]
    · rfl
    · cases hu : e.usesSessionFlowControl
      · simp
      · simpa [hu] using h

/-! ## Steps that signal nothing -/

/-- What the signals depend on, but for what waits. -/
def flow (e : Endpoint) : (Limit → Option Nat) × (Limit → Nat) × Option H3.PeerSettings :=
  (e.announcedAt, e.limit, e.peerSettings)

theorem flow_takeTerminalError (e : Endpoint) : e.takeTerminalError.flow = e.flow := by
  unfold takeTerminalError
  split <;> rfl

theorem flow_queueSessionCapsule (e : Endpoint) (ty value : Nat) :
    (e.queueSessionCapsule ty value).flow = e.flow := rfl

theorem flow_grantCredit (e : Endpoint) : e.grantCredit.flow = e.flow := by
  unfold grantCredit
  split
  · simp only [flow_queueSessionCapsule]
    rfl
  · rfl

theorem flow_raiseDataLimit (e : Endpoint) (limit : Nat) : (e.raiseDataLimit limit).flow = e.flow := rfl

theorem flow_raiseStreamsLimit (e : Endpoint) (bidi : Bool) (limit : Nat) :
    (e.raiseStreamsLimit bidi limit).flow = e.flow := rfl

theorem flow_replenishData (e : Endpoint) : e.replenishData.flow = e.flow := by
  unfold replenishData
  simp only
  split_ifs
  · exact flow_raiseDataLimit e _
  · rfl
  · rfl

theorem flow_replenishStreams (e : Endpoint) (bidi : Bool) : (e.replenishStreams bidi).flow = e.flow := by
  unfold replenishStreams
  simp only
  split_ifs
  · exact flow_raiseStreamsLimit e bidi _
  · rfl
  · rfl

theorem flow_replenish (e : Endpoint) : e.replenish.flow = e.flow := by
  unfold replenish
  split
  · rw [flow_replenishStreams, flow_replenishStreams, flow_replenishData]
  · rfl

theorem flow_queueClose (e : Endpoint) : e.queueClose.flow = e.flow := by
  unfold queueClose
  split
  · rfl
  · simp only
    split_ifs <;> rfl

theorem flow_releaseOpen (e : Endpoint) (request : Bool × Nat) : (e.releaseOpen request).flow = e.flow := by
  unfold releaseOpen allocateStream
  split
  · rfl
  · cases request.1 <;> rfl

theorem flow_releasePendingOpens (e : Endpoint) : e.releasePendingOpens.flow = e.flow := by
  have hfold : ∀ (l : List (Bool × Nat)) (s : Endpoint), (l.foldl releaseOpen s).flow = s.flow := by
    intro l
    induction l with
    | nil => exact fun _ => rfl
    | cons request l ih => exact fun s => (ih _).trans (flow_releaseOpen s request)
  unfold releasePendingOpens
  split
  · rfl
  · exact hfold _ _

theorem flow_flushStream (e : Endpoint) (id : Nat) : (e.flushStream id).flow = e.flow :=
  flushStream_invariant (I := fun s => s.flow = e.flow)
    (fun _ _ hs h => by
      rw [← h]
      cases hs <;> rfl) rfl

theorem flow_armQuicClose (e : Endpoint) : e.armQuicClose.flow = e.flow := by
  unfold armQuicClose
  split
  · split <;> rfl
  · rfl

theorem flow_gracefulClose (e : Endpoint) : e.gracefulClose.flow = e.flow := by
  unfold gracefulClose
  split
  · rfl
  · simp only
    split_ifs <;> exact flow_armQuicClose e

theorem flow_markClosed (e : Endpoint) (code : Nat) (reason : Bytes) (remote : Bool) :
    (e.markClosed code reason remote).flow = e.flow := by
  unfold markClosed
  split <;> rfl

theorem flow_onEstablished (e : Endpoint) : e.onEstablished.flow = e.flow := by
  unfold onEstablished
  split
  · rfl
  · simp only
    split_ifs <;> rfl

theorem flow_touch (e : Endpoint) (id : Nat) : (e.touch id).flow = e.flow := by
  unfold touch
  split <;> rfl

theorem flow_onDatagrams (e : Endpoint) : e.onDatagrams.flow = e.flow := by
  refine iterate_invariant (I := fun s : Endpoint => s.flow = e.flow) (fun s hs => ?_) _ rfl
  rw [← hs]
  unfold datagramStep
  split
  · rfl
  · simp only
    split
    · rfl
    · split <;> rfl

theorem flow_streamWrite (e : Endpoint) (id : Nat) (data : Bytes) (requestId : Nat) :
    (e.streamWrite id data requestId).flow = e.flow := by
  unfold streamWrite
  simp only
  split <;> rfl

theorem flow_reconcileSendFinalSize (e : Endpoint) (id : Nat) :
    (e.reconcileSendFinalSize id).flow = e.flow := by
  unfold reconcileSendFinalSize
  split
  · simp only
    split <;> rfl
  · rfl

theorem flow_dropQueue (e : Endpoint) (id : Nat) : (e.dropQueue id).flow = e.flow := by
  unfold dropQueue
  split <;> rfl

theorem flow_streamReset (e : Endpoint) (id code : Nat) : (e.streamReset id code).flow = e.flow := by
  unfold streamReset
  split
  · exact (flow_dropQueue _ id).trans (flow_reconcileSendFinalSize _ id)
  · rfl

theorem flow_streamStopSending (e : Endpoint) (id code : Nat) :
    (e.streamStopSending id code).flow = e.flow := by
  unfold streamStopSending
  split <;> rfl

theorem flow_close (e : Endpoint) (code : Nat) (reason : Bytes) : (e.close code reason).flow = e.flow := by
  unfold close
  split <;> rfl

theorem flow_sendDrain (e : Endpoint) : e.sendDrain.flow = e.flow := by
  unfold sendDrain
  split_ifs <;> rfl

/-- Nothing was announced, and no limit was lowered. -/
structure Steady (e e' : Endpoint) : Prop where
  marks : ∀ k, e'.announcedAt k = e.announcedAt k
  limits : (e'.peerSettings = e.peerSettings ∧ ∀ k, e.limit k ≤ e'.limit k) ∨ e.peerSettings = none

theorem Steady.of_flow {e e' : Endpoint} (h : e'.flow = e.flow) : Steady e e' := by
  obtain ⟨hmarks, hrest⟩ := Prod.mk.inj h
  obtain ⟨hlimits, hsettings⟩ := Prod.mk.inj hrest
  exact ⟨congrFun hmarks, .inl ⟨hsettings, fun k => (congrFun hlimits k).ge⟩⟩

theorem Steady.trans {a b c : Endpoint} (hab : Steady a b) (hbc : Steady b c) : Steady a c where
  marks k := (hbc.marks k).trans (hab.marks k)
  limits := by
    rcases hab.limits with ⟨hsettings, hlimits⟩ | hnone
    · rcases hbc.limits with ⟨hsettings', hlimits'⟩ | hnone
      · exact .inl ⟨hsettings'.trans hsettings, fun k => (hlimits k).trans (hlimits' k)⟩
      · exact .inr (hsettings.symm.trans hnone)
    · exact .inr hnone

section

variable [H3.Codec] {r : Nat} {e e' : Endpoint}

/-- An effect raises limits, or it applies the SETTINGS of the peer. -/
theorem Effect.limits (h : Effect r e e') (hl : e.Layout) : (∀ k, e'.announcedAt k = e.announcedAt k) ∧
    ((e'.peerSettings = e.peerSettings ∧ ∀ k, e.limit k ≤ e'.limit k) ∨
      e.peerSettings = none ∧ ∃ s, e'.peerSettings = some s ∧ e'.fcMaxDataRemote = s.wtInitialMaxData) := by
  have hsame : e'.flow = e.flow → (∀ k, e'.announcedAt k = e.announcedAt k) ∧
      ((e'.peerSettings = e.peerSettings ∧ ∀ k, e.limit k ≤ e'.limit k) ∨ e.peerSettings = none ∧
        ∃ s, e'.peerSettings = some s ∧ e'.fcMaxDataRemote = s.wtInitialMaxData) := by
    intro hflow
    obtain ⟨hmarks, hrest⟩ := Prod.mk.inj hflow
    obtain ⟨hlimits, hsettings⟩ := Prod.mk.inj hrest
    exact ⟨congrFun hmarks, .inl ⟨hsettings, fun k => (congrFun hlimits k).ge⟩⟩
  cases h with
  | fail message => exact hsame (flow_markClosed (e.emit (.error message)) _ _ _)
  | finish => exact hsame (flow_markClosed e _ _ _)
  | killFail message => exact hsame (flow_markClosed ((e.killRecv r).emit (.error message)) _ _ _)
  | resetFail message => exact hsame (flow_markClosed ((e.setRecvDead r).emit (.error message)) _ _ _)
  | resetClose => exact hsame (flow_markClosed (e.setRecvDead r) _ _ _)
  | reject frame | refuse frame =>
      rw [refuse_eq] at hsame ⊢
      cases frame <;> exact hsame (flow_markClosed _ _ _ _)
  | @credit ty v limit hopen hcredit hlt =>
      unfold creditLimit at hcredit
      unfold setCreditLimit
      split_ifs at hcredit ⊢ with hdata hbidi huni
      all_goals
        refine ⟨fun k => by cases k <;> rfl, .inl ⟨rfl, fun k => ?_⟩⟩
        obtain rfl := Option.some.inj hcredit
        rcases k with _ | _ | _
        all_goals first | exact le_refl _ | exact hlt.le
  | settings hopen hrole hdone =>
      exact ⟨fun k => by cases k <;> rfl, .inr ⟨hl.unsettled hopen hrole hdone, _, rfl, rfl⟩⟩
  | _ => exact hsame rfl

theorem Effect.steady (h : Effect r e e') (hl : e.Layout) : Steady e e' := by
  obtain ⟨hmarks, hlimits⟩ := h.limits hl
  exact ⟨hmarks, hlimits.imp_right And.left⟩

omit [H3.Codec] in
theorem flow_openStream (e : Endpoint) (bidi : Bool) (requestId : Nat) :
    (e.openStream bidi requestId).flow = e.flow :=
  flow_releasePendingOpens _

end

/-! ## Steps that drop nothing from the queue -/

/-- What was queued on the CONNECT stream still is. -/
def Retains (e e' : Endpoint) : Prop :=
  ∀ st, e.streams.get connectId = some st →
    ∃ st', e'.streams.get connectId = some st' ∧ st.out <+: st'.out

namespace Retains

theorem trans {a b c : Endpoint} (hab : Retains a b) (hbc : Retains b c) : Retains a c := by
  intro st hst
  obtain ⟨st', hst', hout⟩ := hab st hst
  obtain ⟨st'', hst'', hout'⟩ := hbc st' hst'
  exact ⟨st'', hst'', hout.trans hout'⟩

/-- The entry of the CONNECT stream is the same. -/
theorem away {e e' : Endpoint} (h : e'.streams.get connectId = e.streams.get connectId) :
    Retains e e' := fun st hst => ⟨st, h.trans hst, List.prefix_refl _⟩

theorem refl (e : Endpoint) : Retains e e := away rfl

theorem modify (e : Endpoint) (id : Nat) {f : Stream → Stream} (hf : ∀ st, st.out <+: (f st).out) :
    Retains e (e.modifyStream id f) := by
  intro st hst
  by_cases hid : connectId = id
  · subst hid
    exact ⟨f st, by simp [modifyStream, hst], hf st⟩
  · exact ⟨st, (Table.get_modify_ne hid).trans hst, List.prefix_refl _⟩

theorem of_aside {e e' : Endpoint} (h : Aside e e') : Retains e e' := by
  intro st hst
  have hmem : connectId ∈ e'.streams.keys := h.keys ▸ Table.mem_keys_of_get hst
  obtain ⟨st', hst'⟩ := Table.exists_get_of_mem_keys hmem
  obtain ⟨st0, hst0, hq⟩ := h.connect st' hst'
  obtain rfl : st = st0 := Option.some.inj (hst.symm.trans hst0)
  refine ⟨st', hst', ?_⟩
  clear hst hst' hst0
  induction hq with
  | refl => exact List.prefix_refl _
  | push body _ ih | finish body _ ih => exact ih.trans (List.prefix_append _ _)

theorem touch (e : Endpoint) (id : Nat) : Retains e (e.touch id) := by
  intro st hst
  refine ⟨st, ?_, List.prefix_refl _⟩
  unfold Endpoint.touch
  split
  · exact hst
  next hno =>
    by_cases hid : connectId = id
    · subst hid
      simp [Table.contains, hst] at hno
    · exact (Table.get_insert_ne hid).trans hst

theorem onEstablished (e : Endpoint) : Retains e e.onEstablished := by
  have hlocal : ∀ (s : Endpoint) {id : Nat} (bytes : Bytes), id ∈ controlIds e.cfg.isServer →
      Retains s (s.insertLocal id bytes) :=
    fun s id bytes hid => away (Table.get_insert_ne (controlIds_ne_connectId hid).symm)
  unfold Endpoint.onEstablished
  split
  · exact refl e
  · have hcontrol : controlId e.cfg.isServer ∈ controlIds e.cfg.isServer := by simp [controlIds]
    have henc : qpackEncId e.cfg.isServer ∈ controlIds e.cfg.isServer := by simp [controlIds]
    have hdec : qpackDecId e.cfg.isServer ∈ controlIds e.cfg.isServer := by simp [controlIds]
    have h1 : Retains e { e with setupSent := true } := away rfl
    have h4 := ((h1.trans (hlocal _ H3.controlStreamPrefix hcontrol)).trans
      (hlocal _ (H3.putVarint H3.qpackEncoderStreamType) henc)).trans
      (hlocal _ (H3.putVarint H3.qpackDecoderStreamType) hdec)
    simp only
    split
    · exact h4
    · exact h4.trans (away rfl)

theorem allocateStream {e : Endpoint} (hl : e.Layout) (bidi : Bool) (requestId : Nat) :
    Retains e (e.allocateStream bidi requestId) := by
  have hne := (hl.nextId_new bidi).2.1.symm
  cases bidi with
  | false => exact away (Table.get_insert_ne (t := e.streams) hne)
  | true => exact away (Table.get_insert_ne (t := e.streams) hne)

theorem releasePendingOpens {e : Endpoint} (hl : e.Layout) : Retains e e.releasePendingOpens := by
  have hfold : ∀ (l : List (Bool × Nat)) (s : Endpoint), s.Layout → Retains e s →
      Retains e (l.foldl releaseOpen s) := by
    intro l
    induction l with
    | nil => exact fun _ _ h => h
    | cons request l ih =>
        intro s hs h
        rw [List.foldl_cons]
        unfold releaseOpen
        split
        · exact ih _ (hs.same (.session rfl rfl rfl rfl rfl rfl rfl rfl rfl)) h
        · exact ih _ (hs.allocateStream _ _) (h.trans (allocateStream hs _ _))
  unfold Endpoint.releasePendingOpens
  split
  · exact refl e
  · exact hfold _ _ (hl.same (.session rfl rfl rfl rfl rfl rfl rfl rfl rfl)) (away rfl)

theorem dropQueue (e : Endpoint) {id : Nat} (hid : connectId ≠ id) : Retains e (e.dropQueue id) := by
  unfold Endpoint.dropQueue
  split
  · exact refl e
  · exact away (Table.get_modify_ne hid)

theorem reconcileSendFinalSize (e : Endpoint) (id : Nat) : Retains e (e.reconcileSendFinalSize id) := by
  unfold Endpoint.reconcileSendFinalSize
  split
  · simp only
    split
    · exact modify e id fun _ => List.prefix_refl _
    · exact refl e
  · exact refl e

theorem streamReset (e : Endpoint) {id : Nat} (hid : connectId ≠ id) (code : Nat) :
    Retains e (e.streamReset id code) := by
  unfold Endpoint.streamReset
  split
  · refine .trans ?_ (modify _ id fun _ => List.prefix_refl _)
    refine .trans ?_ (dropQueue _ hid)
    refine .trans ?_ (reconcileSendFinalSize _ id)
    exact away rfl
  · exact refl e

theorem markClosed (e : Endpoint) (code : Nat) (reason : Bytes) (remote : Bool) :
    Retains e (e.markClosed code reason remote) := by
  cases hc : e.closed with
  | true =>
      rw [Endpoint.markClosed, if_pos hc]
      exact refl e
  | false =>
      intro st hst
      refine ⟨st.dead, ?_, List.prefix_refl _⟩
      rw [markClosed_streams hc, Table.get_map, hst, Option.map_some]

theorem prune (e : Endpoint) : Retains e e.prune := by
  refine away ?_
  simp only [Endpoint.prune, Table.get_filter]
  cases e.streams.get connectId <;> simp [retains]

theorem flushStream (e : Endpoint) {id : Nat} (hid : connectId ≠ id) :
    Retains e (e.flushStream id) :=
  flushStream_invariant (I := fun s => Retains e s)
    (fun _ _ hs h => h.trans (away (hs.get_ne hid))) (refl e)

end Retains

section

variable [H3.Codec] {r : Nat} {e e' : Endpoint}

/-- The CONNECT stream is inserted once. -/
theorem Gated.connected (hg : e.Gated) (hl : e.Layout) (h : e.streams.get connectId ≠ none) :
    e.connectPending = false := by
  cases hserver : e.cfg.isServer with
  | false =>
      have hdone : e.connectDone ≠ none := by simpa [connectDone] using h
      exact (hg.queued (hg.entry hserver hdone)).2.1
  | true => exact hl.idle hserver

theorem Effect.retains (h : Effect r e e') (hl : e.Layout) (hg : e.Gated) : Retains e e' := by
  intro st hst
  have hrole : e.roleOf connectId = some .connect := by
    simp [Endpoint.roleOf, hst, hl.connectRole st hst]
  obtain ⟨st', hst'⟩ := Option.isSome_iff_exists.mp (h.get_isSome hrole ⟨by simp, by simp⟩)
  rcases h.entry hst' with ⟨st0, hst0, heff⟩ | ⟨-, -, hpending, -⟩
  · obtain rfl : st = st0 := Option.some.inj (hst.symm.trans hst0)
    obtain ⟨more, hmore, -⟩ := heff.out
    exact ⟨st', hst', more, hmore.symm⟩
  · rw [hg.connected hl (by simp [hst])] at hpending
    cases hpending

/-- A read drops nothing, and announces nothing. -/
theorem readStep_keeps {e : Endpoint} (hl : e.Layout) (hg : e.Gated) (he : e.closed = false) (id : Nat)
    (backpressured : Bool) : Steady e (readStep id backpressured e).1 ∧
      Retains e (readStep id backpressured e).1 := by
  rcases readStep_effects (hl.readable he) hl.wellFormed (hl.alive_of_readable he id) backpressured
    with heq | ⟨cap, heff⟩
  · rw [heq]
    exact ⟨.of_flow rfl, .refl e⟩
  · have hspec := Quic.Connection.streamRecv_spec e.conn id cap
    have hl0 : Layout { e with conn := (e.conn.streamRecv id cap).2 } :=
      hl.same (.conn e hspec.isServer hspec.wellFormed hspec.phase fun hwf _ => hspec.exhausted hwf)
    have hg0 : Gated { e with conn := (e.conn.streamRecv id cap).2 } :=
      gated_whole.quiet (e := e) (.of_eq rfl rfl rfl rfl ⟨rfl, rfl, rfl⟩ rfl rfl) hg
    exact (heff.invariant (I := fun s => (s.Layout ∧ s.Gated) ∧ Steady e s ∧ Retains e s)
      (fun _ _ hs h => ⟨gated_whole.effects hs h.1, h.2.1.trans (hs.steady h.1.1),
        h.2.2.trans (hs.retains h.1.1 h.1.2)⟩) ⟨⟨hl0, hg0⟩, .of_flow rfl, .away rfl⟩).2

/-- What a step other than a read or a signal leaves alone. -/
theorem step_flow (e : Endpoint) {s : Step} (hread : ∀ id backpressured, s ≠ .read id backpressured)
    (hne : s ≠ .signalFlowControlBlocked) : (e.step s).flow = e.flow := by
  cases s with
  | read id backpressured => exact absurd rfl (hread id backpressured)
  | signalFlowControlBlocked => exact absurd rfl hne
  | onEstablished => exact flow_onEstablished e
  | touch id => exact flow_touch e id
  | onDatagrams => exact flow_onDatagrams e
  | sendDatagram | streamFin | setPaused | commitSent | prune | network => rfl
  | openStream bidi requestId => exact flow_openStream e bidi requestId
  | streamWrite id data requestId => exact flow_streamWrite e id data requestId
  | streamReset id code => exact flow_streamReset e id code
  | streamStopSending id code => exact flow_streamStopSending e id code
  | close code reason => exact flow_close e code reason
  | sendDrain => exact flow_sendDrain e
  | takeTerminalError => exact flow_takeTerminalError e
  | grantCredit => exact flow_grantCredit e
  | replenish => exact flow_replenish e
  | queueClose => exact flow_queueClose e
  | releasePendingOpens => exact flow_releasePendingOpens e
  | flushStream id => exact flow_flushStream e id
  | gracefulClose => exact flow_gracefulClose e
  | markClosed code reason remote => exact flow_markClosed e code reason remote

/-- Only `signal_flow_control_blocked` announces a limit. -/
theorem step_steady {e : Endpoint} (hl : e.Layout) (hg : e.Gated) {s : Step} (hs : e.StepAdmissible s)
    (hne : s ≠ .signalFlowControlBlocked) : Steady e (e.step s) := by
  by_cases hread : ∃ id backpressured, s = .read id backpressured
  · obtain ⟨id, backpressured, rfl⟩ := hread
    exact (readStep_keeps hl hg hs id backpressured).1
  · exact .of_flow (step_flow e (fun id backpressured heq => hread ⟨id, backpressured, heq⟩) hne)

/-- Only the send loop takes anything off the queue. -/
theorem step_retains {e : Endpoint} (hl : e.Layout) (hg : e.Gated) {s : Step} (hs : e.StepAdmissible s)
    (hne : s ≠ .flushStream connectId) : Retains e (e.step s) := by
  cases s with
  | read id backpressured => exact (readStep_keeps hl hg hs id backpressured).2
  | flushStream id => exact .flushStream e fun hid => hne (hid ▸ rfl)
  | onEstablished => exact .onEstablished e
  | touch id => exact .touch e id
  | onDatagrams => exact .of_aside (.onDatagrams e)
  | sendDatagram data requestId => exact .of_aside (.sendDatagram e data requestId)
  | openStream bidi requestId =>
      have hl0 : Layout { e with pendingOpens := e.pendingOpens ++ [(bidi, requestId)] } :=
        hl.same (.session rfl rfl rfl rfl rfl rfl rfl rfl rfl)
      exact (Retains.away rfl).trans (.releasePendingOpens hl0)
  | streamWrite id data requestId =>
      have h0 : Retains e (e.log (.written id data requestId)) := .away rfl
      show Retains e (e.streamWrite id data requestId)
      unfold streamWrite
      simp only
      split
      · exact h0.trans (.modify _ id fun st => List.prefix_append _ _)
      · exact .away rfl
  | streamFin id => exact .modify e id fun _ => List.prefix_refl _
  | streamReset id code => exact .streamReset e (hl.surfaced_ne hs.surfaced).symm code
  | streamStopSending id code =>
      have h0 : Retains e (e.shutdownRead id (H3.webtransportCodeToHttpCode code)) := .away rfl
      show Retains e (e.streamStopSending id code)
      unfold streamStopSending
      split
      · exact h0.trans (.modify _ id fun _ => List.prefix_refl _)
      · exact .refl e
  | setPaused id paused => exact .modify e id fun _ => List.prefix_refl _
  | close code reason => exact .of_aside (.close e code reason)
  | sendDrain => exact .of_aside (.sendDrain e)
  | takeTerminalError => exact .of_aside (.takeTerminalError e)
  | grantCredit => exact .of_aside (.grantCredit e)
  | replenish => exact .of_aside (.replenish e)
  | queueClose => exact .of_aside (.queueClose e)
  | releasePendingOpens => exact .releasePendingOpens hl
  | commitSent => exact .away rfl
  | signalFlowControlBlocked => exact .of_aside (.signalFlowControlBlocked e)
  | prune => exact .prune e
  | gracefulClose => exact .of_aside (.gracefulClose e)
  | markClosed code reason remote => exact .markClosed e code reason remote
  | network event => exact .away rfl

end

/-! ## What becomes of a signal -/

section

variable {e e' : Endpoint}

/-- A BLOCKED capsule was handed to quiche. -/
def Handed (e : Endpoint) (k : Limit) (value : Nat) : Prop :=
  blockedFrame k value <:+: (e.conn.streams connectId).send.data

/-- A BLOCKED capsule waits on the CONNECT stream. -/
def Waiting (e : Endpoint) (k : Limit) (value : Nat) : Prop :=
  ∃ st ∈ e.streams.get connectId, ∃ c ∈ st.out, c.data = blockedFrame k value

/-- What was announced last was handed over or waits, and of the queue of the
CONNECT stream only the first chunk was begun. -/
structure Carries (e : Endpoint) : Prop where
  whole : ∀ st, e.streams.get connectId = some st → ∀ c ∈ st.out.tail, c.off = 0
  taken : ∀ st, e.streams.get connectId = some st → ∀ front ∈ st.out.head?,
    front.data.take front.off <:+ (e.conn.streams connectId).send.data
  signals : ∀ k value, e.announcedAt k = some value → e.Handed k value ∨ e.Waiting k value

/-- Something was queued behind what is there, and perhaps announced. -/
theorem Carries.kept (h : e.Carries) (hr : Retains e e')
    (hdata : (e'.conn.streams connectId).send.data = (e.conn.streams connectId).send.data)
    (hentry : ∀ st', e'.streams.get connectId = some st' → ∃ old more, st'.out = old ++ more ∧
      (old = [] ∨ ∃ st, e.streams.get connectId = some st ∧ old = st.out) ∧ ∀ c ∈ more, c.off = 0)
    (hmarks : ∀ k value, e'.announcedAt k = some value →
      e.announcedAt k = some value ∨ e'.Waiting k value) : e'.Carries where
  whole st' hst' c hc := by
    obtain ⟨old, more, hout, hold, hfresh⟩ := hentry st' hst'
    rw [hout] at hc
    cases old with
    | nil => exact hfresh c (List.mem_of_mem_tail hc)
    | cons front rest =>
        obtain hnil | ⟨st, hst, hst'⟩ := hold
        · cases hnil
        · rcases List.mem_append.mp hc with hc | hc
          · exact h.whole st hst c (by simpa [← hst'] using hc)
          · exact hfresh c hc
  taken st' hst' front hf := by
    obtain ⟨old, more, hout, hold, hfresh⟩ := hentry st' hst'
    rw [hdata]
    cases old with
    | nil =>
        have hmem : front ∈ more := List.mem_of_mem_head? (by simpa [hout] using hf)
        simp [hfresh front hmem]
    | cons first rest =>
        obtain hnil | ⟨st, hst, hst'⟩ := hold
        · cases hnil
        · exact h.taken st hst front (by simpa [hout, ← hst'] using hf)
  signals k value hat := by
    rcases hmarks k value hat with hat | hwait
    · rcases h.signals k value hat with hhanded | ⟨st, hst, c, hc, hcd⟩
      · exact .inl (by rwa [Handed, hdata])
      · obtain ⟨st', hst', hout⟩ := hr st hst
        exact .inr ⟨st', hst', c, hout.subset hc, hcd⟩
    · exact .inr hwait

/-- The CONNECT stream is as before. -/
theorem Carries.away (h : e.Carries) (hget : e'.streams.get connectId = e.streams.get connectId)
    (hdata : (e'.conn.streams connectId).send.data = (e.conn.streams connectId).send.data)
    (hmarks : ∀ k, e'.announcedAt k = e.announcedAt k) : e'.Carries :=
  h.kept (.away hget) hdata
    (fun st' hst' => ⟨st'.out, [], by simp, .inr ⟨st', hget ▸ hst', rfl⟩, by simp⟩)
    fun k _ hat => .inl ((hmarks k).symm.trans hat)

theorem Carries.unsent (h : e.Carries) (hu : Unsent e e') (hr : Retains e e')
    (hmarks : ∀ k, e'.announcedAt k = e.announcedAt k) : e'.Carries := by
  refine h.kept hr (hu.data connectId) (fun st' hst' => ?_)
    fun k _ hat => .inl ((hmarks k).symm.trans hat)
  obtain ⟨old, more, hout, hold, hfresh⟩ := hu.entry connectId st' hst'
  exact ⟨old, more, hout, hold, fun c hc => (hfresh c hc).1⟩

theorem announce_mark (e : Endpoint) (k k' : Limit) :
    (e.announce k).announcedAt k' = if k' = k then some (e.limit k) else e.announcedAt k' := by
  rcases k with _ | _ | _
  all_goals rcases k' with _ | _ | _ <;> rfl

theorem announce_get (e : Endpoint) (k : Limit) : (e.announce k).streams.get connectId =
    (e.streams.get connectId).map fun st => st.push (blockedFrame k (e.limit k)) none := by
  rcases k with _ | _ | _
  all_goals exact Table.get_modify_self _ _ _

theorem announce_same (e : Endpoint) (k : Limit) : (e.announce k).conn = e.conn ∧
    (e.announce k).limit = e.limit ∧ (e.announce k).peerSettings = e.peerSettings := by
  rcases k with _ | _ | _
  all_goals exact ⟨rfl, rfl, rfl⟩

/-- Where there is a CONNECT stream, a capsule that is announced waits on it. -/
theorem Carries.announce (h : e.Carries) {st : Stream} (hst : e.streams.get connectId = some st)
    (k : Limit) : (e.announce k).Carries := by
  have hget : (e.announce k).streams.get connectId =
      some (st.push (blockedFrame k (e.limit k)) none) := by rw [announce_get, hst, Option.map_some]
  refine h.kept (fun st0 hst0 => ?_) (by rw [(announce_same e k).1]) (fun st' hst' => ?_)
    fun k' value hat => ?_
  · obtain rfl : st = st0 := Option.some.inj (hst.symm.trans hst0)
    exact ⟨_, hget, List.prefix_append _ _⟩
  · obtain rfl := Option.some.inj (hget.symm.trans hst')
    exact ⟨st.out, [⟨blockedFrame k (e.limit k), 0, none⟩], rfl, .inr ⟨st, hst, rfl⟩, by simp⟩
  · rw [announce_mark] at hat
    split at hat
    next hk =>
      obtain rfl := Option.some.inj hat
      exact .inr ⟨_, hget, ⟨blockedFrame k (e.limit k), 0, none⟩, by simp [Stream.push], by rw [hk]⟩
    · exact .inl hat

theorem Carries.signal (h : e.Carries)
    (hc : e.streams.get connectId ≠ none ∨ e.signals = []) : e.signalFlowControlBlocked.Carries := by
  rw [signalFlowControlBlocked_eq]
  rcases hc with hc | hnil
  · have hfold : ∀ (l : List Limit) (s : Endpoint), s.streams.get connectId ≠ none → s.Carries →
        (l.foldl Endpoint.announce s).Carries := by
      intro l
      induction l with
      | nil => exact fun _ _ hs => hs
      | cons k l ih =>
          intro s hsome hs
          obtain ⟨st, hst⟩ := Option.ne_none_iff_exists'.mp hsome
          refine ih _ ?_ (hs.announce hst k)
          simp [announce_get, hst]
    exact hfold _ _ hc h
  · rw [hnil]
    exact h

/-- What a step must avoid: a flush that learns that the peer stopped the CONNECT
stream while a BLOCKED capsule waits on it. -/
def KeepsSignals (e : Endpoint) : Step → Prop
  | .flushStream id => id = connectId → e.Reported id →
      ∀ k ∈ limits, ∀ value ∈ e.announcedAt k, ¬e.Waiting k value
  | _ => True

/-- No BLOCKED capsule waits. -/
def Unsignalled (e : Endpoint) : Prop := ∀ k value, e.announcedAt k = some value → ¬e.Waiting k value

theorem Sending.announcedAt {id : Nat} (h : Sending id e e') (k : Limit) :
    e'.announcedAt k = e.announcedAt k := by
  cases h with
  | returned | refused | sent | stopped | fin => cases k <;> rfl

/-- The send loop takes chunks off the queue. -/
theorem Sending.waiting (h : Sending connectId e e') {k : Limit} {value : Nat}
    (hw : e'.Waiting k value) : e.Waiting k value := by
  obtain ⟨st', hst', c, hc, hcd⟩ := hw
  have hmod : ∀ {f : Stream → Stream}, (e.streams.modify connectId f).get connectId = some st' →
      (∀ st, (f st).out = st.out ∨ (f st).out = []) → e.Waiting k value := by
    intro f hg hf
    rw [Table.get_modify_self] at hg
    obtain ⟨st, hst, rfl⟩ := Option.map_eq_some_iff.mp hg
    rcases hf st with hout | hout
    · exact ⟨st, hst, c, hout ▸ hc, hcd⟩
    · rw [hout] at hc
      cases hc
  cases h with
  | returned => exact hmod hst' fun _ => .inl rfl
  | refused => exact ⟨st', hst', c, hc, hcd⟩
  | @sent st front rest n conn hst hout =>
      rcases advance_get hst' with ⟨-, hout'⟩ | ⟨hne, -⟩
      · rw [hout'] at hc
        split at hc
        · exact ⟨st, hst, c, hout ▸ List.mem_cons_of_mem _ hc, hcd⟩
        · rcases List.mem_cons.mp hc with rfl | hc
          · exact ⟨st, hst, front, hout ▸ List.mem_cons_self, hcd⟩
          · exact ⟨st, hst, c, hout ▸ List.mem_cons_of_mem _ hc, hcd⟩
      · exact absurd rfl hne
  | stopped => exact hmod hst' fun _ => .inr rfl
  | fin => exact hmod hst' fun _ => .inl rfl

theorem Carries.advance (h : e.Carries) (hwf : e.conn.WellFormed) {st : Stream} {front : OutChunk}
    {rest : List OutChunk} {n amount : Nat} {c : Quic.Connection}
    (hst : e.streams.get connectId = some st) (hout : st.out = front :: rest)
    (hs : Send e.conn connectId ((front.data.drop front.off).take amount) false (.ok n) c)
    (payload : Bool) :
    (({ e with conn := c } : Endpoint).advance connectId front rest payload n).Carries := by
  have hdata := sent_data (fun i => (hwf i).absent) hs
  have hwhole : ∀ c' ∈ rest, c'.off = 0 := fun c' hc' => h.whole st hst c' (by simpa [hout] using hc')
  obtain ⟨a, ha⟩ := h.taken st hst front (by simp [hout])
  -- what was taken of the first chunk so far
  have htaken : (c.streams connectId).send.data = a ++ front.data.take (front.off + n) := by
    rw [hdata, ← ha, List.append_assoc, ← List.take_add]
  have hget : ∀ {st'}, (({ e with conn := c } : Endpoint).advance connectId front rest payload n).streams.get
      connectId = some st' → st'.out = if front.data.length ≤ front.off + n then rest else
        { front with off := front.off + n } :: rest := by
    intro st' hst'
    rcases advance_get hst' with ⟨-, hout'⟩ | ⟨hne, -⟩
    · exact hout'
    · exact absurd rfl hne
  refine ⟨fun st' hst' c' hc' => ?_, fun st' hst' next hn => ?_, fun k value hat => ?_⟩
  · rw [hget hst'] at hc'
    split at hc'
    · exact hwhole c' (List.mem_of_mem_tail hc')
    · exact hwhole c' hc'
  · show _ <:+ (c.streams connectId).send.data
    rw [hget hst'] at hn
    split at hn
    · simp [hwhole next (List.mem_of_mem_head? hn)]
    · obtain rfl : { front with off := front.off + n } = next := by simpa using hn
      exact ⟨a, htaken.symm⟩
  · have hat : e.announcedAt k = some value := by
      rw [← hat]
      cases k <;> rfl
    rcases h.signals k value hat with hhanded | ⟨st0, hst0, chunk, hchunk, hcd⟩
    · refine .inl ?_
      show _ <:+: (c.streams connectId).send.data
      rw [hdata]
      exact hhanded.trans (List.infix_append [] _ _)
    · obtain rfl : st = st0 := Option.some.inj (hst.symm.trans hst0)
      have hnew : (({ e with conn := c } : Endpoint).advance connectId front rest payload n).streams.get
          connectId = some { st with
            sendPayload := if payload then st.sendPayload + n else st.sendPayload
            out := if decide (front.data.length ≤ front.off + n) then rest else
              { front with off := front.off + n } :: rest } := by
        simp [Endpoint.advance, hst]
      rw [hout] at hchunk
      by_cases hdone : front.data.length ≤ front.off + n
      · rcases List.mem_cons.mp hchunk with rfl | hchunk
        · rw [List.take_of_length_le hdone] at htaken
          refine .inl ⟨a, [], ?_⟩
          show _ = (c.streams connectId).send.data
          rw [htaken, ← hcd, List.append_nil]
        · exact .inr ⟨_, hnew, chunk, by simpa [hdone] using hchunk, hcd⟩
      · rcases List.mem_cons.mp hchunk with rfl | hchunk
        · exact .inr ⟨_, hnew, { chunk with off := chunk.off + n }, by simp [hdone], hcd⟩
        · exact .inr ⟨_, hnew, chunk, by simp [hdone, hchunk], hcd⟩

/-- The send loop on the CONNECT stream hands over what waits, or there is nothing
that a stop could drop. -/
theorem Sending.carries (h : Sending connectId e e') (hwf : e.conn.WellFormed) (hc : e.Carries)
    (hkeep : ¬e.Reported connectId ∨ e.Unsignalled) :
    e'.Carries ∧ (¬e'.Reported connectId ∨ e'.Unsignalled) ∧ e'.conn.WellFormed := by
  have hmarks := h.announcedAt
  have hquiet : e.Unsignalled → e'.Unsignalled := fun hu k value hat hw =>
    hu k value ((hmarks k).symm.trans hat) (h.waiting hw)
  have hsame : ∀ {bytes : Bytes} {fin : Bool} {res : Except Quic.Error Nat} {c : Quic.Connection},
      Send e.conn connectId bytes fin res c → (bytes = [] ∨ ∃ err, res = .error err) →
      Unsent e { e with conn := c } := fun hs hres => .send (fun i => (hwf i).absent) hs hres
  have hreported : ∀ {bytes : Bytes} {fin : Bool} {res : Except Quic.Error Nat} {c : Quic.Connection},
      Send e.conn connectId bytes fin res c → ¬e.Reported connectId →
      ¬Reported { e with conn := c } connectId := fun hs hno hr => hno (reported_of_send hs hr)
  cases h with
  | @returned st finalSize hst =>
      refine ⟨hc.unsent (.trans (b := e.modifyStream connectId fun st =>
        { st with sendPayload := finalSize - st.sendPrefix }) (.modify e connectId fun _ => .inl rfl) ?_)
        (.modify e connectId fun _ => List.prefix_refl _) hmarks, hkeep.imp_right hquiet, hwf⟩
      exact .of_queues (l := []) (List.append_nil _).symm (by simp) (m := [_]) rfl
        (by simp [Trace.isWrite]) (fun _ => rfl) fun _ st' hg => ⟨st', hg, .inl rfl⟩
  | @refused st bytes fin err c hst hs =>
      exact ⟨hc.unsent (hsame hs (.inr ⟨err, rfl⟩)) (.away rfl) hmarks,
        hkeep.imp (hreported hs) hquiet, hs.wellFormed hwf⟩
  | @sent st front rest n c hst hout _ hs =>
      exact ⟨hc.advance hwf hst hout hs _, hkeep.imp (hreported hs) hquiet, hs.wellFormed hwf⟩
  | @stopped st bytes code c hst hout hs =>
      have hu : e.Unsignalled := by
        refine hkeep.resolve_left fun hno => hno ?_
        cases hs with
        | refused hne => exact absurd rfl (hne code)
        | blocked hne => exact absurd rfl (hne code)
        | stopped cond hp hsend hcode => exact (reported_iff _ _).mpr ⟨hp, hsend, by simp [hcode]⟩
      have hempty : ∀ st', (({ e with conn := c } : Endpoint).surfaceStop connectId code st.out).streams.get
          connectId = some st' → st'.out = [] := by
        intro st' hst'
        simp only [Endpoint.surfaceStop, Table.get_modify_self] at hst'
        obtain ⟨st0, -, rfl⟩ := Option.map_eq_some_iff.mp hst'
        rfl
      refine ⟨⟨fun st' hst' c' hc' => ?_, fun st' hst' front hf => ?_, fun k value hat => .inl ?_⟩,
        .inr (hquiet hu), hs.wellFormed hwf⟩
      · simp [hempty st' hst'] at hc'
      · simp [hempty st' hst'] at hf
      · have hat := (hmarks k).symm.trans hat
        have hhanded := (hc.signals k value hat).resolve_right (hu k value hat)
        show _ <:+: (c.streams connectId).send.data
        rwa [(hsame hs (.inr ⟨_, rfl⟩)).data connectId]
  | @fin st n c hst hout hq hns hs =>
      exact ⟨hc.unsent ((hsame hs (.inl rfl)).trans (.modify _ connectId fun _ => .inl rfl))
        (.modify e connectId fun _ => List.prefix_refl _) hmarks,
        hkeep.imp (hreported hs) hquiet, hs.wellFormed hwf⟩

theorem Carries.flushStream (h : e.Carries) (hwf : e.conn.WellFormed)
    (hk : e.KeepsSignals (.flushStream connectId)) : (e.flushStream connectId).Carries := by
  have hkeep : ¬e.Reported connectId ∨ e.Unsignalled := by
    by_cases hrep : e.Reported connectId
    · exact .inr fun k value hat => hk rfl hrep k (mem_limits k) value hat
    · exact .inl hrep
  exact (flushStream_invariant
    (I := fun s => s.Carries ∧ (¬s.Reported connectId ∨ s.Unsignalled) ∧ s.conn.WellFormed)
    (fun _ _ hs hI => hs.carries hI.2.2 hI.1 hI.2.1) ⟨h, hkeep, hwf⟩).1

/-- The send loop on another stream. -/
theorem flushStream_away {id : Nat} (hid : connectId ≠ id) :
    (e.flushStream id).streams.get connectId = e.streams.get connectId ∧
      (e.flushStream id).conn.streams connectId = e.conn.streams connectId :=
  flushStream_invariant (I := fun s => s.streams.get connectId = e.streams.get connectId ∧
      s.conn.streams connectId = e.conn.streams connectId)
    (fun _ _ hs h => ⟨(hs.get_ne hid).trans h.1, (hs.conn_ne hid).trans h.2⟩) ⟨rfl, rfl⟩

/-- What may be announced where there is no CONNECT stream: nothing. -/
def Announces (e : Endpoint) : Step → Prop
  | .signalFlowControlBlocked => e.streams.get connectId ≠ none ∨ e.signals = []
  | _ => True

theorem Start.carries (h : Start e) : e.Carries := by
  have hempty : e.streams = .empty ∧ ∀ k, e.announcedAt k = none := by
    cases h with
    | client | server => exact ⟨rfl, fun k => by rcases k with _ | _ | _ <;> rfl⟩
  obtain ⟨hstreams, hmarks⟩ := hempty
  exact ⟨by simp [hstreams], by simp [hstreams], by simp [hmarks]⟩

end

section

variable [H3.Codec] {e e' : Endpoint}

theorem Carries.step (h : e.Carries) (hl : e.Layout) (hg : e.Gated) {s : Step} (hs : e.StepAdmissible s)
    (hk : e.KeepsSignals s) (ha : e.Announces s) : (e.step s).Carries := by
  cases hsends : Step.sends s with
  | false =>
      by_cases hsignal : s = .signalFlowControlBlocked
      · subst hsignal
        exact h.signal ha
      · refine h.unsent (step_unsent hl hs hsends) (step_retains hl hg hs ?_)
          (step_steady hl hg hs hsignal).marks
        rintro rfl
        cases hsends
  | true =>
      cases s with
      | streamWrite id data requestId =>
          have hid := (hl.surfaced_ne (hs : e.Writable id).surfaced).symm
          have hmarks := (Steady.of_flow (flow_streamWrite e id data requestId)).marks
          refine h.away ?_ ?_ hmarks
          all_goals
            simp only [Endpoint.step, streamWrite]
            split
          · exact Table.get_modify_ne hid
          · rfl
          · rfl
          · rfl
      | flushStream id =>
          by_cases hid : connectId = id
          · subst hid
            exact h.flushStream hl.wellFormed hk
          · obtain ⟨hget, hconn⟩ := flushStream_away (e := e) hid
            exact h.away hget (congrArg (fun s => s.send.data) hconn)
              (Steady.of_flow (flow_flushStream e id)).marks
      | _ => cases hsends

/-! ## Flushes -/

/-- The state of a flush behind its send loop. -/
def beforeSignals (order : HashOrder) (e : Endpoint) : Endpoint :=
  ((flushIds order e).foldl flushStream (execute step e flushHead)).commitSent

omit [H3.Codec] in
/-- The bytes that the send loop has to offer on the CONNECT stream. -/
def offered (e : Endpoint) : Bytes :=
  ((e.streams.get connectId).map fun st => st.out.flatMap fun c => c.data.drop c.off).getD []

/-- In this flush, quiche accepts every byte offered on the CONNECT stream. -/
def Accepts (order : HashOrder) (e : Endpoint) : Prop :=
  ((e.beforeSignals order).conn.streams connectId).send.data =
    ((execute step e flushHead).conn.streams connectId).send.data ++ (execute step e flushHead).offered

/-- After the flush, a limit that holds something back was announced, and the
capsule was handed over. -/
def Signalled (order : HashOrder) (e : Endpoint) : Prop :=
  (e.call (.flush order)).closed = false → (e.call (.flush order)).usesSessionFlowControl = true →
    Accepts order e → ∀ k, (e.call (.flush order)).HeldBack k →
      (e.call (.flush order)).Handed k ((e.call (.flush order)).limit k)

/-- A flush in which quiche accepts every byte offered on the CONNECT stream
comes upon no limit that is yet to be announced. -/
def Prompt (e : Endpoint) : Call → Prop
  | .flush order => Accepts order e → (e.beforeSignals order).signals = []
  | _ => True

theorem flush_eq (order : HashOrder) (e : Endpoint) : e.call (.flush order) =
    (e.beforeSignals order).signalFlowControlBlocked.prune.gracefulClose := rfl

omit [H3.Codec] in
theorem foldl_flushStream {I : Endpoint → Prop} (hI : ∀ s id, I s → I (s.flushStream id)) :
    ∀ (ids : List Nat) {s : Endpoint}, I s → I (ids.foldl Endpoint.flushStream s)
  | [], _, hs => hs
  | id :: ids, _, hs => foldl_flushStream hI ids (hI _ id hs)

theorem beforeSignals_flow (order : HashOrder) (e : Endpoint) :
    (e.beforeSignals order).flow = (execute step e flushHead).flow :=
  foldl_flushStream (I := fun s => s.flow = (execute step e flushHead).flow)
    (fun s id hs => (flow_flushStream s id).trans hs) _ rfl

/-- Without a CONNECT stream, the send loop offers nothing on it. -/
theorem accepts_of_absent {order : HashOrder} (h : (e.beforeSignals order).streams.get connectId = none) :
    e.Accepts order := by
  have hkeys : (e.beforeSignals order).streams.keys = (execute step e flushHead).streams.keys :=
    foldl_flushStream (I := fun s => s.streams.keys = (execute step e flushHead).streams.keys)
      (fun s id hs => (flushStream_keys s id).trans hs) _ rfl
  have hnone : (execute step e flushHead).streams.get connectId = none := by
    cases hget : (execute step e flushHead).streams.get connectId with
    | none => rfl
    | some st =>
        have hmem := Table.mem_keys_of_get hget
        rw [← hkeys] at hmem
        obtain ⟨st', hst'⟩ := Table.exists_get_of_mem_keys hmem
        rw [h] at hst'
        cases hst'
  have hdata : ((e.beforeSignals order).conn.streams connectId).send.data =
      ((execute step e flushHead).conn.streams connectId).send.data := by
    refine (foldl_flushStream (I := fun s => s.streams.get connectId = none ∧
      (s.conn.streams connectId).send.data =
        ((execute step e flushHead).conn.streams connectId).send.data)
      (fun s id hs => ?_) _ ⟨hnone, rfl⟩).2
    by_cases hid : connectId = id
    · subst hid
      refine flushStream_invariant (I := fun t => t.streams.get connectId = none ∧
        (t.conn.streams connectId).send.data =
          ((execute step e flushHead).conn.streams connectId).send.data) ?_ hs
      rintro a b hsend ⟨ha, -⟩
      cases hsend with
      | returned hst | refused hst | sent hst | stopped hst | fin hst => simp [ha] at hst
    · obtain ⟨hget, hconn⟩ := flushStream_away (e := s) hid
      exact ⟨hget.trans hs.1, hconn ▸ hs.2⟩
  rw [Accepts, hdata]
  simp [offered, hnone]

/-- The conditions of a flush say what its steps may announce. -/
theorem announces_of_prompt {c : Call} (h : e.Prompt c) : Along step Announces e (e.steps c) := by
  have hmany : ∀ {l : List Step} {s : Endpoint}, (∀ a ∈ l, a ≠ .signalFlowControlBlocked) →
      Along step Announces s l := by
    intro l s hl
    refine along_of_forall fun a ha s => ?_
    cases a with
    | signalFlowControlBlocked => exact absurd rfl (hl _ ha)
    | _ => trivial
  cases c with
  | flush order =>
      simp only [steps]
      refine along_append.mpr ⟨hmany (by simp [flushHead]), along_append.mpr ⟨hmany (by simp), ?_⟩⟩
      refine ⟨trivial, ?_, trivial, trivial, trivial⟩
      rw [execute_flushStream]
      show (e.beforeSignals order).streams.get connectId ≠ none ∨ (e.beforeSignals order).signals = []
      by_cases hget : (e.beforeSignals order).streams.get connectId = none
      · exact .inr (h (accepts_of_absent hget))
      · exact .inl hget
  | onReadable id backpressured =>
      simp only [steps]
      split
      · trivial
      · refine hmany fun a ha => ?_
        rcases List.mem_cons.mp ha with rfl | ha
        · simp
        · split at ha
          · simp [mem_reads ha]
          · cases ha
  | _ => exact ⟨trivial, trivial⟩

/-- What a run maintains. -/
def Announcing (e : Endpoint) : Prop := (e.Layout ∧ e.Gated) ∧ e.Carries

theorem Announcing.step (h : e.Announcing) {s : Step} (hs : e.StepAdmissible s)
    (hk : e.KeepsSignals s ∧ e.Announces s) : (e.step s).Announcing :=
  ⟨⟨h.1.1.step hs, gated_whole.step h.1.1 hs h.1.2⟩, h.2.step h.1.1 h.1.2 hs hk.1 hk.2⟩

/-- The conditions on a call. -/
def Punctual (e : Endpoint) (c : Call) : Prop := e.Meets KeepsSignals c ∧ e.Prompt c

theorem Announcing.call (h : e.Announcing) {c : Call} (hc : e.Punctual c) : (e.call c).Announcing :=
  call_invariant (P := fun e s => e.KeepsSignals s ∧ e.Announces s) (fun _ _ hI hs hk => hI.step hs hk) h
    ⟨hc.1.1, along_and hc.1.2 (announces_of_prompt hc.2)⟩

omit [H3.Codec] in
/-- What waits is among what is offered. -/
theorem Carries.accepted (h : e.Carries) {k : Limit} {value : Nat}
    (hat : e.announcedAt k = some value) :
    blockedFrame k value <:+: (e.conn.streams connectId).send.data ++ e.offered := by
  rcases h.signals k value hat with hhanded | ⟨st, hst, c, hc, hcd⟩
  · exact hhanded.trans (List.infix_append [] _ _)
  · have hoffered : e.offered = st.out.flatMap fun c => c.data.drop c.off := by
      simp [offered, Option.mem_def.mp hst]
    rw [hoffered, ← hcd]
    cases hout : st.out with
    | nil => simp [hout] at hc
    | cons front rest =>
        rw [hout] at hc
        rcases List.mem_cons.mp hc with rfl | hc
        · -- the capsule was begun
          obtain ⟨a, ha⟩ := h.taken st hst c (by simp [hout])
          refine ⟨a, rest.flatMap fun c => c.data.drop c.off, ?_⟩
          calc a ++ c.data ++ rest.flatMap (fun c => c.data.drop c.off)
            _ = a ++ (c.data.take c.off ++ c.data.drop c.off) ++
                rest.flatMap (fun c => c.data.drop c.off) := by rw [List.take_append_drop]
            _ = _ := by rw [← ha, List.flatMap_cons]; simp only [List.append_assoc]
        · have hoff : c.off = 0 := h.whole st hst c (by simpa [hout] using hc)
          obtain ⟨before, after, hrest⟩ := List.append_of_mem hc
          refine ⟨(e.conn.streams connectId).send.data ++ (front.data.drop front.off ++
            before.flatMap fun c => c.data.drop c.off), after.flatMap fun c => c.data.drop c.off, ?_⟩
          simp [hrest, hoff]

omit [H3.Codec] in
/-- Nothing is left to announce: what holds something back was announced. -/
theorem announced_of_signals (huses : e.usesSessionFlowControl = true) (hopen : e.closed = false)
    (h : e.signals = []) {k : Limit} (hheld : e.HeldBack k) : e.announcedAt k = some (e.limit k) := by
  by_contra hne
  rw [signals, if_pos ⟨huses, hopen⟩, List.filter_eq_nil_iff] at h
  exact h k (mem_limits k) (decide_eq_true ⟨hheld, hne⟩)

omit [H3.Codec] in
theorem gracefulClose_streams (e : Endpoint) : e.gracefulClose.streams = e.streams := by
  have harm : e.armQuicClose.streams = e.streams := by
    unfold armQuicClose
    split
    · split <;> rfl
    · rfl
  unfold gracefulClose
  split
  · rfl
  · simp only
    split_ifs <;> exact harm

omit [H3.Codec] in
/-- The end of a flush holds nothing back that was not held back before. -/
theorem heldBack_of_close {k : Limit} (h : e.prune.gracefulClose.HeldBack k) : e.HeldBack k := by
  have haside := Aside.gracefulClose e.prune
  have hidle := Idle.gracefulClose e.prune
  cases k with
  | data =>
      obtain ⟨hle, hpending⟩ := h
      refine ⟨by rwa [haside.limits.1, haside.sent.1] at hle, ?_⟩
      obtain ⟨i, st, hst, hp⟩ := Table.any_eq_true.mp hpending
      rw [gracefulClose_streams, prune, Table.get_filter, Option.filter_eq_some_iff] at hst
      exact Table.any_eq_true.mpr ⟨i, st, hst.1, hp⟩
  | streams bidi =>
      obtain ⟨hle, hpending⟩ := h
      refine ⟨?_, by rwa [hidle.pending] at hpending⟩
      rw [hidle.limits, opened, hidle.next, hidle.cfg] at hle
      exact hle

theorem Announcing.signalled (h : e.Announcing) {order : HashOrder} (hc : e.Punctual (.flush order)) :
    e.Signalled order := by
  have hhead : (execute Endpoint.step e flushHead).Announcing := by
    have hall := along_append.mp (along_and (steps_admissible hc.1.1)
      (along_and hc.1.2 (announces_of_prompt hc.2)))
    exact execute_invariant (fun _ _ hI hs => hI.step hs.1 hs.2) h hall.1
  intro hopen huses haccepts k hheld
  have hnil := hc.2 haccepts
  have hcall : e.call (.flush order) = (e.beforeSignals order).prune.gracefulClose := by
    rw [flush_eq, signalFlowControlBlocked_eq, hnil]
    rfl
  rw [hcall] at hopen huses hheld ⊢
  have haside := Aside.gracefulClose (e.beforeSignals order).prune
  have hflow : (e.beforeSignals order).prune.gracefulClose.flow = (e.beforeSignals order).flow :=
    flow_gracefulClose _
  obtain ⟨-, hrest⟩ := Prod.mk.inj hflow
  obtain ⟨hlimit, hsettings⟩ := Prod.mk.inj hrest
  have hat := announced_of_signals (e := e.beforeSignals order)
    (by rwa [WtSession.usesSessionFlowControl, ← hsettings]) (haside.closed.symm.trans hopen) hnil
    (heldBack_of_close hheld)
  rw [← congrFun hlimit k, congrFun (Prod.mk.inj (beforeSignals_flow order e)).1 k] at hat
  have hinfix := hhead.2.accepted hat
  rw [← haccepts] at hinfix
  rw [Handed, haside.conn]
  exact hinfix

/-! ## Announcements over a run -/

omit [H3.Codec] in
/-- What a step announces. -/
def announced (e : Endpoint) : Step → List (Limit × Nat)
  | .signalFlowControlBlocked => e.signals.map fun k => (k, e.limit k)
  | _ => []

/-- What the calls of a run announce, in order. -/
def announcements (e : Endpoint) (calls : List Call) : List (Limit × Nat) :=
  outputs Endpoint.call (fun e c => outputs Endpoint.step announced e (e.steps c)) e calls

omit [H3.Codec] in
theorem foldl_announce_same (l : List Limit) (e : Endpoint) :
    (l.foldl announce e).limit = e.limit ∧ (l.foldl announce e).peerSettings = e.peerSettings ∧
      ∀ k, (l.foldl announce e).announcedAt k = if k ∈ l then some (e.limit k) else e.announcedAt k := by
  induction l generalizing e with
  | nil => exact ⟨rfl, rfl, fun k => by simp⟩
  | cons k l ih =>
      obtain ⟨hlimit, hsettings, hmarks⟩ := ih (e.announce k)
      obtain ⟨-, hlimit', hsettings'⟩ := announce_same e k
      refine ⟨hlimit.trans hlimit', hsettings.trans hsettings', fun k' => ?_⟩
      rw [List.foldl_cons, hmarks, hlimit', announce_mark]
      by_cases hl : k' ∈ l
      · simp [hl]
      · by_cases hk : k' = k
        · simp [hk]
        · simp [hl, hk]

/-- The values announced for a limit have risen to the one announced last, which
the limit has reached. -/
structure Rising (l : List (Limit × Nat)) (e : Endpoint) : Prop where
  nodup : l.Nodup
  below : ∀ p ∈ l, ∃ value, e.announcedAt p.1 = some value ∧ p.2 ≤ value
  reached : ∀ k value, e.announcedAt k = some value →
    e.peerSettings.isSome = true ∧ value ≤ e.limit k

omit [H3.Codec] in
theorem Rising.steady {l : List (Limit × Nat)} (h : Rising l e) (hs : Steady e e') : Rising l e' where
  nodup := h.nodup
  below p hp := by
    rw [hs.marks]
    exact h.below p hp
  reached k value hat := by
    rw [hs.marks] at hat
    obtain ⟨hsettings, hle⟩ := h.reached k value hat
    rcases hs.limits with ⟨heq, hlimits⟩ | hnone
    · exact ⟨heq ▸ hsettings, hle.trans (hlimits k)⟩
    · simp [hnone] at hsettings

omit [H3.Codec] in
theorem mem_signals {k : Limit} (h : k ∈ e.signals) :
    e.usesSessionFlowControl = true ∧ e.announcedAt k ≠ some (e.limit k) := by
  unfold signals at h
  split at h
  next huses => exact ⟨huses.1, (of_decide_eq_true (List.mem_filter.mp h).2).2⟩
  · cases h

omit [H3.Codec] in
theorem Rising.signal {l : List (Limit × Nat)} (h : Rising l e) :
    Rising (l ++ e.signals.map fun k => (k, e.limit k)) e.signalFlowControlBlocked := by
  rw [signalFlowControlBlocked_eq]
  obtain ⟨hlimit, hsettings, hmarks⟩ := foldl_announce_same e.signals e
  have hnodup : e.signals.Nodup := by
    unfold signals
    split
    · exact List.Nodup.filter _ (by decide)
    · exact List.nodup_nil
  refine ⟨List.nodup_append.mpr ⟨h.nodup, hnodup.map fun k k' heq => (Prod.mk.inj heq).1, ?_⟩,
    fun p hp => ?_, fun k value hat => ?_⟩
  · -- a limit that was announced at this value is not announced again
    rintro p hp q hq rfl
    obtain ⟨k, hk, rfl⟩ := List.mem_map.mp hq
    obtain ⟨value, hat, hle⟩ := h.below _ hp
    refine (mem_signals hk).2 (hat.trans ?_)
    rw [le_antisymm (h.reached k value hat).2 hle]
  · rw [hmarks]
    rcases List.mem_append.mp hp with hp | hp
    · obtain ⟨value, hat, hle⟩ := h.below p hp
      split
      · exact ⟨_, rfl, hle.trans (h.reached _ _ hat).2⟩
      · exact ⟨value, hat, hle⟩
    · obtain ⟨k, hk, rfl⟩ := List.mem_map.mp hp
      rw [if_pos hk]
      exact ⟨_, rfl, le_refl _⟩
  · rw [hmarks] at hat
    rw [hsettings, hlimit]
    split at hat
    next hk =>
      obtain rfl := Option.some.inj hat
      have huses := (mem_signals hk).1
      unfold WtSession.usesSessionFlowControl at huses
      refine ⟨?_, le_refl _⟩
      cases hset : e.peerSettings with
      | none => simp [hset] at huses
      | some s => rfl
    · exact h.reached k value hat

theorem Rising.step {l : List (Limit × Nat)} (h : Rising l e) (hl : e.Layout) (hg : e.Gated) {s : Step}
    (hs : e.StepAdmissible s) : Rising (l ++ e.announced s) (e.step s) := by
  by_cases hsignal : s = .signalFlowControlBlocked
  · subst hsignal
    exact h.signal
  · have hnil : e.announced s = [] := by
      cases s with
      | signalFlowControlBlocked => exact absurd rfl hsignal
      | _ => rfl
    rw [hnil, List.append_nil]
    exact h.steady (step_steady hl hg hs hsignal)

omit [H3.Codec] in
theorem Start.rising (h : Start e) : Rising [] e := by
  have hmarks : ∀ k, e.announcedAt k = none := by
    cases h with
    | client | server => exact fun k => by rcases k with _ | _ | _ <;> rfl
  exact ⟨List.nodup_nil, by simp, by simp [hmarks]⟩

/-- In a run, each value of a limit is announced at most once. -/
theorem announcements_nodup (hstart : Start e) {calls : List Call}
    (hrun : Along Endpoint.call Admissible e calls) : (e.announcements calls).Nodup := by
  show ([] ++ outputs Endpoint.call (fun e c => outputs Endpoint.step announced e (e.steps c))
    e calls).Nodup
  refine (outputs_invariant (I := fun l e => (e.Layout ∧ e.Gated) ∧ Rising l e)
    (fun l s c hI hc => ?_) ⟨⟨hstart.layout, hstart.gated⟩, hstart.rising⟩ hrun).2.nodup
  rw [call_eq]
  exact outputs_invariant (P := StepAdmissible) (I := fun l e => (e.Layout ∧ e.Gated) ∧ Rising l e)
    (fun l s a hI ha => ⟨⟨hI.1.1.step ha, gated_whole.step hI.1.1 ha hI.1.2⟩,
      hI.2.step hI.1.1 hI.1.2 ha⟩) hI (steps_admissible hc)

/-- What holds something back was announced to the peer by the end of every
flush, and announced once, where a flush that is not held up itself comes upon
nothing new. -/
theorem blocked_signals_leave (hstart : Start e) {calls : List Call}
    (hrun : Along Endpoint.call Punctual e calls) :
    Along Endpoint.call (fun e c => ∀ order, c = .flush order → e.Signalled order) e calls ∧
      (e.announcements calls).Nodup := by
  have hbegin : e.Announcing := ⟨⟨hstart.layout, hstart.gated⟩, hstart.carries⟩
  refine ⟨along_imp (I := Announcing) (fun s c hI hc => ⟨?_, hI.call hc⟩) hbegin hrun,
    announcements_nodup hstart ?_⟩
  · rintro order rfl
    exact hI.signalled hc
  · exact along_imp (I := fun _ => True) (fun _ _ _ hc => ⟨hc.1.1, trivial⟩) trivial hrun

end

/-! ## Concrete runs -/

/-- SETTINGS that enable session flow control and grant neither data nor streams. -/
def limitedControl : Bytes :=
  H3.putVarint H3.h3ControlStreamType ++ H3.frame H3.frameSettings
    (H3.putVarint H3.settingsEnableConnectProtocol ++ H3.putVarint 1 ++
      H3.putVarint H3.settingsH3Datagram ++ H3.putVarint 1 ++
      H3.putVarint H3.settingsEnableWebtransport ++ H3.putVarint 1 ++
      H3.putVarint H3.settingsWtMaxSessions ++ H3.putVarint 1)

/-- A handshake with a client that grants nothing. -/
def limitedHandshake : List Call :=
  [.onEstablished, .network (.data 2 limitedControl), .onReadable 2 false,
    .network (.data 0 sampleRequest), .onReadable 0 false, flushOnce]

/-- An open request is blocked, and nothing else is queued. -/
def blockedRun : List Call := limitedHandshake ++ [.openStream true 1]

theorem blockedRun_admissible :
    letI := H3.Codec.plain
    Along Endpoint.call Admissible sampleServer (blockedRun ++ [flushOnce]) := by
  decide +kernel

instance (e : Endpoint) (k : Limit) (value : Nat) : Decidable (e.Handed k value) :=
  inferInstanceAs (Decidable (_ <:+: _))

instance (e : Endpoint) (k : Limit) (value : Nat) : Decidable (e.Waiting k value) :=
  decidable_of_iff ((e.streams.get connectId).any
      (fun st => st.out.any fun c => decide (c.data = blockedFrame k value)) = true) <| by
    simp only [Waiting, Option.any_eq_true, List.any_eq_true, decide_eq_true_eq, Option.mem_def]

instance (e : Endpoint) : (s : Step) → Decidable (e.KeepsSignals s)
  | .flushStream id => inferInstanceAs (Decidable (id = connectId → e.Reported id →
      ∀ k ∈ limits, ∀ value ∈ e.announcedAt k, ¬e.Waiting k value))
  | .onEstablished | .touch _ | .read _ _ | .onDatagrams | .sendDatagram _ _ | .openStream _ _
  | .streamWrite _ _ _ | .streamFin _ | .streamReset _ _ | .streamStopSending _ _ | .setPaused _ _
  | .close _ _ | .sendDrain | .takeTerminalError | .grantCredit | .replenish | .queueClose
  | .releasePendingOpens | .commitSent | .signalFlowControlBlocked | .prune | .gracefulClose
  | .markClosed _ _ _ | .network _ => .isTrue trivial

instance [H3.Codec] (order : HashOrder) (e : Endpoint) : Decidable (Accepts order e) :=
  inferInstanceAs (Decidable (_ = _))

instance [H3.Codec] (e : Endpoint) : (c : Call) → Decidable (e.Prompt c)
  | .flush order => inferInstanceAs (Decidable (Accepts order e → (e.beforeSignals order).signals = []))
  | .onEstablished | .onReadable _ _ | .onDatagrams | .sendDatagram _ _ | .openStream _ _
  | .streamWrite _ _ _ | .streamFin _ | .streamReset _ _ | .streamStopSending _ _ | .setPaused _ _
  | .close _ _ | .sendDrain | .markClosed _ _ _ | .network _ => .isTrue trivial

instance [H3.Codec] (e : Endpoint) (c : Call) : Decidable (e.Punctual c) :=
  inferInstanceAs (Decidable ((_ ∧ _) ∧ _))

/-- The flush that finds the request blocked leaves the signal in the queue. -/
theorem not_signalled :
    letI := H3.Codec.plain
    Start sampleServer ∧ Along Endpoint.call Admissible sampleServer (blockedRun ++ [flushOnce]) ∧
      ¬Signalled ⟨id, fun _ => .refl _⟩ (execute Endpoint.call sampleServer blockedRun) := by
  refine ⟨sampleServer_start, blockedRun_admissible, fun h => ?_⟩
  refine absurd (h (by decide +kernel) (by decide +kernel) (by decide +kernel) (.streams true)
    (by decide +kernel)) ?_
  decide +kernel

/-- A blocked request is announced while CONNECT is held up, and the capsule
leaves with the next flush. -/
def heldUpRun : List Call :=
  limitedHandshake ++ [.openStream true 1, .sendDrain, .network (.txCap 0), flushOnce,
    .network (.txCap (2 ^ 20)), flushOnce]

theorem heldUpRun_punctual :
    letI := H3.Codec.plain
    Along Endpoint.call Punctual sampleServer heldUpRun := by
  decide +kernel

theorem blocked_signals_leave_sample :
    letI := H3.Codec.plain
    Along Endpoint.call (fun e c => ∀ order, c = .flush order → e.Signalled order) sampleServer
        heldUpRun ∧ (announcements sampleServer heldUpRun).Nodup :=
  letI := H3.Codec.plain
  blocked_signals_leave sampleServer_start heldUpRun_punctual

end Endpoint

end RWebTransport
