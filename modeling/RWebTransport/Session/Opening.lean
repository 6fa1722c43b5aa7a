import RWebTransport.Session.CleanClose

/-!
# Requests for streams

`open_stream` queues a request and `release_pending_opens` answers it, with the
next id of its direction, once the session is ready and the peer's limit admits
another stream.  One queue serves both directions.

The requests of a direction are, in order, those that were answered and those
that wait.  A release goes through the queue and puts back what is blocked, so
in its middle the requests that wait are in two places: put back, and in hand.
-/

namespace RWebTransport

open Quic (isBidi isLocal)

/-- The application is told that its stream was opened. -/
def Ev.isOpened : Ev → Bool
  | .streamOpened _ _ => true
  | _ => false

namespace Endpoint

/-! ## Steps that answer no request -/

/-- No request was made or answered. -/
structure Waits (e e' : Endpoint) : Prop where
  cfg : e'.cfg = e.cfg
  pending : e'.pendingOpens = e.pendingOpens
  next : ∀ bidi, e'.nextId bidi = e.nextId bidi
  ev : ∃ l, e'.ev = e.ev ++ l ∧ ∀ v ∈ l, v.isOpened = false

/-- Nor has anything changed that a request waits for. -/
structure Idle (e e' : Endpoint) : Prop extends Waits e e' where
  ready : e'.ready = e.ready
  closed : e'.closed = e.closed
  peerSettings : e'.peerSettings = e.peerSettings
  limits : ∀ bidi, e'.fcMaxStreamsRemote bidi = e.fcMaxStreamsRemote bidi

namespace Waits

theorem trans {a b c : Endpoint} (hab : Waits a b) (hbc : Waits b c) : Waits a c where
  cfg := hbc.cfg.trans hab.cfg
  pending := hbc.pending.trans hab.pending
  next bidi := (hbc.next bidi).trans (hab.next bidi)
  ev := by
    obtain ⟨l, hl, hlm⟩ := hab.ev
    obtain ⟨m, hm, hmm⟩ := hbc.ev
    exact ⟨l ++ m, by rw [hm, hl, List.append_assoc], List.forall_mem_append.mpr ⟨hlm, hmm⟩⟩

theorem told {e e' : Endpoint} (hcfg : e'.cfg = e.cfg) (hpending : e'.pendingOpens = e.pendingOpens)
    (hnext : ∀ bidi, e'.nextId bidi = e.nextId bidi) {l : List Ev} (hev : e'.ev = e.ev ++ l)
    (hl : ∀ v ∈ l, v.isOpened = false) : Waits e e' := ⟨hcfg, hpending, hnext, l, hev, hl⟩

theorem of_eq {e e' : Endpoint} (hcfg : e'.cfg = e.cfg) (hpending : e'.pendingOpens = e.pendingOpens)
    (hnext : ∀ bidi, e'.nextId bidi = e.nextId bidi) (hev : e'.ev = e.ev) : Waits e e' :=
  told hcfg hpending hnext (l := []) (by simp [hev]) (by simp)

theorem emit (e : Endpoint) {v : Ev} (hv : v.isOpened = false) : Waits e (e.emit v) :=
  told rfl rfl (fun _ => rfl) rfl (by simpa using hv)

theorem markClosed (e : Endpoint) (code : Nat) (reason : Bytes) (remote : Bool) :
    Waits e (e.markClosed code reason remote) := by
  unfold Endpoint.markClosed
  split
  · exact of_eq rfl rfl (fun _ => rfl) rfl
  · exact told rfl rfl (fun _ => rfl) rfl (by simp [Ev.isOpened])

theorem refuse (e : Endpoint) (id : Nat) (frame : Option Bytes) (messages : List String)
    (status : Nat) : Waits e (e.refuse id frame messages status) := by
  rw [refuse_eq]
  refine .trans ?_ (markClosed _ 0 [] false)
  cases frame <;> exact told rfl rfl (fun _ => rfl) rfl (by simp [Ev.isOpened])

end Waits

namespace Idle

theorem refl (e : Endpoint) : Idle e e :=
  ⟨.of_eq rfl rfl (fun _ => rfl) rfl, rfl, rfl, rfl, fun _ => rfl⟩

theorem trans {a b c : Endpoint} (hab : Idle a b) (hbc : Idle b c) : Idle a c where
  toWaits := hab.toWaits.trans hbc.toWaits
  ready := hbc.ready.trans hab.ready
  closed := hbc.closed.trans hab.closed
  peerSettings := hbc.peerSettings.trans hab.peerSettings
  limits bidi := (hbc.limits bidi).trans (hab.limits bidi)

/-- What keeps to the side keeps to the side of the requests, too. -/
theorem of_aside {e e' : Endpoint} (h : Aside e e') (hpending : e'.pendingOpens = e.pendingOpens)
    (hnext : ∀ bidi, e'.nextId bidi = e.nextId bidi) : Idle e e' := by
  obtain ⟨l, hl, hdatagram⟩ := h.ev
  refine ⟨⟨h.cfg, hpending, hnext, l, hl, fun v hv => ?_⟩, h.ready, h.closed, h.peerSettings,
    fun bidi => ?_⟩
  · have hd := hdatagram v hv
    cases v <;> first | rfl | cases hd
  · cases bidi
    · exact h.limits.2.2
    · exact h.limits.2.1

/-- Only the streams, the connection or the history have changed. -/
theorem streams {e e' : Endpoint} (hcfg : e'.cfg = e.cfg) (hpending : e'.pendingOpens = e.pendingOpens)
    (hnext : ∀ bidi, e'.nextId bidi = e.nextId bidi) (hready : e'.ready = e.ready)
    (hclosed : e'.closed = e.closed) (hsettings : e'.peerSettings = e.peerSettings)
    (hlimits : ∀ bidi, e'.fcMaxStreamsRemote bidi = e.fcMaxStreamsRemote bidi) {l : List Ev}
    (hev : e'.ev = e.ev ++ l) (hl : ∀ v ∈ l, v.isOpened = false) : Idle e e' :=
  ⟨.told hcfg hpending hnext hev hl, hready, hclosed, hsettings, hlimits⟩

theorem quiet {e e' : Endpoint} (hcfg : e'.cfg = e.cfg) (hpending : e'.pendingOpens = e.pendingOpens)
    (hnext : ∀ bidi, e'.nextId bidi = e.nextId bidi) (hready : e'.ready = e.ready)
    (hclosed : e'.closed = e.closed) (hsettings : e'.peerSettings = e.peerSettings)
    (hlimits : ∀ bidi, e'.fcMaxStreamsRemote bidi = e.fcMaxStreamsRemote bidi)
    (hev : e'.ev = e.ev) : Idle e e' :=
  streams hcfg hpending hnext hready hclosed hsettings hlimits (l := []) (by simp [hev]) (by simp)

theorem modifyStream (e : Endpoint) (id : Nat) (f : Stream → Stream) : Idle e (e.modifyStream id f) :=
  quiet rfl rfl (fun _ => rfl) rfl rfl rfl (fun _ => rfl) rfl

theorem takeTerminalError (e : Endpoint) : Idle e e.takeTerminalError := by
  refine of_aside (.takeTerminalError e) ?_ fun bidi => ?_
  all_goals
    unfold Endpoint.takeTerminalError
    split <;> rfl

theorem queueSessionCapsule (e : Endpoint) (ty value : Nat) : Idle e (e.queueSessionCapsule ty value) :=
  modifyStream e connectId _

theorem grantCredit (e : Endpoint) : Idle e e.grantCredit := by
  unfold Endpoint.grantCredit
  split
  · refine .trans (.trans (.trans ?_ (queueSessionCapsule _ _ _)) (queueSessionCapsule _ _ _))
      (queueSessionCapsule _ _ _)
    exact quiet rfl rfl (fun _ => rfl) rfl rfl rfl (fun _ => rfl) rfl
  · exact refl e

theorem raiseDataLimit (e : Endpoint) (limit : Nat) : Idle e (e.raiseDataLimit limit) := by
  refine .trans ?_ (queueSessionCapsule _ _ _)
  exact quiet rfl rfl (fun _ => rfl) rfl rfl rfl (fun _ => rfl) rfl

theorem raiseStreamsLimit (e : Endpoint) (bidi : Bool) (limit : Nat) :
    Idle e (e.raiseStreamsLimit bidi limit) := by
  refine .trans ?_ (queueSessionCapsule _ _ _)
  exact quiet rfl rfl (fun _ => rfl) rfl rfl rfl (fun _ => rfl) rfl

theorem replenishData (e : Endpoint) : Idle e e.replenishData := by
  unfold Endpoint.replenishData
  simp only
  split_ifs
  · exact raiseDataLimit e _
  · exact refl e
  · exact refl e

theorem replenishStreams (e : Endpoint) (bidi : Bool) : Idle e (e.replenishStreams bidi) := by
  unfold Endpoint.replenishStreams
  simp only
  split_ifs
  · exact raiseStreamsLimit e bidi _
  · exact refl e
  · exact refl e

theorem replenish (e : Endpoint) : Idle e e.replenish := by
  unfold Endpoint.replenish
  split
  · exact ((replenishData e).trans (replenishStreams _ _)).trans (replenishStreams _ _)
  · exact refl e

theorem queueClose (e : Endpoint) : Idle e e.queueClose := by
  refine of_aside (.queueClose e) ?_ fun bidi => ?_
  all_goals
    unfold Endpoint.queueClose
    split
    · rfl
    · simp only
      split_ifs <;> rfl

theorem signalDataBlocked (e : Endpoint) : Idle e e.signalDataBlocked := by
  refine of_aside (.signalDataBlocked e) ?_ fun bidi => ?_
  all_goals
    unfold Endpoint.signalDataBlocked
    split <;> rfl

theorem signalStreamsBlocked (e : Endpoint) (bidi : Bool) : Idle e (e.signalStreamsBlocked bidi) := by
  refine of_aside (.signalStreamsBlocked e bidi) ?_ fun b => ?_
  all_goals
    unfold Endpoint.signalStreamsBlocked
    simp only
    split_ifs <;> rfl

theorem signalFlowControlBlocked (e : Endpoint) : Idle e e.signalFlowControlBlocked := by
  unfold Endpoint.signalFlowControlBlocked
  split
  · exact refl e
  · exact ((signalDataBlocked e).trans (signalStreamsBlocked _ _)).trans (signalStreamsBlocked _ _)

theorem gracefulClose (e : Endpoint) : Idle e e.gracefulClose := by
  have harm : e.armQuicClose.pendingOpens = e.pendingOpens ∧
      ∀ bidi, e.armQuicClose.nextId bidi = e.nextId bidi := by
    unfold armQuicClose
    split
    · split <;> exact ⟨rfl, fun _ => rfl⟩
    · exact ⟨rfl, fun _ => rfl⟩
  refine of_aside (.gracefulClose e) ?_ fun bidi => ?_
  all_goals
    unfold Endpoint.gracefulClose
    split
    · rfl
    · simp only
      split_ifs
      · first | exact harm.1 | exact harm.2 bidi
      · first | exact harm.1 | exact harm.2 bidi
      · first | exact harm.1 | exact harm.2 bidi

theorem sendDrain (e : Endpoint) : Idle e e.sendDrain := by
  refine of_aside (.sendDrain e) ?_ fun bidi => ?_
  all_goals
    unfold Endpoint.sendDrain
    split_ifs <;> rfl

theorem close (e : Endpoint) (code : Nat) (reason : Bytes) : Idle e (e.close code reason) := by
  refine of_aside (.close e code reason) ?_ fun bidi => ?_
  all_goals
    unfold Endpoint.close
    split <;> rfl

theorem onDatagrams (e : Endpoint) : Idle e e.onDatagrams := by
  have hkept : e.onDatagrams.pendingOpens = e.pendingOpens ∧
      ∀ bidi, e.onDatagrams.nextId bidi = e.nextId bidi := by
    refine iterate_rel (I := fun _ => True)
      (R := fun a b : Endpoint => b.pendingOpens = a.pendingOpens ∧ ∀ bidi, b.nextId bidi = a.nextId bidi)
      (fun _ => ⟨rfl, fun _ => rfl⟩)
      (fun hab hbc => ⟨hbc.1.trans hab.1, fun bidi => (hbc.2 bidi).trans (hab.2 bidi)⟩)
      (fun s _ => ⟨?_, trivial⟩) _ trivial
    unfold datagramStep
    split
    · exact ⟨rfl, fun _ => rfl⟩
    · simp only
      split
      · exact ⟨rfl, fun _ => rfl⟩
      · split <;> exact ⟨rfl, fun _ => rfl⟩
  exact of_aside (.onDatagrams e) hkept.1 hkept.2

theorem sendDatagram (e : Endpoint) (data : Bytes) (requestId : Nat) :
    Idle e (e.sendDatagram data requestId) :=
  of_aside (.sendDatagram e data requestId) rfl fun _ => rfl

theorem streamWrite (e : Endpoint) (id : Nat) (data : Bytes) (requestId : Nat) :
    Idle e (e.streamWrite id data requestId) := by
  unfold Endpoint.streamWrite
  simp only
  split
  · exact quiet rfl rfl (fun _ => rfl) rfl rfl rfl (fun _ => rfl) rfl
  · exact streams rfl rfl (fun _ => rfl) rfl rfl rfl (fun _ => rfl) rfl (by simp [Ev.isOpened])

theorem reconcileSendFinalSize (e : Endpoint) (id : Nat) : Idle e (e.reconcileSendFinalSize id) := by
  unfold Endpoint.reconcileSendFinalSize
  split
  · simp only
    split
    · exact quiet rfl rfl (fun _ => rfl) rfl rfl rfl (fun _ => rfl) rfl
    · exact refl e
  · exact refl e

theorem dropQueue (e : Endpoint) (id : Nat) : Idle e (e.dropQueue id) := by
  unfold Endpoint.dropQueue
  split
  · exact refl e
  · exact quiet rfl rfl (fun _ => rfl) rfl rfl rfl (fun _ => rfl) rfl

theorem streamReset (e : Endpoint) (id code : Nat) : Idle e (e.streamReset id code) := by
  unfold Endpoint.streamReset
  split
  · refine .trans ?_ (modifyStream _ _ _)
    refine .trans ?_ (dropQueue _ _)
    refine .trans ?_ (reconcileSendFinalSize _ _)
    exact quiet rfl rfl (fun _ => rfl) rfl rfl rfl (fun _ => rfl) rfl
  · exact refl e

theorem streamStopSending (e : Endpoint) (id code : Nat) : Idle e (e.streamStopSending id code) := by
  unfold Endpoint.streamStopSending
  split
  · exact quiet rfl rfl (fun _ => rfl) rfl rfl rfl (fun _ => rfl) rfl
  · exact refl e

theorem of_sending {id : Nat} {e e' : Endpoint} (h : Sending id e e') : Idle e e' := by
  have hacks : ∀ out : List OutChunk, ∀ v ∈ out.flatMap ackOf, v.isOpened = false := by
    intro out v hv
    obtain ⟨c, -, hc⟩ := List.mem_flatMap.mp hv
    cases hr : c.requestId with
    | none => simp [ackOf, hr] at hc
    | some r =>
        obtain rfl : v = .writeAck r := by simpa [ackOf, hr] using hc
        rfl
  cases h with
  | returned | refused | fin => exact quiet rfl rfl (fun _ => rfl) rfl rfl rfl (fun _ => rfl) rfl
  | @sent st front rest n c =>
      refine streams rfl rfl (fun _ => rfl) rfl rfl rfl (fun _ => rfl) rfl fun v hv => ?_
      split at hv
      · exact hacks [front] v (by simpa using hv)
      · cases hv
  | @stopped st bytes code c =>
      refine streams rfl rfl (fun _ => rfl) rfl rfl rfl (fun _ => rfl) rfl fun v hv => ?_
      rcases List.mem_cons.mp hv with rfl | hv
      · rfl
      · exact hacks _ v hv

theorem flushStream (e : Endpoint) (id : Nat) : Idle e (e.flushStream id) :=
  flushStream_invariant (I := Idle e) (fun _ _ hs h => h.trans (of_sending hs)) (refl e)

theorem onEstablished (e : Endpoint) : Idle e e.onEstablished := by
  unfold Endpoint.onEstablished
  split
  · exact refl e
  · simp only
    split_ifs <;> exact quiet rfl rfl (fun _ => rfl) rfl rfl rfl (fun _ => rfl) rfl

theorem touch (e : Endpoint) (id : Nat) : Idle e (e.touch id) := by
  unfold Endpoint.touch
  split
  · exact refl e
  · exact quiet rfl rfl (fun _ => rfl) rfl rfl rfl (fun _ => rfl) rfl

end Idle

section

variable [H3.Codec] {r : Nat} {e e' : Endpoint}

theorem Effect.waits (h : Effect r e e') : Waits e e' := by
  cases h with
  | fail message => exact (Waits.emit e rfl).trans (.markClosed _ _ _ _)
  | finish => exact .markClosed _ _ _ _
  | killFail message =>
      have hkill : Waits e (e.killRecv r) := .of_eq rfl rfl (fun _ => rfl) rfl
      exact (hkill.trans (.emit _ rfl)).trans (.markClosed _ _ _ _)
  | resetFail message =>
      have hdead : Waits e (e.setRecvDead r) := .of_eq rfl rfl (fun _ => rfl) rfl
      exact (hdead.trans (.emit _ rfl)).trans (.markClosed _ _ _ _)
  | resetClose =>
      have hdead : Waits e (e.setRecvDead r) := .of_eq rfl rfl (fun _ => rfl) rfl
      exact hdead.trans (.markClosed _ _ _ _)
  | credit =>
      unfold setCreditLimit
      split_ifs <;> exact .of_eq rfl rfl (fun _ => rfl) rfl
  | @reject id block =>
      have htake : Waits e (e.takeHeaders id block) := .of_eq rfl rfl (fun _ => rfl) rfl
      exact htake.trans (.refuse _ _ _ _ _)
  | refuse => exact .refuse _ _ _ _ _
  | draining | unrequested | undecoded | ready | accept | unanswered | incoming | data | finished
  | reset => exact .told (l := [_]) rfl rfl (fun _ => rfl) rfl (by simp [Ev.isOpened])
  | _ => exact .of_eq rfl rfl (fun _ => rfl) rfl

/-- The limits of the peer were raised, or they are not known yet. -/
def Raised (e e' : Endpoint) : Prop :=
  (e'.peerSettings = e.peerSettings ∧ ∀ bidi, e.fcMaxStreamsRemote bidi ≤ e'.fcMaxStreamsRemote bidi) ∨
    e.peerSettings = none

omit [H3.Codec] in
theorem Raised.of_eq (hsettings : e'.peerSettings = e.peerSettings)
    (hlimits : ∀ bidi, e'.fcMaxStreamsRemote bidi = e.fcMaxStreamsRemote bidi) : Raised e e' :=
  .inl ⟨hsettings, fun bidi => (hlimits bidi).ge⟩

omit [H3.Codec] in
theorem Raised.markClosed (e : Endpoint) (code : Nat) (reason : Bytes) (remote : Bool) :
    Raised e (e.markClosed code reason remote) := by
  refine .of_eq (markClosed_flags e code reason remote).2.2.2.1 fun bidi => ?_
  unfold Endpoint.markClosed
  split <;> rfl

omit [H3.Codec] in
theorem Raised.trans {a b c : Endpoint} (hab : Raised a b) (hbc : Raised b c) : Raised a c := by
  rcases hab with ⟨hsettings, hlimits⟩ | hnone
  · rcases hbc with ⟨hsettings', hlimits'⟩ | hnone
    · exact .inl ⟨hsettings'.trans hsettings, fun bidi => (hlimits bidi).trans (hlimits' bidi)⟩
    · exact .inr (hsettings.symm.trans hnone)
  · exact .inr hnone

omit [H3.Codec] in
theorem Raised.refuse (e : Endpoint) (id : Nat) (frame : Option Bytes) (messages : List String)
    (status : Nat) : Raised e (e.refuse id frame messages status) := by
  rw [refuse_eq]
  refine .trans ?_ (.markClosed _ 0 [] false)
  cases frame <;> exact .of_eq rfl fun _ => rfl

omit [H3.Codec] in
/-- A control stream has one SETTINGS frame, and there is one control stream. -/
theorem Layout.unsettled (hl : e.Layout) (hopen : e.closed = false)
    (hrole : e.roleOf r = some .peerControl) (hdone : e.headersDone r = false) :
    e.peerSettings = none := by
  by_contra hsome
  rcases hl.settled (Option.isSome_iff_ne_none.mpr hsome) with hclosed | ⟨id, hid, htaken⟩
  · simp [hopen] at hclosed
  · obtain rfl := hl.control id r hid hrole
    simp [hdone] at htaken

theorem Effect.raised (h : Effect r e e') (hl : e.Layout) : Raised e e' := by
  cases h with
  | fail message => exact Raised.markClosed (e.emit (.error message)) _ _ _
  | finish => exact .markClosed _ _ _ _
  | killFail message => exact Raised.markClosed ((e.killRecv r).emit (.error message)) _ _ _
  | resetFail message => exact Raised.markClosed ((e.setRecvDead r).emit (.error message)) _ _ _
  | resetClose => exact Raised.markClosed (e.setRecvDead r) _ _ _
  | @credit ty v limit hopen hcredit hlt =>
      unfold creditLimit at hcredit
      unfold setCreditLimit
      split_ifs at hcredit ⊢ with hdata hbidi huni
      · exact .of_eq rfl fun _ => rfl
      · refine .inl ⟨rfl, fun bidi => ?_⟩
        obtain rfl := Option.some.inj hcredit
        cases bidi
        · exact le_refl _
        · exact hlt.le
      · refine .inl ⟨rfl, fun bidi => ?_⟩
        obtain rfl := Option.some.inj hcredit
        cases bidi
        · exact hlt.le
        · exact le_refl _
  | @settings s hopen hrole hdone =>
      exact .inr (hl.unsettled hopen hrole hdone)
  | @reject id block =>
      have htake : Raised e (e.takeHeaders id block) := .of_eq rfl fun _ => rfl
      exact htake.trans (.refuse _ _ _ _ _)
  | refuse => exact .refuse _ _ _ _ _
  | _ => exact .of_eq rfl fun _ => rfl

/-! ## A session that is ready knows the limits -/

/-- SETTINGS that were accepted are known. -/
def Known (e : Endpoint) : Prop := (∃ s, .settings s ∈ e.history) → e.peerSettings.isSome = true

theorem known_whole : Whole Known where
  effect {r e e'} heff hl h := by
    rintro ⟨s, hs⟩
    have hmarked {s' : Endpoint} {code : Nat} {reason : Bytes} {remote : Bool}
        (hhistory : (∃ s, .settings s ∈ s'.history) → s'.peerSettings.isSome = true)
        (hs : .settings s ∈ (s'.markClosed code reason remote).history) :
        (s'.markClosed code reason remote).peerSettings.isSome = true := by
      obtain ⟨-, -, -, hsettings, hkept⟩ := markClosed_flags s' code reason remote
      rw [hsettings]
      exact hhistory ⟨s, hkept ▸ hs⟩
    have hlogged {t : Trace} (ht : ∀ s, t ≠ .settings s) (hs : .settings s ∈ e.history ++ [t]) :
        e.peerSettings.isSome = true := by
      rcases List.mem_append.mp hs with hs | hs
      · exact h ⟨s, hs⟩
      · exact absurd (List.mem_singleton.mp hs).symm (ht s)
    cases heff with
    | log ht =>
        refine hlogged (fun s heq => ?_) hs
        rw [heq] at ht
        cases ht
    | fail | finish | killFail | resetFail | resetClose => exact hmarked h hs
    | reject | refuse =>
        rw [refuse_eq] at hs ⊢
        refine hmarked (fun hset => ?_) hs
        obtain ⟨-, -, -, -, -, -, hsettings, -, hhistory⟩ := refusing_session _ _ _ _ _
        rw [hsettings]
        rw [hhistory] at hset
        obtain ⟨s', hs'⟩ := hset
        have hs' := (List.mem_append.mp hs').resolve_right (by simp)
        first
          | exact h ⟨s', hs'⟩
          | exact h ⟨s', (List.mem_append.mp hs').resolve_right (by simp)⟩
    | credit =>
        unfold setCreditLimit at hs ⊢
        split_ifs at hs ⊢ <;> exact h ⟨s, hs⟩
    | settings => rfl
    | charge | connect | headers | moreHeaders | undecoded | unanswered =>
        exact hlogged (fun _ heq => by cases heq) hs
    | ready | accept =>
        have hs := (List.mem_append.mp hs).resolve_right (by simp)
        exact hlogged (fun _ heq => by cases heq) hs
    | _ => exact h ⟨s, hs⟩
  quiet {e e'} hq h := by
    rintro ⟨s, hs⟩
    obtain ⟨l, hl, hquiet⟩ := hq.history
    rw [hq.peerSettings]
    rw [hl] at hs
    rcases List.mem_append.mp hs with hs | hs
    · exact h ⟨s, hs⟩
    · cases hquiet _ hs
  setup e h := by
    rcases onEstablished_spec e with heq | ⟨-, -, -, -, -, -, hsettings, -, -, hhistory, -⟩
    · rwa [heq]
    · unfold Known
      rwa [hsettings, hhistory]
  meet e _ _ h := h
  close e code reason remote h := by
    obtain ⟨-, -, -, hsettings, hkept⟩ := markClosed_flags e code reason remote
    unfold Known
    rwa [hsettings, hkept]

/-- The SETTINGS of the peer came in front of everything a ready session does. -/
theorem Gated.seeded (hg : e.Gated) (hk : e.Known) (hready : e.ready = true) :
    e.peerSettings.isSome = true := by
  obtain ⟨hdone, v, block, hopened, -⟩ := hg.ready hready
  refine hk ?_
  cases hserver : e.cfg.isServer with
  | false =>
      obtain ⟨-, -, before, after, hhistory, -, -, s, hs, -⟩ :=
        hg.queued (hg.entry hserver (by simp [hdone]))
      exact ⟨s, hhistory ▸ List.mem_append_left _ hs⟩
  | true =>
      obtain ⟨before, after, hhistory, -, -, -, -, hset⟩ := hopened.history
      obtain ⟨s, hs, -⟩ := hset hserver
      exact ⟨s, hhistory ▸ List.mem_append_left _ hs⟩

end

/-! ## Requests and answers -/

/-- The requests of one direction. -/
def ofDirection (bidi : Bool) (l : List (Bool × Nat)) : List Nat :=
  l.filterMap fun q => if q.1 = bidi then some q.2 else none

/-- The answers of one direction: a request, and the id it was answered with. -/
def answered (bidi : Bool) (l : List Ev) : List (Nat × Nat) :=
  l.filterMap fun v => match v with
    | .streamOpened requestId id => if isBidi id = bidi then some (requestId, id) else none
    | _ => none

theorem ofDirection_append (bidi : Bool) (l m : List (Bool × Nat)) :
    ofDirection bidi (l ++ m) = ofDirection bidi l ++ ofDirection bidi m := List.filterMap_append

theorem answered_append (bidi : Bool) (l m : List Ev) :
    answered bidi (l ++ m) = answered bidi l ++ answered bidi m := List.filterMap_append

theorem answered_of_forall {bidi : Bool} {l : List Ev} (h : ∀ v ∈ l, v.isOpened = false) :
    answered bidi l = [] := by
  refine List.filterMap_eq_nil_iff.mpr fun v hv => ?_
  have ho := h v hv
  cases v <;> first | rfl | cases ho

/-- The peer's limit of the direction is reached. -/
def Blocked (e : Endpoint) (bidi : Bool) : Prop :=
  e.usesSessionFlowControl = true ∧ e.fcMaxStreamsRemote bidi ≤ e.opened bidi

/-- Every request was answered or waits, in order; `hand` is what a release has
still to look at. -/
structure InOrder (requests : Bool → List Nat) (hand : List (Bool × Nat)) (e : Endpoint) : Prop where
  order : ∀ bidi, requests bidi = (answered bidi e.ev).map Prod.fst ++
    (ofDirection bidi e.pendingOpens ++ ofDirection bidi hand)
  ids : ∀ bidi, (answered bidi e.ev).map Prod.snd =
    (List.range (answered bidi e.ev).length).map (ownId e.cfg.isServer bidi)
  next : ∀ bidi, e.nextId bidi = ownId e.cfg.isServer bidi (answered bidi e.ev).length
  bounded : e.usesSessionFlowControl = true →
    ∀ bidi, (answered bidi e.ev).length ≤ e.fcMaxStreamsRemote bidi
  unseeded : e.peerSettings = none → ∀ bidi, answered bidi e.ev = []

variable {requests : Bool → List Nat} {hand : List (Bool × Nat)} {e e' : Endpoint}

theorem InOrder.opened (h : InOrder requests hand e) (bidi : Bool) :
    e.opened bidi = (answered bidi e.ev).length := by
  rw [Endpoint.opened, h.next, ownId]
  omega

theorem Waits.answered_eq (h : Waits e e') (bidi : Bool) : answered bidi e'.ev = answered bidi e.ev := by
  obtain ⟨l, hl, hno⟩ := h.ev
  rw [hl, answered_append, answered_of_forall hno, List.append_nil]

theorem InOrder.waits (h : InOrder requests hand e) (hw : Waits e e') (hr : Raised e e') :
    InOrder requests hand e' where
  order bidi := by
    rw [hw.answered_eq, hw.pending]
    exact h.order bidi
  ids bidi := by
    rw [hw.answered_eq, hw.cfg]
    exact h.ids bidi
  next bidi := by
    rw [hw.answered_eq, hw.next, hw.cfg]
    exact h.next bidi
  bounded huses bidi := by
    rw [hw.answered_eq]
    rcases hr with ⟨hsettings, hlimits⟩ | hnone
    · refine (h.bounded ?_ bidi).trans (hlimits bidi)
      rwa [WtSession.usesSessionFlowControl, ← hsettings]
    · simp [h.unseeded hnone bidi]
  unseeded hnone bidi := by
    rw [hw.answered_eq]
    rcases hr with ⟨hsettings, -⟩ | hwas
    · exact h.unseeded (hsettings.symm.trans hnone) bidi
    · exact h.unseeded hwas bidi

theorem InOrder.idle (h : InOrder requests hand e) (hi : Idle e e') : InOrder requests hand e' :=
  h.waits hi.toWaits (.of_eq hi.peerSettings hi.limits)

theorem allocateStream_spec (e : Endpoint) (bidi : Bool) (requestId : Nat) :
    (e.allocateStream bidi requestId).ev = e.ev ++ [.streamOpened requestId (e.nextId bidi)] ∧
      (e.allocateStream bidi requestId).cfg = e.cfg ∧
      (e.allocateStream bidi requestId).pendingOpens = e.pendingOpens ∧
      (e.allocateStream bidi requestId).peerSettings = e.peerSettings ∧
      (∀ b, (e.allocateStream bidi requestId).fcMaxStreamsRemote b = e.fcMaxStreamsRemote b) ∧
      ∀ b, (e.allocateStream bidi requestId).nextId b =
        if b = bidi then e.nextId b + 4 else e.nextId b := by
  refine ⟨?_, ?_, ?_, ?_, fun b => ?_, fun b => ?_⟩
  all_goals
    unfold allocateStream
    cases bidi
    all_goals first | rfl | (cases b <;> rfl)

/-- A stream is opened for the next request in hand, of which none waits. -/
theorem InOrder.allocate {q : Bool × Nat} (h : InOrder requests (q :: hand) e)
    (hnone : ofDirection q.1 e.pendingOpens = []) (hseeded : e.peerSettings.isSome = true)
    (hroom : e.usesSessionFlowControl = true → e.opened q.1 < e.fcMaxStreamsRemote q.1) :
    InOrder requests hand (e.allocateStream q.1 q.2) := by
  obtain ⟨hev, hcfg, hpending, hsettings, hlimits, hnext⟩ := allocateStream_spec e q.1 q.2
  have hbidi : isBidi (e.nextId q.1) = q.1 := by rw [h.next, isBidi_ownId]
  have hself : answered q.1 (e.allocateStream q.1 q.2).ev =
      answered q.1 e.ev ++ [(q.2, e.nextId q.1)] := by
    rw [hev, answered_append]
    simp [answered, hbidi]
  have hother : ∀ bidi, bidi ≠ q.1 →
      answered bidi (e.allocateStream q.1 q.2).ev = answered bidi e.ev := by
    intro bidi hne
    rw [hev, answered_append]
    simp [answered, hbidi, hne.symm]
  refine ⟨fun bidi => ?_, fun bidi => ?_, fun bidi => ?_, fun huses bidi => ?_, fun hnone' => ?_⟩
  · rw [hpending, h.order]
    by_cases hb : bidi = q.1
    · subst hb
      have hcons : ofDirection q.1 (q :: hand) = q.2 :: ofDirection q.1 hand := by simp [ofDirection]
      rw [hself, hnone, hcons]
      simp
    · have hskip : ofDirection bidi (q :: hand) = ofDirection bidi hand := by
        simp [ofDirection, Ne.symm hb]
      rw [hother bidi hb, hskip]
  · rw [hcfg]
    by_cases hb : bidi = q.1
    · subst hb
      rw [hself, List.map_append, List.length_append, h.ids, List.length_singleton, List.range_succ,
        List.map_append]
      simp [h.next]
    · rw [hother bidi hb]
      exact h.ids bidi
  · rw [hcfg, hnext]
    by_cases hb : bidi = q.1
    · subst hb
      rw [if_pos rfl, hself, h.next, List.length_append, List.length_singleton, ownId, ownId]
      omega
    · rw [if_neg hb, hother bidi hb]
      exact h.next bidi
  · rw [hlimits]
    have hwas : e.usesSessionFlowControl = true := by
      rwa [WtSession.usesSessionFlowControl, ← hsettings]
    by_cases hb : bidi = q.1
    · subst hb
      have hlt := hroom hwas
      rw [h.opened] at hlt
      rw [hself, List.length_append, List.length_singleton]
      exact hlt
    · rw [hother bidi hb]
      exact h.bounded hwas bidi
  · rw [hsettings] at hnone'
    simp [hnone'] at hseeded

/-- What was put back is blocked. -/
def Stuck (e : Endpoint) : Prop := ∀ bidi, ofDirection bidi e.pendingOpens ≠ [] → e.Blocked bidi

theorem InOrder.releaseOpen {q : Bool × Nat} (h : InOrder requests (q :: hand) e) (hs : e.Stuck)
    (hseeded : e.peerSettings.isSome = true) :
    InOrder requests hand (e.releaseOpen q) ∧ (e.releaseOpen q).Stuck ∧
      (e.releaseOpen q).peerSettings.isSome = true := by
  unfold Endpoint.releaseOpen
  split
  next hblocked =>
    refine ⟨⟨fun bidi => ?_, h.ids, h.next, h.bounded, h.unseeded⟩, fun bidi hne => ?_, hseeded⟩
    · have hsplit : ofDirection bidi (q :: hand) = ofDirection bidi [q] ++ ofDirection bidi hand :=
        ofDirection_append bidi [q] hand
      change requests bidi = (answered bidi e.ev).map Prod.fst ++
        (ofDirection bidi (e.pendingOpens ++ [q]) ++ ofDirection bidi hand)
      rw [h.order, hsplit, ofDirection_append, List.append_assoc]
    · change ofDirection bidi (e.pendingOpens ++ [q]) ≠ [] at hne
      by_cases hb : q.1 = bidi
      · subst hb
        exact hblocked
      · refine hs bidi fun hnil => hne ?_
        rw [ofDirection_append, hnil]
        simp [ofDirection, hb]
  next hfree =>
    -- an earlier request of the direction would be blocked
    have hnone : ofDirection q.1 e.pendingOpens = [] := by
      by_contra hne
      exact hfree (hs q.1 hne)
    have hroom : e.usesSessionFlowControl = true → e.opened q.1 < e.fcMaxStreamsRemote q.1 := fun huses =>
      not_le.mp fun hle => hfree ⟨huses, hle⟩
    obtain ⟨-, hcfg, hpending, hsettings, hlimits, hnext⟩ := allocateStream_spec e q.1 q.2
    refine ⟨h.allocate hnone hseeded hroom, fun bidi hne => ?_, hsettings ▸ hseeded⟩
    rw [hpending] at hne
    have hb : bidi ≠ q.1 := by
      rintro rfl
      exact hne hnone
    obtain ⟨huses, hle⟩ := hs bidi hne
    refine ⟨?_, ?_⟩
    · rwa [WtSession.usesSessionFlowControl, hsettings]
    · rwa [hlimits, Endpoint.opened, hnext, if_neg hb, hcfg]

/-- A release answers requests in order, and what still waits is blocked. -/
theorem InOrder.releasePendingOpens (h : InOrder requests [] e)
    (hseeded : e.ready = true → e.peerSettings.isSome = true) :
    InOrder requests [] e.releasePendingOpens ∧
      (e.ready = true → e.closed = false → e.releasePendingOpens.Stuck) := by
  have hfold : ∀ (l : List (Bool × Nat)) (s : Endpoint), InOrder requests l s → s.Stuck →
      s.peerSettings.isSome = true →
      InOrder requests [] (l.foldl Endpoint.releaseOpen s) ∧ (l.foldl Endpoint.releaseOpen s).Stuck := by
    intro l
    induction l with
    | nil => exact fun s hs hstuck _ => ⟨hs, hstuck⟩
    | cons q l ih =>
        intro s hs hstuck hset
        obtain ⟨hnext, hstuck', hset'⟩ := hs.releaseOpen hstuck hset
        exact ih _ hnext hstuck' hset'
  unfold Endpoint.releasePendingOpens
  split
  next hnot =>
    refine ⟨h, fun hready hclosed => ?_⟩
    simp [hready, hclosed] at hnot
  next hgo =>
    have hready : e.ready = true := by
      cases hr : e.ready with
      | true => rfl
      | false => simp [hr] at hgo
    have hhand : InOrder requests e.pendingOpens { e with pendingOpens := [] } :=
      ⟨fun bidi => by simpa [ofDirection] using h.order bidi, h.ids, h.next, h.bounded, h.unseeded⟩
    have hempty : Stuck { e with pendingOpens := [] } := fun bidi hne => absurd rfl hne
    obtain ⟨hend, hstuck⟩ := hfold e.pendingOpens _ hhand hempty (hseeded hready)
    exact ⟨hend, fun _ _ => hstuck⟩

theorem Stuck.idle (h : e.Stuck) (hi : Idle e e') : e'.Stuck := by
  intro bidi hne
  rw [hi.pending] at hne
  obtain ⟨huses, hle⟩ := h bidi hne
  refine ⟨?_, ?_⟩
  · rwa [WtSession.usesSessionFlowControl, hi.peerSettings]
  · rwa [hi.limits, Endpoint.opened, hi.next, hi.cfg]

end Endpoint

/-! ## Runs -/

def Step.isOpenStream : Step → Bool
  | .openStream _ _ => true
  | _ => false

/-- The request that a call makes, if it is of this direction. -/
def Call.request (bidi : Bool) : Call → Option Nat
  | .openStream b requestId => if b = bidi then some requestId else none
  | _ => none

/-- The calls in which `release_pending_opens` runs. -/
def Call.releases : Call → Bool
  | .openStream _ _ | .flush _ => true
  | _ => false

namespace Endpoint

section

variable [H3.Codec] {requests : Bool → List Nat} {e : Endpoint}

/-- What a request in a run meets. -/
structure Requesting (requests : Bool → List Nat) (e : Endpoint) : Prop where
  layout : e.Layout
  gated : e.Gated
  known : e.Known
  filed : InOrder requests [] e

theorem gated_known_whole : Whole fun e => e.Gated ∧ e.Known where
  effect heff hl h := ⟨gated_whole.effect heff hl h.1, known_whole.effect heff hl h.2⟩
  quiet hq h := ⟨gated_whole.quiet hq h.1, known_whole.quiet hq h.2⟩
  setup e h := ⟨gated_whole.setup e h.1, known_whole.setup e h.2⟩
  meet e hs hn h := ⟨gated_whole.meet e hs hn h.1, known_whole.meet e hs hn h.2⟩
  close e code reason remote h :=
    ⟨gated_whole.close e code reason remote h.1, known_whole.close e code reason remote h.2⟩

theorem Requesting.step (h : Requesting requests e) {s : Step} (hs : e.StepAdmissible s)
    (hopen : s.isOpenStream = false) : Requesting requests (e.step s) := by
  obtain ⟨hgated, hknown⟩ := gated_known_whole.step h.layout hs ⟨h.gated, h.known⟩
  refine ⟨h.layout.step hs, hgated, hknown, ?_⟩
  have hf := h.filed
  cases s with
  | openStream => cases hopen
  | onEstablished => exact hf.idle (.onEstablished e)
  | touch id => exact hf.idle (.touch e id)
  | read id backpressured =>
      rcases readStep_effects (h.layout.readable hs) h.layout.wellFormed
        (h.layout.alive_of_readable hs id) backpressured with heq | ⟨cap, heff⟩
      · simpa [Endpoint.step, heq] using hf
      · have hspec := Quic.Connection.streamRecv_spec e.conn id cap
        have hl0 : Layout { e with conn := (e.conn.streamRecv id cap).2 } :=
          h.layout.same (.conn e hspec.isServer hspec.wellFormed hspec.phase fun hwf _ =>
            hspec.exhausted hwf)
        have hf0 : InOrder requests [] { e with conn := (e.conn.streamRecv id cap).2 } :=
          hf.idle (.quiet rfl rfl (fun _ => rfl) rfl rfl rfl (fun _ => rfl) rfl)
        exact (heff.invariant (I := fun e => e.Layout ∧ InOrder requests [] e)
          (fun _ _ hs hI => ⟨hs.layout hI.1, hI.2.waits hs.waits (hs.raised hI.1)⟩) ⟨hl0, hf0⟩).2
  | onDatagrams => exact hf.idle (.onDatagrams e)
  | sendDatagram data requestId => exact hf.idle (.sendDatagram e data requestId)
  | streamWrite id data requestId => exact hf.idle (.streamWrite e id data requestId)
  | streamFin id | setPaused id => exact hf.idle (.modifyStream e id _)
  | streamReset id code => exact hf.idle (.streamReset e id code)
  | streamStopSending id code => exact hf.idle (.streamStopSending e id code)
  | close code reason => exact hf.idle (.close e code reason)
  | sendDrain => exact hf.idle (.sendDrain e)
  | takeTerminalError => exact hf.idle (.takeTerminalError e)
  | grantCredit => exact hf.idle (.grantCredit e)
  | replenish => exact hf.idle (.replenish e)
  | queueClose => exact hf.idle (.queueClose e)
  | releasePendingOpens => exact (hf.releasePendingOpens (h.gated.seeded h.known)).1
  | flushStream id => exact hf.idle (.flushStream e id)
  | commitSent | prune | network =>
      exact hf.idle (.quiet rfl rfl (fun _ => rfl) rfl rfl rfl (fun _ => rfl) rfl)
  | signalFlowControlBlocked => exact hf.idle (.signalFlowControlBlocked e)
  | gracefulClose => exact hf.idle (.gracefulClose e)
  | markClosed code reason remote =>
      exact hf.waits (.markClosed e code reason remote) (.markClosed e code reason remote)

/-- Only `open_stream` makes a request. -/
theorem steps_not_openStream (e : Endpoint) {c : Call} (hc : ∀ bidi, c.request bidi = none) :
    ∀ s ∈ e.steps c, s.isOpenStream = false := by
  have hreads : ∀ (id : Nat) (backpressured : Bool) (n : Nat) (e : Endpoint),
      ∀ s ∈ reads id backpressured n e, s.isOpenStream = false := by
    intro id backpressured n
    induction n with
    | zero => exact fun _ s hs => by cases hs
    | succ n ih =>
        intro e s hs
        rw [reads] at hs
        rcases List.mem_cons.mp hs with rfl | hs
        · rfl
        · split at hs
          · exact ih _ s hs
          · cases hs
  intro s hs
  cases c with
  | openStream bidi requestId => simpa [Call.request] using hc bidi
  | onReadable id backpressured =>
      simp only [steps] at hs
      split at hs
      · cases hs
      · rcases List.mem_cons.mp hs with rfl | hs
        · rfl
        · split at hs
          · exact hreads _ _ _ _ s hs
          · cases hs
  | flush order =>
      simp only [steps, flushHead, flushTail, List.mem_append, List.mem_map, List.mem_cons,
        List.not_mem_nil, or_false] at hs
      rcases hs with (rfl | rfl | rfl | rfl | rfl) | ⟨id, -, rfl⟩ | (rfl | rfl | rfl | rfl) <;> rfl
  | _ => exact List.mem_singleton.mp hs ▸ rfl

omit [H3.Codec] in
theorem InOrder.ask (h : InOrder requests [] e) (bidi : Bool) (requestId : Nat) :
    InOrder (fun b => requests b ++ ((Call.openStream bidi requestId).request b).toList) []
      { e with pendingOpens := e.pendingOpens ++ [(bidi, requestId)] } := by
  refine ⟨fun b => ?_, h.ids, h.next, h.bounded, h.unseeded⟩
  have hone : ((Call.openStream bidi requestId).request b).toList =
      ofDirection b [(bidi, requestId)] := by
    simp only [Call.request, ofDirection, List.filterMap_cons, List.filterMap_nil]
    split <;> rfl
  have hb := h.order b
  simp only [ofDirection, List.filterMap_nil, List.append_nil] at hb
  rw [hone, hb, ofDirection_append, List.append_assoc]
  simp [ofDirection]

omit [H3.Codec] in
theorem releasePendingOpens_flags (e : Endpoint) : e.releasePendingOpens.ready = e.ready ∧
    e.releasePendingOpens.closed = e.closed := by
  refine releasePendingOpens_invariant (I := fun s => s.ready = e.ready ∧ s.closed = e.closed)
    (fun _ _ h => h) (fun s bidi requestId _ _ _ h => ?_) ⟨rfl, rfl⟩
  cases bidi <;> exact h

theorem Requesting.call (h : Requesting requests e) {c : Call} (hc : e.Admissible c) :
    Requesting (fun bidi => requests bidi ++ (c.request bidi).toList) (e.call c) := by
  by_cases hnone : ∀ bidi, c.request bidi = none
  · have hsame : (fun bidi => requests bidi ++ (c.request bidi).toList) = requests := by
      funext bidi
      simp [hnone bidi]
    rw [hsame, call_eq]
    exact execute_invariant (I := Requesting requests) (fun _ _ hI hs => hI.step hs.1 hs.2) h
      (along_and (steps_admissible hc)
        (along_of_forall fun s hs _ => steps_not_openStream e hnone s hs))
  · cases c with
    | openStream bidi requestId =>
        have hstep : e.StepAdmissible (.openStream bidi requestId) := trivial
        obtain ⟨hgated, hknown⟩ := gated_known_whole.step h.layout hstep ⟨h.gated, h.known⟩
        refine ⟨h.layout.step hstep, hgated, hknown, ?_⟩
        exact ((h.filed.ask bidi requestId).releasePendingOpens (h.gated.seeded h.known)).1
    | _ => exact absurd (fun _ => rfl) hnone

/-- What a release leaves waiting is blocked still when the call is over. -/
theorem Requesting.stuck (h : Requesting requests e) {c : Call} (hc : c.releases = true)
    (hready : (e.call c).ready = true) (hclosed : (e.call c).closed = false) : (e.call c).Stuck := by
  cases c with
  | openStream bidi requestId =>
      have hq := step_quiet h.layout (s := .openStream bidi requestId) rfl
      exact ((h.filed.ask bidi requestId).releasePendingOpens (h.gated.seeded h.known)).2
        (hq.ready.symm.trans hready) (hq.closed.symm.trans hclosed)
  | flush order =>
      have hhead : Idle e e.takeTerminalError.grantCredit.replenish.queueClose :=
        (((Idle.takeTerminalError e).trans (.grantCredit _)).trans (.replenish _)).trans (.queueClose _)
      have hfiled := h.filed.idle hhead
      have hseeded := hhead.peerSettings ▸ hhead.ready ▸ h.gated.seeded h.known
      simp only [Endpoint.call, Endpoint.flush] at hready hclosed ⊢
      generalize e.takeTerminalError.grantCredit.replenish.queueClose = e1 at *
      have htail : Idle e1.releasePendingOpens (((order.order e1.releasePendingOpens.streams.keys).foldl
          Endpoint.flushStream e1.releasePendingOpens).commitSent.signalFlowControlBlocked.prune.gracefulClose) := by
        have hloop : ∀ (ids : List Nat) (s : Endpoint), Idle s (ids.foldl Endpoint.flushStream s) := by
          intro ids
          induction ids with
          | nil => exact Idle.refl
          | cons id ids ih => exact fun s => (Idle.flushStream s id).trans (ih _)
        have hcommit : ∀ s : Endpoint, Idle s s.commitSent := fun s =>
          .quiet rfl rfl (fun _ => rfl) rfl rfl rfl (fun _ => rfl) rfl
        have hprune : ∀ s : Endpoint, Idle s s.prune := fun s =>
          .quiet rfl rfl (fun _ => rfl) rfl rfl rfl (fun _ => rfl) rfl
        exact ((((hloop _ _).trans (hcommit _)).trans (.signalFlowControlBlocked _)).trans
          (hprune _)).trans (.gracefulClose _)
      obtain ⟨hready', hclosed'⟩ := releasePendingOpens_flags e1
      exact ((hfiled.releasePendingOpens hseeded).2 (hready'.symm.trans (htail.ready.symm.trans hready))
        (hclosed'.symm.trans (htail.closed.symm.trans hclosed))).idle htail
  | _ => cases hc

/-- The requests of a run. -/
def requested (bidi : Bool) (calls : List Call) : List Nat := calls.filterMap (Call.request bidi)

theorem Requesting.run (h : Requesting requests e) {calls : List Call} :
    Along Endpoint.call Admissible e calls →
      Requesting (fun bidi => requests bidi ++ requested bidi calls) (execute Endpoint.call e calls) := by
  induction calls generalizing e requests with
  | nil =>
      intro _
      simpa [requested] using h
  | cons c calls ih =>
      intro hrun
      have hrest := ih (h.call hrun.1) hrun.2
      have hsame : (fun bidi => (requests bidi ++ (c.request bidi).toList) ++ requested bidi calls) =
          fun bidi => requests bidi ++ requested bidi (c :: calls) := by
        funext bidi
        cases hc : c.request bidi <;> simp [requested, hc]
      rw [hsame] at hrest
      exact hrest

omit [H3.Codec] in
theorem Start.filed (h : Start e) : InOrder (fun _ => []) [] e := by
  cases h with
  | client | server =>
      refine ⟨fun _ => rfl, fun _ => rfl, fun bidi => ?_, fun _ _ => Nat.zero_le _, fun _ _ => rfl⟩
      cases bidi <;> rfl

theorem Start.requesting (h : Start e) : Requesting (fun _ => []) e := by
  refine ⟨h.layout, h.gated, ?_, h.filed⟩
  rintro ⟨s, hs⟩
  cases h <;> cases hs

/-- An answer to the request. -/
def answers (requestId : Nat) : Ev → Bool
  | .streamOpened r _ => r == requestId
  | _ => false

/-- A call that makes the request. -/
def asks (requestId : Nat) : Call → Bool
  | .openStream _ r => r == requestId
  | _ => false

/-- How the requests of a run were answered. -/
structure Answers (calls : List Call) (e : Endpoint) : Prop where
  /-- Every request has been answered or waits, as often as it was made. -/
  once : ∀ requestId, calls.countP (asks requestId) =
    e.ev.countP (answers requestId) + e.pendingOpens.countP (·.2 == requestId)
  /-- The requests of a direction are answered in their order. -/
  order : ∀ bidi, requested bidi calls =
    (answered bidi e.ev).map Prod.fst ++ ofDirection bidi e.pendingOpens
  /-- They are answered with every fourth id from the first one on. -/
  ids : ∀ bidi, (answered bidi e.ev).map Prod.snd =
    (List.range (answered bidi e.ev).length).map fun k => firstId e.cfg.isServer bidi + 4 * k
  /-- The type bits match, and the id has no other use. -/
  apart : ∀ bidi, ∀ p ∈ answered bidi e.ev, isLocal p.2 e.cfg.isServer = true ∧ isBidi p.2 = bidi ∧
    p.2 ≠ connectId ∧ p.2 ∉ controlIds e.cfg.isServer ∧
    ∀ role, e.roleOf p.2 = some role → role ≠ .peerControl ∧ ∀ encoder, role ≠ .peerQpack encoder
  bounded : e.usesSessionFlowControl = true →
    ∀ bidi, (answered bidi e.ev).length ≤ e.fcMaxStreamsRemote bidi

omit [H3.Codec] in
theorem count_ofDirection (l : List (Bool × Nat)) (requestId : Nat) :
    l.countP (·.2 == requestId) =
      (ofDirection true l).count requestId + (ofDirection false l).count requestId := by
  induction l with
  | nil => rfl
  | cons q l ih =>
      obtain ⟨b, r⟩ := q
      have hcons : ∀ bidi, ofDirection bidi ((b, r) :: l) =
          (if b = bidi then [r] else []) ++ ofDirection bidi l := by
        intro bidi
        by_cases hb : b = bidi <;> simp [ofDirection, hb]
      rw [hcons, hcons, List.countP_cons, ih]
      cases b <;> simp [List.count_cons] <;> omega

omit [H3.Codec] in
theorem count_answered (l : List Ev) (requestId : Nat) : l.countP (answers requestId) =
    ((answered true l).map Prod.fst).count requestId +
      ((answered false l).map Prod.fst).count requestId := by
  induction l with
  | nil => rfl
  | cons v l ih =>
      have hcons : ∀ bidi, answered bidi (v :: l) = answered bidi [v] ++ answered bidi l :=
        fun bidi => answered_append bidi [v] l
      rw [hcons, hcons, List.countP_cons, ih, List.map_append, List.map_append, List.count_append,
        List.count_append]
      cases v with
      | streamOpened r id =>
          cases hb : isBidi id <;> simp [answered, answers, hb, List.count_cons] <;> omega
      | _ => simp [answered, answers]

omit [H3.Codec] in
theorem count_requested (calls : List Call) (requestId : Nat) : calls.countP (asks requestId) =
    (requested true calls).count requestId + (requested false calls).count requestId := by
  induction calls with
  | nil => rfl
  | cons c calls ih =>
      have hcons : ∀ bidi, requested bidi (c :: calls) =
          (c.request bidi).toList ++ requested bidi calls := by
        intro bidi
        cases hc : c.request bidi <;> simp [requested, hc]
      rw [hcons, hcons, List.countP_cons, ih, List.count_append, List.count_append]
      cases c with
      | openStream b r => cases b <;> simp [Call.request, asks, List.count_cons] <;> omega
      | _ => simp [Call.request, asks]

/-- Requests for streams are answered once each, in order, with the ids of their
direction and within the peer's limit; and what waits behind a release is blocked
by the limit of its own direction. -/
theorem opens_answered (hstart : Start e) {calls : List Call}
    (hrun : Along Endpoint.call Admissible e calls) :
    Answers calls (execute Endpoint.call e calls) ∧
      ∀ before c, calls = before ++ [c] → c.releases = true →
        (execute Endpoint.call e calls).ready = true → (execute Endpoint.call e calls).closed = false →
        ∀ bidi, ofDirection bidi (execute Endpoint.call e calls).pendingOpens ≠ [] →
          (execute Endpoint.call e calls).Blocked bidi := by
  have h := hstart.requesting.run hrun
  have horder : ∀ bidi, requested bidi calls =
      (answered bidi (execute Endpoint.call e calls).ev).map Prod.fst ++
        ofDirection bidi (execute Endpoint.call e calls).pendingOpens := by
    intro bidi
    have hb := h.filed.order bidi
    simpa [ofDirection] using hb
  refine ⟨⟨fun requestId => ?_, horder, h.filed.ids, fun bidi p hp => ?_, h.filed.bounded⟩,
    fun before c hcalls hc hready hclosed => ?_⟩
  · rw [count_requested, count_answered, count_ofDirection, horder, horder, List.count_append,
      List.count_append]
    omega
  · have hmem : p.2 ∈ (answered bidi (execute Endpoint.call e calls).ev).map Prod.snd :=
      List.mem_map_of_mem hp
    rw [h.filed.ids] at hmem
    obtain ⟨k, -, hk⟩ := List.mem_map.mp hmem
    have hlocal := isLocal_ownId (execute Endpoint.call e calls).cfg.isServer bidi k
    rw [← hk]
    refine ⟨hlocal, isBidi_ownId _ _ _, ownId_ne_connectId _ _ _,
      fun hcontrol => controlIds_ne_ownId hcontrol _ _ rfl, fun role hrole => ?_⟩
    have hfits := h.layout.roles _ role hrole
    constructor
    · rintro rfl
      simp [RoleFits, hlocal] at hfits
    · rintro encoder rfl
      simp [RoleFits, hlocal] at hfits
  · subst hcalls
    obtain ⟨hbefore, hlast⟩ := along_append.mp hrun
    rw [execute_append] at hready hclosed ⊢
    exact (hstart.requesting.run hbefore).stuck hc hready hclosed

end

/-- Streams asked for before and after the session is ready. -/
def openRun : List Call :=
  .openStream true 1 :: serverHandshake ++ [.openStream false 2, .openStream true 3, flushOnce]

theorem openRun_admissible :
    letI := H3.Codec.plain
    Along Endpoint.call Admissible sampleServer openRun := by
  decide +kernel

theorem opens_answered_sample :
    letI := H3.Codec.plain
    Answers openRun (execute Endpoint.call sampleServer openRun) :=
  letI := H3.Codec.plain
  (opens_answered sampleServer_start openRun_admissible).1

end Endpoint

end RWebTransport
