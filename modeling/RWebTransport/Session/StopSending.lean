import RWebTransport.Session.Pruning
import RWebTransport.Session.Change

/-!
# STOP_SENDING

A stop by the peer is noticed when `stream_send` reports it.  Along every run in
which a flush finds something to send on a stopped stream the first time, and
nothing after that, the application is told once and the stream is retired.

Most steps leave all of this `Still`: they tell of no stop, open nothing and
mark no send side as finished.
-/

namespace RWebTransport

/-- The application is told that the peer stopped the stream. -/
def Ev.isStop (id : Nat) : Ev → Bool
  | .streamStopSending i _ => i == id
  | _ => false

/-- How often the application was told. -/
def stops (id : Nat) (ev : List Ev) : Nat := ev.countP (Ev.isStop id)

/-- Neither a stop nor a new stream to write to. -/
def Ev.isStill : Ev → Bool
  | .streamStopSending _ _ | .streamOpened _ _ | .incomingStream _ true => false
  | _ => true

@[simp]
theorem stops_append (id : Nat) (a b : List Ev) : stops id (a ++ b) = stops id a + stops id b :=
  List.countP_append

theorem stops_of_still {id : Nat} {l : List Ev} (h : ∀ v ∈ l, v.isStill = true) : stops id l = 0 := by
  unfold stops
  rw [List.countP_eq_zero]
  intro v hv
  have hstill := h v hv
  cases v with
  | streamStopSending i code => cases hstill
  | _ => simp [Ev.isStop]

namespace Endpoint

open Quic (isBidi isLocal)
open Quic.Connection (Send streamSend_spec)

/-! ## The property -/

/-- A data stream that the session has not reset and whose FIN quiche has not
accepted. -/
structure Unended (e : Endpoint) (id : Nat) : Prop where
  writable : e.Writable id
  unreset : .streamReset id ∉ e.history
  fin : (e.conn.streams id).send.fin = false

/-- Such a stream of which `stream_send` reports that the peer stopped it. -/
structure Stopped (e : Endpoint) (id : Nat) : Prop extends e.Unended id where
  reported : ∃ code, (e.conn.streamSend id [] false).1 = .error (.streamStopped code)

/-- The application was told once, and nothing is left to send. -/
structure Retired (e : Endpoint) (id : Nat) : Prop where
  told : stops id e.ev = 1
  entry : ∀ st, e.streams.get id = some st → st.out = [] ∧ st.finSent = true

/-- Every stopped stream is retired. -/
def StopsRetired (e : Endpoint) : Prop := ∀ id, e.Stopped id → e.Retired id

/-- What a step must avoid: an entry made anew for an unended stream of our own,
and a flush of a stopped stream that sends nothing while the application does
not know, or has something to send when it knows. -/
def KeepsStops (e : Endpoint) : Step → Prop
  | .touch id => e.Unended id → e.streams.contains id = true ∨ isLocal id e.cfg.isServer = false
  | .flushStream id => e.Stopped id → (stops id e.ev = 0 → e.Notices id) ∧
      (stops id e.ev ≠ 0 → ∀ st, e.streams.get id = some st → st.out = [])
  | _ => True

/-! ## The invariant -/

/-- The marks of the send sides agree with what the application was told. -/
structure Heard (e : Endpoint) : Prop where
  apart : ∀ id, e.Writable id → id ≠ connectId ∧ id ∉ controlIds e.cfg.isServer
  known : ∀ id, stops id e.ev ≠ 0 →
    e.Writable id ∨ id = connectId ∨ id ∈ controlIds e.cfg.isServer
  once : ∀ id, e.Unended id →
    stops id e.ev = 0 ∨ stops id e.ev = 1 ∧ (e.conn.streams id).send.error.isSome = true
  entry : ∀ id st, e.streams.get id = some st → e.Unended id →
    (st.finSent = true ↔ stops id e.ev ≠ 0)
  gone : ∀ id, e.streams.get id = none → e.Unended id → stops id e.ev ≠ 0
  idle : ∀ id st, e.streams.get id = some st → ¬e.Writable id → id ≠ connectId →
    id ∉ controlIds e.cfg.isServer → st.out = [] ∧ st.finQueued = false ∧ st.finSent = false

/-- The application has been told of no stop and of no new stream, and no send
side was marked but by a reset. -/
structure Still (e e' : Endpoint) : Prop where
  cfg : e'.cfg = e.cfg
  ev : ∃ l, e'.ev = e.ev ++ l ∧ ∀ v ∈ l, v.isStill = true
  history : ∀ t ∈ e.history, t ∈ e'.history
  fin : ∀ id, (e.conn.streams id).send.fin = true → (e'.conn.streams id).send.fin = true
  error : ∀ id, (e.conn.streams id).send.error.isSome = true →
    (e'.conn.streams id).send.error.isSome = true
  entry : ∀ id st', id ≠ connectId → id ∉ controlIds e.cfg.isServer → e'.streams.get id = some st' →
    ∃ st, e.streams.get id = some st ∧
      (.streamReset id ∈ e'.history ∨ st'.finSent = st.finSent) ∧
      (¬e.Writable id → st'.out = st.out ∧ st'.finQueued = st.finQueued ∧ st'.finSent = st.finSent)
  gone : ∀ id, e.Writable id → e'.streams.get id = none → e.streams.get id = none

section

variable {e e' : Endpoint}

theorem Layout.writable_ne (hl : e.Layout) {id : Nat} (h : e.Writable id) :
    id ≠ connectId ∧ id ∉ controlIds e.cfg.isServer := by
  refine ⟨hl.surfaced_ne h.surfaced, ?_⟩
  rcases h with ⟨r, hr⟩ | hin
  · obtain ⟨bidi, k, rfl, -⟩ := hl.opened r id hr
    exact fun hmem => controlIds_ne_ownId hmem _ _ rfl
  · exact fun hmem => by simpa [(hl.incoming id true hin).1] using controlIds_local hmem

theorem Still.stops_eq (h : Still e e') (id : Nat) : stops id e'.ev = stops id e.ev := by
  obtain ⟨l, hl, hstill⟩ := h.ev
  rw [hl, stops_append, stops_of_still hstill, Nat.add_zero]

theorem Still.writable (h : Still e e') {id : Nat} : e'.Writable id ↔ e.Writable id := by
  obtain ⟨l, hl, hstill⟩ := h.ev
  constructor
  · rintro (⟨r, hr⟩ | hin)
    · rw [hl] at hr
      rcases List.mem_append.mp hr with hr | hr
      · exact .inl ⟨r, hr⟩
      · cases hstill _ hr
    · rw [hl] at hin
      rcases List.mem_append.mp hin with hin | hin
      · exact .inr hin
      · cases hstill _ hin
  · exact fun h => h.mono fun v hv => hl ▸ List.mem_append_left _ hv

theorem Still.unended (h : Still e e') {id : Nat} (hu : e'.Unended id) : e.Unended id := by
  refine ⟨h.writable.mp hu.writable, fun hr => hu.unreset (h.history _ hr), ?_⟩
  cases hfin : (e.conn.streams id).send.fin with
  | false => rfl
  | true => exact absurd (h.fin id hfin) (by simp [hu.fin])

/-- Still steps keep the marks right. -/
theorem Heard.still (hh : e.Heard) (h : Still e e') : e'.Heard where
  apart id hw := by
    rw [h.cfg]
    exact hh.apart id (h.writable.mp hw)
  known id hs := by
    rw [h.stops_eq] at hs
    rw [h.writable, h.cfg]
    exact hh.known id hs
  once id hu := by
    rw [h.stops_eq]
    exact (hh.once id (h.unended hu)).imp_right fun hs => ⟨hs.1, h.error id hs.2⟩
  entry id st' hg hu := by
    have hne := hh.apart id (h.unended hu).writable
    obtain ⟨st, hst, hfin, -⟩ := h.entry id st' hne.1 hne.2 hg
    rw [hfin.resolve_left hu.unreset, h.stops_eq]
    exact hh.entry id st hst (h.unended hu)
  gone id hg hu := by
    rw [h.stops_eq]
    exact hh.gone id (h.gone id (h.unended hu).writable hg) (h.unended hu)
  idle id st' hg hw hne hctl := by
    rw [h.writable] at hw
    rw [h.cfg] at hctl
    obtain ⟨st, hst, -, hsame⟩ := h.entry id st' hne hctl hg
    obtain ⟨hout, hfinQueued, hfinSent⟩ := hsame hw
    rw [hout, hfinQueued, hfinSent]
    exact hh.idle id st hst hw hne hctl

end

/-! ## Reading -/

/-- What was emitted and recorded is not of the send side, and no new stream was
told of. -/
structure Silent (e e' : Endpoint) : Prop where
  ev : ∃ l, e'.ev = e.ev ++ l ∧ ∀ v ∈ l, v.isStill = true ∧ v.isQuiet = false
  history : ∃ l, e'.history = e.history ++ l ∧ ∀ t ∈ l, t.isQuiet = false

namespace Silent

theorem of_eq {e e' : Endpoint} (hev : e'.ev = e.ev) {l : List Trace}
    (hhistory : e'.history = e.history ++ l) (hl : ∀ t ∈ l, t.isQuiet = false) : Silent e e' :=
  ⟨⟨[], by simp [hev]⟩, l, hhistory, hl⟩

theorem of_same {e e' : Endpoint} (hev : e'.ev = e.ev) (hhistory : e'.history = e.history) :
    Silent e e' :=
  of_eq hev (l := []) (by simp [hhistory]) (by simp)

theorem emit (e : Endpoint) {v : Ev} (h : v.isStill = true ∧ v.isQuiet = false) :
    Silent e (e.emit v) :=
  ⟨⟨[v], rfl, by simpa using h⟩, [], (List.append_nil _).symm, by simp⟩

theorem trans {a b c : Endpoint} (hab : Silent a b) (hbc : Silent b c) : Silent a c := by
  obtain ⟨⟨l, hl, hls⟩, m, hm, hms⟩ := hab
  obtain ⟨⟨l', hl', hls'⟩, m', hm', hms'⟩ := hbc
  exact ⟨⟨l ++ l', by rw [hl', hl, List.append_assoc], List.forall_mem_append.mpr ⟨hls, hls'⟩⟩,
    m ++ m', by rw [hm', hm, List.append_assoc], List.forall_mem_append.mpr ⟨hms, hms'⟩⟩

theorem markClosed (e : Endpoint) (code : Nat) (reason : Bytes) (remote : Bool) :
    Silent e (e.markClosed code reason remote) := by
  cases h : e.closed with
  | true =>
      rw [Endpoint.markClosed, if_pos h]
      exact of_same rfl rfl
  | false =>
      have hhistory := (markClosed_flags e code reason remote).2.2.2.2
      exact ⟨⟨_, markClosed_ev h code reason remote, by simp [Ev.isStill, Ev.isQuiet]⟩, [],
        by simp [hhistory], by simp⟩

theorem refuse (e : Endpoint) (id : Nat) (frame : Option Bytes) (messages : List String)
    (status : Nat) : Silent e (e.refuse id frame messages status) := by
  have hrest : ∀ s : Endpoint,
      Silent s (((s.emitErrors messages).log (.rejected status)).markClosed 0 [] false) := by
    intro s
    have herrors : Silent s ((s.emitErrors messages).log (.rejected status)) :=
      ⟨⟨messages.map Ev.error, rfl, by simp [Ev.isStill, Ev.isQuiet]⟩, [.rejected status], rfl,
        by simp [Trace.isQuiet]⟩
    exact herrors.trans (.markClosed _ _ _ _)
  cases frame with
  | none => exact hrest e
  | some frame => exact (of_same rfl rfl : Silent e (e.respond id frame true)).trans (hrest _)

end Silent

variable [H3.Codec]

section

variable {r : Nat} {e e' : Endpoint}

/-- Reading tells of nothing but new streams of the peer. -/
theorem Effect.silent (h : Effect r e e') : Silent e e' ∨
    e' = e.emit (.incomingStream r true) ∧ e.roleOf r = some (.wtData true) ∧
      isLocal r e.cfg.isServer = false := by
  have htake : ∀ id block, Silent e (e.takeHeaders id block) := fun id block =>
    .of_eq rfl (l := [_]) rfl (by simp [Trace.isQuiet])
  cases h with
  | heap | frames | classBuf | capsuleBuf | controlDone | terminal | closeConn | kill
  | connectRefused | classify | discard | resolve | count | recvDead | forget =>
      exact .inl (.of_same rfl rfl)
  | @log t ht =>
      refine .inl (.of_eq rfl (l := [t]) rfl ?_)
      cases t <;> simp_all [Trace.isInput, Trace.isQuiet]
  | settings | connect | headers | moreHeaders | charge =>
      exact .inl (.of_eq rfl (l := [_]) rfl (by simp [Trace.isQuiet]))
  | credit =>
      refine .inl ?_
      unfold setCreditLimit
      split_ifs <;> exact .of_same rfl rfl
  | fail => exact .inl ((Silent.emit e ⟨rfl, rfl⟩).trans (.markClosed _ _ _ _))
  | finish => exact .inl (.markClosed e _ _ _)
  | killFail =>
      have hkill : Silent e (e.killRecv r) := .of_same rfl rfl
      exact .inl ((hkill.trans (.emit _ ⟨rfl, rfl⟩)).trans (.markClosed _ _ _ _))
  | draining | unrequested =>
      exact .inl ⟨⟨[_], rfl, by simp [Ev.isStill, Ev.isQuiet]⟩, [], (List.append_nil _).symm, by simp⟩
  | undecoded | unanswered => exact .inl ((htake _ _).trans (.emit _ ⟨rfl, rfl⟩))
  | ready | accept =>
      exact .inl ⟨⟨[_], rfl, by simp [Ev.isStill, Ev.isQuiet]⟩, [_, .ready], List.append_assoc _ _ _,
        by simp [Trace.isQuiet]⟩
  | reject => exact .inl ((htake _ _).trans (.refuse _ _ _ _ _))
  | refuse => exact .inl (.refuse e _ _ _ _)
  | @incoming bidi hrole hc hl =>
      cases bidi with
      | false => exact .inl (.emit e ⟨rfl, rfl⟩)
      | true => exact .inr ⟨rfl, hrole, hl⟩
  | data => exact .inl (.emit e ⟨rfl, rfl⟩)
  | finished | reset =>
      have hdead : Silent e (e.setRecvDead r) := .of_same rfl rfl
      exact .inl (hdead.trans (.emit _ ⟨rfl, rfl⟩))
  | resetFail =>
      have hdead : Silent e (e.setRecvDead r) := .of_same rfl rfl
      exact .inl ((hdead.trans (.emit _ ⟨rfl, rfl⟩)).trans (.markClosed _ _ _ _))
  | resetClose =>
      have hdead : Silent e (e.setRecvDead r) := .of_same rfl rfl
      exact .inl (hdead.trans (.markClosed _ _ _ _))

omit [H3.Codec] in
/-- Reading changes no send side but that of CONNECT. -/
theorem EntryEffect.sendSide {st st' : Stream} (h : EntryEffect st st') (hrole : st.role ≠ .connect) :
    st'.out = st.out ∧ st'.finQueued = st.finQueued ∧ st'.finSent = st.finSent := by
  cases h with
  | respond _ _ _ hr | refuse _ _ hr => exact absurd hr hrole
  | _ => exact ⟨rfl, rfl, rfl⟩

/-- Reading is still, where it does not tell of a new stream. -/
theorem Effect.still (h : Effect r e e') (hl : e.Layout) (hs : Silent e e') : Still e e' where
  cfg := h.cfg
  ev := by
    obtain ⟨l, hl, hstill⟩ := hs.ev
    exact ⟨l, hl, fun v hv => (hstill v hv).1⟩
  history t ht := by
    obtain ⟨l, hl, -⟩ := hs.history
    exact hl ▸ List.mem_append_left _ ht
  fin id hfin := by rwa [h.send]
  error id herr := by rwa [h.send]
  entry id st' hne hctl hg := by
    rcases h.entry hg with ⟨st, hst, heff⟩ | ⟨hid, -⟩
    · have hrole : st.role ≠ .connect := fun hr =>
        hne (hl.roles id .connect (by simp [Endpoint.roleOf, hst, hr]))
      obtain ⟨hout, hfinQueued, hfinSent⟩ := heff.sendSide hrole
      exact ⟨st, hst, .inr hfinSent, fun _ => ⟨hout, hfinQueued, hfinSent⟩⟩
    · exact absurd hid hne
  gone id hw hnone := by
    cases hst : e.streams.get id with
    | none => rfl
    | some st =>
        have hrole : e.roleOf id = some st.role := by simp [Endpoint.roleOf, hst]
        rcases h.pending_of_removed hst hnone with hp | hp
        · exact absurd hw.surfaced (hl.pending_new (.inl (hp ▸ hrole)))
        · exact absurd hw.surfaced (hl.pending_new (.inr (hp ▸ hrole)))

omit [H3.Codec] in
/-- A stream of the peer that the application gets to know has no marks yet. -/
theorem Heard.incoming (hh : e.Heard) (hsome : e.roleOf r ≠ none)
    (hpeer : isLocal r e.cfg.isServer = false) (hne : r ≠ connectId) :
    (e.emit (.incomingStream r true)).Heard := by
  have hctl : r ∉ controlIds e.cfg.isServer := fun hmem => by
    simpa [hpeer] using controlIds_local hmem
  have hstops : ∀ id, stops id (e.emit (.incomingStream r true)).ev = stops id e.ev := by
    intro id
    show stops id (e.ev ++ [.incomingStream r true]) = _
    rw [stops_append]
    rfl
  have hwritable : ∀ {id}, (e.emit (.incomingStream r true)).Writable id ↔ e.Writable id ∨ id = r := by
    intro id
    simp [Writable, emit, or_assoc]
  have hold : ∀ {id}, (e.emit (.incomingStream r true)).Unended id → id ≠ r ∨ e.Writable r →
      e.Unended id := by
    intro id hu hid
    refine ⟨?_, hu.unreset, hu.fin⟩
    rcases hwritable.mp hu.writable with hw | rfl
    · exact hw
    · exact hid.resolve_left fun h => h rfl
  have hnew : ¬e.Writable r → stops r e.ev = 0 := by
    intro hw
    by_contra hs
    exact (hh.known r hs).elim hw fun h => h.elim hne hctl
  refine ⟨fun id hw => ?_, fun id hs => ?_, fun id hu => ?_, fun id st hg hu => ?_,
    fun id hg hu => ?_, fun id st hg hw hidne hidctl => ?_⟩
  · rcases hwritable.mp hw with hw | rfl
    · exact hh.apart id hw
    · exact ⟨hne, hctl⟩
  · rw [hstops] at hs
    rw [hwritable, or_assoc]
    exact (hh.known id hs).imp_right .inr
  · rw [hstops]
    by_cases hid : id ≠ r ∨ e.Writable r
    · exact hh.once id (hold hu hid)
    · obtain ⟨rfl, hw⟩ := not_or.mp hid |>.imp_left not_not.mp
      exact .inl (hnew hw)
  · rw [hstops]
    by_cases hid : id ≠ r ∨ e.Writable r
    · exact hh.entry id st hg (hold hu hid)
    · obtain ⟨rfl, hw⟩ := not_or.mp hid |>.imp_left not_not.mp
      simp [hnew hw, (hh.idle id st hg hw hne hctl).2.2]
  · rw [hstops]
    by_cases hid : id ≠ r ∨ e.Writable r
    · exact hh.gone id hg (hold hu hid)
    · obtain ⟨rfl, hw⟩ := not_or.mp hid |>.imp_left not_not.mp
      exact absurd (roleOf_eq_none.mpr hg) hsome
  · exact hh.idle id st hg (fun h => hw (hwritable.mpr (.inl h))) hidne hidctl

/-- Reading keeps the marks right. -/
theorem Effect.heard (h : Effect r e e') (hl : e.Layout) (hh : e.Heard) : e'.Heard := by
  rcases h.silent with hs | ⟨rfl, hrole, hpeer⟩
  · exact hh.still (h.still hl hs)
  · refine hh.incoming (by simp [hrole]) hpeer ?_
    rintro rfl
    cases hst : e.streams.get connectId with
    | none => simp [Endpoint.roleOf, hst] at hrole
    | some st =>
        have hconnect := hl.connectRole st hst
        simp [Endpoint.roleOf, hst, hconnect] at hrole

end

/-! ## Commands -/

namespace Still

omit [H3.Codec]

theorem trans {a b c : Endpoint} (hab : Still a b) (hbc : Still b c) : Still a c where
  cfg := hbc.cfg.trans hab.cfg
  ev := by
    obtain ⟨l, hl, hls⟩ := hab.ev
    obtain ⟨m, hm, hms⟩ := hbc.ev
    exact ⟨l ++ m, by rw [hm, hl, List.append_assoc], List.forall_mem_append.mpr ⟨hls, hms⟩⟩
  history t ht := hbc.history t (hab.history t ht)
  fin id h := hbc.fin id (hab.fin id h)
  error id h := hbc.error id (hab.error id h)
  entry id st'' hne hctl hg := by
    obtain ⟨st', hst', hfin', hsame'⟩ := hbc.entry id st'' hne (hab.cfg ▸ hctl) hg
    obtain ⟨st, hst, hfin, hsame⟩ := hab.entry id st' hne hctl hst'
    refine ⟨st, hst, ?_, fun hw => ?_⟩
    · rcases hfin' with hr | hfin'
      · exact .inl hr
      · rcases hfin with hr | hfin
        · exact .inl (hbc.history _ hr)
        · exact .inr (hfin'.trans hfin)
    · obtain ⟨hout, hq, hs⟩ := hsame hw
      obtain ⟨hout', hq', hs'⟩ := hsame' (fun h => hw (hab.writable.mp h))
      exact ⟨hout'.trans hout, hq'.trans hq, hs'.trans hs⟩
  gone id hw hnone := hab.gone id hw (hbc.gone id (hab.writable.mpr hw) hnone)

/-- The entries and the streams of the connection are as before. -/
theorem of_eq {e e' : Endpoint} (hcfg : e'.cfg = e.cfg) {l : List Ev} (hev : e'.ev = e.ev ++ l)
    (hl : ∀ v ∈ l, v.isStill = true) {m : List Trace} (hhistory : e'.history = e.history ++ m)
    (hconn : e'.conn.streams = e.conn.streams) (hstreams : e'.streams = e.streams) : Still e e' where
  cfg := hcfg
  ev := ⟨l, hev, hl⟩
  history t ht := by
    rw [hhistory]
    exact List.mem_append_left _ ht
  fin id h := by rwa [hconn]
  error id h := by rwa [hconn]
  entry id st' _ _ hg := by
    rw [hstreams] at hg
    exact ⟨st', hg, .inr rfl, fun _ => ⟨rfl, rfl, rfl⟩⟩
  gone id _ hnone := by rwa [hstreams] at hnone

theorem refl (e : Endpoint) : Still e e :=
  of_eq rfl (l := []) (List.append_nil _).symm (by simp) (m := []) (List.append_nil _).symm rfl rfl

theorem log (e : Endpoint) (t : Trace) : Still e (e.log t) :=
  of_eq rfl (l := []) (List.append_nil _).symm (by simp) (m := [t]) rfl rfl rfl

theorem emit (e : Endpoint) {v : Ev} (hv : v.isStill = true) : Still e (e.emit v) :=
  of_eq rfl (l := [v]) rfl (by simpa using hv) (m := []) (List.append_nil _).symm rfl rfl

/-- The connection has changed. -/
theorem conn (e : Endpoint) {c : Quic.Connection}
    (hfin : ∀ id, (c.streams id).send.fin = (e.conn.streams id).send.fin)
    (herr : ∀ id, (e.conn.streams id).send.error.isSome = true →
      (c.streams id).send.error.isSome = true) : Still e { e with conn := c } where
  cfg := rfl
  ev := ⟨[], (List.append_nil _).symm, by simp⟩
  history _ ht := ht
  fin id h := by
    rw [← hfin] at h
    exact h
  error := herr
  entry id st' _ _ hg := ⟨st', hg, .inr rfl, fun _ => ⟨rfl, rfl, rfl⟩⟩
  gone _ _ hnone := hnone

/-- One entry has changed; its queue only if the application may write to it. -/
theorem modify (e : Endpoint) (id : Nat) {f : Stream → Stream}
    (hfin : .streamReset id ∈ e.history ∨ ∀ st, (f st).finSent = st.finSent)
    (hsame : (e.Writable id ∨ id = connectId ∨ id ∈ controlIds e.cfg.isServer) ∨
      ∀ st, (f st).out = st.out ∧ (f st).finQueued = st.finQueued ∧ (f st).finSent = st.finSent) :
    Still e (e.modifyStream id f) where
  cfg := rfl
  ev := ⟨[], (List.append_nil _).symm, by simp⟩
  history _ ht := ht
  fin _ h := h
  error _ h := h
  entry i st' hne hctl hg := by
    by_cases hi : i = id
    · subst hi
      simp only [modifyStream, Table.get_modify_self, Option.map_eq_some_iff] at hg
      obtain ⟨st, hst, rfl⟩ := hg
      refine ⟨st, hst, hfin.imp_right fun h => h st, fun hw => hsame.resolve_left ?_ st⟩
      exact fun h => h.elim hw fun h => h.elim hne hctl
    · rw [show (e.modifyStream id f).streams.get i = e.streams.get i from Table.get_modify_ne hi] at hg
      exact ⟨st', hg, .inr rfl, fun _ => ⟨rfl, rfl, rfl⟩⟩
  gone i _ hnone := by
    simp only [modifyStream, Table.get_modify] at hnone
    split at hnone
    · simpa using hnone
    · exact hnone

/-- What does not concern the data streams is still. -/
theorem of_aside {e e' : Endpoint} (hh : e.Heard) (h : Aside e e') : Still e e' where
  cfg := h.cfg
  ev := by
    obtain ⟨l, hl, hdatagram⟩ := h.ev
    refine ⟨l, hl, fun v hv => ?_⟩
    have hd := hdatagram v hv
    cases v <;> first | rfl | cases hd
  history t ht := by
    obtain ⟨l, hl, -⟩ := h.history
    exact hl ▸ List.mem_append_left _ ht
  fin id hf := by rwa [h.conn]
  error id he := by rwa [h.conn]
  entry id st' hne _ hg := by
    rw [h.get id hne] at hg
    exact ⟨st', hg, .inr rfl, fun _ => ⟨rfl, rfl, rfl⟩⟩
  gone id hw hnone := by rwa [h.get id (hh.apart id hw).1] at hnone

theorem markClosed (e : Endpoint) (code : Nat) (reason : Bytes) (remote : Bool) :
    Still e (e.markClosed code reason remote) := by
  obtain ⟨⟨k, hev, hstill⟩, l, hhistory, -⟩ := Silent.markClosed e code reason remote
  cases hc : e.closed with
  | true =>
      rw [Endpoint.markClosed, if_pos hc]
      exact refl e
  | false =>
      have hstreams := markClosed_streams hc code reason remote
      have hget : ∀ i, (e.markClosed code reason remote).streams.get i =
          (e.streams.get i).map Stream.dead := by
        intro i
        rw [hstreams, Table.get_map]
      refine ⟨markClosed_cfg e code reason remote, ⟨k, hev, fun v hv => (hstill v hv).1⟩, fun t ht => hhistory ▸ List.mem_append_left _ ht,
        fun id h => ?_, fun id h => ?_, fun id st' _ _ hg => ?_, fun id _ hnone => ?_⟩
      · rwa [markClosed_conn]
      · rwa [markClosed_conn]
      · rw [hget] at hg
        obtain ⟨st, hst, rfl⟩ := Option.map_eq_some_iff.mp hg
        exact ⟨st, hst, .inr rfl, fun _ => ⟨rfl, rfl, rfl⟩⟩
      · rw [hget] at hnone
        simpa using hnone

theorem streamWrite {e : Endpoint} {id : Nat} (hw : e.Writable id) (data : Bytes) (requestId : Nat) :
    Still e (e.streamWrite id data requestId) := by
  have hlog := log e (.written id data requestId)
  unfold Endpoint.streamWrite
  simp only
  split_ifs
  · exact hlog.trans (modify _ id (.inr fun _ => rfl) (.inl (.inl (hlog.writable.mpr hw))))
  · exact (hlog.trans (log _ _)).trans (emit _ rfl)

theorem reconcileSendFinalSize (e : Endpoint) (id : Nat) : Still e (e.reconcileSendFinalSize id) := by
  unfold Endpoint.reconcileSendFinalSize
  split
  next finalSize st hfinal hst =>
    simp only
    split_ifs
    · refine (modify e id (f := fun s => { s with sendPayload := finalSize - st.sendPrefix })
        (.inr fun _ => rfl) (.inr fun _ => ⟨rfl, rfl, rfl⟩)).trans ?_
      exact of_eq rfl (l := []) (List.append_nil _).symm (by simp) rfl rfl rfl
    · exact refl e
  · exact refl e

theorem streamReset {e : Endpoint} {id : Nat} (hw : e.Writable id) (code : Nat) :
    Still e (e.streamReset id code) := by
  unfold Endpoint.streamReset
  split_ifs
  · simp only
    generalize hc : e.conn.streamShutdownWrite id (H3.webtransportCodeToHttpCode code) = c
    have hsend : ∀ i, (c.streams i).send.fin = (e.conn.streams i).send.fin ∧
        (c.streams i).send.error = (e.conn.streams i).send.error := by
      intro i
      subst hc
      rcases Quic.Connection.streamShutdownWrite_streams e.conn id
          (H3.webtransportCodeToHttpCode code) i with hs | ⟨rfl, -, -, hs⟩
      · rw [hs]
        exact ⟨rfl, rfl⟩
      · rw [hs]
        simp only [Quic.SendBuf.shutdown]
        split_ifs <;> exact ⟨rfl, rfl⟩
    have hconn : Still e { e.log (.streamReset id) with conn := c } :=
      (log e (.streamReset id)).trans (conn (e.log (.streamReset id)) (fun i => (hsend i).1)
        fun i h => by rwa [(hsend i).2])
    have hreset : .streamReset id ∈ ({ e.log (.streamReset id) with conn := c } : Endpoint).history :=
      List.mem_append_right _ (List.mem_singleton.mpr rfl)
    have hrec := hconn.trans (reconcileSendFinalSize _ id)
    generalize hb : ({ e.log (.streamReset id) with conn := c } : Endpoint).reconcileSendFinalSize id = b
    rw [hb] at hrec
    have hresetb : .streamReset id ∈ b.history := by
      rw [← hb]
      exact (reconcileSendFinalSize _ id).history _ hreset
    have hdrop : Still b (b.dropQueue id) := by
      unfold Endpoint.dropQueue
      split
      · exact refl b
      · exact (modify b id (f := fun st => { st with out := [] }) (.inr fun _ => rfl)
          (.inl (.inl (hrec.writable.mpr hw)))).trans
          (of_eq rfl (l := []) (List.append_nil _).symm (by simp) rfl rfl rfl)
    have hall := hrec.trans hdrop
    exact hall.trans (modify _ id (.inl (hdrop.history _ hresetb)) (.inl (.inl (hall.writable.mpr hw))))
  · exact refl e

theorem streamStopSending (e : Endpoint) (id code : Nat) :
    Still e (e.streamStopSending id code) := by
  unfold Endpoint.streamStopSending
  split_ifs
  · refine Still.trans (b := e.shutdownRead id (H3.webtransportCodeToHttpCode code)) ?_
      (modify _ id (.inr fun _ => rfl) (.inr fun _ => ⟨rfl, rfl, rfl⟩))
    refine conn e (fun i => ?_) fun i h => ?_
    · rw [Quic.Connection.streamShutdownRead_send]
    · rwa [Quic.Connection.streamShutdownRead_send]
  · exact refl e

theorem network {e : Endpoint} (hl : e.Layout) (event : Quic.NetEvent) :
    Still e { e with conn := e.conn.net event } :=
  conn e (fun i => (Quic.Connection.net_flags (fun i => (hl.wellFormed i).absent) event i).2.2.1)
    fun _ h => Quic.Connection.net_stopped (fun i => (hl.wellFormed i).absent) event h

end Still

/-! ## New entries -/

section

variable {e : Endpoint}

omit [H3.Codec]

theorem Unended.congr {e' : Endpoint} {id : Nat} (h : e'.Unended id) (hev : e'.ev = e.ev)
    (hhistory : e'.history = e.history) (hconn : e'.conn = e.conn) : e.Unended id := by
  refine ⟨?_, hhistory ▸ h.unreset, hconn ▸ h.fin⟩
  have hw := h.writable
  unfold Writable at hw ⊢
  rwa [hev] at hw

/-- Other fields have changed. -/
theorem Heard.congr {e' : Endpoint} (h : e.Heard) (hcfg : e'.cfg = e.cfg) (hev : e'.ev = e.ev)
    (hhistory : e'.history = e.history) (hconn : e'.conn = e.conn)
    (hstreams : e'.streams = e.streams) : e'.Heard := by
  have hw : ∀ {id}, e'.Writable id ↔ e.Writable id := by
    intro id
    unfold Writable
    rw [hev]
  refine ⟨fun id hwi => ?_, fun id hs => ?_, fun id hu => ?_, fun id st hg hu => ?_,
    fun id hg hu => ?_, fun id st hg hwi => ?_⟩
  · rw [hcfg]
    exact h.apart id (hw.mp hwi)
  · rw [hw, hcfg]
    exact h.known id (hev ▸ hs)
  · rw [hev, hconn]
    exact h.once id (hu.congr hev hhistory hconn)
  · rw [hev]
    exact h.entry id st (hstreams ▸ hg) (hu.congr hev hhistory hconn)
  · rw [hev]
    exact h.gone id (hstreams ▸ hg) (hu.congr hev hhistory hconn)
  · rw [hcfg]
    exact h.idle id st (hstreams ▸ hg) fun hwe => hwi (hw.mpr hwe)

/-- An entry is made for a stream that is not to be retired. -/
theorem Heard.insert (hh : e.Heard) {id : Nat} {st : Stream} (hu : ¬e.Unended id)
    (hidle : id ∈ controlIds e.cfg.isServer ∨
      st.out = [] ∧ st.finQueued = false ∧ st.finSent = false) : (e.insertStream id st).Heard := by
  have hget : ∀ {i : Nat}, i ≠ id → (e.insertStream id st).streams.get i = e.streams.get i :=
    fun hi => Table.get_insert_ne hi
  have hold : ∀ {i}, (e.insertStream id st).Unended i → i ≠ id ∧ e.Unended i := fun h =>
    ⟨fun hi => hu (hi ▸ h.congr rfl rfl rfl), h.congr rfl rfl rfl⟩
  refine ⟨hh.apart, hh.known, fun i h => hh.once i (hold h).2, fun i st' hg h => ?_, fun i hg h => ?_,
    fun i st' hg hwi hne hctl => ?_⟩
  · rw [hget (hold h).1] at hg
    exact hh.entry i st' hg (hold h).2
  · rw [hget (hold h).1] at hg
    exact hh.gone i hg (hold h).2
  · by_cases hi : i = id
    · subst hi
      obtain rfl : st = st' := by simpa [insertStream] using hg
      exact hidle.resolve_left hctl
    · rw [hget hi] at hg
      exact hh.idle i st' hg hwi hne hctl

theorem Heard.touch (hh : e.Heard) (hl : e.Layout) {id : Nat} (hc : e.closed = false)
    (hr : e.conn.readable id = true)
    (hpeer : e.Unended id → e.streams.contains id = true ∨ isLocal id e.cfg.isServer = false) :
    (e.touch id).Heard := by
  unfold Endpoint.touch
  split_ifs with hcontains
  · exact hh
  · refine hh.insert (fun hu => ?_) (.inr ⟨rfl, rfl, rfl⟩)
    have hnone : e.roleOf id = none := by
      rw [roleOf_eq_none]
      simpa [Table.contains] using hcontains
    rcases hl.gone id ((hpeer hu).resolve_left hcontains) hu.writable.surfaced hnone with hclosed | hx
    · simp [hc] at hclosed
    · simp [Quic.Connection.not_readable_of_exhausted (hl.wellFormed id) hx] at hr

theorem Heard.insertLocal (hh : e.Heard) {id : Nat} (hmem : id ∈ controlIds e.cfg.isServer)
    (hw : ¬e.Writable id) (bytes : Bytes) : (e.insertLocal id bytes).Heard :=
  hh.insert (fun hu => hw hu.writable) (.inl hmem)

theorem Heard.onEstablished (hh : e.Heard) (hl : e.Layout) : e.onEstablished.Heard := by
  have hids : controlId e.cfg.isServer ∈ controlIds e.cfg.isServer ∧
      qpackEncId e.cfg.isServer ∈ controlIds e.cfg.isServer ∧
      qpackDecId e.cfg.isServer ∈ controlIds e.cfg.isServer := by simp [controlIds]
  have hw : ∀ {id}, id ∈ controlIds e.cfg.isServer → ¬e.Writable id :=
    fun hmem hw => (hl.writable_ne hw).2 hmem
  unfold Endpoint.onEstablished
  split_ifs with hsetup
  · exact hh
  · have h1 : Heard { e with setupSent := true } := hh.congr rfl rfl rfl rfl rfl
    have h4 := ((h1.insertLocal hids.1 (hw hids.1) H3.controlStreamPrefix).insertLocal hids.2.1
      (hw hids.2.1) (H3.putVarint H3.qpackEncoderStreamType)).insertLocal hids.2.2 (hw hids.2.2)
      (H3.putVarint H3.qpackDecoderStreamType)
    simp only
    split_ifs
    · exact h4
    · exact h4.congr rfl rfl rfl rfl rfl

/-- The next id of our own is new. -/
theorem Layout.nextId_new (hl : e.Layout) (bidi : Bool) : ¬e.Writable (e.nextId bidi) ∧
    e.nextId bidi ≠ connectId ∧ e.nextId bidi ∉ controlIds e.cfg.isServer := by
  obtain ⟨k, hk⟩ := hl.next bidi
  refine ⟨?_, hk ▸ ownId_ne_connectId _ _ _, fun hmem => controlIds_ne_ownId hmem _ _ hk⟩
  rintro (⟨r, hr⟩ | hin)
  · obtain ⟨b, j, hid, hlt⟩ := hl.opened r _ hr
    have hb : b = bidi := by
      rw [← isBidi_ownId e.cfg.isServer b j, ← hid, hk, isBidi_ownId]
    subst hb
    exact absurd hlt (lt_irrefl _)
  · have hpeer := (hl.incoming _ _ hin).1
    rw [hk, isLocal_ownId] at hpeer
    cases hpeer

theorem Heard.allocateStream (hh : e.Heard) (hl : e.Layout) (bidi : Bool) (requestId : Nat) :
    (e.allocateStream bidi requestId).Heard := by
  obtain ⟨hw, hne, hctl⟩ := hl.nextId_new bidi
  have hnone : stops (e.nextId bidi) e.ev = 0 := by
    by_contra hs
    exact (hh.known _ hs).elim hw fun h => h.elim hne hctl
  have hev : (e.allocateStream bidi requestId).ev = e.ev ++ [.streamOpened requestId (e.nextId bidi)] := by
    cases bidi <;> rfl
  have hcfg : (e.allocateStream bidi requestId).cfg = e.cfg := by cases bidi <;> rfl
  have hconn : (e.allocateStream bidi requestId).conn = e.conn := by cases bidi <;> rfl
  have hhistory : (e.allocateStream bidi requestId).history = e.history := by cases bidi <;> rfl
  have hstreams : (e.allocateStream bidi requestId).streams = e.streams.insert (e.nextId bidi)
      (.withPrefix (.wtData bidi) (streamSignal bidi) e.parserMemory) := by
    cases bidi <;> rfl
  have hstops : ∀ id, stops id (e.allocateStream bidi requestId).ev = stops id e.ev := by
    intro id
    rw [hev, stops_append]
    rfl
  have hmono : ∀ {id}, e.Writable id → (e.allocateStream bidi requestId).Writable id :=
    fun h => h.mono fun v hv => hev ▸ List.mem_append_left _ hv
  have hwold : ∀ {id}, id ≠ e.nextId bidi → (e.allocateStream bidi requestId).Writable id →
      e.Writable id := by
    intro id hid hwi
    rcases hwi with ⟨r, hr⟩ | hin
    · rw [hev, List.mem_append, List.mem_singleton, Ev.streamOpened.injEq] at hr
      exact .inl ⟨r, hr.resolve_right fun h => hid h.2⟩
    · rw [hev] at hin
      exact .inr (by simpa using hin)
  have hold : ∀ {id}, id ≠ e.nextId bidi → (e.allocateStream bidi requestId).Unended id →
      e.Unended id := fun hid hu => ⟨hwold hid hu.writable, hhistory ▸ hu.unreset, hconn ▸ hu.fin⟩
  have hget : ∀ {i}, i ≠ e.nextId bidi →
      (e.allocateStream bidi requestId).streams.get i = e.streams.get i := by
    intro i hi
    rw [hstreams, Table.get_insert_ne hi]
  refine ⟨fun id hwi => ?_, fun id hs => ?_, fun id hu => ?_, fun id st hg hu => ?_,
    fun id hg hu => ?_, fun id st hg hwi hidne hidctl => ?_⟩
  · rw [hcfg]
    by_cases hid : id = e.nextId bidi
    · exact hid ▸ ⟨hne, hctl⟩
    · exact hh.apart id (hwold hid hwi)
  · rw [hstops] at hs
    rw [hcfg]
    exact (hh.known id hs).imp_left hmono
  · rw [hstops, hconn]
    by_cases hid : id = e.nextId bidi
    · exact .inl (hid ▸ hnone)
    · exact hh.once id (hold hid hu)
  · rw [hstops]
    by_cases hid : id = e.nextId bidi
    · subst hid
      rw [hstreams, Table.get_insert_self] at hg
      obtain rfl := Option.some.inj hg
      simp [hnone, Stream.withPrefix, Stream.new]
    · exact hh.entry id st (hget hid ▸ hg) (hold hid hu)
  · rw [hstops]
    by_cases hid : id = e.nextId bidi
    · subst hid
      rw [hstreams, Table.get_insert_self] at hg
      cases hg
    · exact hh.gone id (hget hid ▸ hg) (hold hid hu)
  · by_cases hid : id = e.nextId bidi
    · subst hid
      exact absurd (.inl ⟨requestId, by rw [hev]; simp⟩) hwi
    · exact hh.idle id st (hget hid ▸ hg) (fun h => hwi (hmono h)) hidne (hcfg ▸ hidctl)

theorem Heard.releasePendingOpens (hh : e.Heard) (hl : e.Layout) : e.releasePendingOpens.Heard := by
  have hboth := releasePendingOpens_invariant (I := fun s => s.Layout ∧ s.Heard)
    (fun s l h => ⟨h.1.same (.session rfl rfl rfl rfl rfl rfl rfl rfl rfl),
      h.2.still (.of_eq rfl (l := []) (List.append_nil _).symm (by simp) (m := [])
        (List.append_nil _).symm rfl rfl)⟩)
    (fun s bidi requestId _ _ _ h => ⟨h.1.allocateStream bidi requestId,
      h.2.allocateStream h.1 bidi requestId⟩) ⟨hl, hh⟩
  exact hboth.2

end

/-! ## The send loop -/

section

variable {id : Nat} {e e' : Endpoint}

omit [H3.Codec]

/-- `stream_send` reports the stop of a live stream. -/
theorem reported_iff (c : Quic.Connection) (id : Nat) :
    (∃ code, (c.streamSend id [] false).1 = .error (.streamStopped code)) ↔
      (c.streams id).phase = .live ∧ c.canSend id = true ∧
        (c.streams id).send.error.isSome = true := by
  constructor
  · rintro ⟨code, hcode⟩
    have hspec := streamSend_spec c id [] false
    generalize c.streamSend id [] false = res at hspec hcode
    obtain ⟨res, c'⟩ := res
    obtain rfl : res = .error (.streamStopped code) := hcode
    cases hspec with
    | refused hne => exact absurd rfl (hne code)
    | blocked hne => exact absurd rfl (hne code)
    | stopped cond hlive hsend herr => exact ⟨hlive, hsend, by simp [herr]⟩
  · rintro ⟨hlive, hsend, herr⟩
    obtain ⟨code, hcode⟩ := Option.isSome_iff_exists.mp herr
    exact ⟨code, by simp [Quic.Connection.streamSend, hsend, Quic.Connection.getOrCreate, hlive, hcode]⟩

/-- A stop opens no stream. -/
theorem writable_append {l : List Ev} (hev : e'.ev = e.ev ++ l)
    (hl : ∀ v ∈ l, v.isStill = true ∨ ∃ code, v = .streamStopSending id code) {i : Nat} :
    e'.Writable i ↔ e.Writable i := by
  constructor
  · rintro (⟨q, hq⟩ | hin)
    · rw [hev] at hq
      rcases List.mem_append.mp hq with hq | hq
      · exact .inl ⟨q, hq⟩
      · rcases hl _ hq with hstill | ⟨code, hcode⟩ <;> cases ‹_›
    · rw [hev] at hin
      rcases List.mem_append.mp hin with hin | hin
      · exact .inr hin
      · rcases hl _ hin with hstill | ⟨code, hcode⟩ <;> cases ‹_›
  · exact fun h => h.mono fun v hv => hev ▸ List.mem_append_left _ hv

theorem ackOf_still (chunk : OutChunk) : ∀ v ∈ ackOf chunk, v.isStill = true := by
  unfold ackOf
  cases chunk.requestId <;> simp [Ev.isStill]

/-- A noticed stop is told, and so are the acknowledgements of the queue. -/
theorem surfaceStop_ev (e : Endpoint) (id code : Nat) (out : List OutChunk) :
    ∃ l, (e.surfaceStop id code out).ev = e.ev ++ l ∧ stops id l = 1 ∧
      ∀ v ∈ l, v.isStill = true ∨ ∃ code, v = .streamStopSending id code := by
  have hacks : ∀ v ∈ out.flatMap ackOf, v.isStill = true := by
    intro v hv
    obtain ⟨chunk, -, hv⟩ := List.mem_flatMap.mp hv
    exact ackOf_still chunk v hv
  refine ⟨_, rfl, ?_, fun v hv => ?_⟩
  · unfold stops
    rw [List.countP_cons]
    show stops id (out.flatMap ackOf) + _ = 1
    simp [stops_of_still hacks, Ev.isStop]
  · rcases List.mem_cons.mp hv with rfl | hv
    · exact .inr ⟨_, rfl⟩
    · exact .inl (hacks v hv)

/-- Nothing has changed but at one stream, which is ended or has been told of. -/
theorem Heard.marked (hh : e.Heard) (hcfg : e'.cfg = e.cfg) {l : List Ev} (hev : e'.ev = e.ev ++ l)
    (hl : ∀ v ∈ l, v.isStill = true ∨ ∃ code, v = .streamStopSending id code)
    (hhistory : ∀ t ∈ e.history, t ∈ e'.history)
    (hconn : ∀ i, i ≠ id → e'.conn.streams i = e.conn.streams i)
    (hget : ∀ i, i ≠ id → e'.streams.get i = e.streams.get i)
    (hid : e.Writable id ∨ id = connectId ∨ id ∈ controlIds e.cfg.isServer)
    (hmark : e'.Unended id → stops id e'.ev = 1 ∧ (e'.conn.streams id).send.error.isSome = true ∧
      ∀ st, e'.streams.get id = some st → st.finSent = true) : e'.Heard := by
  have hstops : ∀ {i}, i ≠ id → stops i e'.ev = stops i e.ev := by
    intro i hi
    have hnone : stops i l = 0 := by
      unfold stops
      rw [List.countP_eq_zero]
      intro v hv
      rcases hl v hv with hstill | ⟨code, rfl⟩
      · cases v <;> first | (cases hstill; done) | simp [Ev.isStop]
      · simpa [Ev.isStop] using fun h : id = i => hi h.symm
    rw [hev, stops_append, hnone, Nat.add_zero]
  have hw : ∀ {i}, e'.Writable i ↔ e.Writable i := by
    intro i
    exact writable_append hev hl
  have hold : ∀ {i}, i ≠ id → e'.Unended i → e.Unended i := by
    intro i hi hu
    exact ⟨hw.mp hu.writable, fun hr => hu.unreset (hhistory _ hr), hconn i hi ▸ hu.fin⟩
  refine ⟨fun i hwi => ?_, fun i hs => ?_, fun i hu => ?_, fun i st hg hu => ?_,
    fun i hg hu => ?_, fun i st hg hwi hne hctl => ?_⟩
  · rw [hcfg]
    exact hh.apart i (hw.mp hwi)
  · rw [hw, hcfg]
    by_cases hi : i = id
    · exact hi ▸ hid
    · exact hh.known i (hstops hi ▸ hs)
  · by_cases hi : i = id
    · subst hi
      exact .inr ⟨(hmark hu).1, (hmark hu).2.1⟩
    · rw [hstops hi, hconn i hi]
      exact hh.once i (hold hi hu)
  · by_cases hi : i = id
    · subst hi
      simp [(hmark hu).1, (hmark hu).2.2 st hg]
    · rw [hstops hi]
      exact hh.entry i st (hget i hi ▸ hg) (hold hi hu)
  · by_cases hi : i = id
    · subst hi
      simp [(hmark hu).1]
    · rw [hstops hi]
      exact hh.gone i (hget i hi ▸ hg) (hold hi hu)
  · rw [hw] at hwi
    rw [hcfg] at hctl
    have hi : i ≠ id := by
      rintro rfl
      exact hid.elim hwi fun h => h.elim hne hctl
    exact hh.idle i st (hget i hi ▸ hg) hwi hne hctl

/-- A stream with something queued is one the application may write to, or ours. -/
theorem Heard.queued (hh : e.Heard) {st : Stream} (hst : e.streams.get id = some st)
    (hq : st.out ≠ [] ∨ st.finQueued = true) :
    e.Writable id ∨ id = connectId ∨ id ∈ controlIds e.cfg.isServer := by
  by_contra h
  obtain ⟨hw, h⟩ := not_or.mp h
  obtain ⟨hne, hctl⟩ := not_or.mp h
  obtain ⟨hout, hfin, -⟩ := hh.idle id st hst hw hne hctl
  rcases hq with hq | hq
  · exact hq hout
  · simp [hfin] at hq

/-- A stream is not reported as stopped on account of sending on it. -/
theorem reported_of_send {c c' : Quic.Connection} {bytes : Bytes} {fin : Bool}
    {r : Except Quic.Error Nat} (hs : Send c id bytes fin r c')
    (h : ∃ code, (c'.streamSend id [] false).1 = .error (.streamStopped code)) :
    ∃ code, (c.streamSend id [] false).1 = .error (.streamStopped code) := by
  rw [reported_iff] at h ⊢
  obtain ⟨hlive, hsend, herr⟩ := h
  have hsend : c.canSend id = true := by
    simpa [Quic.Connection.canSend, hs.isServer] using hsend
  have hcreated : ∀ {c1}, Quic.Connection.Reach c id c1 →
      (c1.streams id).send.error.isSome = true →
      (c.streams id).phase = .live ∧ (c.streams id).send.error.isSome = true := by
    intro c1 hr herr
    cases hr with
    | live hp => exact ⟨hp, herr⟩
    | created => simp [Quic.Connection.created] at herr
  cases hs with
  | refused => exact ⟨hlive, hsend, herr⟩
  | blocked _ hr _ hnone hstreams =>
      rw [hstreams, hnone] at herr
      cases herr
  | stopped cond hp hcan hcode => exact ⟨hp, hcan, by simp [hcode]⟩
  | sent txCap hr _ hnone hacc =>
      simp [hacc.error, hnone] at herr

/-- The send loop works on a stream that was not reported as stopped. -/
theorem Sending.heard (h : Sending id e e') (hwf : e.conn.WellFormed) (hh : e.Heard)
    (hno : ¬e.Stopped id) : e'.Heard ∧ ¬e'.Stopped id ∧ e'.conn.WellFormed := by
  have habs : ∀ i, (e.conn.streams i).phase = .absent → e.conn.streams i = {} :=
    fun i => (hwf i).absent
  cases h with
  | @returned st finalSize hst hrole hfinal hlt =>
      have hstill : Still e { e with
          fcDataSent := e.fcDataSent - (st.sendPayload - (finalSize - st.sendPrefix))
          streams := e.streams.modify id fun st => { st with sendPayload := finalSize - st.sendPrefix }
          history := e.history ++ [.returned id (st.sendPayload - (finalSize - st.sendPrefix))] } :=
        (Still.modify e id (f := fun st => { st with sendPayload := finalSize - st.sendPrefix })
          (.inr fun _ => rfl) (.inr fun _ => ⟨rfl, rfl, rfl⟩)).trans
          (.of_eq rfl (l := []) (List.append_nil _).symm (by simp) rfl rfl rfl)
      exact ⟨hh.still hstill, fun hs => hno ⟨hstill.unended hs.toUnended, hs.reported⟩, hwf⟩
  | @refused st bytes fin err c hst hs =>
      have hflags := fun i => hs.flags habs (.inr ⟨_, rfl⟩) i
      have hstill : Still e { e with conn := c } :=
        .conn e (fun i => (hflags i).1) fun i herr => by rwa [(hflags i).2.2]
      exact ⟨hh.still hstill, fun hstop => hno ⟨hstill.unended hstop.toUnended,
        reported_of_send hs hstop.reported⟩, hs.wellFormed hwf⟩
  | @sent st front rest n c hst hout hamount hs =>
      have hflags := fun i => hs.flags habs (.inl rfl) i
      have hid := hh.queued hst (.inl (by simp [hout]))
      have hconn : Still e { e with conn := c } :=
        .conn e (fun i => (hflags i).1) fun i herr => by rwa [(hflags i).2.2]
      have hstill : Still e (({ e with conn := c } : Endpoint).advance id front rest
          (isPayload st front) n) := by
        refine (hconn.trans (.modify _ id (.inr fun _ => ?_) (.inl hid))).trans
          (.of_eq rfl (l := if decide (front.data.length ≤ front.off + n) then ackOf front else []) rfl
            (fun v hv => ?_) rfl rfl rfl)
        · rfl
        · split at hv
          · exact ackOf_still front v hv
          · cases hv
      exact ⟨hh.still hstill, fun hstop => hno ⟨hstill.unended hstop.toUnended,
        reported_of_send hs hstop.reported⟩, hs.wellFormed hwf⟩
  | @stopped st bytes code c hst hout hs =>
      have hended : ¬e.Unended id := by
        intro hu
        cases hs with
        | refused hne => exact absurd rfl (hne code)
        | blocked hne => exact absurd rfl (hne code)
        | stopped cond hp hsend hcode =>
            exact hno ⟨hu, (reported_iff _ _).mpr ⟨hp, hsend, by simp [hcode]⟩⟩
      have hflags := fun i => hs.flags habs (.inr ⟨_, rfl⟩) i
      obtain ⟨l, hev, -, hl⟩ := surfaceStop_ev { e with conn := c } id code st.out
      have hended' : ¬(({ e with conn := c } : Endpoint).surfaceStop id code st.out).Unended id :=
        fun hu => hended ⟨(writable_append (e := e) hev hl).mp hu.writable,
          fun hr => hu.unreset (List.mem_append_left _ hr), (hflags id).1 ▸ hu.fin⟩
      exact ⟨hh.marked rfl hev hl (fun t ht => List.mem_append_left _ ht)
        (fun i hi => hs.ne hi) (fun i hi => Table.get_modify_ne hi) (hh.queued hst (.inl hout))
        fun hu => absurd hu hended', fun hstop => hended' hstop.toUnended, hs.wellFormed hwf⟩
  | @fin st n c hst hout hq hns hs =>
      have hended' : ¬(({ e with conn := c } : Endpoint).modifyStream id fun st =>
          { st with finSent := true }).Unended id := by
        intro hu
        have hfin : (c.streams id).send.fin = true := by
          cases hs with
          | sent txCap hr _ hnone hacc =>
              rcases hacc.finish with ⟨-, -, hlt⟩ | ⟨-, -, -, hfin⟩
              · exact absurd (hlt rfl) (by simp)
              · simpa using hfin
        exact absurd hfin (by simp [show (c.streams id).send.fin = false from hu.fin])
      exact ⟨hh.marked rfl (l := []) (List.append_nil _).symm (by simp) (fun t ht => ht)
        (fun i hi => hs.ne hi) (fun i hi => Table.get_modify_ne hi) (hh.queued hst (.inr hq))
        fun hu => absurd hu hended', fun hstop => hended' hstop.toUnended, hs.wellFormed hwf⟩

/-- `stream_send` reports the stop whatever it is given. -/
theorem streamSend_stopped {c : Quic.Connection} {id code : Nat} (hlive : (c.streams id).phase = .live)
    (hsend : c.canSend id = true) (herr : (c.streams id).send.error = some code) (bytes : Bytes)
    (fin : Bool) : (c.streamSend id bytes fin).1 = .error (.streamStopped code) := by
  simp [Quic.Connection.streamSend, hsend, Quic.Connection.getOrCreate, hlive, herr]

theorem reconcileSendFinalSize_conn (e : Endpoint) (id : Nat) :
    (e.reconcileSendFinalSize id).conn = e.conn := by
  rcases reconcileSendFinalSize_sending e id with h | h
  · rw [h]
  · unfold reconcileSendFinalSize
    split
    · simp only
      split_ifs <;> rfl
    · rfl

theorem reconcileSendFinalSize_get {st : Stream} (hst : e.streams.get id = some st) :
    ∃ n, (e.reconcileSendFinalSize id).streams.get id = some { st with sendPayload := n } := by
  unfold reconcileSendFinalSize
  split
  next finalSize st' hfinal hst' =>
    simp only
    split_ifs
    · exact ⟨finalSize - st'.sendPrefix, by simp [Table.get_modify_self, hst]⟩
    · exact ⟨st.sendPayload, hst⟩
  · exact ⟨st.sendPayload, hst⟩

theorem reconcileSendFinalSize_none (hst : e.streams.get id = none) :
    e.reconcileSendFinalSize id = e := by
  unfold reconcileSendFinalSize
  split
  next finalSize st' hfinal hst' => simp [hst] at hst'
  · rfl

/-- What a reset of a stream does, given its entry. -/
structure ResetTo (e : Endpoint) (id code : Nat) (st : Stream) (e' : Endpoint) : Prop where
  cfg : e'.cfg = e.cfg
  closed : e'.closed = e.closed
  ev : e'.ev = e.ev
  conn : e'.conn = e.conn.streamShutdownWrite id (H3.webtransportCodeToHttpCode code)
  history : ∃ m, (∀ t ∈ m, ∃ n, t = .returned id n) ∧ e'.history = e.history ++
    (.streamReset id :: m ++ (st.out.filterMap OutChunk.requestId).map (.dropped id))
  entry : ∃ n, e'.streams.get id = some { st with sendPayload := n, out := [], finSent := true }
  get_ne : ∀ i, i ≠ id → e'.streams.get i = e.streams.get i

theorem streamReset_spec (e : Endpoint) (id code : Nat) : e.streamReset id code = e ∨
    ∃ st, e.streams.get id = some st ∧ ResetTo e id code st (e.streamReset id code) := by
  unfold streamReset
  split
  next hcontains =>
    refine .inr ?_
    obtain ⟨st, hst⟩ := Option.isSome_iff_exists.mp hcontains
    refine ⟨st, hst, ?_⟩
    simp only
    generalize hs : ({ e.log (.streamReset id) with
      conn := e.conn.streamShutdownWrite id (H3.webtransportCodeToHttpCode code) } : Endpoint) = s
    obtain ⟨n, hn⟩ := reconcileSendFinalSize_get (e := s) (by rw [← hs]; exact hst)
    have hconn := reconcileSendFinalSize_conn s id
    have hrecords : (s.reconcileSendFinalSize id).ev = s.ev ∧ ∃ m,
        (∀ t ∈ m, ∃ n, t = .returned id n) ∧ (s.reconcileSendFinalSize id).history = s.history ++ m := by
      unfold reconcileSendFinalSize
      split
      · simp only
        split_ifs
        · exact ⟨rfl, [_], by simp, rfl⟩
        · exact ⟨rfl, [], by simp, (List.append_nil _).symm⟩
      · exact ⟨rfl, [], by simp, (List.append_nil _).symm⟩
    obtain ⟨hev, m, hm, hhistory⟩ := hrecords
    have hrest : (s.reconcileSendFinalSize id).cfg = s.cfg ∧
        (s.reconcileSendFinalSize id).closed = s.closed ∧
        ∀ i, i ≠ id → (s.reconcileSendFinalSize id).streams.get i = s.streams.get i := by
      rcases reconcileSendFinalSize_sending s id with heq | hsend
      · rw [heq]
        exact ⟨rfl, rfl, fun _ _ => rfl⟩
      · exact ⟨hsend.session.1, hsend.session.2.1, fun i hi => hsend.get_ne hi⟩
    generalize s.reconcileSendFinalSize id = b at *
    subst hs
    have hdrop : b.dropQueue id = { b with
        streams := b.streams.modify id fun st => { st with out := [] }
        history := b.history ++ (st.out.filterMap OutChunk.requestId).map (.dropped id) } := by
      unfold dropQueue
      rw [hn]
    rw [hdrop]
    refine ⟨hrest.1, hrest.2.1, hev, hconn, ⟨m, hm, ?_⟩, ⟨n, by simp [modifyStream, hn]⟩,
      fun i hi => ?_⟩
    · simp [modifyStream, hhistory, log]
    · exact (Table.get_modify_ne hi).trans ((Table.get_modify_ne hi).trans (hrest.2.2 i hi))
  · exact .inl rfl

/-- A retired stream is not flushed. -/
theorem flushStream_retired
    (h : ∀ st, e.streams.get id = some st → st.out = [] ∧ st.finSent = true) :
    e.flushStream id = e.reconcileSendFinalSize id := by
  unfold flushStream
  cases hst : e.streams.get id with
  | none =>
      simp only [reconcileSendFinalSize_none hst]
      simp [iterate, sendStep, sendFin, hst]
  | some st =>
      obtain ⟨n, hn⟩ := reconcileSendFinalSize_get hst
      obtain ⟨hout, hfin⟩ := h st hst
      simp [iterate, sendStep, sendFin, hn, hout, hfin]

/-- A flush that notices a stop does nothing else. -/
theorem flushStream_stopped {st : Stream} (hst : e.streams.get id = some st) (hout : st.out ≠ [])
    (hheld : ¬(e.reconcileSendFinalSize id).Held id) {code : Nat}
    (hlive : (e.conn.streams id).phase = .live) (hsend : e.conn.canSend id = true)
    (herr : (e.conn.streams id).send.error = some code) :
    ∃ bytes c, Send e.conn id bytes false (.error (.streamStopped code)) c ∧
      e.flushStream id =
        ({ e.reconcileSendFinalSize id with conn := c } : Endpoint).surfaceStop id code st.out := by
  obtain ⟨front, rest, hfront⟩ := List.exists_cons_of_ne_nil hout
  obtain ⟨st1, hst1, hfront1⟩ : ∃ st1, (e.reconcileSendFinalSize id).streams.get id = some st1 ∧
      st1.out = front :: rest := by
    obtain ⟨n, hn⟩ := reconcileSendFinalSize_get hst
    exact ⟨_, hn, hfront⟩
  have hconn := reconcileSendFinalSize_conn e id
  unfold flushStream
  simp only
  generalize e.reconcileSendFinalSize id = b at hst1 hheld hconn ⊢
  have hamount : ¬(b.sendAmount st1 front = 0 ∧ front.data.length - front.off ≠ 0) :=
    fun h => hheld ⟨st1, front, rest, hst1, hfront1, h⟩
  have hspec := streamSend_spec e.conn id
    ((front.data.drop front.off).take (b.sendAmount st1 front)) false
  have hcode := streamSend_stopped hlive hsend herr
    ((front.data.drop front.off).take (b.sendAmount st1 front)) false
  generalize hres : e.conn.streamSend id
    ((front.data.drop front.off).take (b.sendAmount st1 front)) false = res at hspec hcode
  obtain ⟨res, c⟩ := res
  obtain rfl : res = .error (.streamStopped code) := hcode
  refine ⟨_, c, hspec, ?_⟩
  have hstep : sendStep id b = (({ b with conn := c } : Endpoint).surfaceStop id code st.out, false) := by
    simp only [sendStep, hst1, hfront1, if_neg hamount, hconn, hres, hfront]
  rw [iterate, hstep]
  simp [sendFin, surfaceStop, Table.get_modify_self, hst1]

/-- Flushing a stream keeps the marks right, and retires it if the peer stopped it. -/
theorem Heard.flushStream (hh : e.Heard) (hl : e.Layout) (hk : e.KeepsStops (.flushStream id)) :
    (e.flushStream id).Heard ∧ ((e.flushStream id).Stopped id → (e.flushStream id).Retired id) := by
  have hwf : e.conn.WellFormed := hl.wellFormed
  have hrec := Still.reconcileSendFinalSize e id
  by_cases hstop : e.Stopped id
  · obtain ⟨hlive, hsend, herr⟩ := (reported_iff _ _).mp hstop.reported
    obtain ⟨hnotice, hquiet⟩ := hk hstop
    by_cases htold : stops id e.ev = 0
    · obtain ⟨-, ⟨st, hst, hout⟩, hheld⟩ := hnotice htold
      obtain ⟨code, hcode⟩ := Option.isSome_iff_exists.mp herr
      obtain ⟨bytes, c, hs, heq⟩ := flushStream_stopped hst hout hheld hlive hsend hcode
      have hflags := fun i => hs.flags (fun i => (hwf i).absent) (.inl rfl) i
      have hconn : Still (e.reconcileSendFinalSize id) { e.reconcileSendFinalSize id with conn := c } :=
        .conn _ (fun i => (hflags i).1.trans (by rw [reconcileSendFinalSize_conn]))
          fun i h => by rwa [(hflags i).2.2, ← reconcileSendFinalSize_conn e id]
      have hstill := hrec.trans hconn
      obtain ⟨l, hev, hone, hlist⟩ :=
        surfaceStop_ev { e.reconcileSendFinalSize id with conn := c } id code st.out
      obtain ⟨n, hn⟩ := reconcileSendFinalSize_get hst
      have hget : (({ e.reconcileSendFinalSize id with conn := c } : Endpoint).surfaceStop id code
          st.out).streams.get id = some { st with sendPayload := n, out := [], finSent := true } := by
        simp [surfaceStop, Table.get_modify_self, hn]
      have hcount : stops id (({ e.reconcileSendFinalSize id with conn := c } : Endpoint).surfaceStop id
          code st.out).ev = 1 := by
        rw [hev, stops_append, hstill.stops_eq, htold, hone]
      rw [heq]
      refine ⟨(hh.still hstill).marked rfl hev hlist (fun t ht => List.mem_append_left _ ht)
        (fun i hi => rfl) (fun i hi => Table.get_modify_ne hi) (.inl (hstill.writable.mpr hstop.writable))
        fun _ => ⟨hcount, ?_, fun st' hg => ?_⟩, fun _ => ⟨hcount, fun st' hg => ?_⟩⟩
      · show (c.streams id).send.error.isSome = true
        rw [(hflags id).2.2]
        exact herr
      · obtain rfl := Option.some.inj (hget.symm.trans hg)
        rfl
      · obtain rfl := Option.some.inj (hget.symm.trans hg)
        exact ⟨rfl, rfl⟩
    · have hentry : ∀ st, e.streams.get id = some st → st.out = [] ∧ st.finSent = true :=
        fun st hst => ⟨hquiet htold st hst, (hh.entry id st hst hstop.toUnended).mpr htold⟩
      rw [flushStream_retired hentry]
      refine ⟨hh.still hrec, fun _ => ⟨?_, fun st' hg => ?_⟩⟩
      · rw [hrec.stops_eq]
        exact ((hh.once id hstop.toUnended).resolve_left htold).1
      · cases hst : e.streams.get id with
        | none => simp [reconcileSendFinalSize_none hst, hst] at hg
        | some st =>
            obtain ⟨n, hn⟩ := reconcileSendFinalSize_get hst
            obtain rfl := Option.some.inj (hn.symm.trans hg)
            exact hentry st hst
  · have hall : (e.flushStream id).Heard ∧ ¬(e.flushStream id).Stopped id ∧
        (e.flushStream id).conn.WellFormed :=
      flushStream_invariant (I := fun s => s.Heard ∧ ¬s.Stopped id ∧ s.conn.WellFormed)
        (fun _ _ hs h => hs.heard h.2.2 h.1 h.2.1) ⟨hh, hstop, hwf⟩
    exact ⟨hall.1, fun h => absurd h hall.2.1⟩

end

/-! ## Whole steps -/

section

variable {id : Nat} {e : Endpoint}

omit [H3.Codec]

/-- A stream the application may write to is dropped only behind its end, with
nothing left to send. -/
theorem sent_of_dropped {isServer : Bool} {st : Stream}
    (hcan : isBidi id = true ∨ isLocal id isServer = true) (h : retains isServer id st = false) :
    st.finSent = true ∧ st.out = [] := by
  unfold retains at h
  split at h
  · cases h
  · have hsend : (!(id / 2 % 2 == 1) || if isServer then id % 2 == 1 else id % 2 == 0) = true := by
      unfold isBidi isLocal at hcan
      cases isServer <;> simp at hcan ⊢ <;> omega
    simp only [hsend] at h
    simp at h
    exact h.2

theorem Layout.canSend (hl : e.Layout) (hw : e.Writable id) :
    isBidi id = true ∨ isLocal id e.cfg.isServer = true := by
  rcases hw with ⟨r, hr⟩ | hin
  · obtain ⟨bidi, k, rfl, -⟩ := hl.opened r id hr
    exact .inr (isLocal_ownId _ _ _)
  · exact .inl (hl.incoming id true hin).2.1

theorem Heard.prune (hh : e.Heard) (hl : e.Layout) : e.prune.Heard := by
  have hold : ∀ {i}, e.prune.Unended i → e.Unended i := fun hu => hu.congr rfl rfl rfl
  have hget : ∀ {i st}, e.prune.streams.get i = some st → e.streams.get i = some st := by
    intro i st hg
    simp only [Endpoint.prune, Table.get_filter, Option.filter_eq_some_iff] at hg
    exact hg.1
  refine ⟨hh.apart, hh.known, fun i hu => hh.once i (hold hu),
    fun i st hg hu => hh.entry i st (hget hg) (hold hu), fun i hg hu => ?_,
    fun i st hg => hh.idle i st (hget hg)⟩
  cases hst : e.streams.get i with
  | none => exact hh.gone i hst (hold hu)
  | some st =>
      simp only [Endpoint.prune, Table.get_filter, hst, Option.filter_eq_none_iff] at hg
      have hdropped : retains e.cfg.isServer i st = false := by simpa using hg st rfl
      have hfin := (sent_of_dropped (hl.canSend (hold hu).writable) hdropped).1
      exact (hh.entry i st hst (hold hu)).mp hfin

theorem Heard.start (h : Start e) : e.Heard := by
  have hempty : e.ev = [] ∧ e.streams = .empty := by
    cases h <;> exact ⟨rfl, rfl⟩
  have hw : ∀ {i}, ¬e.Writable i := by simp [Writable, hempty.1]
  refine ⟨fun i h => absurd h hw, fun i hs => ?_, fun i hu => absurd hu.writable hw,
    fun i st hg => ?_, fun i _ hu => absurd hu.writable hw, fun i st hg => ?_⟩
  · simp [stops, hempty.1] at hs
  · simp [hempty.2] at hg
  · simp [hempty.2] at hg

end

/-- Every step that meets the condition keeps the marks right. -/
theorem Heard.step {e : Endpoint} (hh : e.Heard) (hl : e.Layout) {s : Step}
    (hs : e.StepAdmissible s) (hk : e.KeepsStops s) : (e.step s).Heard := by
  have haside : ∀ {e' : Endpoint}, Aside e e' → e'.Heard := fun h => hh.still (.of_aside hh h)
  cases s with
  | onEstablished => exact hh.onEstablished hl
  | touch id => exact hh.touch hl hs.1 hs.2 hk
  | read id backpressured =>
      show (readStep id backpressured e).1.Heard
      rcases readStep_effects (hl.readable hs) hl.wellFormed (hl.alive_of_readable hs id) backpressured
        with heq | ⟨cap, heff⟩
      · rw [heq]
        exact hh
      · have hspec := Quic.Connection.streamRecv_spec e.conn id cap
        have hconn : Still e { e with conn := (e.conn.streamRecv id cap).2 } :=
          .conn e (fun i => by rw [hspec.send]) fun i h => by rwa [hspec.send]
        have hlayout : ({ e with conn := (e.conn.streamRecv id cap).2 } : Endpoint).Layout :=
          hl.same (.conn e hspec.isServer hspec.wellFormed hspec.phase fun hwf _ => hspec.exhausted hwf)
        exact (heff.invariant (I := fun s => s.Layout ∧ s.Heard)
          (fun _ _ hstep h => ⟨hstep.layout h.1, hstep.heard h.1 h.2⟩) ⟨hlayout, hh.still hconn⟩).2
  | onDatagrams => exact haside (.onDatagrams e)
  | sendDatagram data requestId => exact haside (.sendDatagram e data requestId)
  | openStream bidi requestId =>
      exact (hh.congr rfl rfl rfl rfl rfl : Heard { e with
        pendingOpens := e.pendingOpens ++ [(bidi, requestId)] }).releasePendingOpens
          (hl.same (.session rfl rfl rfl rfl rfl rfl rfl rfl rfl))
  | streamWrite id data requestId => exact hh.still (.streamWrite hs data requestId)
  | streamFin id => exact hh.still (.modify e id (.inr fun _ => rfl) (.inl (.inl hs)))
  | streamReset id code => exact hh.still (.streamReset hs code)
  | streamStopSending id code => exact hh.still (.streamStopSending e id code)
  | setPaused id paused =>
      exact hh.still (.modify e id (.inr fun _ => rfl) (.inr fun _ => ⟨rfl, rfl, rfl⟩))
  | close code reason => exact haside (.close e code reason)
  | sendDrain => exact haside (.sendDrain e)
  | takeTerminalError => exact haside (.takeTerminalError e)
  | grantCredit => exact haside (.grantCredit e)
  | replenish => exact haside (.replenish e)
  | queueClose => exact haside (.queueClose e)
  | releasePendingOpens => exact hh.releasePendingOpens hl
  | flushStream id => exact (hh.flushStream hl hk).1
  | commitSent => exact hh.congr rfl rfl rfl rfl rfl
  | signalFlowControlBlocked => exact haside (.signalFlowControlBlocked e)
  | prune => exact hh.prune hl
  | gracefulClose => exact haside (.gracefulClose e)
  | markClosed code reason remote => exact hh.still (.markClosed e code reason remote)
  | network event => exact hh.still (.network hl event)

/-! ## Flushes -/

section

variable {id : Nat} {e e' : Endpoint}

omit [H3.Codec]

/-- The stream itself is as before. -/
structure Unmoved (id : Nat) (e e' : Endpoint) : Prop where
  writable : e'.Writable id → e.Writable id
  history : ∀ t ∈ e.history, t ∈ e'.history
  conn : e'.conn.streams id = e.conn.streams id
  isServer : e'.conn.isServer = e.conn.isServer
  told : stops id e'.ev = stops id e.ev
  get : ∀ st, e'.streams.get id = some st → e.streams.get id = some st

theorem Unmoved.refl (id : Nat) (e : Endpoint) : Unmoved id e e :=
  ⟨fun h => h, fun _ h => h, rfl, rfl, rfl, fun _ h => h⟩

theorem Unmoved.trans {a b c : Endpoint} (hab : Unmoved id a b) (hbc : Unmoved id b c) :
    Unmoved id a c where
  writable h := hab.writable (hbc.writable h)
  history t ht := hbc.history t (hab.history t ht)
  conn := hbc.conn.trans hab.conn
  isServer := hbc.isServer.trans hab.isServer
  told := hbc.told.trans hab.told
  get st hg := hab.get st (hbc.get st hg)

theorem Unmoved.retired (h : Unmoved id e e') (hS : e.Stopped id → e.Retired id)
    (hstop : e'.Stopped id) : e'.Retired id := by
  have hu : e.Unended id :=
    ⟨h.writable hstop.writable, fun hr => hstop.unreset (h.history _ hr), h.conn ▸ hstop.fin⟩
  have hreported := hstop.reported
  rw [reported_iff, Quic.Connection.canSend, h.conn, h.isServer, ← Quic.Connection.canSend,
    ← reported_iff] at hreported
  obtain ⟨htold, hentry⟩ := hS ⟨hu, hreported⟩
  exact ⟨h.told.trans htold, fun st hg => hentry st (h.get st hg)⟩

/-- The send loop works on one stream. -/
theorem Sending.unmoved {j : Nat} (h : Sending j e e') (hid : id ≠ j) : Unmoved id e e' := by
  have hev : ∃ l, e'.ev = e.ev ++ l ∧ stops id l = 0 ∧
      ∀ v ∈ l, v.isStill = true ∨ ∃ code, v = .streamStopSending j code := by
    have hzero : ∀ {l : List Ev}, (∀ v ∈ l, v.isStill = true) → stops id l = 0 ∧
        ∀ v ∈ l, v.isStill = true ∨ ∃ code, v = .streamStopSending j code :=
      fun hl => ⟨stops_of_still hl, fun v hv => .inl (hl v hv)⟩
    cases h with
    | returned | refused | fin => exact ⟨[], (List.append_nil _).symm, hzero (by simp)⟩
    | @sent st front rest n c =>
        refine ⟨_, rfl, hzero fun v hv => ?_⟩
        split at hv
        · exact ackOf_still front v hv
        · cases hv
    | @stopped st bytes code c =>
        obtain ⟨l, hl, -, hmem⟩ := surfaceStop_ev { e with conn := c } j code st.out
        refine ⟨l, hl, ?_, hmem⟩
        unfold stops
        rw [List.countP_eq_zero]
        intro v hv
        rcases hmem v hv with hstill | ⟨code', rfl⟩
        · cases v <;> first | (cases hstill; done) | simp [Ev.isStop]
        · simpa [Ev.isStop] using fun h : j = id => hid h.symm
  obtain ⟨l, hl, hnone, hmem⟩ := hev
  have hhistory : ∃ m, e'.history = e.history ++ m := by
    cases h with
    | refused | fin => exact ⟨[], (List.append_nil _).symm⟩
    | returned | sent | stopped => exact ⟨_, rfl⟩
  obtain ⟨m, hm⟩ := hhistory
  have hserver : e'.conn.isServer = e.conn.isServer := by
    cases h with
    | returned => rfl
    | refused _ hs | sent _ _ _ hs | stopped _ _ hs | fin _ _ _ _ hs => exact hs.isServer
  exact ⟨(writable_append hl hmem).mp, fun t ht => hm ▸ List.mem_append_left _ ht, h.conn_ne hid,
    hserver, by rw [hl, stops_append, hnone, Nat.add_zero], fun st hg => h.get_ne hid ▸ hg⟩

theorem Unmoved.flushStream {j : Nat} (hid : id ≠ j) : Unmoved id e (e.flushStream j) :=
  flushStream_invariant (I := Unmoved id e) (fun _ _ hs h => h.trans (hs.unmoved hid)) (.refl id e)

/-- A step aside moves no stream the application may write to. -/
theorem Retired.aside (hh : e.Heard) (h : Aside e e') (hS : e.Stopped id → e.Retired id) :
    e'.Stopped id → e'.Retired id := by
  intro hstop
  have hstill := Still.of_aside hh h
  have hne := (hh.apart id (hstill.writable.mp hstop.writable)).1
  have hmoved : Unmoved id e e' := ⟨hstill.writable.mp, hstill.history, by rw [h.conn], h.isServer,
    hstill.stops_eq id, fun st hg => h.get id hne ▸ hg⟩
  exact hmoved.retired hS hstop

theorem Unmoved.prune (id : Nat) (e : Endpoint) : Unmoved id e e.prune := by
  refine ⟨fun h => h, fun _ h => h, rfl, rfl, rfl, fun st hg => ?_⟩
  simp only [Endpoint.prune, Table.get_filter, Option.filter_eq_some_iff] at hg
  exact hg.1

theorem Unmoved.commitSent (id : Nat) (e : Endpoint) : Unmoved id e e.commitSent :=
  ⟨fun h => h, fun _ h => h, rfl, rfl, rfl, fun _ h => h⟩

end

/-- Every stopped stream is retired right after each flush of a run whose steps
all meet the condition. -/
theorem stops_retired {e : Endpoint} (hstart : Start e) {calls : List Call} {order : HashOrder}
    (hrun : Along call (Meets KeepsStops) e (calls ++ [.flush order])) :
    (execute call e (calls ++ [.flush order])).StopsRetired := by
  obtain ⟨hpre, hflush, -⟩ := along_append.mp hrun
  have hstep : ∀ (s : Endpoint) (t : Step), (s.Layout ∧ s.Heard) → s.StepAdmissible t →
      s.KeepsStops t → (s.step t).Layout ∧ (s.step t).Heard :=
    fun s t h hs hk => ⟨h.1.step hs, h.2.step h.1 hs hk⟩
  have hI : (execute call e calls).Layout ∧ (execute call e calls).Heard :=
    run_invariant hstep ⟨hstart.layout, .start hstart⟩ hpre
  obtain ⟨e1, ⟨hl1, hh1⟩, hsettled, -, -, heq⟩ := flush_settle
    (S := fun id s => s.Stopped id → s.Retired id) hstep
    (fun s id h hk => (h.2.flushStream h.1 hk).2)
    (fun s i j hij _ hS => (Unmoved.flushStream hij).retired hS)
    (fun s i h hS => ⟨(Unmoved.commitSent i s).retired hS,
      Retired.aside h.2 (.signalFlowControlBlocked s) hS⟩) hI hflush
  have hall : ∀ id, e1.Stopped id → e1.Retired id := by
    intro id hstop
    cases hst : e1.streams.get id with
    | some st => exact hsettled id st hst hstop
    | none =>
        have htold := hh1.gone id hst hstop.toUnended
        exact ⟨((hh1.once id hstop.toUnended).resolve_left htold).1, by simp [hst]⟩
  have hprune : ∀ id, e1.prune.Stopped id → e1.prune.Retired id :=
    fun id => (Unmoved.prune id e1).retired (hall id)
  intro id
  rw [execute_append]
  show Stopped (Endpoint.call _ (.flush order)) id → Retired (Endpoint.call _ (.flush order)) id
  rw [heq]
  exact Retired.aside (hh1.prune hl1) (.gracefulClose _) (hprune id)

/-! ## Concrete runs -/

section

omit [H3.Codec]

variable (e : Endpoint) (id : Nat)

instance : Decidable (e.Unended id) :=
  decidable_of_iff (e.Writable id ∧ .streamReset id ∉ e.history ∧
    (e.conn.streams id).send.fin = false)
    ⟨fun h => ⟨h.1, h.2.1, h.2.2⟩, fun h => ⟨h.writable, h.unreset, h.fin⟩⟩

instance : Decidable (e.Stopped id) :=
  decidable_of_iff (e.Unended id ∧ (e.conn.streams id).phase = .live ∧ e.conn.canSend id = true ∧
    (e.conn.streams id).send.error.isSome = true)
    ⟨fun h => ⟨h.1, (reported_iff _ _).mpr h.2⟩, fun h => ⟨h.toUnended, (reported_iff _ _).mp h.reported⟩⟩

instance : Decidable (e.Held id) :=
  decidable_of_iff (∃ st ∈ e.streams.get id, ∃ front ∈ st.out.head?,
    e.sendAmount st front = 0 ∧ front.data.length - front.off ≠ 0) (by
    constructor
    · rintro ⟨st, hst, front, hfront, h⟩
      obtain ⟨rest, hrest⟩ := List.head?_eq_some_iff.mp hfront
      exact ⟨st, front, rest, hst, hrest, h⟩
    · rintro ⟨st, front, rest, hst, hout, h⟩
      exact ⟨st, hst, front, by simp [hout], h⟩)

instance : Decidable (e.Notices id) :=
  decidable_of_iff ((e.conn.streams id).phase = .live ∧ (∃ st ∈ e.streams.get id, st.out ≠ []) ∧
    ¬(e.reconcileSendFinalSize id).Held id) Iff.rfl

instance : (s : Step) → Decidable (e.KeepsStops s)
  | .touch id => inferInstanceAs (Decidable (e.Unended id → _))
  | .flushStream id => inferInstanceAs (Decidable (e.Stopped id →
      (stops id e.ev = 0 → e.Notices id) ∧
        (stops id e.ev ≠ 0 → ∀ st ∈ e.streams.get id, st.out = [])))
  | .onEstablished | .read _ _ | .onDatagrams | .sendDatagram _ _ | .openStream _ _
  | .streamWrite _ _ _ | .streamFin _ | .streamReset _ _ | .streamStopSending _ _ | .setPaused _ _
  | .close _ _ | .sendDrain | .takeTerminalError | .grantCredit | .replenish | .queueClose
  | .releasePendingOpens | .commitSent | .signalFlowControlBlocked | .prune | .gracefulClose
  | .markClosed _ _ _ | .network _ => .isTrue trivial

end

instance (e : Endpoint) (c : Call) : Decidable (e.Meets KeepsStops c) :=
  inferInstanceAs (Decidable (_ ∧ _))

/-- The server opens a stream, and the peer stops it while `calls` are under way. -/
def stoppedRun (calls : List Call) : List Call :=
  serverHandshake ++ [.openStream false 1, flushOnce] ++ calls ++ [.network (.stopSending 15 5)]

omit [H3.Codec] in
theorem stoppedRun_keeps :
    letI := H3.Codec.plain
    Along call (Meets KeepsStops) sampleServer
      (stoppedRun [.streamWrite 15 [1, 2] 7] ++ [flushOnce]) := by decide +kernel

omit [H3.Codec] in
/-- The peer stops a stream of ours while a write is queued. -/
theorem stops_retired_sample :
    letI := H3.Codec.plain
    (execute call sampleServer
      (stoppedRun [.streamWrite 15 [1, 2] 7] ++ [flushOnce])).StopsRetired :=
  letI := H3.Codec.plain
  stops_retired sampleServer_start stoppedRun_keeps

omit [H3.Codec] in
/-- The peer stops a stream of ours on which nothing is queued. -/
theorem not_stops_retired :
    letI := H3.Codec.plain
    Start sampleServer ∧ Along call Admissible sampleServer (stoppedRun [] ++ [flushOnce]) ∧
      ¬(execute call sampleServer (stoppedRun [] ++ [flushOnce])).StopsRetired := by
  let _ := H3.Codec.plain
  refine ⟨sampleServer_start, by decide +kernel, fun h => ?_⟩
  have hstop : (execute call sampleServer (stoppedRun [] ++ [flushOnce])).Stopped 15 := by
    decide +kernel
  have htold : stops 15 (execute call sampleServer (stoppedRun [] ++ [flushOnce])).ev = 0 := by
    decide +kernel
  exact absurd (htold.symm.trans (h 15 hstop).told) (by decide)

end Endpoint

end RWebTransport
