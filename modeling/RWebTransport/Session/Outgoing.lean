import RWebTransport.Session.Discipline
import RWebTransport.Session.Stranding
import RWebTransport.Session.Surfacing

/-!
# What is sent of a stream

What quiche accepts of a data stream spells out the signal, if the stream is one
of our own, and behind it the writes of the application in their order.  As long
as quiche may accept more, the rest of them is queued; with the FIN, nothing is
missing.

Nothing may be written behind a reset, or behind the FIN that was accepted: a
stream that is reset before quiche knows it loses its signal.
-/

namespace RWebTransport

/-- The bytes that are queued. -/
def Stream.backlog (st : Stream) : Bytes := st.out.flatMap fun c => c.data.drop c.off

/-- What an entry keeps for sending. -/
def Stream.outward (st : Stream) : List OutChunk × Bool × Bool := (st.out, st.finQueued, st.finSent)

/-- What was written on the stream. -/
def Trace.wrote (id : Nat) : Trace → Option Bytes
  | .written i data _ => if i = id then some data else none
  | _ => none

/-- What a call writes on the stream. -/
def Call.wrote (id : Nat) : Call → Option Bytes
  | .streamWrite i data _ => if i = id then some data else none
  | _ => none

/-- The record is neither of a write on the stream nor of its reset. -/
def Trace.Spares (id : Nat) (t : Trace) : Prop := t.wrote id = none ∧ t ≠ .streamReset id

theorem Trace.spares_of_not_request {t : Trace} (h : t.isRequest = false) (id : Nat) : t.Spares id := by
  cases t with
  | written | streamReset => cases h
  | _ => exact ⟨rfl, by simp⟩

theorem Trace.spares_written {i id : Nat} (h : i ≠ id) (data : Bytes) (r : Nat) :
    (Trace.written i data r).Spares id := ⟨if_neg h, by simp⟩

namespace Endpoint

open Quic (QStream isBidi isLocal)
open Quic.Connection (Send)

/-- A stream that may carry data. -/
structure Carrier (isServer : Bool) (i : Nat) : Prop where
  session : i ≠ connectId
  control : i ∉ controlIds isServer

instance (isServer : Bool) (i : Nat) : Decidable (Carrier isServer i) :=
  decidable_of_iff (i ≠ connectId ∧ i ∉ controlIds isServer) ⟨fun h => ⟨h.1, h.2⟩, fun h => ⟨h.1, h.2⟩⟩

def outwardOf (e : Endpoint) (i : Nat) : Option (List OutChunk × Bool × Bool) :=
  (e.streams.get i).map Stream.outward

/-- The writes on a stream. -/
def chunksOf (e : Endpoint) (i : Nat) : List Bytes := e.history.filterMap (Trace.wrote i)

/-- All that the application wrote on a stream. -/
def writtenOn (e : Endpoint) (i : Nat) : Bytes := (e.chunksOf i).flatten

/-- The signal in front of the data of a stream of our own. -/
def signalOf (own bidi : Bool) : Bytes := if own then streamSignal bidi else []

/-- All that is to be sent of a stream. -/
def textOf (e : Endpoint) (i : Nat) : Bytes := signalOf (e.owns i) (isBidi i) ++ e.writtenOn i

/-- Quiche may accept more of the stream. -/
structure Sendable (e : Endpoint) (i : Nat) : Prop where
  final : (e.conn.streams i).send.finOff = none
  kept : (e.conn.streams i).phase ≠ .collected
  unreset : .streamReset i ∉ e.history

/-- What was accepted of a stream, and what is queued behind it. -/
structure Spelled (e : Endpoint) (i : Nat) : Prop where
  starts : (e.conn.streams i).send.data <+: e.textOf i
  whole : (e.conn.streams i).send.fin = true → (e.conn.streams i).send.data = e.textOf i
  rest : ∀ st, e.streams.get i = some st → e.Sendable i →
    (e.conn.streams i).send.data ++ st.backlog = e.textOf i
  sent : ∀ st, e.streams.get i = some st → st.finSent = true → ¬e.Sendable i
  gone : ∀ r, .streamOpened r i ∈ e.ev → e.streams.get i = none → ¬e.Sendable i
  /-- Behind a reset neither data nor a FIN is queued. -/
  reset : .streamReset i ∈ e.history → ∀ st, e.streams.get i = some st →
    st.out = [] ∧ (st.finQueued = true → st.finSent = true)
  shut : (e.conn.streams i).send.shut = true → .streamReset i ∈ e.history
  own : ∀ r, .streamOpened r i ∈ e.ev → isLocal i e.cfg.isServer = true
  known : e.writtenOn i ≠ [] ∨ .streamReset i ∈ e.history → e.Writable i

/-- What the application must not do with a stream: write on it behind the FIN
that was sent, or anything behind its reset. -/
def KeepsEnd (e : Endpoint) : Step → Prop
  | .streamWrite id _ _ => e.Unended id
  | .streamFin id => .streamReset id ∉ e.history
  | _ => True

/-! ## Steps that send nothing -/

/-- Nothing was accepted, and the send side is no farther from its end. -/
structure Onward (q q' : QStream) : Prop where
  data : q'.send.data = q.send.data
  fin : q'.send.fin = q.send.fin
  shut : q'.send.shut = q.send.shut
  final : q.send.finOff.isSome = true → q'.send.finOff.isSome = true
  collected : q.phase = .collected → q'.phase = .collected

namespace Onward

theorem refl (q : QStream) : Onward q q := ⟨rfl, rfl, rfl, id, id⟩

theorem trans {q q' q'' : QStream} (h : Onward q q') (h' : Onward q' q'') : Onward q q'' :=
  ⟨h'.data.trans h.data, h'.fin.trans h.fin, h'.shut.trans h.shut, h'.final ∘ h.final,
    h'.collected ∘ h.collected⟩

theorem of_send {q q' : QStream} (h : q'.send = q.send)
    (hphase : q.phase = .collected → q'.phase = .collected) : Onward q q' :=
  ⟨by rw [h], by rw [h], by rw [h], by rw [h]; exact id, hphase⟩

end Onward

/-- Nothing was written or sent on the stream. -/
structure Resting (i : Nat) (e e' : Endpoint) : Prop where
  cfg : e'.cfg = e.cfg
  writable : e.Writable i → e'.Writable i
  opened : ∀ r, .streamOpened r i ∈ e'.ev → .streamOpened r i ∈ e.ev
  onward : Onward (e.conn.streams i) (e'.conn.streams i)
  history : ∃ m, e'.history = e.history ++ m ∧ ∀ t ∈ m, t.Spares i
  /-- A stream of our own is dropped only behind its end. -/
  entry : e'.outwardOf i = e.outwardOf i ∨ e'.outwardOf i = none ∧
    (isLocal i e.cfg.isServer = true → ∀ o, e.outwardOf i = some o → o.2.2 = true)

theorem outwardOf_get {e : Endpoint} {i : Nat} {st : Stream} (h : e.streams.get i = some st) :
    e.outwardOf i = some st.outward := by rw [outwardOf, h, Option.map_some]

theorem outwardOf_none {e : Endpoint} {i : Nat} : e.outwardOf i = none ↔ e.streams.get i = none :=
  Option.map_eq_none_iff

theorem get_of_outward {e e' : Endpoint} {i : Nat} {st' : Stream} (h : e'.outwardOf i = e.outwardOf i)
    (hst' : e'.streams.get i = some st') : ∃ st, e.streams.get i = some st ∧ st'.out = st.out ∧
      st'.finQueued = st.finQueued ∧ st'.finSent = st.finSent := by
  rw [outwardOf_get hst'] at h
  obtain ⟨st, hst, hsame⟩ := Option.map_eq_some_iff.mp h.symm
  exact ⟨st, hst, congrArg Prod.fst hsame.symm, congrArg (·.2.1) hsame.symm,
    congrArg (·.2.2) hsame.symm⟩

section

variable {i : Nat} {e e' : Endpoint}

theorem writtenOn_append {m : List Trace} (h : e'.history = e.history ++ m) :
    e'.writtenOn i = e.writtenOn i ++ (m.filterMap (Trace.wrote i)).flatten := by
  rw [writtenOn, chunksOf, h, List.filterMap_append, List.flatten_append]
  rfl

theorem chunksOf_append {m : List Trace} (h : e'.history = e.history ++ m)
    (hm : ∀ t ∈ m, t.wrote i = none) : e'.chunksOf i = e.chunksOf i := by
  rw [chunksOf, h, List.filterMap_append, List.filterMap_eq_nil_iff.mpr hm, List.append_nil]
  rfl

theorem writtenOn_spared {m : List Trace} (h : e'.history = e.history ++ m) (hm : ∀ t ∈ m, t.Spares i) :
    e'.writtenOn i = e.writtenOn i := by
  rw [writtenOn, chunksOf_append h fun t ht => (hm t ht).1]
  rfl

theorem reset_spared {m : List Trace} (h : e'.history = e.history ++ m) (hm : ∀ t ∈ m, t.Spares i) :
    .streamReset i ∈ e'.history ↔ .streamReset i ∈ e.history := by
  rw [h, List.mem_append]
  exact or_iff_left fun hmem => (hm _ hmem).2 rfl

theorem textOf_eq (hcfg : e'.cfg = e.cfg) (hwritten : e'.writtenOn i = e.writtenOn i) :
    e'.textOf i = e.textOf i := by
  unfold textOf owns
  rw [hcfg, hwritten]

namespace Resting

theorem trans {a b c : Endpoint} (hab : Resting i a b) (hbc : Resting i b c) : Resting i a c where
  cfg := hbc.cfg.trans hab.cfg
  writable hw := hbc.writable (hab.writable hw)
  opened r hr := hab.opened r (hbc.opened r hr)
  onward := hab.onward.trans hbc.onward
  history := by
    obtain ⟨l, hl, hlq⟩ := hab.history
    obtain ⟨m, hm, hmq⟩ := hbc.history
    exact ⟨l ++ m, by rw [hm, hl, List.append_assoc],
      fun t ht => (List.mem_append.mp ht).elim (hlq t) (hmq t)⟩
  entry := by
    rcases hbc.entry with hc | ⟨hnone, hc⟩
    · exact hab.entry.imp hc.trans (And.imp_left hc.trans)
    · refine .inr ⟨hnone, fun hlocal o ho => ?_⟩
      rcases hab.entry with hb | ⟨-, hb⟩
      · exact hc (hab.cfg ▸ hlocal) o (hb.trans ho)
      · exact hb hlocal o ho

theorem writtenOn (h : Resting i e e') : e'.writtenOn i = e.writtenOn i := by
  obtain ⟨m, hm, hspares⟩ := h.history
  exact writtenOn_spared hm hspares

theorem reset (h : Resting i e e') : .streamReset i ∈ e'.history ↔ .streamReset i ∈ e.history := by
  obtain ⟨m, hm, hspares⟩ := h.history
  exact reset_spared hm hspares

theorem sendable (h : Resting i e e') (hs : e'.Sendable i) : e.Sendable i where
  final := by
    by_contra hsome
    have hlater := h.onward.final (Option.isSome_iff_ne_none.mpr hsome)
    simp [hs.final] at hlater
  kept hc := hs.kept (h.onward.collected hc)
  unreset hmem := hs.unreset (h.reset.mpr hmem)

/-- What was accepted is as it was, and what is queued. -/
theorem spelled (h : Resting i e e') (hs : e.Spelled i) : e'.Spelled i := by
  have hdata := h.onward.data
  have htext := textOf_eq h.cfg h.writtenOn
  have hget : ∀ st', e'.streams.get i = some st' → ∃ st, e.streams.get i = some st ∧
      st'.out = st.out ∧ st'.finQueued = st.finQueued ∧ st'.finSent = st.finSent := by
    intro st' hst'
    rcases h.entry with hsame | ⟨hnone, -⟩
    · exact get_of_outward hsame hst'
    · simp [outwardOf_none.mp hnone] at hst'
  refine ⟨?_, fun hfin => ?_, fun st' hst' hsend => ?_, fun st' hst' hfin hsend => ?_,
    fun r hr hnone hsend => ?_, fun hreset st' hst' => ?_, fun hshut => ?_, fun r hr => ?_,
    fun hknown => ?_⟩
  · rw [hdata, htext]
    exact hs.starts
  · rw [hdata, htext]
    exact hs.whole (h.onward.fin ▸ hfin)
  · obtain ⟨st, hst, hout, -, -⟩ := hget st' hst'
    rw [hdata, htext, Stream.backlog, hout]
    exact hs.rest st hst (h.sendable hsend)
  · obtain ⟨st, hst, -, -, hsent⟩ := hget st' hst'
    exact hs.sent st hst (hsent ▸ hfin) (h.sendable hsend)
  · have hr := h.opened r hr
    have hsend := h.sendable hsend
    cases hst : e.streams.get i with
    | none => exact hs.gone r hr hst hsend
    | some st =>
        rcases h.entry with hsame | ⟨-, hend⟩
        · rw [outwardOf_get hst, outwardOf_none.mpr hnone] at hsame
          cases hsame
        · exact hs.sent st hst (hend (hs.own r hr) _ (outwardOf_get hst)) hsend
  · obtain ⟨st, hst, hout, hqueued, hsent⟩ := hget st' hst'
    rw [hout, hqueued, hsent]
    exact hs.reset (h.reset.mp hreset) st hst
  · exact h.reset.mpr (hs.shut (h.onward.shut ▸ hshut))
  · rw [h.cfg]
    exact hs.own r (h.opened r hr)
  · rw [h.writtenOn, h.reset] at hknown
    exact h.writable (hs.known hknown)

/-- The entry keeps the same for sending. -/
theorem of_entry (hcfg : e'.cfg = e.cfg) {l : List Ev} (hev : e'.ev = e.ev ++ l)
    (hl : ∀ v ∈ l, ∀ r, v ≠ .streamOpened r i) {m : List Trace} (hhistory : e'.history = e.history ++ m)
    (hm : ∀ t ∈ m, t.Spares i) (honward : Onward (e.conn.streams i) (e'.conn.streams i))
    (hentry : e'.outwardOf i = e.outwardOf i) : Resting i e e' where
  cfg := hcfg
  writable hw := hw.mono fun v hv => hev ▸ List.mem_append_left l hv
  opened r hr := by
    rw [hev] at hr
    exact (List.mem_append.mp hr).resolve_right fun hmem => hl _ hmem r rfl
  onward := honward
  history := ⟨m, hhistory, hm⟩
  entry := .inl hentry

/-- Nothing was told or recorded. -/
theorem of_same (hcfg : e'.cfg = e.cfg) (hev : e'.ev = e.ev) (hhistory : e'.history = e.history)
    (honward : Onward (e.conn.streams i) (e'.conn.streams i))
    (hentry : e'.outwardOf i = e.outwardOf i) : Resting i e e' :=
  of_entry hcfg (l := []) (by simp [hev]) (by simp) (m := []) (by simp [hhistory]) (by simp) honward hentry

theorem of_eq (hcfg : e'.cfg = e.cfg) (hev : e'.ev = e.ev) (hhistory : e'.history = e.history)
    (hconn : e'.conn.streams = e.conn.streams) (hstreams : e'.streams = e.streams) : Resting i e e' :=
  of_same hcfg hev hhistory (hconn ▸ .refl _) (by rw [outwardOf, outwardOf, hstreams])

theorem refl (e : Endpoint) : Resting i e e := of_eq rfl rfl rfl rfl rfl

theorem conn (e : Endpoint) {c : Quic.Connection} (h : Onward (e.conn.streams i) (c.streams i)) :
    Resting i e { e with conn := c } := of_same rfl rfl rfl h rfl

/-- An entry has changed, and not in what it keeps for sending. -/
theorem modify (e : Endpoint) (id : Nat) {f : Stream → Stream} (hf : ∀ st, (f st).outward = st.outward) :
    Resting i e (e.modifyStream id f) := by
  refine of_same rfl rfl rfl (.refl _) ?_
  rw [outwardOf, outwardOf, modifyStream, Table.get_modify]
  split
  · rw [Option.map_map]
    exact congrArg (Option.map · _) (funext hf)
  · rfl

theorem of_aside (hi : i ≠ connectId) (h : Aside e e') : Resting i e e' := by
  obtain ⟨l, hl, hdatagram⟩ := h.ev
  obtain ⟨m, hm, hclose⟩ := h.history
  refine of_entry h.cfg hl (fun v hv r heq => ?_) hm
    (fun t ht => Trace.spares_of_not_request (by rw [hclose t ht]; rfl) i) (h.conn ▸ .refl _)
    (by rw [outwardOf, outwardOf, h.get i hi])
  have hd := hdatagram v hv
  rw [heq] at hd
  cases hd

end Resting

end

/-! ## What leaves a stream alone -/

namespace Onward

open Quic.Connection

variable {c c' : Quic.Connection} {id : Nat}

theorem network (hwf : c.WellFormed) (event : Quic.NetEvent) (i : Nat) :
    Onward (c.streams i) ((c.net event).streams i) := by
  have habs : ∀ i, (c.streams i).phase = .absent → c.streams i = {} := fun i => (hwf i).absent
  obtain ⟨-, -, hfin, hshut⟩ := net_flags habs event i
  have hdata := net_data habs event i
  have hnet := net_spec c event i
  generalize (c.net event).streams i = q at hfin hshut hdata hnet ⊢
  refine ⟨hdata, hfin, hshut, fun hsome => ?_, fun hcollected => ?_⟩
  · cases hnet with
    | same => exact hsome
    | created hp | first hp =>
        rw [habs i hp] at hsome
        cases hsome
    | live _ hs =>
        cases hs with
        | stop code =>
            show (Quic.SendBuf.stop _ code).finOff.isSome = true
            unfold Quic.SendBuf.stop
            split
            · exact hsome
            · rfl
        | _ => exact hsome
  · cases hnet with
    | same => exact hcollected
    | created hp | live hp | first hp =>
        rw [hp] at hcollected
        cases hcollected

/-- A send that takes nothing. -/
theorem refused {bytes : Bytes} {fin : Bool} {err : Quic.Error} (h : Send c id bytes fin (.error err) c')
    (hwf : c.WellFormed) (i : Nat) : Onward (c.streams i) (c'.streams i) := by
  cases h with
  | refused => exact .refl _
  | blocked _ hr _ _ hs =>
      rw [hs]
      cases hr with
      | live => exact .refl _
      | created hp =>
          rw [streams_set]
          split
          next hi =>
            rw [hi, (hwf id).absent hp]
            exact ⟨rfl, rfl, rfl, nofun, nofun⟩
          · exact .refl _
  | stopped cond =>
      refine .of_send (collectIf_send _ _ _ _) fun hcollected => ?_
      rw [collectIf_streams]
      split
      · rfl
      · exact hcollected

theorem read {cap : Nat} {res : Except Quic.Error (Bytes × Bool)} (h : Recv c id cap res c') (i : Nat) :
    Onward (c.streams i) (c'.streams i) := by
  refine .of_send (h.send i) fun hcollected => ?_
  by_cases hi : i = id
  · subst hi
    cases h with
    | none => exact hcollected
    | reset _ _ hr | read _ _ hr =>
        rw [readable_live hr] at hcollected
        cases hcollected
  · rwa [h.ne hi]

end Onward

section

variable {id : Nat} {e e' : Endpoint}

/-- Sending opens no stream. -/
theorem Sending.tells (h : Sending id e e') :
    ∃ l, e'.ev = e.ev ++ l ∧ ∀ v ∈ l, ∀ q j, v ≠ .streamOpened q j := by
  have hacks : ∀ (out : List OutChunk), ∀ v ∈ out.flatMap ackOf, ∀ q j, v ≠ .streamOpened q j := by
    intro out v hv q j heq
    obtain ⟨c, -, hv⟩ := List.mem_flatMap.mp hv
    unfold ackOf at hv
    cases hr : c.requestId <;> simp [hr, heq] at hv
  cases h with
  | returned | refused | fin => exact ⟨[], (List.append_nil _).symm, by simp⟩
  | @sent st front rest n c =>
      refine ⟨_, rfl, fun v hv => ?_⟩
      split at hv
      · exact hacks [front] v (by simpa using hv)
      · cases hv
  | @stopped st bytes code c =>
      refine ⟨_, rfl, fun v hv => ?_⟩
      rcases List.mem_cons.mp hv with rfl | hv
      · simp
      · exact hacks st.out v hv

/-- Nor does it write or reset any. -/
theorem Sending.records (h : Sending id e e') :
    ∃ m, e'.history = e.history ++ m ∧ ∀ t ∈ m, ∀ j, t.Spares j := by
  have hacks : ∀ (out : List OutChunk), ∀ t ∈ out.flatMap (ackTrace id), ∀ j, t.Spares j := by
    intro out t ht j
    obtain ⟨c, -, ht⟩ := List.mem_flatMap.mp ht
    obtain ⟨r, rfl⟩ := mem_ackTrace ht
    exact ⟨rfl, by simp⟩
  cases h with
  | returned => exact ⟨[_], rfl, by simp [Trace.Spares, Trace.wrote]⟩
  | refused | fin => exact ⟨[], (List.append_nil _).symm, by simp⟩
  | @sent st front rest n c =>
      refine ⟨_, rfl, fun t ht => ?_⟩
      rcases List.mem_append.mp ht with ht | ht
      · split at ht
        · obtain rfl := List.mem_singleton.mp ht
          exact fun _ => ⟨rfl, by simp⟩
        · cases ht
      · split at ht
        · exact hacks [front] t (by simpa using ht)
        · cases ht
  | @stopped st => exact ⟨_, rfl, hacks st.out⟩

end

section

variable {i : Nat} {e : Endpoint}

namespace Resting

theorem insert (e : Endpoint) {id : Nat} (h : i ≠ id) (st : Stream) : Resting i e (e.insertStream id st) :=
  of_same rfl rfl rfl (.refl _) (by rw [outwardOf, outwardOf, insertStream, Table.get_insert_ne h])

theorem onEstablished (hi : Carrier e.cfg.isServer i) : Resting i e e.onEstablished := by
  have hne : ∀ id ∈ controlIds e.cfg.isServer, i ≠ id := fun id hid heq => hi.control (heq ▸ hid)
  have hlocal : ∀ (s : Endpoint) (id : Nat) (bytes : Bytes), id ∈ controlIds e.cfg.isServer →
      Resting i s (s.insertLocal id bytes) := fun s id _ hid => insert s (hne id hid) _
  unfold Endpoint.onEstablished
  split_ifs
  · exact refl e
  · have h0 : Resting i e { e with setupSent := true } := of_eq rfl rfl rfl rfl rfl
    have h1 := h0.trans (hlocal _ (controlId e.cfg.isServer) H3.controlStreamPrefix
      (by simp [controlIds]))
    have h2 := h1.trans (hlocal _ (qpackEncId e.cfg.isServer)
      (H3.putVarint H3.qpackEncoderStreamType) (by simp [controlIds]))
    have h3 := h2.trans (hlocal _ (qpackDecId e.cfg.isServer)
      (H3.putVarint H3.qpackDecoderStreamType) (by simp [controlIds]))
    simp only
    split_ifs
    · exact h3
    · exact h3.trans (of_eq rfl rfl rfl rfl rfl)

theorem streamStopSending (e : Endpoint) (id code : Nat) : Resting i e (e.streamStopSending id code) := by
  unfold Endpoint.streamStopSending
  split_ifs
  · have hconn : Resting i e (e.shutdownRead id (H3.webtransportCodeToHttpCode code)) :=
      conn e (.of_send (Quic.Connection.streamShutdownRead_send _ _ _ _)
        (Quic.Connection.streamShutdownRead_phase _ _ _ _).trans)
    exact hconn.trans (modify _ id fun _ => rfl)
  · exact refl e

theorem markClosed (e : Endpoint) (code : Nat) (reason : Bytes) (remote : Bool) :
    Resting i e (e.markClosed code reason remote) := by
  cases hc : e.closed with
  | true =>
      rw [Endpoint.markClosed, if_pos hc]
      exact refl e
  | false =>
      refine of_entry (markClosed_cfg _ _ _ _) (markClosed_ev hc code reason remote) (by simp) (m := [])
        (by simp [(markClosed_flags e code reason remote).2.2.2.2]) (by simp)
        (by rw [markClosed_conn]; exact .refl _) ?_
      rw [outwardOf, outwardOf, markClosed_streams hc, Table.get_map, Option.map_map]
      rfl

/-- An entry whose send side is over may be dropped. -/
theorem prune (e : Endpoint) : Resting i e e.prune := by
  refine ⟨rfl, id, fun _ h => h, .refl _, ⟨[], (List.append_nil _).symm, by simp⟩, ?_⟩
  have hget : e.prune.streams.get i = (e.streams.get i).filter (retains e.cfg.isServer i) := by
    simp [Endpoint.prune, Table.get_filter]
  cases hst : e.streams.get i with
  | none => exact .inl (by rw [outwardOf, outwardOf, hget, hst]; rfl)
  | some st =>
      cases hkept : retains e.cfg.isServer i st with
      | true => exact .inl (by rw [outwardOf, outwardOf, hget, hst, Option.filter_some_pos hkept])
      | false =>
          refine .inr ⟨outwardOf_none.mpr (by rw [hget, hst, Option.filter_some_neg (by simp [hkept])]), ?_⟩
          intro hlocal o ho
          rw [outwardOf_get hst] at ho
          obtain rfl := Option.some.inj ho
          exact (sent_of_dropped (.inr hlocal) hkept).1

/-- The queue of another stream is sent. -/
theorem of_sending {id : Nat} {e' : Endpoint} (h : Sending id e e') (hne : i ≠ id) : Resting i e e' := by
  obtain ⟨l, hev, hl⟩ := h.tells
  obtain ⟨m, hhistory, hm⟩ := h.records
  refine of_entry h.session.1 hev (fun v hv q => hl v hv q i) hhistory (fun t ht => hm t ht i) ?_ ?_
  · rw [h.conn_ne hne]
    exact .refl _
  · rw [outwardOf, outwardOf, h.get_ne hne]

theorem streamReset (e : Endpoint) {id : Nat} (hne : i ≠ id) (code : Nat) :
    Resting i e (e.streamReset id code) := by
  rcases streamReset_spec e id code with heq | ⟨st, -, hreset⟩
  · rw [heq]
    exact refl e
  obtain ⟨m, hreturned, hhistory⟩ := hreset.history
  refine of_entry hreset.cfg (l := []) (by simp [hreset.ev]) (by simp) hhistory (fun t ht => ?_) ?_ ?_
  · simp only [List.cons_append, List.mem_cons, List.mem_append, List.mem_map] at ht
    rcases ht with rfl | ht | ⟨r, -, rfl⟩
    · exact ⟨rfl, by simpa using Ne.symm hne⟩
    · obtain ⟨k, rfl⟩ := hreturned t ht
      exact ⟨rfl, by simp⟩
    · exact ⟨rfl, by simp⟩
  · rw [hreset.conn]
    rcases Quic.Connection.streamShutdownWrite_streams e.conn id
      (H3.webtransportCodeToHttpCode code) i with hs | ⟨hi, -⟩
    · rw [hs]
      exact .refl _
    · exact absurd hi hne
  · rw [outwardOf, outwardOf, hreset.get_ne i hne]

theorem streamWrite (e : Endpoint) {id : Nat} (hne : i ≠ id) (data : Bytes) (requestId : Nat) :
    Resting i e (e.streamWrite id data requestId) := by
  have hwritten : ∀ t ∈ [Trace.written id data requestId], t.Spares i := by
    simpa using Trace.spares_written (Ne.symm hne) data requestId
  unfold Endpoint.streamWrite
  simp only
  split
  · refine of_entry rfl (l := []) (List.append_nil _).symm (by simp) rfl hwritten (.refl _) ?_
    rw [outwardOf, outwardOf, modifyStream, Table.get_modify_ne hne]
    rfl
  · refine of_entry rfl rfl (by simp) (m := [_, _]) (List.append_assoc _ _ _) ?_ (.refl _) rfl
    simp only [List.mem_cons, List.not_mem_nil, or_false]
    rintro t (rfl | rfl)
    · exact hwritten _ List.mem_cons_self
    · exact ⟨rfl, by simp⟩

theorem streamFin (e : Endpoint) {id : Nat} (hne : i ≠ id) : Resting i e (e.streamFin id) :=
  of_same rfl rfl rfl (.refl _)
    (by rw [outwardOf, outwardOf, Endpoint.streamFin, modifyStream, Table.get_modify_ne hne])

end Resting

end

section

variable [H3.Codec] {i r : Nat} {e e' : Endpoint}

/-- Reading sends nothing, and drops no stream of our own. -/
theorem Effect.resting (h : Effect r e e') (hl : e.Layout) (hi : Carrier e.cfg.isServer i) :
    Resting i e e' := by
  have honward : Onward (e.conn.streams i) (e'.conn.streams i) := by
    refine .of_send (h.send i) ?_
    rcases h.conn with hc | ⟨hc, -⟩
    · rw [hc]
      exact id
    · rw [hc, Quic.Connection.streamShutdownRead_phase]
      exact id
  have hentry : e'.outwardOf i = e.outwardOf i ∨ e'.outwardOf i = none ∧
      (isLocal i e.cfg.isServer = true → ∀ o, e.outwardOf i = some o → o.2.2 = true) := by
    cases hg : e'.streams.get i with
    | some st' =>
        rcases h.entry hg with ⟨st, hst, heff⟩ | ⟨heq, -⟩
        · have hrole : st.role ≠ .connect := by
            intro hrole
            have hfits := hl.roles i st.role (by simp [Endpoint.roleOf, hst])
            rw [hrole] at hfits
            exact hi.session hfits
          obtain ⟨hout, hqueued, hsent⟩ := heff.sendSide hrole
          exact .inl (by rw [outwardOf_get hg, outwardOf_get hst, Stream.outward, hout, hqueued, hsent]; rfl)
        · exact absurd heq hi.session
    | none =>
        cases hst : e.streams.get i with
        | none => exact .inl ((outwardOf_none.mpr hg).trans (outwardOf_none.mpr hst).symm)
        | some st =>
            refine .inr ⟨outwardOf_none.mpr hg, fun hlocal => ?_⟩
            have hp : e.Pending i := by
              simpa [Pending, Endpoint.roleOf, hst] using h.pending_of_removed hst hg
            simp [hl.pending i hp] at hlocal
  rcases h.silent with ⟨⟨l, hev, hstill⟩, m, hhistory, hquiet⟩ | ⟨rfl, -⟩
  · refine ⟨h.cfg, fun hw => hw.mono fun v hv => hev ▸ List.mem_append_left l hv, fun q hq => ?_,
      honward, ⟨m, hhistory, fun t ht =>
        Trace.spares_of_not_request (Trace.isRequest_of_quiet (hquiet t ht)) i⟩, hentry⟩
    rw [hev] at hq
    exact (List.mem_append.mp hq).resolve_right fun hmem => by cases (hstill _ hmem).1
  · exact .of_entry rfl (l := [_]) rfl (by simp) (m := []) (List.append_nil _).symm (by simp) (.refl _) rfl

theorem Effects.resting (h : Effects r e e') (hl : e.Layout) (hi : Carrier e.cfg.isServer i) :
    Resting i e e' :=
  (h.invariant (I := fun s => s.Layout ∧ Resting i e s)
    (fun _ _ heff hI => ⟨heff.layout hI.1,
      hI.2.trans (heff.resting hI.1 (hI.2.cfg.symm ▸ hi))⟩) ⟨hl, .refl e⟩).2

end

/-! ## What happens to the stream itself -/

/-- `n` bytes of a chunk were taken. -/
structure Taken (c c' : Quic.Connection) (id : Nat) (bytes : Bytes) (fin : Bool) (n : Nat) : Prop where
  kept : (c.streams id).phase ≠ .collected
  unstopped : (c.streams id).send.error = none
  le : n ≤ bytes.length
  data : (c'.streams id).send.data = (c.streams id).send.data ++ bytes.take n
  shut : (c'.streams id).send.shut = (c.streams id).send.shut
  going : fin = false → (c.streams id).send.finOff = none ∧
    (c'.streams id).send.fin = (c.streams id).send.fin
  ends : fin = true → bytes = [] → (c'.streams id).send.finOff.isSome = true

theorem Send.taken {c c' : Quic.Connection} {id : Nat} {bytes : Bytes} {fin : Bool} {n : Nat}
    (h : Send c id bytes fin (.ok n) c') (hwf : c.WellFormed) : Taken c c' id bytes fin n := by
  cases h with
  | @sent c1 _ send txCap hr _ herr hacc =>
      have hsame : (c.streams id).phase ≠ .collected ∧
          (c1.streams id).send.error = (c.streams id).send.error ∧
          (c1.streams id).send.data = (c.streams id).send.data ∧
          (c1.streams id).send.shut = (c.streams id).send.shut ∧
          (c1.streams id).send.finOff = (c.streams id).send.finOff ∧
          (c1.streams id).send.fin = (c.streams id).send.fin := by
        cases hr with
        | live hp => simp [hp]
        | created hp => simp [(hwf id).absent hp, Quic.Connection.created]
      obtain ⟨hkept, herror, hdata, hshut, hfinal, hfin⟩ := hsame
      have hwf1 := (hr.wellFormed hwf id).send
      refine ⟨hkept, herror.symm.trans herr, hacc.le, ?_, ?_, fun hgoing => ?_, fun hends hnil => ?_⟩
      · simpa [hdata] using hacc.data
      · simpa [hshut] using hacc.shut
      · subst hgoing
        refine ⟨?_, ?_⟩
        · -- what has a final size takes no more, not even nothing
          rw [← hfinal]
          by_contra hsome
          obtain ⟨f, hf⟩ := Option.ne_none_iff_exists'.mp hsome
          obtain ⟨hle, hexact⟩ := hacc.below f hf
          have heq := hwf1.final f hf
          exact absurd (hexact (by omega)) (by simp)
        · rcases hacc.finish with ⟨-, hsame, -⟩ | ⟨hfalse, -⟩
          · simpa [hfin] using hsame
          · cases hfalse
      · rcases hacc.finish with ⟨-, -, hlt⟩ | ⟨-, -, hsome, -⟩
        · simpa [hnil] using hlt hends
        · simp [hsome]

theorem Send.stopped_error {c c' : Quic.Connection} {id code : Nat} {bytes : Bytes} {fin : Bool}
    (h : Send c id bytes fin (.error (.streamStopped code)) c') :
    (c.streams id).send.error = some code := by
  cases h with
  | refused hne | blocked hne => exact absurd rfl (hne code)
  | stopped _ _ _ herr => exact herr

theorem Stream.backlog_push (st : Stream) (data : Bytes) (requestId : Option Nat) :
    (st.push data requestId).backlog = st.backlog ++ data := by
  simp [Stream.backlog, Stream.push]

theorem backlog_withPrefix (role : Role) (bytes : Bytes) (memory : Nat) :
    (Stream.withPrefix role bytes memory).backlog = bytes := by
  cases bytes <;> simp [Stream.backlog, Stream.withPrefix]

section

variable {i : Nat} {e e' : Endpoint}

/-- Quiche takes no more of a stream. -/
theorem Spelled.ended (hs : e.Spelled i) (htext : e'.textOf i = e.textOf i)
    (hdata : (e'.conn.streams i).send.data = (e.conn.streams i).send.data)
    (hwhole : (e'.conn.streams i).send.fin = true → (e.conn.streams i).send.data = e.textOf i)
    (hno : ¬e'.Sendable i)
    (hreset : .streamReset i ∈ e'.history → ∀ st', e'.streams.get i = some st' →
      st'.out = [] ∧ (st'.finQueued = true → st'.finSent = true))
    (hshut : (e'.conn.streams i).send.shut = true → .streamReset i ∈ e'.history)
    (hown : ∀ r, .streamOpened r i ∈ e'.ev → isLocal i e'.cfg.isServer = true)
    (hknown : e'.writtenOn i ≠ [] ∨ .streamReset i ∈ e'.history → e'.Writable i) : e'.Spelled i where
  starts := by
    rw [hdata, htext]
    exact hs.starts
  whole hfin := by
    rw [hdata, htext]
    exact hwhole hfin
  rest _ _ hsend := absurd hsend hno
  sent _ _ _ := hno
  gone _ _ _ := hno
  reset := hreset
  shut := hshut
  own := hown
  known := hknown

/-- A write is queued behind the others, if the stream is still there. -/
theorem Spelled.streamWrite (hs : e.Spelled i) (hu : e.Unended i) (data : Bytes) (requestId : Nat) :
    (e.streamWrite i data requestId).Spelled i := by
  have hspec : ∃ l m, (e.streamWrite i data requestId).ev = e.ev ++ l ∧
      (∀ v ∈ l, ∀ q, v ≠ .streamOpened q i) ∧
      (e.streamWrite i data requestId).history = e.history ++ .written i data requestId :: m ∧
      (∀ t ∈ m, t.Spares i) ∧ (e.streamWrite i data requestId).cfg = e.cfg ∧
      (e.streamWrite i data requestId).conn = e.conn ∧
      (e.streamWrite i data requestId).streams.get i =
        (e.streams.get i).map fun st => st.push data (some requestId) := by
    unfold Endpoint.streamWrite
    simp only
    split
    · exact ⟨[], [], (List.append_nil _).symm, by simp, rfl, by simp, rfl, rfl,
        by simp [modifyStream, log]⟩
    next hcontains =>
      have hnone : e.streams.get i = none := by simpa [Table.contains, log] using hcontains
      exact ⟨[_], [_], rfl, by simp, List.append_assoc _ _ _, by simp [Trace.Spares, Trace.wrote], rfl, rfl,
        by simp [emit, log, hnone]⟩
  obtain ⟨l, m, hev, hl, hhistory, hm, hcfg, hconn, hget⟩ := hspec
  generalize e.streamWrite i data requestId = e' at hev hhistory hcfg hconn hget ⊢
  have hnone : m.filterMap (Trace.wrote i) = [] := List.filterMap_eq_nil_iff.mpr fun t ht => (hm t ht).1
  have htext : e'.textOf i = e.textOf i ++ data := by
    unfold textOf owns
    rw [hcfg, writtenOn_append hhistory, List.filterMap_cons, Trace.wrote, if_pos rfl, hnone]
    simp
  have hreset : .streamReset i ∈ e'.history → .streamReset i ∈ e.history := by
    rw [hhistory, List.mem_append, List.mem_cons]
    rintro (hmem | hmem | hmem)
    · exact hmem
    · cases hmem
    · exact absurd rfl (hm _ hmem).2
  have hsendable : e'.Sendable i → e.Sendable i := fun h =>
    ⟨hconn ▸ h.final, hconn ▸ h.kept, fun hmem => h.unreset (hhistory ▸ List.mem_append_left _ hmem)⟩
  have hopened : ∀ q, .streamOpened q i ∈ e'.ev → .streamOpened q i ∈ e.ev := by
    intro q hq
    rw [hev] at hq
    exact (List.mem_append.mp hq).resolve_right fun hmem => hl _ hmem q rfl
  have hentry : ∀ st', e'.streams.get i = some st' → ∃ st, e.streams.get i = some st ∧
      st' = st.push data (some requestId) := by
    intro st' hst'
    rw [hget] at hst'
    obtain ⟨st, hst, rfl⟩ := Option.map_eq_some_iff.mp hst'
    exact ⟨st, hst, rfl⟩
  refine ⟨?_, fun hfin => ?_, fun st' hst' hsend => ?_, fun st' hst' hfin hsend => ?_,
    fun q hq hgone hsend => hs.gone q (hopened q hq) ?_ (hsendable hsend),
    fun hmem => absurd (hreset hmem) hu.unreset, fun hshut => ?_, fun q hq => ?_, fun _ => ?_⟩
  · rw [hconn, htext]
    exact hs.starts.trans (List.prefix_append _ _)
  · rw [hconn, hu.fin] at hfin
    cases hfin
  · obtain ⟨st, hst, rfl⟩ := hentry st' hst'
    rw [hconn, htext, Stream.backlog_push, ← List.append_assoc, hs.rest st hst (hsendable hsend)]
  · obtain ⟨st, hst, rfl⟩ := hentry st' hst'
    exact hs.sent st hst hfin (hsendable hsend)
  · rwa [hget, Option.map_eq_none_iff] at hgone
  · exact hhistory ▸ List.mem_append_left _ (hs.shut (hconn ▸ hshut))
  · rw [hcfg]
    exact hs.own q (hopened q hq)
  · exact hu.writable.mono fun v hv => hev ▸ List.mem_append_left _ hv

theorem Spelled.streamFin (hs : e.Spelled i) (hunreset : .streamReset i ∉ e.history) :
    (e.streamFin i).Spelled i := by
  have hentry : ∀ st', (e.streamFin i).streams.get i = some st' → ∃ st, e.streams.get i = some st ∧
      st'.out = st.out ∧ st'.finSent = st.finSent := by
    intro st' hst'
    rw [Endpoint.streamFin, modifyStream, Table.get_modify_self] at hst'
    obtain ⟨st, hst, rfl⟩ := Option.map_eq_some_iff.mp hst'
    exact ⟨st, hst, rfl, rfl⟩
  refine ⟨hs.starts, hs.whole, fun st' hst' hsend => ?_, fun st' hst' hfin hsend => ?_,
    fun q hq hgone hsend => ?_, fun hmem => absurd hmem hunreset, hs.shut, hs.own, hs.known⟩
  · obtain ⟨st, hst, hout, -⟩ := hentry st' hst'
    rw [Stream.backlog, hout]
    exact hs.rest st hst ⟨hsend.final, hsend.kept, hunreset⟩
  · obtain ⟨st, hst, -, hsent⟩ := hentry st' hst'
    exact hs.sent st hst (hsent ▸ hfin) ⟨hsend.final, hsend.kept, hunreset⟩
  · rw [Endpoint.streamFin, modifyStream, Table.get_modify_self, Option.map_eq_none_iff] at hgone
    exact hs.gone q hq hgone ⟨hsend.final, hsend.kept, hunreset⟩

theorem Spelled.streamReset (hs : e.Spelled i) (hw : e.Writable i) (code : Nat) :
    (e.streamReset i code).Spelled i := by
  rcases streamReset_spec e i code with heq | ⟨st, hst, hreset⟩
  · rw [heq]
    exact hs
  obtain ⟨n, hn⟩ := hreset.entry
  obtain ⟨m, hreturned, hhistory⟩ := hreset.history
  have hmem : .streamReset i ∈ (e.streamReset i code).history := by simp [hhistory]
  have hwritten : (e.streamReset i code).writtenOn i = e.writtenOn i := by
    have hnone : (Trace.streamReset i :: m ++ (st.out.filterMap OutChunk.requestId).map (Trace.dropped i)).filterMap
        (Trace.wrote i) = [] := by
      refine List.filterMap_eq_nil_iff.mpr fun t ht => ?_
      simp only [List.cons_append, List.mem_cons, List.mem_append, List.mem_map] at ht
      rcases ht with rfl | ht | ⟨r, -, rfl⟩
      · rfl
      · obtain ⟨k, rfl⟩ := hreturned t ht
        rfl
      · rfl
    rw [writtenOn_append hhistory, hnone, List.flatten_nil, List.append_nil]
  have hfin : ((e.streamReset i code).conn.streams i).send.fin = (e.conn.streams i).send.fin := by
    rw [hreset.conn]
    rcases Quic.Connection.streamShutdownWrite_streams e.conn i
      (H3.webtransportCodeToHttpCode code) i with h | ⟨-, -, -, h⟩
    · rw [h]
    · rw [h]
      unfold Quic.SendBuf.shutdown
      split <;> rfl
  refine hs.ended (textOf_eq hreset.cfg hwritten) ?_ (fun h => hs.whole (hfin ▸ h))
    (fun h => h.unreset hmem) (fun _ st' hst' => ?_) (fun _ => hmem)
    (fun q hq => ?_) fun _ => hw.mono fun v hv => hreset.ev.symm ▸ hv
  · rw [hreset.conn]
    exact Quic.Connection.streamShutdownWrite_data _ _ _ _
  · obtain rfl := Option.some.inj (hn.symm.trans hst')
    exact ⟨rfl, fun _ => rfl⟩
  · rw [hreset.cfg]
    exact hs.own q (hreset.ev ▸ hq)

end

/-! ## New streams -/

section

variable {i : Nat} {e : Endpoint}

/-- Nothing was written on a stream that the application does not know, nor was
it reset. -/
theorem Spelled.unknown (hs : e.Spelled i) (hw : ¬e.Writable i) :
    e.writtenOn i = [] ∧ .streamReset i ∉ e.history := by
  refine ⟨?_, fun hmem => hw (hs.known (.inr hmem))⟩
  by_contra hne
  exact hw (hs.known (.inl hne))

/-- A stream that quiche reports for the first time has nothing to send. -/
theorem Spelled.touch (hs : e.Spelled i) (hl : e.Layout) (hopen : e.closed = false) {id : Nat}
    (hr : e.conn.readable id = true) : (e.touch id).Spelled i := by
  unfold Endpoint.touch
  split
  · exact hs
  next hcontains =>
    by_cases hne : i = id
    · subst hne
      have hnone : e.streams.get i = none := by simpa [Table.contains] using hcontains
      have hget : ∀ {st}, (e.insertStream i (.new (classifyNew i e.cfg.isServer) e.parserMemory)).streams.get
          i = some st → st.out = [] ∧ st.finQueued = false ∧ st.finSent = false := by
        intro st hst
        rw [insertStream, Table.get_insert_self] at hst
        obtain rfl := Option.some.inj hst
        exact ⟨rfl, rfl, rfl⟩
      have hrest : e.Sendable i → (e.conn.streams i).send.data = e.textOf i := by
        intro hsend
        have hw : ¬e.Writable i := by
          rintro (⟨q, hq⟩ | hin)
          · exact hs.gone q hq hnone hsend
          · rcases hl.gone i (hl.incoming i true hin).1 (.inr ⟨true, hin⟩) (roleOf_eq_none.mpr hnone)
              with hc | hx
            · simp [hopen] at hc
            · simp [Quic.Connection.not_readable_of_exhausted (hl.wellFormed i) hx] at hr
        have hpeer : e.owns i = false := by
          by_contra hown
          have hlive := Quic.Connection.readable_live hr
          rcases hl.known i (by simpa [owns] using hown) (by simp [hlive]) with hrole | ⟨q, hq⟩ | ⟨bidi, hin⟩
          · exact hrole (roleOf_eq_none.mpr hnone)
          · exact hw (.inl ⟨q, hq⟩)
          · exact hown ((hl.incoming i bidi hin).1)
        have hstarts := hs.starts
        rw [textOf, (hs.unknown hw).1, hpeer] at hstarts ⊢
        exact List.prefix_nil.mp hstarts
      refine ⟨hs.starts, hs.whole, fun st hst hsend => ?_, fun st hst hfin => ?_, fun q _ hgone => ?_,
        fun _ st hst => ?_, hs.shut, hs.own, hs.known⟩
      · rw [Stream.backlog, (hget hst).1, List.flatMap_nil, List.append_nil]
        exact hrest ⟨hsend.final, hsend.kept, hsend.unreset⟩
      · rw [(hget hst).2.2] at hfin
        cases hfin
      · rw [insertStream, Table.get_insert_self] at hgone
        cases hgone
      · rw [(hget hst).1, (hget hst).2.1]
        exact ⟨rfl, fun hqueued => by cases hqueued⟩
    · exact (Resting.insert e hne _).spelled hs

/-- A stream that we open begins with its signal. -/
theorem Spelled.allocateStream (hs : e.Spelled i) (hl : e.Layout) (bidi : Bool) (requestId : Nat) :
    (e.allocateStream bidi requestId).Spelled i := by
  have hcfg : (e.allocateStream bidi requestId).cfg = e.cfg := by cases bidi <;> rfl
  have hev : (e.allocateStream bidi requestId).ev = e.ev ++ [.streamOpened requestId (e.nextId bidi)] := by
    cases bidi <;> rfl
  have hhistory : (e.allocateStream bidi requestId).history = e.history := by cases bidi <;> rfl
  have hconn : (e.allocateStream bidi requestId).conn = e.conn := by cases bidi <;> rfl
  have hstreams : (e.allocateStream bidi requestId).streams = e.streams.insert (e.nextId bidi)
      (.withPrefix (.wtData bidi) (streamSignal bidi) e.parserMemory) := by
    cases bidi <;> rfl
  generalize e.allocateStream bidi requestId = e' at hcfg hev hhistory hconn hstreams ⊢
  by_cases hne : i = e.nextId bidi
  · obtain ⟨k, hk⟩ := hl.next bidi
    obtain ⟨hwritten, hunreset⟩ := hs.unknown (hne ▸ (hl.nextId_new bidi).1)
    have hempty : e.conn.streams i = {} := by
      rw [hne, hk]
      exact (hl.wellFormed _).absent (hl.fresh bidi k hk.le).2
    have hwritten' : e'.writtenOn i = [] := by
      rw [writtenOn, chunksOf, hhistory]
      exact hwritten
    have htext : e'.textOf i = streamSignal bidi := by
      have hown : e'.owns i = true := by rw [owns, hcfg, hne, hk, isLocal_ownId]
      have hbidi : isBidi i = bidi := by rw [hne, hk, isBidi_ownId]
      rw [textOf, hwritten', hown, hbidi, List.append_nil]
      rfl
    have hget : e'.streams.get i = some (.withPrefix (.wtData bidi) (streamSignal bidi) e.parserMemory) := by
      rw [hstreams, hne, Table.get_insert_self]
    refine ⟨?_, fun hfin => ?_, fun st hst _ => ?_, fun st hst hfin => ?_, fun q _ hgone => ?_,
      fun hmem => absurd (hhistory ▸ hmem) hunreset, fun hshut => ?_, fun _ _ => ?_,
      fun _ => ?_⟩
    · rw [hconn, hempty]
      exact List.nil_prefix
    · rw [hconn, hempty] at hfin
      cases hfin
    · obtain rfl := Option.some.inj (hget.symm.trans hst)
      rw [hconn, hempty, htext, backlog_withPrefix]
      rfl
    · obtain rfl := Option.some.inj (hget.symm.trans hst)
      cases hfin
    · rw [hget] at hgone
      cases hgone
    · rw [hconn, hempty] at hshut
      cases hshut
    · rw [hcfg, hne, hk, isLocal_ownId]
    · exact .inl ⟨requestId, by rw [hev, ← hne]; simp⟩
  · refine Resting.spelled (e := e) ⟨hcfg, fun hw => hw.mono fun v hv => hev ▸ List.mem_append_left _ hv,
      fun q hq => ?_, hconn ▸ .refl _, ⟨[], by simp [hhistory], by simp⟩, .inl ?_⟩ hs
    · rw [hev, List.mem_append, List.mem_singleton, Ev.streamOpened.injEq] at hq
      exact hq.resolve_right fun h => hne h.2
    · rw [outwardOf, outwardOf, hstreams, Table.get_insert_ne hne]

theorem Spelled.releasePendingOpens (hs : e.Spelled i) (hl : e.Layout) : e.releasePendingOpens.Spelled i :=
  (releasePendingOpens_invariant (I := fun s => s.Layout ∧ s.Spelled i)
    (fun s l h => ⟨h.1.same (.session rfl rfl rfl rfl rfl rfl rfl rfl rfl),
      (.of_eq rfl rfl rfl rfl rfl : Resting i s { s with pendingOpens := l }).spelled h.2⟩)
    (fun _ bidi requestId _ _ _ h => ⟨h.1.allocateStream bidi requestId,
      h.2.allocateStream h.1 bidi requestId⟩) ⟨hl, hs⟩).2

end

/-! ## The send loop -/

section

variable {i : Nat} {e e' : Endpoint}

/-- The chunk at the head of the queue without the bytes that were taken of it. -/
theorem backlog_advance {front : OutChunk} {rest : List OutChunk} {n : Nat} {st : Stream}
    (h : st.out = if decide (front.data.length ≤ front.off + n) then rest
      else { front with off := front.off + n } :: rest) :
    st.backlog = front.data.drop (front.off + n) ++ rest.flatMap fun c => c.data.drop c.off := by
  rw [Stream.backlog, h]
  split
  next hdone =>
    rw [List.drop_eq_nil_of_le (by simpa using hdone), List.nil_append]
  · rfl

/-- Sending takes bytes off the queue in their order, and the FIN behind them. -/
theorem Sending.spelled (h : Sending i e e') (hwf : e.conn.WellFormed) (hs : e.Spelled i) : e'.Spelled i := by
  obtain ⟨m, hhistory, hm⟩ := h.records
  obtain ⟨l, hev, hopens⟩ := h.tells
  have hwritten := writtenOn_spared hhistory fun t ht => hm t ht i
  have htext := textOf_eq h.session.1 hwritten
  have hreset : .streamReset i ∈ e'.history ↔ .streamReset i ∈ e.history :=
    reset_spared hhistory fun t ht => hm t ht i
  have hknown : e'.writtenOn i ≠ [] ∨ .streamReset i ∈ e'.history → e'.Writable i := fun hk =>
    (hs.known (by rwa [hwritten, hreset] at hk)).mono fun v hv => hev ▸ List.mem_append_left _ hv
  have hown : ∀ q, .streamOpened q i ∈ e'.ev → isLocal i e'.cfg.isServer = true := by
    intro q hq
    rw [hev] at hq
    rw [h.session.1]
    exact hs.own q ((List.mem_append.mp hq).resolve_right fun hmem => hopens _ hmem q i rfl)
  cases h with
  | @returned st finalSize =>
      have hmodify : Resting i e (e.modifyStream i fun st =>
          { st with sendPayload := finalSize - st.sendPrefix }) := .modify e i fun _ => rfl
      refine Resting.spelled ?_ (hmodify.spelled hs)
      refine .of_entry rfl (l := []) (List.append_nil _).symm (by simp) (m := [_]) rfl (fun t ht => ?_)
        (.refl _) rfl
      obtain rfl := List.mem_singleton.mp ht
      exact ⟨rfl, by simp⟩
  | refused _ hsend => exact (Resting.conn e (.refused hsend hwf i)).spelled hs
  | @sent st front rest n c hst hout _ hsend =>
      have htaken := Send.taken hsend hwf
      obtain ⟨hfinal, hfin⟩ := htaken.going rfl
      have hunreset : .streamReset i ∉ e.history := fun hmem => by
        simpa [hout] using (hs.reset hmem st hst).1
      have hsendable : e.Sendable i := ⟨hfinal, htaken.kept, hunreset⟩
      have hget : ∃ st', (({ e with conn := c } : Endpoint).advance i front rest
          (isPayload st front) n).streams.get i = some st' ∧ st'.finSent = st.finSent ∧
          st'.backlog = front.data.drop (front.off + n) ++ rest.flatMap fun c => c.data.drop c.off := by
        refine ⟨{ st with
          sendPayload := if isPayload st front then st.sendPayload + n else st.sendPayload
          out := if decide (front.data.length ≤ front.off + n) then rest
            else { front with off := front.off + n } :: rest }, ?_, rfl, backlog_advance rfl⟩
        simp only [advance, Table.get_modify_self, hst, Option.map_some]
      obtain ⟨st', hst', hsent', hbacklog⟩ := hget
      -- the bytes taken and those left are what was queued
      have hwhole : (c.streams i).send.data ++ st'.backlog = e.textOf i := by
        have hle := htaken.le
        rw [List.length_take] at hle
        have htake : ((front.data.drop front.off).take (e.sendAmount st front)).take n =
            (front.data.drop front.off).take n := by rw [List.take_take, min_eq_left (by omega)]
        have hrest := hs.rest st hst hsendable
        rw [Stream.backlog, hout, List.flatMap_cons] at hrest
        rw [hbacklog, htaken.data, htake, ← hrest, ← List.drop_drop, List.append_assoc,
          ← List.append_assoc ((front.data.drop front.off).take n), List.take_append_drop]
      refine ⟨?_, fun hfin' => ?_, fun st1 hst1 _ => ?_, fun st1 hst1 hfin' => ?_, fun q _ hgone => ?_,
        fun hmem => absurd (hreset.mp hmem) hunreset, fun hshut => ?_, hown, hknown⟩
      · rw [htext, ← hwhole]
        exact List.prefix_append _ _
      · have hended := ((hwf i).send.ended).mpr (.inl (hfin ▸ hfin'))
        rw [hfinal] at hended
        cases hended
      · obtain rfl := Option.some.inj (hst'.symm.trans hst1)
        rw [htext]
        exact hwhole
      · obtain rfl := Option.some.inj (hst'.symm.trans hst1)
        exact absurd hsendable (hs.sent st hst (hsent' ▸ hfin'))
      · rw [hst'] at hgone
        cases hgone
      · exact hreset.mpr (hs.shut (htaken.shut ▸ hshut))
  | @stopped st bytes code c hst hout hsend =>
      have honward := Onward.refused hsend hwf i
      refine hs.ended htext honward.data (fun hfin => hs.whole (honward.fin ▸ hfin)) (fun hs' => ?_)
        (fun _ st' hst' => ?_) (fun hshut => hreset.mpr (hs.shut (honward.shut ▸ hshut))) hown hknown
      · have hended := honward.final (((hwf i).send.ended).mpr
          (.inr (.inr (by rw [Send.stopped_error hsend]; rfl))))
        have hfinal : (c.streams i).send.finOff = none := hs'.final
        rw [hfinal] at hended
        cases hended
      · simp only [surfaceStop, Table.get_modify_self, hst, Option.map_some, Option.some.injEq] at hst'
        subst hst'
        exact ⟨rfl, fun _ => rfl⟩
  | @fin st n c hst hout hqueued hnot hsend =>
      have htaken := Send.taken hsend hwf
      have hunreset : .streamReset i ∉ e.history := fun hmem => by
        have hsent := (hs.reset hmem st hst).2 hqueued
        simp [hnot] at hsent
      have hdata : (c.streams i).send.data = (e.conn.streams i).send.data := by
        rw [htaken.data, List.take_nil, List.append_nil]
      -- all was taken before, whether or not the FIN was
      have hwhole : (e.conn.streams i).send.data = e.textOf i := by
        cases hfinal : (e.conn.streams i).send.finOff with
        | none =>
            have hrest := hs.rest st hst ⟨hfinal, htaken.kept, hunreset⟩
            rwa [Stream.backlog, hout, List.flatMap_nil, List.append_nil] at hrest
        | some f =>
            rcases ((hwf i).send.ended).mp (by rw [hfinal]; rfl) with hfin | hshut | herr
            · exact hs.whole hfin
            · exact absurd (hs.shut hshut) hunreset
            · rw [htaken.unstopped] at herr
              cases herr
      refine hs.ended htext hdata (fun _ => hwhole) (fun hs' => ?_)
        (fun hmem => absurd (hreset.mp hmem) hunreset)
        (fun hshut => hreset.mpr (hs.shut (htaken.shut ▸ hshut))) hown hknown
      have hended := htaken.ends rfl rfl
      have hfinal : (c.streams i).send.finOff = none := hs'.final
      rw [hfinal] at hended
      cases hended

theorem Spelled.flushStream (hs : e.Spelled i) (hwf : e.conn.WellFormed) (id : Nat) :
    (e.flushStream id).Spelled i := by
  have hstep : ∀ s s', Sending id s s' → s.conn.WellFormed ∧ s.Spelled i →
      s'.conn.WellFormed ∧ s'.Spelled i := by
    intro s s' hsend ⟨hwf, hs⟩
    refine ⟨hsend.wellFormed hwf, ?_⟩
    by_cases hne : i = id
    · subst hne
      exact hsend.spelled hwf hs
    · exact (Resting.of_sending hsend hne).spelled hs
  exact (flushStream_invariant hstep ⟨hwf, hs⟩).2

end

/-! ## Whole runs -/

section

variable [H3.Codec] {i : Nat} {e : Endpoint}

theorem Spelled.step (hs : e.Spelled i) (hl : e.Layout) (hi : Carrier e.cfg.isServer i) {s : Step}
    (ha : e.StepAdmissible s) (hk : e.KeepsEnd s) : (e.step s).Spelled i := by
  have haside : ∀ {e'}, Aside e e' → e'.Spelled i := fun h => (Resting.of_aside hi.session h).spelled hs
  cases s with
  | onEstablished => exact (Resting.onEstablished hi).spelled hs
  | touch id => exact hs.touch hl ha.1 ha.2
  | read id backpressured =>
      show (readStep id backpressured e).1.Spelled i
      rcases readStep_effects (hl.readable ha) hl.wellFormed (hl.alive_of_readable ha id) backpressured
        with heq | ⟨cap, heff⟩
      · rw [heq]
        exact hs
      · have hspec := Quic.Connection.streamRecv_spec e.conn id cap
        have hconn : Resting i e { e with conn := (e.conn.streamRecv id cap).2 } :=
          .conn e (.read hspec i)
        exact (hconn.trans (heff.resting (hl.same (.conn e hspec.isServer hspec.wellFormed hspec.phase
          fun hwf _ => hspec.exhausted hwf)) hi)).spelled hs
  | onDatagrams => exact haside (.onDatagrams e)
  | sendDatagram data requestId => exact haside (.sendDatagram e data requestId)
  | openStream bidi requestId =>
      have hpending : Resting i e { e with pendingOpens := e.pendingOpens ++ [(bidi, requestId)] } :=
        .of_eq rfl rfl rfl rfl rfl
      exact (hpending.spelled hs).releasePendingOpens
        (hl.same (.session rfl rfl rfl rfl rfl rfl rfl rfl rfl))
  | streamWrite id data requestId =>
      by_cases hne : i = id
      · exact hne ▸ hs.streamWrite (hne ▸ hk) data requestId
      · exact (Resting.streamWrite e hne data requestId).spelled hs
  | streamFin id =>
      by_cases hne : i = id
      · exact hne ▸ hs.streamFin (hne ▸ hk)
      · exact (Resting.streamFin e hne).spelled hs
  | streamReset id code =>
      by_cases hne : i = id
      · exact hne ▸ hs.streamReset (hne ▸ ha) code
      · exact (Resting.streamReset e hne code).spelled hs
  | streamStopSending id code => exact (Resting.streamStopSending e id code).spelled hs
  | setPaused id paused =>
      have hmodify : Resting i e (e.setPaused id paused) := .modify e id fun _ => rfl
      exact hmodify.spelled hs
  | close code reason => exact haside (.close e code reason)
  | sendDrain => exact haside (.sendDrain e)
  | takeTerminalError => exact haside (.takeTerminalError e)
  | grantCredit => exact haside (.grantCredit e)
  | replenish => exact haside (.replenish e)
  | queueClose => exact haside (.queueClose e)
  | releasePendingOpens => exact hs.releasePendingOpens hl
  | flushStream id => exact hs.flushStream hl.wellFormed id
  | commitSent =>
      have hcommit : Resting i e e.commitSent := .of_eq rfl rfl rfl rfl rfl
      exact hcommit.spelled hs
  | signalFlowControlBlocked => exact haside (.signalFlowControlBlocked e)
  | prune => exact (Resting.prune e).spelled hs
  | gracefulClose => exact haside (.gracefulClose e)
  | markClosed code reason remote => exact (Resting.markClosed e code reason remote).spelled hs
  | network event => exact (Resting.conn e (.network hl.wellFormed event i)).spelled hs

omit [H3.Codec] in
theorem Start.spelled (h : Start e) : e.Spelled i := by
  have hempty : e.ev = [] ∧ e.streams = .empty ∧ e.history = [] ∧ ∀ j, e.conn.streams j = {} := by
    cases h with
    | client _ _ _ _ _ _ _ hfresh => exact ⟨rfl, rfl, rfl, hfresh.2.1⟩
    | server _ _ _ _ _ _ _ hfresh => exact ⟨rfl, rfl, rfl, hfresh.2.1⟩
  obtain ⟨hev, hstreams, hhistory, hconn⟩ := hempty
  have hwritten : e.writtenOn i = [] := by
    rw [writtenOn, chunksOf, hhistory]
    rfl
  refine ⟨?_, fun hfin => ?_, fun st hst => ?_, fun st hst => ?_, fun r hr => ?_, fun hmem => ?_,
    fun hshut => ?_, fun r hr => ?_, fun hknown => ?_⟩
  · rw [hconn]
    exact List.nil_prefix
  · simp [hconn] at hfin
  · simp [hstreams] at hst
  · simp [hstreams] at hst
  · simp [hev] at hr
  · simp [hhistory] at hmem
  · simp [hconn] at hshut
  · simp [hev] at hr
  · simp [hwritten, hhistory] at hknown

/-- What an application may send on a stream. -/
structure Outgoing (i : Nat) (e : Endpoint) : Prop where
  layout : e.Layout
  carrier : Carrier e.cfg.isServer i
  spelled : e.Spelled i

theorem Outgoing.step (h : Outgoing i e) {s : Step} (ha : e.StepAdmissible s) (hk : e.KeepsEnd s) :
    Outgoing i (e.step s) where
  layout := h.layout.step ha
  carrier := (cfg_whole e).step h.layout ha rfl ▸ h.carrier
  spelled := h.spelled.step h.layout h.carrier ha hk

/-! ## What was written -/

/-- What a step writes on the stream. -/
def Step.wrote (id : Nat) : Step → Option Bytes
  | .streamWrite i data _ => if i = id then some data else none
  | _ => none

theorem step_wrote (hl : e.Layout) {s : Step} (hs : e.StepAdmissible s) (id : Nat) :
    (e.step s).chunksOf id = e.chunksOf id ++ (Step.wrote id s).toList := by
  cases hsends : Step.sends s with
  | false =>
      obtain ⟨-, -, ⟨m, hhistory, hm⟩, -⟩ := step_unsent hl hs hsends
      have hwrote : Step.wrote id s = none := by
        cases s with
        | streamWrite => cases hsends
        | _ => rfl
      rw [hwrote, Option.toList_none, List.append_nil]
      refine chunksOf_append hhistory fun t ht => ?_
      have hquiet := hm t ht
      cases t with
      | written => cases hquiet
      | _ => rfl
  | true =>
      cases s with
      | streamWrite i data requestId =>
          show (e.streamWrite i data requestId).chunksOf id = _
          unfold Endpoint.streamWrite
          simp only
          split <;> by_cases hi : i = id <;>
            simp [chunksOf, modifyStream, emit, log, List.filterMap_cons, Trace.wrote, Step.wrote, hi]
      | flushStream i =>
          refine Eq.trans ?_ (List.append_nil _).symm
          refine flushStream_invariant (I := fun s => s.chunksOf id = e.chunksOf id) (fun s s' hsend hI => ?_) rfl
          obtain ⟨m, hhistory, hm⟩ := hsend.records
          exact (chunksOf_append hhistory fun t ht => (hm t ht id).1).trans hI
      | _ => cases hsends

theorem steps_wrote (e : Endpoint) (c : Call) (id : Nat) :
    (e.steps c).filterMap (Step.wrote id) = (Call.wrote id c).toList := by
  cases c with
  | onReadable i backpressured =>
      refine List.filterMap_eq_nil_iff.mpr fun s hs => ?_
      simp only [steps] at hs
      split at hs
      · cases hs
      · rcases List.mem_cons.mp hs with rfl | hs
        · rfl
        · split at hs
          · rw [mem_reads hs]
            rfl
          · cases hs
  | flush order =>
      refine List.filterMap_eq_nil_iff.mpr fun s hs => ?_
      simp only [steps, flushHead, flushTail, List.mem_append, List.mem_cons, List.mem_map,
        List.not_mem_nil, or_false] at hs
      rcases hs with (rfl | rfl | rfl | rfl | rfl) | ⟨i, -, rfl⟩ | rfl | rfl | rfl | rfl <;> rfl
  | streamWrite i data requestId =>
      by_cases hi : i = id <;> simp [steps, Step.wrote, Call.wrote, hi]
  | _ => rfl

theorem call_wrote (hl : e.Layout) {c : Call} (hc : e.Admissible c) (id : Nat) :
    (e.call c).chunksOf id = e.chunksOf id ++ (Call.wrote id c).toList := by
  rw [call_eq, ← steps_wrote]
  exact execute_collects (I := Layout) (fun s => s.chunksOf id) (Step.wrote id)
    (fun s a hs ha => ⟨step_wrote hs ha id, hs.step ha⟩) hl (steps_admissible hc)

/-- The writes of a run are those of its calls. -/
theorem run_wrote (hl : e.Layout) {calls : List Call} (hrun : Along call Admissible e calls) (id : Nat) :
    (execute call e calls).chunksOf id = e.chunksOf id ++ calls.filterMap (Call.wrote id) :=
  execute_collects (I := Layout) (fun s => s.chunksOf id) (Call.wrote id)
    (fun _ _ hl hc => ⟨call_wrote hl hc id,
      call_invariant (I := Layout) (fun _ _ hl hs _ => hl.step hs) hl (meets_true hc)⟩) hl hrun

/-- What was accepted of a stream is the beginning of what is to be sent, and
all of it once the FIN was accepted. -/
structure SentInOrder (e : Endpoint) (i : Nat) (text : Bytes) : Prop where
  starts : (e.conn.streams i).send.data <+: text
  whole : (e.conn.streams i).send.fin = true → (e.conn.streams i).send.data = text
  /-- What was not accepted yet is queued, as long as it may still be. -/
  rest : ∀ st, e.streams.get i = some st → e.Sendable i →
    (e.conn.streams i).send.data ++ st.backlog = text

/-- Along a run that writes nothing behind the end of a stream, quiche accepts the
signal of a stream of our own and then the writes, in their order and without a
gap; it accepts the FIN behind all of them. -/
theorem sent_in_order (hstart : Start e) {calls : List Call} (hrun : Along call (Meets KeepsEnd) e calls)
    (hi : Carrier e.cfg.isServer i) :
    SentInOrder (execute call e calls) i
      (signalOf (e.owns i) (isBidi i) ++ (calls.filterMap (Call.wrote i)).flatten) := by
  have hout : Outgoing i (execute call e calls) :=
    run_invariant (fun _ _ h ha hk => h.step ha hk) ⟨hstart.layout, hi, hstart.spelled⟩ hrun
  have hchunks := run_wrote hstart.layout (along_and_iff.mp hrun).1 i
  have hnone : e.chunksOf i = [] := by cases hstart <;> rfl
  have hcfg := ((cfg_whole e).run ⟨hstart.layout, rfl⟩ (along_and_iff.mp hrun).1).2
  have htext : (execute call e calls).textOf i =
      signalOf (e.owns i) (isBidi i) ++ (calls.filterMap (Call.wrote i)).flatten := by
    rw [textOf, owns, hcfg, writtenOn, hchunks, hnone, List.nil_append]
    rfl
  rw [← htext]
  exact ⟨hout.spelled.starts, hout.spelled.whole, hout.spelled.rest⟩

end

/-! ## Concrete runs -/

instance (e : Endpoint) : (s : Step) → Decidable (e.KeepsEnd s)
  | .streamWrite id _ _ => inferInstanceAs (Decidable (e.Unended id))
  | .streamFin id => inferInstanceAs (Decidable (.streamReset id ∉ e.history))
  | .onEstablished | .touch _ | .read _ _ | .onDatagrams | .sendDatagram _ _ | .openStream _ _
  | .streamReset _ _ | .streamStopSending _ _ | .setPaused _ _ | .close _ _ | .sendDrain
  | .takeTerminalError | .grantCredit | .replenish | .queueClose | .releasePendingOpens
  | .flushStream _ | .commitSent | .signalFlowControlBlocked | .prune | .gracefulClose
  | .markClosed _ _ _ | .network _ => .isTrue trivial

instance [H3.Codec] (e : Endpoint) (c : Call) : Decidable (e.Meets KeepsEnd c) :=
  inferInstanceAs (Decidable (_ ∧ _))

/-- The server opens a stream and finishes it. -/
def sentRun : List Call :=
  serverHandshake ++ [.openStream true 1, .streamWrite 1 [7] 2, flushOnce, .streamWrite 1 [8] 3,
    .streamFin 1, flushOnce]

theorem sentRun_keeps :
    letI := H3.Codec.plain
    Along call (Meets KeepsEnd) sampleServer sentRun := by
  decide +kernel

theorem sent_in_order_sample :
    letI := H3.Codec.plain
    SentInOrder (execute call sampleServer sentRun) 1
      (signalOf (sampleServer.owns 1) (isBidi 1) ++ (sentRun.filterMap (Call.wrote 1)).flatten) :=
  letI := H3.Codec.plain
  sent_in_order sampleServer_start sentRun_keeps (by decide)

end Endpoint

end RWebTransport
