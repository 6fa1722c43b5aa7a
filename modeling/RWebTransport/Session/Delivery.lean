import RWebTransport.Session.StopSending

/-!
# Acknowledged writes

A write is acknowledged when `stream_send` took its last byte, but also when
the peer stopped the stream, and when there is no such stream any more.  Along
every run that avoids the latter two, the acknowledged writes of a stream lie
side by side in what the stream accepted.
-/

namespace RWebTransport

/-! ## Chunks in a byte string -/

/-- The chunks lie in the string side by side, in their order. -/
inductive Placed : List (Nat × Bytes) → Bytes → Prop
  | nil (s : Bytes) : Placed [] s
  | snoc {l : List (Nat × Bytes)} {a : Bytes} (r : Nat) (data b : Bytes) : Placed l a →
      Placed (l ++ [(r, data)]) (a ++ data ++ b)

theorem Placed.append {l : List (Nat × Bytes)} {s : Bytes} (h : Placed l s) (t : Bytes) :
    Placed l (s ++ t) := by
  cases h with
  | nil => exact .nil _
  | snoc r data b h =>
      rw [List.append_assoc _ b t]
      exact .snoc r data (b ++ t) h

/-- A chunk without bytes lies anywhere. -/
theorem Placed.empty {l : List (Nat × Bytes)} {s : Bytes} (h : Placed l s) (r : Nat) :
    Placed (l ++ [(r, [])]) s := by
  simpa using Placed.snoc r [] [] h

/-- A placed chunk is part of the string. -/
theorem Placed.within {l : List (Nat × Bytes)} {s : Bytes} (h : Placed l s) {r : Nat} {data : Bytes}
    (hmem : (r, data) ∈ l) : data <:+: s := by
  induction h with
  | nil => cases hmem
  | @snoc l a r' data' b _ ih =>
      rcases List.mem_append.mp hmem with hmem | hmem
      · exact (ih hmem).trans ⟨[], data' ++ b, by simp⟩
      · obtain ⟨rfl, rfl⟩ := Prod.mk.inj (List.mem_singleton.mp hmem)
        exact ⟨a, b, rfl⟩

/-! ## Acknowledgements -/

def Ev.isWriteAck : Ev → Bool
  | .writeAck _ => true
  | _ => false

/-- A write, or its acknowledgement. -/
def Trace.isWrite : Trace → Bool
  | .written _ _ _ | .acked _ _ => true
  | _ => false

namespace Endpoint

open Quic.Connection (Send streamSend_spec)

/-- `stream_send` reports that the peer stopped the stream. -/
def Reported (e : Endpoint) (id : Nat) : Prop :=
  ∃ code, (e.conn.streamSend id [] false).1 = .error (.streamStopped code)

/-- What a step must avoid: a write to a stream that is gone, and a flush that
finds a write on a stopped stream. -/
def KeepsWrites (e : Endpoint) : Step → Prop
  | .streamWrite id data _ => e.streams.contains id = true ∨ data = []
  | .flushStream id => e.Reported id → e.Notices id → ∀ st, e.streams.get id = some st →
      ∀ c ∈ st.out, c.requestId ≠ none → c.data = []
  | _ => True

/-- The acknowledged writes of a stream lie in what it accepted, and so does
what was taken of the first chunk. -/
def Filed (e : Endpoint) (id : Nat) : Prop :=
  ∃ l a t, Placed l a ∧ (e.conn.streams id).send.data = a ++ t ∧
    (∀ r, .acked id r ∈ e.history → ∃ data, (r, data) ∈ l ∧ .written id data r ∈ e.history) ∧
    ∀ st, e.streams.get id = some st → ∀ front ∈ st.out.head?, t = front.data.take front.off

structure Delivered (e : Endpoint) : Prop where
  acks : ∀ r, .writeAck r ∈ e.ev → ∃ id, .acked id r ∈ e.history
  queued : ∀ id st, e.streams.get id = some st → ∀ c ∈ st.out, ∀ r, c.requestId = some r →
    .written id c.data r ∈ e.history
  whole : ∀ id st, e.streams.get id = some st → ∀ c ∈ st.out.tail, c.off = 0
  filed : ∀ id, e.Filed id

/-! ## Steps that acknowledge nothing -/

/-- A chunk that was just queued. -/
def FreshChunk (e : Endpoint) (id : Nat) (c : OutChunk) : Prop :=
  c.off = 0 ∧ ∀ r, c.requestId = some r → .written id c.data r ∈ e.history

/-- Bytes of our own belong to no request. -/
theorem freshChunk_own {e : Endpoint} {id : Nat} {out : List OutChunk}
    (h : ∀ c ∈ out, c.off = 0 ∧ c.requestId = none) : ∀ c ∈ out, e.FreshChunk id c :=
  fun c hc => ⟨(h c hc).1, by simp [(h c hc).2]⟩

theorem withPrefix_out (role : Role) (bytes : Bytes) (memory : Nat) :
    ∀ c ∈ (Stream.withPrefix role bytes memory).out, c.off = 0 ∧ c.requestId = none := by
  unfold Stream.withPrefix
  cases bytes with
  | nil => simp
  | cons b bytes => simp

/-- Nothing was written, sent or acknowledged. -/
structure Unsent (e e' : Endpoint) : Prop where
  data : ∀ id, (e'.conn.streams id).send.data = (e.conn.streams id).send.data
  ev : ∃ l, e'.ev = e.ev ++ l ∧ ∀ v ∈ l, v.isWriteAck = false
  history : ∃ l, e'.history = e.history ++ l ∧ ∀ t ∈ l, t.isWrite = false
  entry : ∀ id st', e'.streams.get id = some st' → ∃ old more, st'.out = old ++ more ∧
    (old = [] ∨ ∃ st, e.streams.get id = some st ∧ old = st.out) ∧ ∀ c ∈ more, e'.FreshChunk id c

theorem Unsent.mem_history {e e' : Endpoint} (h : Unsent e e') {t : Trace} (ht : t ∈ e.history) :
    t ∈ e'.history := by
  obtain ⟨l, hl, -⟩ := h.history
  exact hl ▸ List.mem_append_left _ ht

theorem Delivered.unsent {e e' : Endpoint} (hd : e.Delivered) (h : Unsent e e') : e'.Delivered := by
  have hacked : ∀ {id r}, .acked id r ∈ e'.history → .acked id r ∈ e.history := by
    intro id r hr
    obtain ⟨l, hl, hno⟩ := h.history
    rw [hl] at hr
    rcases List.mem_append.mp hr with hr | hr
    · exact hr
    · cases hno _ hr
  refine ⟨fun r hr => ?_, fun id st' hg c hc r hr => ?_, fun id st' hg c hc => ?_, fun id => ?_⟩
  · obtain ⟨l, hl, hno⟩ := h.ev
    rw [hl] at hr
    rcases List.mem_append.mp hr with hr | hr
    · obtain ⟨id, hid⟩ := hd.acks r hr
      exact ⟨id, h.mem_history hid⟩
    · cases hno _ hr
  · obtain ⟨old, more, hout, hold, hfresh⟩ := h.entry id st' hg
    rw [hout] at hc
    rcases List.mem_append.mp hc with hc | hc
    · obtain rfl | ⟨st, hst, rfl⟩ := hold
      · cases hc
      · exact h.mem_history (hd.queued id st hst c hc r hr)
    · exact (hfresh c hc).2 r hr
  · obtain ⟨old, more, hout, hold, hfresh⟩ := h.entry id st' hg
    rw [hout] at hc
    cases old with
    | nil => exact (hfresh c (List.mem_of_mem_tail hc)).1
    | cons front rest =>
        obtain hnil | ⟨st, hst, hst'⟩ := hold
        · cases hnil
        · rcases List.mem_append.mp hc with hc | hc
          · exact hd.whole id st hst c (by simpa [← hst'] using hc)
          · exact (hfresh c hc).1
  · obtain ⟨l, a, t, hplaced, hdata, hacks, hfront⟩ := hd.filed id
    have hacks' : ∀ r, .acked id r ∈ e'.history → ∃ data, (r, data) ∈ l ∧ .written id data r ∈ e'.history := by
      intro r hr
      obtain ⟨data, hmem, hw⟩ := hacks r (hacked hr)
      exact ⟨data, hmem, h.mem_history hw⟩
    have hdata' := (h.data id).trans hdata
    -- where the queue was dropped, what was taken of its first chunk stays behind
    by_cases hkept : ∀ st', e'.streams.get id = some st' → ∀ front ∈ st'.out.head?,
        t = front.data.take front.off
    · exact ⟨l, a, t, hplaced, hdata', hacks', hkept⟩
    · refine ⟨l, a ++ t, [], hplaced.append t, by simp [hdata'], hacks', fun st' hg front hf => ?_⟩
      obtain ⟨old, more, hout, hold, hfresh⟩ := h.entry id st' hg
      cases old with
      | nil =>
          have hmem : front ∈ more := List.mem_of_mem_head? (by simpa [hout] using hf)
          simp [(hfresh front hmem).1]
      | cons first rest =>
          refine absurd (fun st'' hg'' front'' hf'' => ?_) hkept
          obtain rfl : st' = st'' := Option.some.inj (hg.symm.trans hg'')
          obtain hnil | ⟨st, hst, hst'⟩ := hold
          · cases hnil
          · exact hfront st hst front'' (by simpa [hout, ← hst'] using hf'')

namespace Unsent

theorem trans {a b c : Endpoint} (hab : Unsent a b) (hbc : Unsent b c) : Unsent a c where
  data id := (hbc.data id).trans (hab.data id)
  ev := by
    obtain ⟨l, hl, hls⟩ := hab.ev
    obtain ⟨m, hm, hms⟩ := hbc.ev
    exact ⟨l ++ m, by rw [hm, hl, List.append_assoc], List.forall_mem_append.mpr ⟨hls, hms⟩⟩
  history := by
    obtain ⟨l, hl, hls⟩ := hab.history
    obtain ⟨m, hm, hms⟩ := hbc.history
    exact ⟨l ++ m, by rw [hm, hl, List.append_assoc], List.forall_mem_append.mpr ⟨hls, hms⟩⟩
  entry id st'' hg := by
    obtain ⟨old', more', hout', hold', hfresh'⟩ := hbc.entry id st'' hg
    obtain rfl | ⟨st', hst', rfl⟩ := hold'
    · exact ⟨[], more', hout', .inl rfl, hfresh'⟩
    · obtain ⟨old, more, hout, hold, hfresh⟩ := hab.entry id st' hst'
      refine ⟨old, more ++ more', by rw [hout', hout, List.append_assoc], hold, fun c hc => ?_⟩
      rcases List.mem_append.mp hc with hc | hc
      · exact ⟨(hfresh c hc).1, fun r hr => hbc.mem_history ((hfresh c hc).2 r hr)⟩
      · exact hfresh' c hc

/-- The streams of the connection accepted nothing, and the queues are as before. -/
theorem of_queues {e e' : Endpoint} {l : List Ev} (hev : e'.ev = e.ev ++ l)
    (hl : ∀ v ∈ l, v.isWriteAck = false) {m : List Trace} (hhistory : e'.history = e.history ++ m)
    (hm : ∀ t ∈ m, t.isWrite = false)
    (hconn : ∀ i, (e'.conn.streams i).send.data = (e.conn.streams i).send.data)
    (hget : ∀ i st', e'.streams.get i = some st' →
      ∃ st, e.streams.get i = some st ∧ (st'.out = st.out ∨ st'.out = [])) : Unsent e e' where
  data := hconn
  ev := ⟨l, hev, hl⟩
  history := ⟨m, hhistory, hm⟩
  entry i st' hg := by
    obtain ⟨st, hst, hout | hout⟩ := hget i st' hg
    · exact ⟨st.out, [], by simp [hout], .inr ⟨st, hst, rfl⟩, by simp⟩
    · exact ⟨[], [], by simp [hout], .inl rfl, by simp⟩

/-- The queues are the same, and nothing was said. -/
theorem of_same {e e' : Endpoint} (hev : e'.ev = e.ev) (hhistory : e'.history = e.history)
    (hconn : ∀ i, (e'.conn.streams i).send.data = (e.conn.streams i).send.data)
    (hstreams : e'.streams = e.streams) : Unsent e e' :=
  of_queues (l := []) (by simp [hev]) (by simp) (m := []) (by simp [hhistory]) (by simp) hconn
    fun _ st' hg => ⟨st', hstreams ▸ hg, .inl rfl⟩

theorem refl (e : Endpoint) : Unsent e e := of_same rfl rfl (fun _ => rfl) rfl

theorem log (e : Endpoint) {t : Trace} (ht : t.isWrite = false) : Unsent e (e.log t) :=
  of_queues (l := []) (List.append_nil _).symm (by simp) (m := [t]) rfl (by simpa using ht)
    (fun _ => rfl) fun _ st' hg => ⟨st', hg, .inl rfl⟩

theorem emit (e : Endpoint) {v : Ev} (hv : v.isWriteAck = false) : Unsent e (e.emit v) :=
  of_queues (l := [v]) rfl (by simpa using hv) (m := []) (List.append_nil _).symm (by simp)
    (fun _ => rfl) fun _ st' hg => ⟨st', hg, .inl rfl⟩

theorem conn (e : Endpoint) {c : Quic.Connection}
    (h : ∀ i, (c.streams i).send.data = (e.conn.streams i).send.data) :
    Unsent e { e with conn := c } :=
  of_same rfl rfl h rfl

/-- One queue was left alone or dropped. -/
theorem modify (e : Endpoint) (id : Nat) {f : Stream → Stream}
    (hf : ∀ st, (f st).out = st.out ∨ (f st).out = []) : Unsent e (e.modifyStream id f) := by
  refine of_queues (l := []) (List.append_nil _).symm (by simp) (m := []) (List.append_nil _).symm
    (by simp) (fun _ => rfl) fun i st' hg => ?_
  simp only [modifyStream, Table.get_modify] at hg
  split at hg
  next hi =>
    obtain ⟨st, hst, rfl⟩ := Option.map_eq_some_iff.mp hg
    exact ⟨st, hi ▸ hst, hf st⟩
  · exact ⟨st', hg, .inl rfl⟩

/-- A chunk was queued. -/
theorem push (e : Endpoint) {id : Nat} {data : Bytes} {requestId : Option Nat}
    (h : ∀ r, requestId = some r → .written id data r ∈ e.history) :
    Unsent e (e.modifyStream id fun st => st.push data requestId) where
  data _ := rfl
  ev := ⟨[], (List.append_nil _).symm, by simp⟩
  history := ⟨[], (List.append_nil _).symm, by simp⟩
  entry i st' hg := by
    simp only [modifyStream, Table.get_modify] at hg
    split at hg
    next hi =>
      subst hi
      obtain ⟨st, hst, rfl⟩ := Option.map_eq_some_iff.mp hg
      refine ⟨st.out, [⟨data, 0, requestId⟩], rfl, .inr ⟨st, hst, rfl⟩, fun c hc => ?_⟩
      obtain rfl := List.mem_singleton.mp hc
      exact ⟨rfl, h⟩
    · exact ⟨st'.out, [], by simp, .inr ⟨st', hg, rfl⟩, by simp⟩

/-- A new entry has at most bytes of our own queued. -/
theorem insert (e : Endpoint) (id : Nat) {st : Stream}
    (h : ∀ c ∈ st.out, c.off = 0 ∧ c.requestId = none) : Unsent e (e.insertStream id st) where
  data _ := rfl
  ev := ⟨[], (List.append_nil _).symm, by simp⟩
  history := ⟨[], (List.append_nil _).symm, by simp⟩
  entry i st' hg := by
    simp only [insertStream, Table.get_insert] at hg
    split at hg
    · obtain rfl := Option.some.inj hg
      exact ⟨[], st.out, rfl, .inl rfl, freshChunk_own h⟩
    · exact ⟨st'.out, [], by simp, .inr ⟨st', hg, rfl⟩, by simp⟩

theorem of_aside {e e' : Endpoint} (h : Aside e e') : Unsent e e' := by
  obtain ⟨l, hl, hdatagram⟩ := h.ev
  obtain ⟨m, hm, hclose⟩ := h.history
  refine ⟨fun i => by rw [h.conn], ⟨l, hl, fun v hv => ?_⟩, ⟨m, hm, fun t ht => ?_⟩, fun i st' hg => ?_⟩
  · have hd := hdatagram v hv
    cases v <;> first | rfl | cases hd
  · rw [hclose t ht]
    rfl
  · by_cases hi : i = connectId
    · subst hi
      obtain ⟨st, hst, hq⟩ := h.connect st' hg
      have hout : ∃ more, st'.out = st.out ++ more ∧ ∀ c ∈ more, c.off = 0 ∧ c.requestId = none := by
        clear hg
        induction hq with
        | refl => exact ⟨[], by simp, by simp⟩
        | push body _ ih | finish body _ ih =>
            obtain ⟨more, hmore, hown⟩ := ih
            refine ⟨more ++ [⟨body, 0, none⟩], ?_, List.forall_mem_append.mpr ⟨hown, by simp⟩⟩
            simp [Stream.push, hmore]
      obtain ⟨more, hmore, hown⟩ := hout
      exact ⟨st.out, more, hmore, .inr ⟨st, hst, rfl⟩, freshChunk_own hown⟩
    · rw [h.get i hi] at hg
      exact ⟨st'.out, [], by simp, .inr ⟨st', hg, rfl⟩, by simp⟩

end Unsent

/-! ## Reading -/

section

variable [H3.Codec] {r : Nat} {e e' : Endpoint}

omit [H3.Codec] in
/-- Reading queues at most a response. -/
theorem EntryEffect.out {st st' : Stream} (h : EntryEffect st st') :
    ∃ more, st'.out = st.out ++ more ∧ ∀ c ∈ more, c.off = 0 ∧ c.requestId = none := by
  cases h with
  | respond | refuse => exact ⟨[_], rfl, by simp⟩
  | _ => exact ⟨[], (List.append_nil _).symm, by simp⟩

theorem Effect.unsent (h : Effect r e e') : Unsent e e' := by
  have hentry : ∀ id st', e'.streams.get id = some st' → ∃ old more, st'.out = old ++ more ∧
      (old = [] ∨ ∃ st, e.streams.get id = some st ∧ old = st.out) ∧
      ∀ c ∈ more, e'.FreshChunk id c := by
    intro id st' hg
    rcases h.entry hg with ⟨st, hst, heff⟩ | ⟨-, -, -, -, frame, rfl⟩
    · obtain ⟨more, hmore, hown⟩ := heff.out
      exact ⟨st.out, more, hmore, .inr ⟨st, hst, rfl⟩, freshChunk_own hown⟩
    · exact ⟨[], _, rfl, .inl rfl, freshChunk_own (withPrefix_out .connect frame e.parserMemory)⟩
  rcases h.silent with ⟨⟨l, hl, hquiet⟩, m, hm, hmquiet⟩ | ⟨rfl, -⟩
  · refine ⟨fun i => by rw [h.send], ⟨l, hl, fun v hv => ?_⟩, ⟨m, hm, fun t ht => ?_⟩, hentry⟩
    · have hv := (hquiet v hv).2
      cases v <;> first | rfl | cases hv
    · have ht := hmquiet t ht
      cases t <;> first | rfl | cases ht
  · exact .emit e rfl

theorem Effects.unsent (h : Effects r e e') : Unsent e e' := by
  induction h with
  | refl => exact .refl e
  | tail _ hstep ih => exact ih.trans hstep.unsent

end

/-! ## Steps that send nothing -/

namespace Unsent

theorem onEstablished (e : Endpoint) : Unsent e e.onEstablished := by
  have hlocal : ∀ (s : Endpoint) (id : Nat) (bytes : Bytes), Unsent s (s.insertLocal id bytes) :=
    fun s id bytes => insert s id (withPrefix_out _ _ _)
  unfold Endpoint.onEstablished
  split_ifs
  · exact refl e
  · have h1 : Unsent e { e with setupSent := true } := of_same rfl rfl (fun _ => rfl) rfl
    have h4 := ((h1.trans (hlocal _ (controlId e.cfg.isServer) H3.controlStreamPrefix)).trans
      (hlocal _ (qpackEncId e.cfg.isServer) (H3.putVarint H3.qpackEncoderStreamType))).trans
      (hlocal _ (qpackDecId e.cfg.isServer) (H3.putVarint H3.qpackDecoderStreamType))
    simp only
    split_ifs
    · exact h4
    · exact h4.trans (of_same rfl rfl (fun _ => rfl) rfl)

theorem touch (e : Endpoint) (id : Nat) : Unsent e (e.touch id) := by
  unfold Endpoint.touch
  split_ifs
  · exact refl e
  · exact insert e id (by simp [Stream.new])

theorem allocateStream (e : Endpoint) (bidi : Bool) (requestId : Nat) :
    Unsent e (e.allocateStream bidi requestId) := by
  have hinsert : ∀ s : Endpoint, Unsent s ((s.insertStream (e.nextId bidi)
      (.withPrefix (.wtData bidi) (streamSignal bidi) s.parserMemory)).emit
      (.streamOpened requestId (e.nextId bidi))) :=
    fun s => (insert s _ (withPrefix_out _ _ _)).trans (emit _ rfl)
  cases bidi with
  | false => exact (of_same rfl rfl (fun _ => rfl) rfl : Unsent e { e with nextUni := e.nextUni + 4 }).trans (hinsert _)
  | true => exact (of_same rfl rfl (fun _ => rfl) rfl : Unsent e { e with nextBidi := e.nextBidi + 4 }).trans (hinsert _)

theorem releasePendingOpens (e : Endpoint) : Unsent e e.releasePendingOpens :=
  releasePendingOpens_invariant (I := Unsent e)
    (fun _ _ h => h.trans (of_same rfl rfl (fun _ => rfl) rfl))
    (fun s bidi requestId _ _ _ h => h.trans (allocateStream s bidi requestId)) (refl e)

theorem reconcileSendFinalSize (e : Endpoint) (id : Nat) :
    Unsent e (e.reconcileSendFinalSize id) := by
  unfold Endpoint.reconcileSendFinalSize
  split
  next finalSize st hfinal hst =>
    simp only
    split_ifs
    · refine (modify e id (f := fun s => { s with sendPayload := finalSize - st.sendPrefix })
        fun _ => .inl rfl).trans ?_
      exact of_queues (l := []) (List.append_nil _).symm (by simp) (m := [_]) rfl
        (by simp [Trace.isWrite]) (fun _ => rfl) fun _ st' hg => ⟨st', hg, .inl rfl⟩
    · exact refl e
  · exact refl e

theorem dropQueue (e : Endpoint) (id : Nat) : Unsent e (e.dropQueue id) := by
  unfold Endpoint.dropQueue
  split
  · exact refl e
  · refine (modify e id (f := fun st => { st with out := [] }) fun _ => .inr rfl).trans ?_
    refine of_queues (l := []) (List.append_nil _).symm (by simp) rfl (fun t ht => ?_)
      (fun _ => rfl) fun _ st' hg => ⟨st', hg, .inl rfl⟩
    obtain ⟨r, -, rfl⟩ := List.mem_map.mp ht
    rfl

theorem streamReset (e : Endpoint) (id code : Nat) : Unsent e (e.streamReset id code) := by
  unfold Endpoint.streamReset
  split_ifs
  · simp only
    have hsend := Quic.Connection.streamShutdownWrite_data e.conn id
      (H3.webtransportCodeToHttpCode code)
    have hconn := (log e (t := .streamReset id) rfl).trans (conn (e.log (.streamReset id)) hsend)
    exact ((hconn.trans (reconcileSendFinalSize _ id)).trans (dropQueue _ id)).trans
      (modify _ id fun _ => .inl rfl)
  · exact refl e

theorem streamStopSending (e : Endpoint) (id code : Nat) :
    Unsent e (e.streamStopSending id code) := by
  unfold Endpoint.streamStopSending
  split_ifs
  · refine Unsent.trans (b := e.shutdownRead id (H3.webtransportCodeToHttpCode code)) ?_
      (modify _ id fun _ => .inl rfl)
    exact conn e fun i => by rw [Quic.Connection.streamShutdownRead_send]
  · exact refl e

theorem markClosed (e : Endpoint) (code : Nat) (reason : Bytes) (remote : Bool) :
    Unsent e (e.markClosed code reason remote) := by
  cases hc : e.closed with
  | true =>
      rw [Endpoint.markClosed, if_pos hc]
      exact refl e
  | false =>
      refine of_queues (markClosed_ev hc code reason remote) (by simp [Ev.isWriteAck]) (m := [])
        (by simp [(markClosed_flags e code reason remote).2.2.2.2]) (by simp)
        (fun i => by rw [markClosed_conn]) fun i st' hg => ?_
      rw [markClosed_streams hc, Table.get_map] at hg
      obtain ⟨st, hst, rfl⟩ := Option.map_eq_some_iff.mp hg
      exact ⟨st, hst, .inl rfl⟩

theorem prune (e : Endpoint) : Unsent e e.prune := by
  refine of_queues (l := []) (List.append_nil _).symm (by simp) (m := []) (List.append_nil _).symm
    (by simp) (fun _ => rfl) fun i st' hg => ?_
  simp only [Endpoint.prune, Table.get_filter, Option.filter_eq_some_iff] at hg
  exact ⟨st', hg.1, .inl rfl⟩

end Unsent

/-! ## The send loop -/

section

variable {id : Nat} {e e' : Endpoint}

/-- Chunks without bytes are acknowledged. -/
theorem Placed.acknowledge {out : List OutChunk}
    (hout : ∀ c ∈ out, ∀ r, c.requestId = some r → .written id c.data r ∈ e.history ∧ c.data = [])
    {l : List (Nat × Bytes)} {a : Bytes} (h : Placed l a) : ∃ l', Placed l' a ∧ (∀ x ∈ l, x ∈ l') ∧
      ∀ r, .acked id r ∈ out.flatMap (ackTrace id) →
        ∃ data, (r, data) ∈ l' ∧ .written id data r ∈ e.history := by
  induction out with
  | nil => exact ⟨l, h, fun _ hx => hx, by simp⟩
  | cons c out ih =>
      obtain ⟨l', h', hsub, hacks⟩ := ih fun c' hc' => hout c' (List.mem_cons_of_mem _ hc')
      cases hr : c.requestId with
      | none =>
          refine ⟨l', h', hsub, fun r hmem => hacks r ?_⟩
          simpa [ackTrace, hr] using hmem
      | some q =>
          obtain ⟨hw, hempty⟩ := hout c List.mem_cons_self q hr
          refine ⟨l' ++ [(q, [])], h'.empty q, fun x hx => List.mem_append_left _ (hsub x hx),
            fun r hmem => ?_⟩
          rcases List.mem_append.mp hmem with hmem | hmem
          · obtain rfl : r = q := by simpa [ackTrace, hr] using hmem
            exact ⟨[], by simp, hempty ▸ hw⟩
          · obtain ⟨data, hdata, hw⟩ := hacks r hmem
            exact ⟨data, List.mem_append_left _ hdata, hw⟩

theorem writeAck_of_ackOf {out : List OutChunk} {r : Nat} (h : .writeAck r ∈ out.flatMap ackOf)
    (id : Nat) : .acked id r ∈ out.flatMap (ackTrace id) := by
  obtain ⟨c, hc, hr⟩ := List.mem_flatMap.mp h
  refine List.mem_flatMap.mpr ⟨c, hc, ?_⟩
  cases hreq : c.requestId with
  | none => simp [ackOf, hreq] at hr
  | some q =>
      obtain rfl : r = q := by simpa [ackOf, hreq] using hr
      simp [ackTrace, hreq]

theorem acked_of_ackTrace {out : List OutChunk} {i r : Nat}
    (h : .acked i r ∈ out.flatMap (ackTrace id)) : i = id := by
  obtain ⟨c, -, hr⟩ := List.mem_flatMap.mp h
  cases hreq : c.requestId with
  | none => simp [ackTrace, hreq] at hr
  | some q =>
      simp only [ackTrace, hreq, Option.map_some, Option.toList_some, List.mem_singleton,
        Trace.acked.injEq] at hr
      exact hr.1

/-- A stop that settles no write with bytes loses nothing. -/
theorem Delivered.surfaceStop (hd : e.Delivered) {st : Stream} (hst : e.streams.get id = some st)
    (hempty : ∀ c ∈ st.out, c.requestId ≠ none → c.data = []) (code : Nat) :
    (e.surfaceStop id code st.out).Delivered := by
  have hold : ∀ {t : Trace}, t ∈ e.history → t ∈ (e.surfaceStop id code st.out).history :=
    fun ht => List.mem_append_left _ ht
  have hget : ∀ i st', (e.surfaceStop id code st.out).streams.get i = some st' →
      i = id ∧ st'.out = [] ∨ i ≠ id ∧ e.streams.get i = some st' := by
    intro i st' hg
    simp only [Endpoint.surfaceStop, Table.get_modify] at hg
    split at hg
    next hi =>
      obtain ⟨st0, -, rfl⟩ := Option.map_eq_some_iff.mp hg
      exact .inl ⟨hi, rfl⟩
    next hi => exact .inr ⟨hi, hg⟩
  refine ⟨fun r hr => ?_, fun i st' hg c hc r hr => ?_, fun i st' hg c hc => ?_, fun i => ?_⟩
  · rcases List.mem_append.mp hr with hr | hr
    · obtain ⟨i, hi⟩ := hd.acks r hr
      exact ⟨i, hold hi⟩
    · rcases List.mem_cons.mp hr with hr | hr
      · cases hr
      · exact ⟨id, List.mem_append_right _ (writeAck_of_ackOf hr id)⟩
  · rcases hget i st' hg with ⟨-, hout⟩ | ⟨-, hg⟩
    · simp [hout] at hc
    · exact hold (hd.queued i st' hg c hc r hr)
  · rcases hget i st' hg with ⟨-, hout⟩ | ⟨-, hg⟩
    · simp [hout] at hc
    · exact hd.whole i st' hg c hc
  · obtain ⟨l, a, t, hplaced, hdata, hacks, hfront⟩ := hd.filed i
    by_cases hi : i = id
    · subst hi
      obtain ⟨l', hplaced', hsub, hnew⟩ := Placed.acknowledge
        (fun c hc r hr => ⟨hd.queued i st hst c hc r hr, hempty c hc (by simp [hr])⟩) hplaced
      refine ⟨l', a, t, hplaced', hdata, fun r hr => ?_, fun st' hg front hf => ?_⟩
      · rcases List.mem_append.mp hr with hr | hr
        · obtain ⟨data, hmem, hw⟩ := hacks r hr
          exact ⟨data, hsub _ hmem, hold hw⟩
        · obtain ⟨data, hmem, hw⟩ := hnew r hr
          exact ⟨data, hmem, hold hw⟩
      · rcases hget i st' hg with ⟨-, hout⟩ | ⟨hne, -⟩
        · simp [hout] at hf
        · exact absurd rfl hne
    · refine ⟨l, a, t, hplaced, hdata, fun r hr => ?_, fun st' hg front hf => ?_⟩
      · rcases List.mem_append.mp hr with hr | hr
        · obtain ⟨data, hmem, hw⟩ := hacks r hr
          exact ⟨data, hmem, hold hw⟩
        · exact absurd (acked_of_ackTrace hr) hi
      · rcases hget i st' hg with ⟨hid, -⟩ | ⟨-, hg⟩
        · exact absurd hid hi
        · exact hfront st' hg front hf

/-- What `stream_send` takes of the first chunk. -/
theorem sent_data {front : OutChunk} {amount n : Nat} {c : Quic.Connection}
    (habs : ∀ i, (e.conn.streams i).phase = .absent → e.conn.streams i = {})
    (hs : Send e.conn id ((front.data.drop front.off).take amount) false (.ok n) c) :
    (c.streams id).send.data = (e.conn.streams id).send.data ++ (front.data.drop front.off).take n := by
  have hle : n ≤ ((front.data.drop front.off).take amount).length := by
    cases hs with
    | sent txCap _ _ _ hacc => exact hacc.le
  rcases hs.data habs id with ⟨-, hid | ⟨err, herr⟩⟩ | ⟨-, m, hm, hdata⟩
  · exact absurd rfl hid
  · cases herr
  · obtain rfl := Except.ok.inj hm
    rw [hdata, List.take_take, Nat.min_eq_left (by simp at hle; omega)]

/-- The queue behind a pass of the send loop. -/
theorem advance_get {front : OutChunk} {rest : List OutChunk} {payload : Bool} {n i : Nat}
    {st' : Stream} (hg : (e.advance id front rest payload n).streams.get i = some st') :
    i = id ∧ st'.out = (if front.data.length ≤ front.off + n then rest else
      { front with off := front.off + n } :: rest) ∨ i ≠ id ∧ e.streams.get i = some st' := by
  simp only [Endpoint.advance, Table.get_modify] at hg
  split at hg
  next hi =>
    obtain ⟨st0, -, rfl⟩ := Option.map_eq_some_iff.mp hg
    exact .inl ⟨hi, by simp⟩
  next hi => exact .inr ⟨hi, hg⟩

/-- What `stream_send` takes of the first chunk is filed. -/
theorem Delivered.advance (hd : e.Delivered) {st : Stream} {front : OutChunk} {rest : List OutChunk}
    {n amount : Nat} {c : Quic.Connection} (habs : ∀ i, (e.conn.streams i).phase = .absent →
      e.conn.streams i = {}) (hst : e.streams.get id = some st) (hout : st.out = front :: rest)
    (hs : Send e.conn id ((front.data.drop front.off).take amount) false (.ok n) c) (payload : Bool) :
    (({ e with conn := c } : Endpoint).advance id front rest payload n).Delivered := by
  have hdataid := sent_data habs hs
  have hold : ∀ {t : Trace}, t ∈ e.history →
      t ∈ (({ e with conn := c } : Endpoint).advance id front rest payload n).history :=
    fun ht => List.mem_append_left _ ht
  have hget : ∀ i st', (({ e with conn := c } : Endpoint).advance id front rest payload n).streams.get
      i = some st' → i = id ∧ st'.out = (if front.data.length ≤ front.off + n then rest else
        { front with off := front.off + n } :: rest) ∨ i ≠ id ∧ e.streams.get i = some st' :=
    fun _ _ hg => advance_get hg
  have hacked : ∀ {i r}, .acked i r ∈
      (({ e with conn := c } : Endpoint).advance id front rest payload n).history →
      .acked i r ∈ e.history ∨
        i = id ∧ front.data.length ≤ front.off + n ∧ front.requestId = some r := by
    intro i r hr
    simp only [Endpoint.advance, List.mem_append] at hr
    rcases hr with hr | hr | hr
    · exact .inl hr
    · split at hr
      · simp at hr
      · cases hr
    · split at hr
      next hdone =>
        refine .inr ?_
        cases hreq : front.requestId with
        | none => simp [ackTrace, hreq] at hr
        | some q =>
            simp only [ackTrace, hreq, Option.map_some, Option.toList_some, List.mem_singleton,
              Trace.acked.injEq] at hr
            exact ⟨hr.1, by simpa using hdone, by rw [hr.2]⟩
      · cases hr
  have hrest : ∀ c' ∈ rest, c' ∈ st.out := fun c' hc' => hout ▸ List.mem_cons_of_mem _ hc'
  have hwhole : ∀ c' ∈ rest, c'.off = 0 := fun c' hc' =>
    hd.whole id st hst c' (by simpa [hout] using hc')
  have hfrontmem : front ∈ st.out := hout ▸ List.mem_cons_self
  refine ⟨fun r hr => ?_, fun i st' hg c' hc r hr => ?_, fun i st' hg c' hc => ?_, fun i => ?_⟩
  · simp only [Endpoint.advance, List.mem_append] at hr
    rcases hr with hr | hr
    · obtain ⟨i, hi⟩ := hd.acks r hr
      exact ⟨i, hold hi⟩
    · split at hr
      next hdone =>
        refine ⟨id, List.mem_append_right _ (List.mem_append_right _ ?_)⟩
        rw [if_pos hdone]
        have hin : .writeAck r ∈ [front].flatMap ackOf := by simpa using hr
        simpa using writeAck_of_ackOf hin id
      · cases hr
  · rcases hget i st' hg with ⟨rfl, hnew⟩ | ⟨-, hg⟩
    · rw [hnew] at hc
      split at hc
      · exact hold (hd.queued i st hst c' (hrest c' hc) r hr)
      · rcases List.mem_cons.mp hc with rfl | hc
        · exact hold (hd.queued i st hst front hfrontmem r hr)
        · exact hold (hd.queued i st hst c' (hrest c' hc) r hr)
    · exact hold (hd.queued i st' hg c' hc r hr)
  · rcases hget i st' hg with ⟨rfl, hnew⟩ | ⟨-, hg⟩
    · rw [hnew] at hc
      split at hc
      · exact hwhole c' (List.mem_of_mem_tail hc)
      · exact hwhole c' hc
    · exact hd.whole i st' hg c' hc
  · obtain ⟨l, a, t, hplaced, hdata, hacks, hfront⟩ := hd.filed i
    by_cases hi : i = id
    · subst hi
      obtain rfl := hfront st hst front (by simp [hout])
      have hdata' : (c.streams i).send.data = a ++ front.data.take (front.off + n) := by
        rw [hdataid, hdata, List.append_assoc, ← List.take_add]
      by_cases hdone : front.data.length ≤ front.off + n
      · rw [List.take_of_length_le hdone] at hdata'
        have hnext : ∀ st', (({ e with conn := c } : Endpoint).advance i front rest payload n).streams.get
            i = some st' → ∀ next ∈ st'.out.head?, ([] : Bytes) = next.data.take next.off := by
          intro st' hg next hn
          rcases hget i st' hg with ⟨-, hnew⟩ | ⟨hne, -⟩
          · rw [if_pos hdone] at hnew
            have hmem : next ∈ rest := List.mem_of_mem_head? (by simpa [hnew] using hn)
            simp [hwhole next hmem]
          · exact absurd rfl hne
        cases hreq : front.requestId with
        | none =>
            refine ⟨l, a ++ front.data, [], hplaced.append _, hdata'.trans (by simp), fun r hr => ?_,
              hnext⟩
            rcases hacked hr with hr | ⟨-, -, hr⟩
            · obtain ⟨data, hmem, hw⟩ := hacks r hr
              exact ⟨data, hmem, hold hw⟩
            · simp [hreq] at hr
        | some q =>
            refine ⟨l ++ [(q, front.data)], a ++ front.data ++ [], [], .snoc q front.data [] hplaced,
              hdata'.trans (by simp), fun r hr => ?_, hnext⟩
            rcases hacked hr with hr | ⟨-, -, hr⟩
            · obtain ⟨data, hmem, hw⟩ := hacks r hr
              exact ⟨data, List.mem_append_left _ hmem, hold hw⟩
            · obtain rfl : q = r := Option.some.inj (hreq.symm.trans hr)
              exact ⟨front.data, by simp, hold (hd.queued i st hst front hfrontmem q hreq)⟩
      · refine ⟨l, a, front.data.take (front.off + n), hplaced, hdata', fun r hr => ?_,
          fun st' hg next hn => ?_⟩
        · rcases hacked hr with hr | ⟨-, hlen, -⟩
          · obtain ⟨data, hmem, hw⟩ := hacks r hr
            exact ⟨data, hmem, hold hw⟩
          · exact absurd hlen hdone
        · rcases hget i st' hg with ⟨-, hnew⟩ | ⟨hne, -⟩
          · rw [if_neg hdone] at hnew
            obtain rfl : { front with off := front.off + n } = next := by simpa [hnew] using hn
            rfl
          · exact absurd rfl hne
    · refine ⟨l, a, t, hplaced, ?_, fun r hr => ?_, fun st' hg next hn => ?_⟩
      · show (c.streams i).send.data = _
        rw [hs.ne hi]
        exact hdata
      · rcases hacked hr with hr | ⟨hid, -⟩
        · obtain ⟨data, hmem, hw⟩ := hacks r hr
          exact ⟨data, hmem, hold hw⟩
        · exact absurd hid hi
      · rcases hget i st' hg with ⟨hid, -⟩ | ⟨-, hg⟩
        · exact absurd hid hi
        · exact hfront st' hg next hn

/-- Sending nothing files nothing. -/
theorem Unsent.send {bytes : Bytes} {fin : Bool} {r : Except Quic.Error Nat} {c : Quic.Connection}
    (habs : ∀ i, (e.conn.streams i).phase = .absent → e.conn.streams i = {})
    (hs : Send e.conn id bytes fin r c) (h : bytes = [] ∨ ∃ err, r = .error err) :
    Unsent e { e with conn := c } := by
  refine .conn e fun i => ?_
  rcases hs.data habs i with ⟨hdata, -⟩ | ⟨-, n, hn, hdata⟩
  · exact hdata
  · rcases h with rfl | ⟨err, herr⟩
    · simpa using hdata
    · cases herr.symm.trans hn

theorem Unsent.sendFin (habs : ∀ i, (e.conn.streams i).phase = .absent → e.conn.streams i = {})
    (id : Nat) : Unsent e (e.sendFin id) := by
  unfold Endpoint.sendFin
  split
  · exact .refl e
  · split
    · have hspec := streamSend_spec e.conn id [] true
      split
      next n c heq =>
        rw [heq] at hspec
        exact (send habs hspec (.inl rfl)).trans (modify _ id fun _ => .inl rfl)
      next err c heq =>
        rw [heq] at hspec
        exact send habs hspec (.inl rfl)
    · exact .refl e

/-- The send loop on a stream that was not reported as stopped. -/
theorem Sending.delivered (h : Sending id e e') (hwf : e.conn.WellFormed) (hd : e.Delivered)
    (hno : ¬e.Reported id) : e'.Delivered ∧ ¬e'.Reported id ∧ e'.conn.WellFormed := by
  have habs : ∀ i, (e.conn.streams i).phase = .absent → e.conn.streams i = {} :=
    fun i => (hwf i).absent
  cases h with
  | @returned st finalSize hst hrole hfinal hlt =>
      refine ⟨hd.unsent (.trans (b := e.modifyStream id fun st =>
        { st with sendPayload := finalSize - st.sendPrefix }) (.modify e id fun _ => .inl rfl) ?_), hno, hwf⟩
      exact .of_queues (l := []) (List.append_nil _).symm (by simp) (m := [_]) rfl
        (by simp [Trace.isWrite]) (fun _ => rfl) fun _ st' hg => ⟨st', hg, .inl rfl⟩
  | @refused st bytes fin err c hst hs =>
      exact ⟨hd.unsent (.send habs hs (.inr ⟨err, rfl⟩)), fun h => hno (reported_of_send hs h),
        hs.wellFormed hwf⟩
  | @sent st front rest n c hst hout hamount hs =>
      exact ⟨hd.advance habs hst hout hs _, fun h => hno (reported_of_send hs h), hs.wellFormed hwf⟩
  | @stopped st bytes code c hst hout hs =>
      refine absurd ?_ hno
      cases hs with
      | refused hne => exact absurd rfl (hne code)
      | blocked hne => exact absurd rfl (hne code)
      | stopped cond hp hsend hcode => exact (reported_iff _ _).mpr ⟨hp, hsend, by simp [hcode]⟩
  | @fin st n c hst hout hq hns hs =>
      exact ⟨hd.unsent ((Unsent.send habs hs (.inl rfl)).trans (.modify _ id fun _ => .inl rfl)),
        fun h => hno (reported_of_send hs h), hs.wellFormed hwf⟩

theorem Sending.written (h : Sending id e e') {i r : Nat} {data : Bytes}
    (hw : .written i data r ∈ e'.history) : .written i data r ∈ e.history := by
  have htrace : ∀ (c : OutChunk), .written i data r ∉ ackTrace id c := by
    intro c
    unfold ackTrace
    cases c.requestId <;> simp
  cases h with
  | refused | fin => exact hw
  | returned =>
      rcases List.mem_append.mp hw with hw | hw
      · exact hw
      · simp at hw
  | @sent st front rest n c =>
      rcases List.mem_append.mp hw with hw | hw
      · exact hw
      · rcases List.mem_append.mp hw with hw | hw
        · split at hw <;> simp at hw
        · split at hw
          · exact absurd hw (htrace front)
          · cases hw
  | stopped =>
      rcases List.mem_append.mp hw with hw | hw
      · exact hw
      · obtain ⟨c, -, hw⟩ := List.mem_flatMap.mp hw
        exact absurd hw (htrace c)

/-- Where the loop has nothing to send, `flush_stream` sends at most a FIN. -/
theorem flushStream_held (h : ∀ st, e.streams.get id = some st →
    st.out = [] ∨ (e.reconcileSendFinalSize id).Held id) :
    e.flushStream id = (e.reconcileSendFinalSize id).sendFin id := by
  have hstep : sendStep id (e.reconcileSendFinalSize id) = (e.reconcileSendFinalSize id, false) := by
    cases hst : e.streams.get id with
    | none => simp [sendStep, reconcileSendFinalSize_none hst, hst]
    | some st =>
        obtain ⟨n, hn⟩ := reconcileSendFinalSize_get hst
        rcases h st hst with hout | ⟨st1, front, rest, hst1, hfront, hheld⟩
        · simp [sendStep, hn, hout]
        · simp only [sendStep, hst1, hfront, if_pos hheld]
  unfold flushStream
  simp only
  rw [iterate, hstep]
  simp

theorem Delivered.flushStream (hd : e.Delivered) (hl : e.Layout)
    (hk : e.KeepsWrites (.flushStream id)) : (e.flushStream id).Delivered := by
  have hwf : e.conn.WellFormed := hl.wellFormed
  have habs : ∀ i, (e.conn.streams i).phase = .absent → e.conn.streams i = {} :=
    fun i => (hwf i).absent
  have hrec := Unsent.reconcileSendFinalSize e id
  by_cases hrep : e.Reported id
  · obtain ⟨hlive, hsend, herr⟩ := (reported_iff _ _).mp hrep
    obtain ⟨code, hcode⟩ := Option.isSome_iff_exists.mp herr
    by_cases hnotice : e.Notices id
    · obtain ⟨-, ⟨st, hst, hout⟩, hheld⟩ := hnotice
      have hempty := hk hrep ⟨hlive, ⟨st, hst, hout⟩, hheld⟩ st hst
      obtain ⟨bytes, c, hs, heq⟩ := flushStream_stopped hst hout hheld hlive hsend hcode
      obtain ⟨n, hn⟩ := reconcileSendFinalSize_get hst
      have hs' : Send (e.reconcileSendFinalSize id).conn id bytes false
          (.error (.streamStopped code)) c := by rwa [reconcileSendFinalSize_conn]
      have hconn : Unsent (e.reconcileSendFinalSize id) { e.reconcileSendFinalSize id with conn := c } :=
        .send (by rwa [reconcileSendFinalSize_conn]) hs' (.inr ⟨_, rfl⟩)
      rw [heq]
      exact (hd.unsent (hrec.trans hconn)).surfaceStop hn hempty code
    · have hquiet : ∀ st, e.streams.get id = some st →
          st.out = [] ∨ (e.reconcileSendFinalSize id).Held id := by
        intro st hst
        by_contra h
        obtain ⟨hout, hheld⟩ := not_or.mp h
        exact hnotice ⟨hlive, ⟨st, hst, hout⟩, hheld⟩
      rw [flushStream_held hquiet]
      exact hd.unsent (hrec.trans (.sendFin (by rwa [reconcileSendFinalSize_conn]) id))
  · have hall : (e.flushStream id).Delivered ∧ ¬(e.flushStream id).Reported id ∧
        (e.flushStream id).conn.WellFormed :=
      flushStream_invariant (I := fun s => s.Delivered ∧ ¬s.Reported id ∧ s.conn.WellFormed)
        (fun _ _ hs h => hs.delivered h.2.2 h.1 h.2.1) ⟨hd, hrep, hwf⟩
    exact hall.1

end

/-! ## Whole steps -/

theorem Delivered.start {e : Endpoint} (h : Start e) : e.Delivered := by
  have hempty : e.ev = [] ∧ e.streams = .empty ∧ e.history = [] ∧ ∀ i, e.conn.streams i = {} := by
    cases h with
    | client _ _ _ _ _ _ _ hfresh | server _ _ _ _ _ _ _ hfresh => exact ⟨rfl, rfl, rfl, hfresh.2.1⟩
  obtain ⟨hev, hstreams, hhistory, hconn⟩ := hempty
  refine ⟨by simp [hev], by simp [hstreams], by simp [hstreams],
    fun i => ⟨[], [], [], .nil [], ?_, by simp [hhistory], by simp [hstreams]⟩⟩
  rw [hconn]
  rfl

/-- A write is taken note of. -/
theorem Delivered.written {e : Endpoint} (hd : e.Delivered) (id : Nat) (data : Bytes)
    (requestId : Nat) : (e.log (.written id data requestId)).Delivered := by
  have hold : ∀ {t : Trace}, t ∈ e.history → t ∈ (e.log (.written id data requestId)).history :=
    fun ht => List.mem_append_left _ ht
  refine ⟨fun r hr => ?_, fun i st hg c hc r hr => hold (hd.queued i st hg c hc r hr), hd.whole,
    fun i => ?_⟩
  · obtain ⟨i, hi⟩ := hd.acks r hr
    exact ⟨i, hold hi⟩
  · obtain ⟨l, a, t, hplaced, hdata, hacks, hfront⟩ := hd.filed i
    refine ⟨l, a, t, hplaced, hdata, fun r hr => ?_, hfront⟩
    obtain ⟨chunk, hmem, hw⟩ := hacks r (by simpa [log] using hr)
    exact ⟨chunk, hmem, hold hw⟩

theorem Delivered.streamWrite {e : Endpoint} (hd : e.Delivered) {id : Nat}
    (h : e.streams.contains id = true) (data : Bytes) (requestId : Nat) :
    (e.streamWrite id data requestId).Delivered := by
  unfold Endpoint.streamWrite
  simp only
  rw [if_pos (show (e.log (.written id data requestId)).streams.contains id = true from h)]
  refine (hd.written id data requestId).unsent (.push _ fun r hr => ?_)
  obtain rfl := Option.some.inj hr
  exact List.mem_append_right _ (List.mem_singleton.mpr rfl)

/-- A write without bytes to a stream that is gone. -/
theorem Delivered.writeGone {e : Endpoint} (hd : e.Delivered) {id : Nat}
    (hgone : e.streams.contains id = false) (requestId : Nat) :
    (e.streamWrite id [] requestId).Delivered := by
  have heq : e.streamWrite id [] requestId =
      ((e.log (.written id [] requestId)).log (.acked id requestId)).emit (.writeAck requestId) := by
    unfold Endpoint.streamWrite
    simp only
    rw [if_neg (by simpa [log] using hgone)]
  have h1 := hd.written id [] requestId
  rw [heq]
  generalize hs : e.log (.written id [] requestId) = s at h1 ⊢
  have hw : .written id [] requestId ∈ s.history := hs ▸ List.mem_append_right _ (List.mem_singleton.mpr rfl)
  have hold : ∀ {t : Trace}, t ∈ s.history →
      t ∈ ((s.log (.acked id requestId)).emit (.writeAck requestId)).history :=
    fun ht => List.mem_append_left _ ht
  refine ⟨fun r hr => ?_, fun i st hg c hc r hr => hold (h1.queued i st hg c hc r hr), h1.whole,
    fun i => ?_⟩
  · rcases List.mem_append.mp hr with hr | hr
    · obtain ⟨i, hi⟩ := h1.acks r hr
      exact ⟨i, hold hi⟩
    · obtain rfl : r = requestId := by simpa using hr
      exact ⟨id, List.mem_append_right _ (List.mem_singleton.mpr rfl)⟩
  · obtain ⟨l, a, t, hplaced, hdata, hacks, hfront⟩ := h1.filed i
    refine ⟨l ++ [(requestId, [])], a, t, hplaced.empty requestId, hdata, fun r hr => ?_, hfront⟩
    rcases List.mem_append.mp hr with hr | hr
    · obtain ⟨data, hmem, hwr⟩ := hacks r hr
      exact ⟨data, List.mem_append_left _ hmem, hold hwr⟩
    · obtain ⟨rfl, rfl⟩ : i = id ∧ r = requestId := by simpa using hr
      exact ⟨[], by simp, hold hw⟩

section

variable [H3.Codec]

/-- Only `stream_write` and the send loop write and acknowledge. -/
def Step.sends : Step → Bool
  | .streamWrite _ _ _ | .flushStream _ => true
  | _ => false

theorem step_unsent {e : Endpoint} (hl : e.Layout) {s : Step} (hs : e.StepAdmissible s)
    (hsends : Step.sends s = false) : Unsent e (e.step s) := by
  cases s with
  | streamWrite | flushStream => cases hsends
  | onEstablished => exact .onEstablished e
  | touch id => exact .touch e id
  | read id backpressured =>
      show Unsent e (readStep id backpressured e).1
      rcases readStep_effects (hl.readable hs) hl.wellFormed (hl.alive_of_readable hs id) backpressured
        with heq | ⟨cap, heff⟩
      · rw [heq]
        exact .refl e
      · have hspec := Quic.Connection.streamRecv_spec e.conn id cap
        exact (Unsent.conn e fun i => by rw [hspec.send]).trans heff.unsent
  | onDatagrams => exact .of_aside (.onDatagrams e)
  | sendDatagram data requestId => exact .of_aside (.sendDatagram e data requestId)
  | openStream bidi requestId =>
      exact (Unsent.of_same rfl rfl (fun _ => rfl) rfl : Unsent e { e with
        pendingOpens := e.pendingOpens ++ [(bidi, requestId)] }).trans (.releasePendingOpens _)
  | streamFin id | setPaused id => exact .modify e id fun _ => .inl rfl
  | streamReset id code => exact .streamReset e id code
  | streamStopSending id code => exact .streamStopSending e id code
  | close code reason => exact .of_aside (.close e code reason)
  | sendDrain => exact .of_aside (.sendDrain e)
  | takeTerminalError => exact .of_aside (.takeTerminalError e)
  | grantCredit => exact .of_aside (.grantCredit e)
  | replenish => exact .of_aside (.replenish e)
  | queueClose => exact .of_aside (.queueClose e)
  | releasePendingOpens => exact .releasePendingOpens e
  | commitSent => exact .of_same rfl rfl (fun _ => rfl) rfl
  | signalFlowControlBlocked => exact .of_aside (.signalFlowControlBlocked e)
  | prune => exact .prune e
  | gracefulClose => exact .of_aside (.gracefulClose e)
  | markClosed code reason remote => exact .markClosed e code reason remote
  | network event =>
      exact .conn e (Quic.Connection.net_data (fun i => (hl.wellFormed i).absent) event)

/-- Every step that meets the condition files what it acknowledges. -/
theorem Delivered.step {e : Endpoint} (hd : e.Delivered) (hl : e.Layout) {s : Step}
    (hs : e.StepAdmissible s) (hk : e.KeepsWrites s) : (e.step s).Delivered := by
  cases hsends : Step.sends s with
  | false => exact hd.unsent (step_unsent hl hs hsends)
  | true =>
      cases s with
      | streamWrite id data requestId =>
          cases hc : e.streams.contains id with
          | true => exact hd.streamWrite hc data requestId
          | false =>
              obtain rfl : data = [] := hk.resolve_left (by simp [hc])
              exact hd.writeGone hc requestId
      | flushStream id => exact hd.flushStream hl hk
      | _ => cases hsends

/-- Events are only added, and only `stream_write` takes note of a write. -/
theorem step_records {e : Endpoint} (hl : e.Layout) {s : Step} (hs : e.StepAdmissible s) :
    (∀ v ∈ e.ev, v ∈ (e.step s).ev) ∧ ∀ id data r, .written id data r ∈ (e.step s).history →
      .written id data r ∈ e.history ∨ s = .streamWrite id data r := by
  have hquiet : ∀ {e' : Endpoint}, (∃ l, e'.ev = e.ev ++ l) → ∀ v ∈ e.ev, v ∈ e'.ev :=
    fun ⟨l, hl⟩ v hv => hl ▸ List.mem_append_left l hv
  cases hsends : Step.sends s with
  | false =>
      obtain ⟨-, ⟨l, hev, -⟩, ⟨m, hhistory, hm⟩, -⟩ := step_unsent hl hs hsends
      refine ⟨hquiet ⟨l, hev⟩, fun id data r hr => .inl ?_⟩
      rw [hhistory] at hr
      rcases List.mem_append.mp hr with hr | hr
      · exact hr
      · cases hm _ hr
  | true =>
      cases s with
      | streamWrite id data requestId =>
          have hq := Quiet.streamWrite e id data requestId
          refine ⟨hquiet (hq.ev.imp fun _ h => h.1), fun i chunk r hr => ?_⟩
          simp only [Endpoint.step, Endpoint.streamWrite] at hr
          have hmem : ∀ {s : Endpoint} {f : Stream → Stream}, (s.modifyStream id f).history = s.history :=
            rfl
          split at hr
          · rw [hmem] at hr
            rcases List.mem_append.mp hr with hr | hr
            · exact .inl hr
            · obtain ⟨rfl, rfl, rfl⟩ : i = id ∧ chunk = data ∧ r = requestId := by simpa using hr
              exact .inr rfl
          · simp only [emit, log, List.mem_append, List.mem_singleton, reduceCtorEq, or_false,
              Trace.written.injEq] at hr
            rcases hr with hr | ⟨rfl, rfl, rfl⟩
            · exact .inl hr
            · exact .inr rfl
      | flushStream id =>
          refine ⟨hquiet ((Quiet.flushStream e id).ev.imp fun _ h => h.1), fun i chunk r hr => .inl ?_⟩
          exact (flushStream_invariant (I := fun s => .written i chunk r ∈ s.history →
            .written i chunk r ∈ e.history) (fun _ _ hsend h hr => h (hsend.written hr)) fun h => h) hr
      | _ => cases hsends

end

instance (e : Endpoint) (id : Nat) : Decidable (e.Reported id) :=
  decidable_of_iff _ (reported_iff e.conn id).symm

instance (e : Endpoint) : (s : Step) → Decidable (e.KeepsWrites s)
  | .streamWrite id data _ => inferInstanceAs (Decidable (e.streams.contains id = true ∨ data = []))
  | .flushStream id => inferInstanceAs (Decidable (e.Reported id → e.Notices id →
      ∀ st ∈ e.streams.get id, ∀ c ∈ st.out, c.requestId ≠ none → c.data = []))
  | .onEstablished | .touch _ | .read _ _ | .onDatagrams | .sendDatagram _ _ | .openStream _ _
  | .streamFin _ | .streamReset _ _ | .streamStopSending _ _ | .setPaused _ _
  | .close _ _ | .sendDrain | .takeTerminalError | .grantCredit | .replenish | .queueClose
  | .releasePendingOpens | .commitSent | .signalFlowControlBlocked | .prune | .gracefulClose
  | .markClosed _ _ _ | .network _ => .isTrue trivial

end Endpoint

end RWebTransport
