import RWebTransport.QuicReading
import RWebTransport.Session.Critical

/-!
# What the application is told of a stream

The events of one stream are a function of the bytes that were read of it: the
signal of a stream of the peer becomes `IncomingStream`, the bytes behind it
become the data, and the end becomes one last event.  While the session is open
nothing is held back; a session that closes in the middle of a read leaves out
what it has read last.
-/

namespace RWebTransport

open Quic (RecvBuf)

/-- The event tells something of the stream. -/
def Ev.tellsOf (id : Nat) : Ev → Bool
  | .incomingStream i _ | .streamData i _ | .streamFinished i | .streamReset i _ => i == id
  | _ => false

namespace Endpoint

open Quic (isLocal isBidi)

/-- What the application was told of a stream. -/
def toldOf (e : Endpoint) (id : Nat) : List Ev := e.ev.filter (Ev.tellsOf id)

/-- The type a data stream announces. -/
def signalType (bidi : Bool) : Nat := if bidi then H3.wtBidiFrameType else H3.wtUniStreamType

/-- How long the signal in front of the data is, if the bytes begin with one. -/
def signalLength (bidi : Bool) (got : Bytes) : Option Nat :=
  (H3.readVarint got).bind fun t =>
    if t.1 = signalType bidi then
      (H3.readVarint (got.drop t.2)).bind fun s => if s.1 = connectId then some (t.2 + s.2) else none
    else none

/-- Where the data of a stream begin; a stream of our own is read without a signal. -/
def dataStart (own : Bool) (bidi : Bool) (got : Bytes) : Option Nat :=
  if own then some 0 else signalLength bidi got

/-- What is told of a stream in front of its data. -/
def opening (own : Bool) (id : Nat) : List Ev := if own then [] else [.incomingStream id (isBidi id)]

/-- What the application is told of the code of a RESET. -/
def resetCode (code : Nat) : Nat := (H3.httpCodeToWebtransportCode code).getD code

/-- The last event of a stream. -/
inductive Closing (id : Nat) (r : RecvBuf) : List Ev → Prop
  | unfinished : r.ended = false → Closing id r []
  /-- Everything up to the final size was handed out. -/
  | finished : r.ended = true → r.finOff = some r.got.length → Closing id r [.streamFinished id]
  | reset {code : Nat} : r.ended = true → r.error = some code →
      Closing id r [.streamReset id (resetCode code)]

/-- The events are all there is to tell of what was read. -/
def ToldAll (own : Bool) (id : Nat) (r : RecvBuf) (l : List Ev) : Prop :=
  ∃ (start : Nat) (chunks : List Bytes) (last : List Ev),
    dataStart own (isBidi id) r.got = some start ∧ [] ∉ chunks ∧ chunks.flatten = r.got.drop start ∧
    Closing id r last ∧ l = opening own id ++ (chunks.map (.streamData id) ++ last)

/-- The events fit what was read, though some may be missing behind them. -/
inductive Transcript (own : Bool) (id : Nat) (r : RecvBuf) (l : List Ev) : Prop
  | silent : l = [] → Transcript own id r l
  | told : ToldAll own id r l → Transcript own id r l
  | cut {start : Nat} {chunks : List Bytes} : dataStart own (isBidi id) r.got = some start →
      [] ∉ chunks → chunks.flatten <+: r.got.drop start →
      l = opening own id ++ chunks.map (.streamData id) → Transcript own id r l

/-- The bytes do not begin a data stream of this session, whatever follows. -/
def Foreign (bidi : Bool) (got : Bytes) : Prop :=
  ∃ ty n, H3.readVarint got = some (ty, n) ∧ (ty ≠ signalType bidi ∨
    ∃ session m, H3.readVarint (got.drop n) = some (session, m) ∧ session ≠ connectId)

/-! ## Bytes -/

theorem signalLength_le {bidi : Bool} {got : Bytes} {start : Nat} (h : signalLength bidi got = some start) :
    start ≤ got.length := by
  obtain ⟨⟨ty, n⟩, hty, hrest⟩ := Option.bind_eq_some_iff.mp h
  simp only at hrest
  split at hrest
  · obtain ⟨⟨session, m⟩, hsession, hstart⟩ := Option.bind_eq_some_iff.mp hrest
    simp only at hstart
    split at hstart
    · obtain rfl := Option.some.inj hstart
      have hn := (H3.readVarint_len hty).2
      have hm := (H3.readVarint_len hsession).2
      rw [List.length_drop] at hm
      omega
    · cases hstart
  · cases hrest

theorem signalLength_append {bidi : Bool} {got : Bytes} {start : Nat}
    (h : signalLength bidi got = some start) (more : Bytes) :
    signalLength bidi (got ++ more) = some start := by
  obtain ⟨⟨ty, n⟩, hty, hrest⟩ := Option.bind_eq_some_iff.mp h
  simp only at hrest
  split at hrest
  next heq =>
    obtain ⟨⟨session, m⟩, hsession, hstart⟩ := Option.bind_eq_some_iff.mp hrest
    refine Option.bind_eq_some_iff.mpr ⟨(ty, n), H3.readVarint_append hty more, ?_⟩
    simp only
    rw [if_pos heq, List.drop_append_of_le_length (H3.readVarint_len hty).2]
    exact Option.bind_eq_some_iff.mpr ⟨(session, m), H3.readVarint_append hsession more, hstart⟩
  · cases hrest

theorem dataStart_le {own bidi : Bool} {got : Bytes} {start : Nat} (h : dataStart own bidi got = some start) :
    start ≤ got.length := by
  unfold dataStart at h
  split at h
  · obtain rfl := Option.some.inj h
    exact Nat.zero_le _
  · exact signalLength_le h

theorem dataStart_append {own bidi : Bool} {got : Bytes} {start : Nat}
    (h : dataStart own bidi got = some start) (more : Bytes) :
    dataStart own bidi (got ++ more) = some start := by
  unfold dataStart at h ⊢
  split
  next hown => rwa [if_pos hown] at h
  next hown =>
    rw [if_neg hown] at h
    exact signalLength_append h more

theorem Foreign.append {bidi : Bool} {got : Bytes} (h : Foreign bidi got) (more : Bytes) :
    Foreign bidi (got ++ more) := by
  obtain ⟨ty, n, hty, hforeign⟩ := h
  refine ⟨ty, n, H3.readVarint_append hty more, hforeign.imp_right ?_⟩
  rintro ⟨session, m, hsession, hne⟩
  rw [List.drop_append_of_le_length (H3.readVarint_len hty).2]
  exact ⟨session, m, H3.readVarint_append hsession more, hne⟩

theorem Foreign.no_signal {bidi : Bool} {got : Bytes} (h : Foreign bidi got) :
    signalLength bidi got = none := by
  obtain ⟨ty, n, hty, hforeign⟩ := h
  rw [signalLength, hty]
  rcases hforeign with hne | ⟨session, m, hsession, hne⟩
  · simp [hne]
  · simp [hsession, hne]

/-! ## Transcripts -/

section

variable {own : Bool} {id : Nat} {r r' : RecvBuf} {l : List Ev}

theorem Closing.later {last : List Ev} (h : Closing id r last) (hr : r.Later r') : Closing id r' last := by
  cases h with
  | unfinished hended => exact .unfinished (hr.ended.trans hended)
  | finished hended hfinal =>
      exact .finished (hr.ended.trans hended) (hr.got.symm ▸ hr.final _ hfinal)
  | reset hended herr => exact .reset (hr.ended.trans hended) (hr.failed _ herr)

theorem ToldAll.later (h : ToldAll own id r l) (hr : r.Later r') : ToldAll own id r' l := by
  obtain ⟨start, chunks, last, hstart, hne, hflat, hlast, rfl⟩ := h
  exact ⟨start, chunks, last, hr.got.symm ▸ hstart, hne, hr.got.symm ▸ hflat, hlast.later hr, rfl⟩

theorem Transcript.later (h : Transcript own id r l) (hr : r.Later r') : Transcript own id r' l := by
  cases h with
  | silent hl => exact .silent hl
  | told htold => exact .told (htold.later hr)
  | cut hstart hne hspelled hl =>
      exact .cut (hr.got.symm ▸ hstart) hne (hr.got.symm ▸ hspelled) hl

/-- What is told of a chunk that was read, and of the end. -/
def news (id : Nat) (chunk : Bytes) (fin : Bool) : List Ev :=
  (if chunk.isEmpty then [] else [.streamData id chunk]) ++ if fin then [.streamFinished id] else []

/-- A chunk was read. -/
structure Extends (chunk : Bytes) (fin : Bool) (r r' : RecvBuf) : Prop where
  before : r.ended = false
  got : r'.got = r.got ++ chunk
  ended : r'.ended = fin
  final : fin = true → r'.finOff = some r'.got.length

theorem Closing.ends {fin : Bool} (hended : r.ended = fin)
    (hfinal : fin = true → r.finOff = some r.got.length) :
    Closing id r (if fin then [.streamFinished id] else []) := by
  cases fin with
  | true => exact .finished hended (hfinal rfl)
  | false => exact .unfinished hended

/-- A stream that goes on has no last event yet. -/
theorem Closing.eq_nil {last : List Ev} (h : Closing id r last) (hbefore : r.ended = false) : last = [] := by
  cases h with
  | unfinished => rfl
  | finished hended => simp [hbefore] at hended
  | reset hended => simp [hbefore] at hended

/-- The data that are told of a chunk. -/
theorem news_eq (id : Nat) (chunk : Bytes) (fin : Bool) :
    ∃ chunks : List Bytes, [] ∉ chunks ∧ chunks.flatten = chunk ∧
      news id chunk fin = chunks.map (.streamData id) ++ if fin then [.streamFinished id] else [] := by
  unfold news
  cases chunk with
  | nil => exact ⟨[], by simp, rfl, rfl⟩
  | cons b chunk => exact ⟨[b :: chunk], by simp, by simp, rfl⟩

/-- A stream of which all was told goes on. -/
theorem ToldAll.extend {chunk : Bytes} {fin : Bool} (h : ToldAll own id r l) (hr : Extends chunk fin r r') :
    ToldAll own id r' (l ++ news id chunk fin) := by
  obtain ⟨start, chunks, last, hstart, hne, hflat, hlast, rfl⟩ := h
  obtain ⟨more, hmore, hchunk, hnews⟩ := news_eq id chunk fin
  obtain rfl := hlast.eq_nil hr.before
  refine ⟨start, chunks ++ more, _, hr.got.symm ▸ dataStart_append hstart chunk, ?_, ?_,
    .ends hr.ended hr.final, ?_⟩
  · simp [hne, hmore]
  · rw [List.flatten_append, hflat, hchunk, hr.got, List.drop_append_of_le_length (dataStart_le hstart)]
  · rw [hnews]
    simp

/-- More was read, of which nothing was told. -/
theorem Transcript.stale (more : Bytes) (h : Transcript own id r l) (hbefore : r.ended = false)
    (hgot : r'.got = r.got ++ more) : Transcript own id r' l := by
  have hgrown : ∀ {start}, dataStart own (isBidi id) r.got = some start →
      r.got.drop start <+: r'.got.drop start := by
    intro start hstart
    rw [hgot, List.drop_append_of_le_length (dataStart_le hstart)]
    exact List.prefix_append _ _
  cases h with
  | silent hl => exact .silent hl
  | told htold =>
      obtain ⟨start, chunks, last, hstart, hne, hflat, hlast, rfl⟩ := htold
      obtain rfl := hlast.eq_nil hbefore
      exact .cut (hgot.symm ▸ dataStart_append hstart more) hne (hflat ▸ hgrown hstart) (by simp)
  | cut hstart hne hspelled hl =>
      exact .cut (hgot.symm ▸ dataStart_append hstart more) hne (hspelled.trans (hgrown hstart)) hl

/-- A RESET is the last that is told of a stream. -/
theorem ToldAll.aborted {code : Nat} (h : ToldAll own id r l) (hbefore : r.ended = false)
    (hgot : r'.got = r.got) (hended : r'.ended = true) (herr : r'.error = some code) :
    ToldAll own id r' (l ++ [.streamReset id (resetCode code)]) := by
  obtain ⟨start, chunks, last, hstart, hne, hflat, hlast, rfl⟩ := h
  obtain rfl := hlast.eq_nil hbefore
  exact ⟨start, chunks, _, hgot.symm ▸ hstart, hne, hgot.symm ▸ hflat, .reset hended herr, by simp⟩

/-- The first that is told of a stream of the peer. -/
theorem ToldAll.begin {start : Nat} {fin : Bool} (hstart : signalLength (isBidi id) r.got = some start)
    (hended : r.ended = fin) (hfinal : fin = true → r.finOff = some r.got.length) :
    ToldAll false id r (.incomingStream id (isBidi id) :: news id (r.got.drop start) fin) := by
  obtain ⟨chunks, hne, hflat, hnews⟩ := news_eq id (r.got.drop start) fin
  refine ⟨start, chunks, _, hstart, hne, hflat, .ends hended hfinal, ?_⟩
  rw [hnews]
  rfl

end

/-! ## Steps that read nothing -/

/-- What a stream is taken for, and what was kept of it. -/
def heldAs (st : Stream) : Role × Bytes := (st.role, st.classBuf.data)

def heldOf (e : Endpoint) (i : Nat) : Option (Role × Bytes) := (e.streams.get i).map heldAs

/-- An entry is new: one of our control streams, or a stream that was just opened. -/
def Added (e e' : Endpoint) (i : Nat) : Prop :=
  isLocal i e.cfg.isServer = true ∧ (e'.heldOf i = some (.localControlPlane, []) ∨
    (e.conn.streams i).phase = .absent ∧ ∃ bidi, isBidi i = bidi ∧ e'.heldOf i = some (.wtData bidi, []))

/-- Nothing was read off a stream, and no stream is taken for another one. -/
structure Unread (e e' : Endpoint) : Prop where
  cfg : e'.cfg = e.cfg
  later : ∀ i, (e.conn.streams i).recv.Later (e'.conn.streams i).recv
  absent : ∀ i, (e'.conn.streams i).phase = .absent → (e.conn.streams i).phase = .absent
  held : ∀ i, i ≠ connectId → e'.heldOf i = e.heldOf i ∨ Added e e' i

namespace Unread

theorem trans {a b c : Endpoint} (hab : Unread a b) (hbc : Unread b c) : Unread a c where
  cfg := hbc.cfg.trans hab.cfg
  later i := (hab.later i).trans (hbc.later i)
  absent i h := hab.absent i (hbc.absent i h)
  held i hi := by
    rcases hbc.held i hi with hc | ⟨hlocal, hc | ⟨habs, hc⟩⟩
    · rcases hab.held i hi with hb | ⟨hlocal, hb | ⟨habs, bidi, hbidi, hb⟩⟩
      · exact .inl (hc.trans hb)
      · exact .inr ⟨hlocal, .inl (hc.trans hb)⟩
      · exact .inr ⟨hlocal, .inr ⟨habs, bidi, hbidi, hc.trans hb⟩⟩
    · exact .inr ⟨hab.cfg ▸ hlocal, .inl hc⟩
    · exact .inr ⟨hab.cfg ▸ hlocal, .inr ⟨hab.absent i habs, hc⟩⟩

theorem of_get {e e' : Endpoint} (hcfg : e'.cfg = e.cfg) (hconn : e'.conn.streams = e.conn.streams)
    (hget : ∀ i, i ≠ connectId → e'.streams.get i = e.streams.get i) : Unread e e' where
  cfg := hcfg
  later i := by
    rw [hconn]
    exact .refl _
  absent i h := by rwa [hconn] at h
  held i hi := .inl (congrArg (Option.map heldAs) (hget i hi))

theorem refl (e : Endpoint) : Unread e e := of_get rfl rfl fun _ _ => rfl

theorem of_aside {e e' : Endpoint} (h : Aside e e') : Unread e e' := of_get h.cfg h.conn h.get

/-- The connection changes, but nothing is read. -/
theorem conn (e : Endpoint) {c : Quic.Connection}
    (hlater : ∀ i, (e.conn.streams i).recv.Later (c.streams i).recv)
    (habs : ∀ i, (c.streams i).phase = .absent → (e.conn.streams i).phase = .absent) :
    Unread e { e with conn := c } := ⟨rfl, hlater, habs, fun _ _ => .inl rfl⟩

theorem heldOf_modify (e : Endpoint) {e' : Endpoint} {id : Nat} {f : Stream → Stream}
    (hstreams : e'.streams = e.streams.modify id f) (hf : ∀ st, heldAs (f st) = heldAs st) (i : Nat) :
    e'.heldOf i = e.heldOf i := by
  unfold heldOf
  rw [hstreams, Table.get_modify]
  split
  · rw [Option.map_map]
    exact congrArg (Option.map · _) (funext hf)
  · rfl

/-- One entry changes in what concerns sending. -/
theorem modified {e e' : Endpoint} {id : Nat} {f : Stream → Stream} (hcfg : e'.cfg = e.cfg)
    (hconn : e'.conn = e.conn) (hstreams : e'.streams = e.streams.modify id f)
    (hf : ∀ st, heldAs (f st) = heldAs st) : Unread e e' where
  cfg := hcfg
  later i := by
    rw [hconn]
    exact .refl _
  absent i h := by rwa [hconn] at h
  held i _ := .inl (heldOf_modify e hstreams hf i)

theorem modify (e : Endpoint) (id : Nat) {f : Stream → Stream} (hf : ∀ st, heldAs (f st) = heldAs st) :
    Unread e (e.modifyStream id f) := modified rfl rfl rfl hf

theorem insertLocal (e : Endpoint) {id : Nat} (hid : id ∈ controlIds e.cfg.isServer) (bytes : Bytes) :
    Unread e (e.insertLocal id bytes) where
  cfg := rfl
  later _ := .refl _
  absent _ h := h
  held i _ := by
    by_cases heq : i = id
    · subst heq
      refine .inr ⟨(controlIds_local hid).1, .inl ?_⟩
      exact congrArg (Option.map heldAs) (Table.get_insert_self e.streams i _)
    · exact .inl (congrArg (Option.map heldAs) (Table.get_insert_ne heq))

theorem onEstablished (e : Endpoint) : Unread e e.onEstablished := by
  have hlocal : ∀ {s : Endpoint} {id : Nat} (bytes : Bytes), Unread e s →
      id ∈ controlIds e.cfg.isServer → Unread e (s.insertLocal id bytes) :=
    fun bytes hs hid => hs.trans (insertLocal _ (hs.cfg ▸ hid) bytes)
  unfold Endpoint.onEstablished
  split
  · exact refl e
  · have h1 : Unread e { e with setupSent := true } := of_get rfl rfl fun _ _ => rfl
    have h2 := hlocal H3.controlStreamPrefix h1
      (by simp [controlIds] : controlId e.cfg.isServer ∈ controlIds e.cfg.isServer)
    have h3 := hlocal (H3.putVarint H3.qpackEncoderStreamType) h2
      (by simp [controlIds] : qpackEncId e.cfg.isServer ∈ controlIds e.cfg.isServer)
    have h4 := hlocal (H3.putVarint H3.qpackDecoderStreamType) h3
      (by simp [controlIds] : qpackDecId e.cfg.isServer ∈ controlIds e.cfg.isServer)
    simp only
    split
    · exact h4
    · exact h4.trans (of_get rfl rfl fun _ _ => rfl)

theorem allocateStream {e : Endpoint} (hl : e.Layout) (bidi : Bool) (requestId : Nat) :
    Unread e (e.allocateStream bidi requestId) := by
  obtain ⟨k, hk⟩ := hl.next bidi
  have hopened : e.heldOf (e.nextId bidi) = none ∧ (e.conn.streams (e.nextId bidi)).phase = .absent := by
    have hfresh := hl.fresh bidi k hk.le
    rw [← hk] at hfresh
    exact ⟨congrArg (Option.map heldAs) (roleOf_eq_none.mp hfresh.1), hfresh.2⟩
  have hheld : ∀ i, (e.allocateStream bidi requestId).heldOf i =
      if i = e.nextId bidi then some (.wtData bidi, []) else e.heldOf i := by
    intro i
    cases bidi with
    | false =>
        refine (congrArg (Option.map heldAs) (Table.get_insert e.streams _ _ i)).trans ?_
        exact apply_ite (Option.map heldAs) _ _ _
    | true =>
        refine (congrArg (Option.map heldAs) (Table.get_insert e.streams _ _ i)).trans ?_
        exact apply_ite (Option.map heldAs) _ _ _
  have hconn : (e.allocateStream bidi requestId).conn = e.conn := by cases bidi <;> rfl
  refine ⟨by cases bidi <;> rfl, fun i => ?_, fun i h => by rwa [hconn] at h, fun i _ => ?_⟩
  · rw [hconn]
    exact .refl _
  · by_cases heq : i = e.nextId bidi
    · refine .inr ⟨?_, .inr ⟨heq ▸ hopened.2, bidi, ?_, by rw [hheld, if_pos heq]⟩⟩
      · rw [heq, hk]
        exact isLocal_ownId _ _ _
      · rw [heq, hk]
        exact isBidi_ownId _ _ _
    · exact .inl (by rw [hheld, if_neg heq])

theorem releasePendingOpens {e : Endpoint} (hl : e.Layout) : Unread e e.releasePendingOpens := by
  have hkept : e.releasePendingOpens.Layout ∧ Unread e e.releasePendingOpens := by
    refine releasePendingOpens_invariant (I := fun s => s.Layout ∧ Unread e s)
      (fun s l hs => ⟨?_, ?_⟩) (fun s bidi requestId _ _ _ hs => ⟨?_, ?_⟩) ⟨hl, refl e⟩
    · exact hs.1.same (.session rfl rfl rfl rfl rfl rfl rfl rfl rfl)
    · exact hs.2.trans (of_get rfl rfl fun _ _ => rfl)
    · exact hs.1.allocateStream bidi requestId
    · exact hs.2.trans (allocateStream hs.1 bidi requestId)
  exact hkept.2

theorem flushStream {e : Endpoint} (hl : e.Layout) (id : Nat) : Unread e (e.flushStream id) := by
  have hkept : (e.flushStream id).conn.WellFormed ∧ Unread e (e.flushStream id) := by
    refine flushStream_invariant (I := fun s => s.conn.WellFormed ∧ Unread e s)
      (fun s s' hs h => ?_) ⟨hl.wellFormed, refl e⟩
    have hsent : ∀ {bytes fin r c}, Quic.Connection.Send s.conn id bytes fin r c →
        Unread s { s with conn := c } :=
      fun hsend => conn s (hsend.later h.1) fun i hi => hsend.absent hi
    cases hs with
    | returned => exact ⟨h.1, h.2.trans (modified rfl rfl rfl fun _ => rfl)⟩
    | refused _ hsend => exact ⟨hsend.wellFormed h.1, h.2.trans (hsent hsend)⟩
    | sent _ _ _ hsend | stopped _ _ hsend | fin _ _ _ _ hsend =>
        exact ⟨hsend.wellFormed h.1,
          (h.2.trans (hsent hsend)).trans (modified rfl rfl rfl fun _ => rfl)⟩
  exact hkept.2

theorem reconcileSendFinalSize (e : Endpoint) (id : Nat) : Unread e (e.reconcileSendFinalSize id) := by
  unfold Endpoint.reconcileSendFinalSize
  split
  · simp only
    split
    · exact modified rfl rfl rfl fun _ => rfl
    · exact refl e
  · exact refl e

theorem dropQueue (e : Endpoint) (id : Nat) : Unread e (e.dropQueue id) := by
  unfold Endpoint.dropQueue
  split
  · exact refl e
  · exact modified rfl rfl rfl fun _ => rfl

theorem shutdownWrite (e : Endpoint) (id err : Nat) :
    Unread e { e with conn := e.conn.streamShutdownWrite id err } := by
  refine conn e (fun i => ?_) fun i h => ?_
  · rw [Quic.Connection.streamShutdownWrite_recv]
    exact .refl _
  · rwa [Quic.Connection.streamShutdownWrite_phase] at h

theorem streamReset (e : Endpoint) (id code : Nat) : Unread e (e.streamReset id code) := by
  unfold Endpoint.streamReset
  split
  · simp only
    have hlog : Unread e (e.log (.streamReset id)) := of_get rfl rfl fun _ _ => rfl
    have hshut := hlog.trans (shutdownWrite (e.log (.streamReset id)) id
      (H3.webtransportCodeToHttpCode code))
    exact ((hshut.trans (reconcileSendFinalSize _ id)).trans (dropQueue _ id)).trans
      (modify _ id fun _ => rfl)
  · exact refl e

theorem shutdownRead (e : Endpoint) (id err : Nat) : Unread e (e.shutdownRead id err) := by
  refine conn e (fun i => Quic.Connection.later_shutdownRead e.conn id err i) fun i h => ?_
  rwa [Quic.Connection.streamShutdownRead_phase] at h

theorem streamStopSending (e : Endpoint) (id code : Nat) : Unread e (e.streamStopSending id code) := by
  unfold Endpoint.streamStopSending
  split
  · exact (shutdownRead e id _).trans (modify _ id fun _ => rfl)
  · exact refl e

theorem network {e : Endpoint} (hl : e.Layout) (event : Quic.NetEvent) :
    Unread e { e with conn := e.conn.net event } :=
  conn e (Quic.Connection.later_net hl.wellFormed event) fun _ h => Quic.Connection.net_absent h

end Unread

theorem toldOf_append {e e' : Endpoint} {l : List Ev} (hev : e'.ev = e.ev ++ l) (id : Nat) :
    e'.toldOf id = e.toldOf id ++ l.filter (Ev.tellsOf id) := by
  unfold toldOf
  rw [hev, List.filter_append]

/-- Nothing is told of the stream. -/
theorem toldOf_mute {e e' : Endpoint} {l : List Ev} (hev : e'.ev = e.ev ++ l) {id : Nat}
    (hl : ∀ v ∈ l, v.tellsOf id = false) : e'.toldOf id = e.toldOf id := by
  have hnil : l.filter (Ev.tellsOf id) = [] := List.filter_eq_nil_iff.mpr fun v hv => by simp [hl v hv]
  rw [toldOf_append hev, hnil, List.append_nil]

theorem Quiet.told {e e' : Endpoint} (h : Quiet e e') (id : Nat) : e'.toldOf id = e.toldOf id := by
  obtain ⟨l, hl, hquiet⟩ := h.ev
  refine toldOf_mute hl fun v hv => ?_
  have hv := hquiet v hv
  cases v <;> first | rfl | cases hv

theorem toldOf_onEstablished (e : Endpoint) (id : Nat) : e.onEstablished.toldOf id = e.toldOf id := by
  have hev : e.onEstablished.ev = e.ev := by
    rcases onEstablished_spec e with heq | ⟨-, -, -, -, -, -, -, -, hev, -⟩
    · rw [heq]
    · exact hev
  unfold toldOf
  rw [hev]

section

variable [H3.Codec]

theorem step_unread {e : Endpoint} (hl : e.Layout) {s : Step} (hs : Step.hears s = false) :
    Unread e (e.step s) ∧ ∀ i, (e.step s).toldOf i = e.toldOf i := by
  refine ⟨?_, fun i => ?_⟩
  · cases s with
    | touch | read | prune | markClosed => cases hs
    | onEstablished => exact .onEstablished e
    | onDatagrams => exact .of_aside (.onDatagrams e)
    | sendDatagram data requestId => exact .of_aside (.sendDatagram e data requestId)
    | openStream bidi requestId =>
        have h0 : Unread e { e with pendingOpens := e.pendingOpens ++ [(bidi, requestId)] } :=
          .of_get rfl rfl fun _ _ => rfl
        exact h0.trans (.releasePendingOpens (hl.same (.session rfl rfl rfl rfl rfl rfl rfl rfl rfl)))
    | streamWrite id data requestId =>
        show Unread e (e.streamWrite id data requestId)
        unfold streamWrite
        simp only
        split
        · exact .modified rfl rfl rfl fun _ => rfl
        · exact .of_get rfl rfl fun _ _ => rfl
    | streamFin id | setPaused id => exact .modify e id fun _ => rfl
    | streamReset id code => exact .streamReset e id code
    | streamStopSending id code => exact .streamStopSending e id code
    | close code reason => exact .of_aside (.close e code reason)
    | sendDrain => exact .of_aside (.sendDrain e)
    | takeTerminalError => exact .of_aside (.takeTerminalError e)
    | grantCredit => exact .of_aside (.grantCredit e)
    | replenish => exact .of_aside (.replenish e)
    | queueClose => exact .of_aside (.queueClose e)
    | releasePendingOpens => exact .releasePendingOpens hl
    | flushStream id => exact .flushStream hl id
    | commitSent => exact .of_get rfl rfl fun _ _ => rfl
    | signalFlowControlBlocked => exact .of_aside (.signalFlowControlBlocked e)
    | gracefulClose => exact .of_aside (.gracefulClose e)
    | network event => exact .network hl event
  · cases hloud : Step.isLoud s with
    | false => exact (step_quiet hl hloud).told i
    | true =>
        cases s with
        | touch | read | prune | markClosed => cases hs
        | onEstablished => exact toldOf_onEstablished e i
        | _ => cases hloud

/-! ## What reading tells -/

section

variable {r : Nat} {e e' : Endpoint}

omit [H3.Codec] in
theorem toldOf_emit (e : Endpoint) {v : Ev} {i : Nat} (hv : v.tellsOf i = false) :
    (e.emit v).toldOf i = e.toldOf i :=
  toldOf_mute (l := [v]) rfl (by simpa using hv)

omit [H3.Codec] in
theorem toldOf_markClosed (e : Endpoint) (code : Nat) (reason : Bytes) (remote : Bool) (i : Nat) :
    (e.markClosed code reason remote).toldOf i = e.toldOf i := by
  cases hc : e.closed with
  | true =>
      have heq : e.markClosed code reason remote = e := by simp [Endpoint.markClosed, hc]
      rw [heq]
  | false => exact toldOf_mute (markClosed_ev hc code reason remote) (by simp [Ev.tellsOf])

omit [H3.Codec] in
theorem toldOf_refuse (e : Endpoint) (id : Nat) (frame : Option Bytes) (messages : List String)
    (status i : Nat) : (e.refuse id frame messages status).toldOf i = e.toldOf i := by
  rw [refuse_eq, toldOf_markClosed]
  obtain ⟨-, -, -, -, -, -, -, hev, -⟩ := refusing_session e id frame messages status
  exact toldOf_mute hev (by simp [Ev.tellsOf])

/-- Only of a data stream anything is told, and only when it is read itself. -/
theorem Effect.told (h : Effect r e e') {i : Nat}
    (hi : i ≠ r ∨ ∀ bidi, e.roleOf r ≠ some (.wtData bidi)) : e'.toldOf i = e.toldOf i := by
  have hno : ∀ {bidi}, e.roleOf r = some (.wtData bidi) → (r == i) = false := by
    intro bidi hrole
    rcases hi with hi | hi
    · simpa using hi.symm
    · exact absurd hrole (hi bidi)
  cases h with
  | fail message => exact (toldOf_markClosed _ _ _ _ i).trans (toldOf_emit e rfl)
  | finish => exact toldOf_markClosed _ _ _ _ i
  | killFail message => exact (toldOf_markClosed _ _ _ _ i).trans (toldOf_emit (e.killRecv r) rfl)
  | resetFail message => exact (toldOf_markClosed _ _ _ _ i).trans (toldOf_emit (e.setRecvDead r) rfl)
  | resetClose => exact toldOf_markClosed (e.setRecvDead r) _ _ _ i
  | credit =>
      unfold setCreditLimit
      split_ifs <;> rfl
  | @reject id block => exact toldOf_refuse (e.takeHeaders id block) _ _ _ _ i
  | refuse => exact toldOf_refuse _ _ _ _ _ i
  | draining | unrequested | undecoded | ready | accept | unanswered =>
      exact toldOf_mute (l := [_]) rfl (by simp [Ev.tellsOf])
  | incoming hrole | data chunk hrole | finished hrole | reset code hrole =>
      exact toldOf_mute (l := [_]) rfl (by simpa [Ev.tellsOf] using hno hrole)
  | _ => rfl

theorem Effects.told_ne (h : Effects r e e') {i : Nat} (hi : i ≠ r) : e'.toldOf i = e.toldOf i :=
  h.rel (R := fun e e' => e'.toldOf i = e.toldOf i) (fun _ => rfl) (fun hab hbc => hbc.trans hab)
    fun _ _ hs => hs.told (.inl hi)

/-- Of a stream that carries no data nothing is told. -/
theorem Effects.told_other (h : Effects r e e') {role : Role} (hrole : e.roleOf r = some role)
    (hset : role ≠ .pendingUni ∧ role ≠ .pendingBidi) (hdata : role.isWtData = false)
    (hr : r ≠ connectId) : e'.toldOf r = e.toldOf r ∧ e'.roleOf r = some role := by
  refine h.invariant (I := fun s => s.toldOf r = e.toldOf r ∧ s.roleOf r = some role)
    (fun a b hs hI => ⟨?_, hs.roleOf hI.2 hset fun heq => absurd heq hr⟩) ⟨rfl, hrole⟩
  refine (hs.told (.inr fun bidi heq => ?_)).trans hI.1
  rw [hI.2] at heq
  rw [Option.some.inj heq] at hdata
  cases hdata

theorem Effects.later (h : Effects r e e') (i : Nat) :
    (e.conn.streams i).recv.Later (e'.conn.streams i).recv := by
  refine h.rel (R := fun e e' => (e.conn.streams i).recv.Later (e'.conn.streams i).recv)
    (fun _ => .refl _) (fun hab hbc => hab.trans hbc) fun a b hs => ?_
  rcases hs.conn with hsame | ⟨hsame, -⟩
  · rw [hsame]
    exact .refl _
  · rw [hsame]
    exact Quic.Connection.later_shutdownRead _ _ _ _

end

/-! ## Where a stream stands -/

/-- What a stream is taken for, and what was told of it, fits what was read. -/
inductive Stance (own : Bool) (i : Nat) (s : Quic.QStream) (l : List Ev) : Option (Role × Bytes) → Prop
  | unseen : s.recv.got = [] → l = [] → Stance own i s l none
  | spent : s.Exhausted → ToldAll own i s.recv l ∨ l = [] ∧ signalLength (isBidi i) s.recv.got = none →
      Stance own i s l none
  /-- A stream of our own that was forgotten. -/
  | gone : own = true → Stance own i s l none
  | pending {buf : Bytes} : own = false → l = [] → buf = s.recv.got →
      signalLength (isBidi i) s.recv.got = none →
      Stance own i s l (some (if isBidi i then .pendingBidi else .pendingUni, buf))
  | data {buf : Bytes} : ToldAll own i s.recv l → Stance own i s l (some (.wtData (isBidi i), buf))
  | other {role : Role} {buf : Bytes} : role ≠ .pendingUni ∧ role ≠ .pendingBidi →
      role.isWtData = false → own = true ∨ l = [] ∧ Foreign (isBidi i) s.recv.got →
      Stance own i s l (some (role, buf))

/-- Whether the stream is one of our own. -/
def owns (e : Endpoint) (i : Nat) : Bool := isLocal i e.cfg.isServer

omit [H3.Codec] in
theorem Stance.later {own : Bool} {i : Nat} {s s' : Quic.QStream} {l : List Ev}
    {held : Option (Role × Bytes)} (h : Stance own i s l held) (hr : s.recv.Later s'.recv)
    (hx : s.Exhausted → s'.Exhausted) : Stance own i s' l held := by
  have hgot := hr.got
  cases h with
  | unseen hnil hl => exact .unseen (hgot.trans hnil) hl
  | spent hspent htold =>
      refine .spent (hx hspent) (htold.imp (·.later hr) fun hl => ⟨hl.1, ?_⟩)
      rw [hgot]
      exact hl.2
  | gone hown => exact .gone hown
  | pending hown hl hbuf hno => exact .pending hown hl (hbuf.trans hgot.symm) (hgot.symm ▸ hno)
  | data htold => exact .data (htold.later hr)
  | other hset hdata hl => exact .other hset hdata (hl.imp_right fun hl => ⟨hl.1, hgot.symm ▸ hl.2⟩)

omit [H3.Codec] in
/-- While the session is open, nothing that was read of a data stream is held back. -/
theorem Stance.told {i : Nat} {s : Quic.QStream} {l : List Ev} {held : Option (Role × Bytes)}
    (h : Stance false i s l held) {start : Nat} (hstart : signalLength (isBidi i) s.recv.got = some start) :
    ToldAll false i s.recv l := by
  cases h with
  | unseen hnil hl =>
      rw [hnil] at hstart
      cases hstart
  | spent _ htold =>
      rcases htold with htold | ⟨-, hno⟩
      · exact htold
      · simp [hno] at hstart
  | gone hown => cases hown
  | pending _ _ _ hno => simp [hno] at hstart
  | data htold => exact htold
  | other _ _ hl =>
      rcases hl with hown | ⟨-, hforeign⟩
      · cases hown
      · simp [hforeign.no_signal] at hstart

/-- What was told of a stream fits what was read of it. -/
structure Conveyed (e : Endpoint) (i : Nat) : Prop where
  counted : (e.conn.streams i).recv.Counted
  transcript : Transcript (e.owns i) i (e.conn.streams i).recv (e.toldOf i)
  stance : e.closed = false → Stance (e.owns i) i (e.conn.streams i) (e.toldOf i) (e.heldOf i)

/-! ## Reading a stream -/

section

variable {r : Nat} {e e' : Endpoint}

omit [H3.Codec] in
theorem held_of_role {role : Role} (h : e.roleOf r = some role) : ∃ buf, e.heldOf r = some (role, buf) := by
  obtain ⟨st, hst, rfl⟩ := Option.map_eq_some_iff.mp h
  exact ⟨_, by rw [heldOf, hst]; rfl⟩

omit [H3.Codec] in
theorem role_of_held {role : Role} {buf : Bytes} (h : e.heldOf r = some (role, buf)) :
    e.roleOf r = some role := by
  obtain ⟨st, hst, heq⟩ := Option.map_eq_some_iff.mp h
  cases heq
  rw [roleOf, hst]
  rfl

omit [H3.Codec] in
theorem toldOf_flowError (e : Endpoint) (message : String) (i : Nat) :
    (e.flowError message).toldOf i = e.toldOf i := by
  unfold flowError
  split
  · rfl
  · exact (toldOf_markClosed _ _ _ _ i).trans (toldOf_mute (l := [_]) rfl (by simp [Ev.tellsOf]))

omit [H3.Codec] in
theorem toldOf_protocolError (e : Endpoint) (code : Nat) (message : String) (i : Nat) :
    (e.protocolError code message).toldOf i = e.toldOf i := by
  unfold protocolError
  split
  · rfl
  · exact (toldOf_markClosed _ _ _ _ i).trans (toldOf_emit e rfl)

omit [H3.Codec] in
theorem toldOf_parserLimitExceeded (e : Endpoint) (i : Nat) :
    e.parserLimitExceeded.toldOf i = e.toldOf i := by
  unfold parserLimitExceeded
  split
  · rfl
  · exact (toldOf_markClosed _ _ _ _ i).trans (toldOf_emit e rfl)

omit [H3.Codec] in
theorem toldOf_accountReceive (e : Endpoint) (id amount i : Nat) :
    (e.accountReceive id amount).1.toldOf i = e.toldOf i := by
  unfold accountReceive
  simp only
  split
  · exact toldOf_flowError _ _ i
  · rfl

omit [H3.Codec] in
theorem toldOf_accountIncoming (e : Endpoint) (bidi : Bool) (i : Nat) :
    (e.accountIncoming bidi).1.toldOf i = e.toldOf i := by
  unfold accountIncoming
  simp only
  split
  · exact toldOf_flowError _ _ i
  · rfl

omit [H3.Codec] in
theorem toldOf_surfaceData (e : Endpoint) (chunk : Bytes) (fin : Bool) :
    (e.surfaceData r chunk fin).toldOf r = e.toldOf r ++ news r chunk fin := by
  have hev : (e.surfaceData r chunk fin).ev = e.ev ++ news r chunk fin := by
    unfold surfaceData news
    cases chunk.isEmpty <;> cases fin <;> simp [emit, setRecvDead, modifyStream]
  have htells : (news r chunk fin).filter (Ev.tellsOf r) = news r chunk fin := by
    refine List.filter_eq_self.mpr fun v hv => ?_
    unfold news at hv
    rcases List.mem_append.mp hv with hv | hv
    · split at hv
      · cases hv
      · obtain rfl := List.mem_singleton.mp hv
        simp [Ev.tellsOf]
    · split at hv
      · obtain rfl := List.mem_singleton.mp hv
        simp [Ev.tellsOf]
      · cases hv
  rw [toldOf_append hev, htells]

omit [H3.Codec] in
/-- The chunk is told, or the session ends. -/
theorem recvData_told (chunk : Bytes) (fin : Bool) :
    (e.recvData r chunk fin).closed = true ∧ (e.recvData r chunk fin).toldOf r = e.toldOf r ∨
      (e.recvData r chunk fin).toldOf r = e.toldOf r ++ news r chunk fin := by
  have hacc := toldOf_accountReceive e r chunk.length r
  unfold recvData
  split
  next e1 heq =>
    rw [heq] at hacc
    exact .inl ⟨accountReceive_closed heq, hacc⟩
  next e1 heq =>
    rw [heq] at hacc
    exact .inr ((toldOf_surfaceData e1 chunk fin).trans (congrArg (· ++ _) hacc))

omit [H3.Codec] in
/-- The stream is told with its first data, or the session ends. -/
theorem surfaceStream_told (bidi : Bool) (buf : Bytes) (header : Nat) (fin : Bool) :
    (e.surfaceStream r bidi buf header fin).closed = true ∧
        (e.surfaceStream r bidi buf header fin).toldOf r = e.toldOf r ∨
      (e.surfaceStream r bidi buf header fin).toldOf r =
        e.toldOf r ++ .incomingStream r bidi :: news r (buf.drop header) fin := by
  unfold surfaceStream
  simp only
  have hresolve : ((e.classify r (.wtData bidi)).modifyStream r fun st =>
      { st with recvPrefix := header }).toldOf r = e.toldOf r := rfl
  generalize ((e.classify r (.wtData bidi)).modifyStream r fun st =>
      { st with recvPrefix := header }) = e1 at hresolve ⊢
  have hcount := (toldOf_accountIncoming e1 bidi r).trans hresolve
  split
  next e2 heq =>
    rw [heq] at hcount
    exact .inl ⟨accountIncoming_closed heq, hcount⟩
  next e2 heq =>
    rw [heq] at hcount
    have hacc := (toldOf_accountReceive e2 r (buf.drop header).length r).trans hcount
    split
    next e3 heq3 =>
      rw [heq3] at hacc
      exact .inl ⟨accountReceive_closed heq3, hacc⟩
    next e3 heq3 =>
      rw [heq3] at hacc
      have hemit : (e3.emit (.incomingStream r bidi)).toldOf r =
          e3.toldOf r ++ [.incomingStream r bidi] := by
        refine (toldOf_append (l := [_]) rfl r).trans ?_
        simp [Ev.tellsOf]
      refine .inr ?_
      rw [toldOf_surfaceData, hemit, hacc]
      simp

/-- What becomes of a stream that waits for its signal; `buf` is what was read of it. -/
inductive Settled (r : Nat) (buf : Bytes) (fin : Bool) (e e' : Endpoint) : Prop
  | ended : e'.closed = true → e'.toldOf r = e.toldOf r → Settled r buf fin e e'
  | waits : fin = false → signalLength (isBidi r) buf = none → e'.toldOf r = e.toldOf r →
      e'.heldOf r = some (if isBidi r then .pendingBidi else .pendingUni, buf) → Settled r buf fin e e'
  | forgotten : fin = true → signalLength (isBidi r) buf = none → e'.toldOf r = e.toldOf r →
      e'.conn = e.conn → e'.heldOf r = none → Settled r buf fin e e'
  | foreign {role : Role} : Foreign (isBidi r) buf → e'.toldOf r = e.toldOf r →
      e'.roleOf r = some role → role ≠ .pendingUni ∧ role ≠ .pendingBidi → role.isWtData = false →
      Settled r buf fin e e'
  | surfaced {start : Nat} : signalLength (isBidi r) buf = some start →
      e'.toldOf r = e.toldOf r ++ .incomingStream r (isBidi r) :: news r (buf.drop start) fin →
      e'.roleOf r = some (.wtData (isBidi r)) → Settled r buf fin e e'

omit [H3.Codec] in
theorem toldOf_pushClass (e : Endpoint) (id : Nat) (chunk : Bytes) (i : Nat) :
    (e.pushClass id chunk).1.toldOf i = e.toldOf i := by
  unfold pushClass
  split
  · rfl
  · split
    next h _ => exact toldOf_parserLimitExceeded { e with heap := h } i
    · rfl

omit [H3.Codec] in
theorem Settled.behind {e1 : Endpoint} {buf : Bytes} {fin : Bool} (htold : e1.toldOf r = e.toldOf r)
    (hconn : e1.conn = e.conn) (h : Settled r buf fin e1 e') : Settled r buf fin e e' := by
  cases h with
  | ended hclosed hl => exact .ended hclosed (hl.trans htold)
  | waits hfin hno hl hheld => exact .waits hfin hno (hl.trans htold) hheld
  | forgotten hfin hno hl hc hheld => exact .forgotten hfin hno (hl.trans htold) (hc.trans hconn) hheld
  | foreign hf hl hrole hset hdata => exact .foreign hf (hl.trans htold) hrole hset hdata
  | surfaced hstart hl hrole => exact .surfaced hstart (htold ▸ hl) hrole

omit [H3.Codec] in
theorem Settled.protocolError {buf : Bytes} {fin : Bool} (code : Nat) (message : String) :
    Settled r buf fin e (e.protocolError code message) :=
  .ended (protocolError_closed _ _ _) (toldOf_protocolError _ _ _ _)

omit [H3.Codec] in
/-- The signal is not there yet. -/
theorem Settled.forgetIf {buf : Bytes} {fin : Bool} (hno : signalLength (isBidi r) buf = none)
    (hheld : e.heldOf r = some (if isBidi r then .pendingBidi else .pendingUni, buf)) :
    Settled r buf fin e (e.forgetIf r fin) := by
  cases fin with
  | false => exact .waits rfl hno rfl hheld
  | true =>
      refine .forgotten rfl hno rfl rfl ?_
      simp [Endpoint.forgetIf, removeStream, heldOf, Table.get_erase]

omit [H3.Codec] in
/-- A stream of another session, or with another signal, is shut down. -/
theorem Settled.discard {buf : Bytes} {fin : Bool} (hforeign : Foreign (isBidi r) buf)
    (hsome : (e.roleOf r).isSome = true) :
    Settled r buf fin e ((e.shutdownRead r 0).classify r .ignored) :=
  .foreign hforeign rfl (roleOf_classify (e := e.shutdownRead r 0) hsome) (by simp) rfl

omit [H3.Codec] in
theorem Settled.surfaceStream {buf : Bytes} {fin : Bool} {start : Nat}
    (hstart : signalLength (isBidi r) buf = some start)
    (htold : (e.surfaceStream r (isBidi r) buf start fin).closed = true ∧
        (e.surfaceStream r (isBidi r) buf start fin).toldOf r = e.toldOf r ∨
      (e.surfaceStream r (isBidi r) buf start fin).toldOf r =
        e.toldOf r ++ .incomingStream r (isBidi r) :: news r (buf.drop start) fin)
    (hrole : (e.surfaceStream r (isBidi r) buf start fin).roleOf r = some (.wtData (isBidi r))) :
    Settled r buf fin e (e.surfaceStream r (isBidi r) buf start fin) := by
  rcases htold with ⟨hclosed, hl⟩ | hl
  · exact .ended hclosed hl
  · exact .surfaced hstart hl hrole

omit [H3.Codec] in
theorem signalLength_short {bidi : Bool} {buf : Bytes} {n : Nat}
    (hty : H3.readVarint buf = some (signalType bidi, n)) (hsession : H3.readVarint (buf.drop n) = none) :
    signalLength bidi buf = none := by
  simp [signalLength, hty, hsession]

omit [H3.Codec] in
theorem signalLength_full {bidi : Bool} {buf : Bytes} {n m : Nat}
    (hty : H3.readVarint buf = some (signalType bidi, n))
    (hsession : H3.readVarint (buf.drop n) = some (connectId, m)) :
    signalLength bidi buf = some (n + m) := by
  simp [signalLength, hty, hsession]

omit [H3.Codec] in
/-- What is kept of a stream that waits for its signal, with one chunk more. -/
theorem pushClass_held {role : Role} {buf : Bytes} (hheld : e.heldOf r = some (role, buf))
    (chunk : Bytes) : (∃ e1, e.pushClass r chunk = (e1, none) ∧ e1.closed = true ∧ e1.toldOf r = e.toldOf r) ∨
      ∃ e1, e.pushClass r chunk = (e1, some (buf ++ chunk)) ∧ e1.conn = e.conn ∧
        e1.toldOf r = e.toldOf r ∧ e1.heldOf r = some (role, buf ++ chunk) := by
  obtain ⟨st, hst, heq⟩ := Option.map_eq_some_iff.mp hheld
  have hrole : st.role = role := congrArg Prod.fst heq
  have hbuf : st.classBuf.data = buf := congrArg Prod.snd heq
  have htold := toldOf_pushClass e r chunk r
  have hpush := pushClass_spec hst chunk
  cases hx : e.pushClass r chunk with
  | mk e1 pushed =>
      rw [hx] at hpush htold
      cases pushed with
      | none => exact .inl ⟨e1, rfl, hpush.2, htold⟩
      | some pushed =>
          obtain ⟨rfl, -, hconn, -, b, hb, hget⟩ := hpush
          refine .inr ⟨e1, by rw [hbuf], hconn, htold, ?_⟩
          rw [heldOf, hget, Option.map_some, heldAs, hb, hrole, hbuf]

theorem resolvePendingBidi_settled (hne : r ≠ connectId) (hbidi : isBidi r = true) {buf : Bytes}
    (hheld : e.heldOf r = some (.pendingBidi, buf)) (chunk : Bytes) (fin : Bool) :
    Settled r (buf ++ chunk) fin e (e.resolvePendingBidi r chunk fin) := by
  unfold resolvePendingBidi
  rcases pushClass_held hheld chunk with ⟨e1, hpush, hclosed, htold⟩ | ⟨e1, hpush, hconn, htold, hheld1⟩
  · rw [hpush]
    exact .ended hclosed htold
  · rw [hpush]
    refine .behind htold hconn ?_
    generalize buf ++ chunk = buf at hheld1 ⊢
    have hsome : (e1.roleOf r).isSome = true := by rw [role_of_held hheld1]; rfl
    have hpending : e1.heldOf r = some (if isBidi r then .pendingBidi else .pendingUni, buf) := by
      rw [hbidi]
      exact hheld1
    simp only
    split
    next hty => exact .forgetIf (by rw [signalLength, hty]; rfl) hpending
    next ty n hty =>
      split_ifs with hother
      · exact .discard ⟨ty, n, hty, .inl (by rw [hbidi]; exact hother)⟩ hsome
      · have hty : H3.readVarint buf = some (signalType (isBidi r), n) := by
          rw [hty, hbidi, not_not.mp hother]
          rfl
        split
        next hsession => exact .forgetIf (signalLength_short hty hsession) hpending
        next session m hsession =>
          split_ifs with hforeign
          · exact .discard ⟨_, n, hty, .inr ⟨session, m, hsession, hforeign⟩⟩ hsome
          · obtain rfl := not_not.mp hforeign
            have hrole := surfaceStream_roleOf hsome hne true buf (n + m) fin
            rw [← hbidi] at hrole ⊢
            exact .surfaceStream (signalLength_full hty hsession) (surfaceStream_told _ _ _ _) hrole

theorem resolvePendingUni_settled (hl : e.Layout) (halive : e.Alive r) (hne : r ≠ connectId)
    (hbidi : isBidi r = false) {buf : Bytes} (hheld : e.heldOf r = some (.pendingUni, buf))
    (chunk : Bytes) (fin : Bool) :
    Settled r (buf ++ chunk) fin e (e.resolvePendingUni r chunk fin) := by
  have hpusheff := pushClass_effects (.inl (role_of_held hheld)) chunk
  unfold resolvePendingUni
  rcases pushClass_held hheld chunk with ⟨e1, hpush, hclosed, htold⟩ | ⟨e1, hpush, hconn, htold, hheld1⟩
  · rw [hpush]
    exact .ended hclosed htold
  · have halive1 := (pushClass_ok hpush).2.2.2 halive
    rw [hpush] at hpusheff ⊢
    refine .behind htold hconn ?_
    have hl1 : e1.Layout := hpusheff.invariant (fun _ _ hs => hs.layout) hl
    generalize buf ++ chunk = buf at hheld1 ⊢
    have hrole1 : e1.roleOf r = some .pendingUni := role_of_held hheld1
    have hsome : (e1.roleOf r).isSome = true := by simp [hrole1]
    have hpending : e1.heldOf r = some (if isBidi r then .pendingBidi else .pendingUni, buf) := by
      rw [hbidi]
      exact hheld1
    -- a stream that is classified as something else is no data stream of the session
    have hother : ∀ {ty n : Nat} {role : Role} {e2 : Endpoint}, H3.readVarint buf = some (ty, n) →
        ty ≠ H3.wtUniStreamType → role ≠ .pendingUni ∧ role ≠ .pendingBidi → role.isWtData = false →
        Effects r (e1.classify r role) e2 → Settled r buf fin e1 e2 := by
      intro ty n role e2 hty hne' hset hdata heff
      obtain ⟨hl2, hrole2⟩ := heff.told_other (roleOf_classify hsome) hset hdata hne
      exact .foreign ⟨ty, n, hty, .inl (by rw [hbidi]; exact hne')⟩ hl2 hrole2 hset hdata
    simp only
    split
    next hty => exact .forgetIf (by rw [signalLength, hty]; rfl) hpending
    next ty n hty =>
      split_ifs with hcontrol hdup hqpack hdup hend hwt
      · exact .protocolError _ _
      · have hclass : Effect r e1 (e1.classify r .peerControl) :=
          .classify e1 hrole1 halive1 (.inr ⟨.inl rfl, by simpa using hdup⟩)
        have hl2 := hclass.layout hl1
        refine hother hty (by rw [hcontrol]; decide) (by simp) rfl (recvControl_effects ⟨?_, ?_, ?_⟩ _ _)
        · exact roleOf_classify hsome
        · exact hl2.idle
        · exact hl2.connectRole
      · exact .protocolError _ _
      · exact .ended (protocolError_closed _ _ _) (toldOf_protocolError (e1.classify r _) _ _ r)
      · exact hother hty (by rcases hqpack with rfl | rfl <;> decide) (by simp) rfl .refl
      · have hty : H3.readVarint buf = some (signalType (isBidi r), n) := by
          rw [hty, hbidi, hwt]
          rfl
        split
        next hsession => exact .forgetIf (signalLength_short hty hsession) hpending
        next session m hsession =>
          split_ifs with hforeign
          · exact .discard ⟨_, n, hty, .inr ⟨session, m, hsession, hforeign⟩⟩ hsome
          · obtain rfl := not_not.mp hforeign
            have hrole := surfaceStream_roleOf hsome hne false buf (n + m) fin
            rw [← hbidi] at hrole ⊢
            exact .surfaceStream (signalLength_full hty hsession) (surfaceStream_told _ _ _ _) hrole
      · exact hother hty hwt (by simp) rfl .refl

/-- The chunk behind which a pending stream settles is the last that was read. -/
theorem Settled.conveyed {buf : Bytes} {fin : Bool} (h : Settled r buf fin e e') (heff : Effects r e e')
    (hown : e'.owns r = false) (hl : e.toldOf r = []) (hgot : (e.conn.streams r).recv.got = buf)
    (hended : (e.conn.streams r).recv.ended = fin)
    (hfinal : fin = true → (e.conn.streams r).recv.finOff = some (e.conn.streams r).recv.got.length)
    (hx : fin = true → (e.conn.streams r).Exhausted) (hcounted : (e.conn.streams r).recv.Counted) :
    e'.Conveyed r := by
  have hlater := heff.later r
  have hgot' := hlater.got.trans hgot
  refine ⟨hlater.counted hcounted, ?_, fun hopen => ?_⟩
  · rw [hown]
    cases h with
    | ended _ hsame | waits _ _ hsame | forgotten _ _ hsame | foreign _ hsame =>
        exact .silent (hsame.trans hl)
    | surfaced hstart hsurfaced =>
        refine .told (.later ?_ hlater)
        rw [hsurfaced, hl, ← hgot]
        exact .begin (hgot.symm ▸ hstart) hended hfinal
  · rw [hown]
    cases h with
    | ended hclosed => simp [hclosed] at hopen
    | waits _ hno hsame hheld =>
        rw [hheld]
        exact .pending rfl (hsame.trans hl) hgot'.symm (hgot'.symm ▸ hno)
    | forgotten hfin hno hsame hconn hheld =>
        rw [hheld]
        exact .spent (hconn.symm ▸ hx hfin) (.inr ⟨hsame.trans hl, hgot'.symm ▸ hno⟩)
    | foreign hforeign hsame hrole hset hdata =>
        obtain ⟨held, hheld⟩ := held_of_role hrole
        rw [hheld]
        exact .other hset hdata (.inr ⟨hsame.trans hl, hgot'.symm ▸ hforeign⟩)
    | surfaced hstart hsurfaced hrole =>
        obtain ⟨held, hheld⟩ := held_of_role hrole
        rw [hheld]
        refine .data (.later ?_ hlater)
        rw [hsurfaced, hl, ← hgot]
        exact .begin (hgot.symm ▸ hstart) hended hfinal

/-- One chunk of a stream other than the CONNECT stream. -/
theorem processRecv_conveyed (hl : e.Layout) (he : e.closed = false) (hne : r ≠ connectId)
    (halive : e.Pending r → e.Alive r) {s : Quic.QStream} {st : Stream} (hst : e.streams.get r = some st)
    {chunk : Bytes} {fin : Bool} (hbefore : Extends chunk fin s.recv (e.conn.streams r).recv)
    (htranscript : Transcript (e.owns r) r s.recv (e.toldOf r))
    (hstance : Stance (e.owns r) r s (e.toldOf r) (some (heldAs st)))
    (hcounted : (e.conn.streams r).recv.Counted) (hx : fin = true → (e.conn.streams r).Exhausted)
    (hread : fin = true → (e.conn.streams r).FinRead) :
    (e.processRecv r chunk fin).Conveyed r := by
  have heff := processRecv_effects (hl.readable he) halive chunk hx hread
  have hlater := heff.later r
  have howns : (e.processRecv r chunk fin).owns r = e.owns r := by unfold owns; rw [Effects.cfg heff]
  have hrole : e.roleOf r = some st.role := by simp [Endpoint.roleOf, hst]
  have hheld : e.heldOf r = some (heldAs st) := congrArg (Option.map heldAs) hst
  rw [← hheld] at hstance
  generalize hheldOf : e.heldOf r = held at hstance
  cases hstance with
  | unseen | spent | gone => simp [hheld] at hheldOf
  | pending hown hsilent hbuf hno =>
      subst hbuf
      have hsettled : Settled r (s.recv.got ++ chunk) fin e (e.processRecv r chunk fin) := by
        have hrole := role_of_held hheldOf
        cases hbidi : isBidi r with
        | true =>
            rw [hbidi] at hheldOf hrole
            have heq : e.processRecv r chunk fin = e.resolvePendingBidi r chunk fin := by
              unfold processRecv
              rw [show (e.streams.get r).map Stream.role = some .pendingBidi from hrole]
            rw [heq]
            exact resolvePendingBidi_settled hne hbidi hheldOf chunk fin
        | false =>
            rw [hbidi] at hheldOf hrole
            have heq : e.processRecv r chunk fin = e.resolvePendingUni r chunk fin := by
              unfold processRecv
              rw [show (e.streams.get r).map Stream.role = some .pendingUni from hrole]
            rw [heq]
            exact resolvePendingUni_settled hl (halive (.inl hrole)) hne hbidi hheldOf chunk fin
      exact hsettled.conveyed heff (howns.trans hown) hsilent hbefore.got hbefore.ended hbefore.final hx
        hcounted
  | data htold =>
      have hdata := role_of_held hheldOf
      have heq : e.processRecv r chunk fin = e.recvData r chunk fin := by
        unfold processRecv
        rw [show (e.streams.get r).map Stream.role = some (.wtData (isBidi r)) from hdata]
      have hmore := recvData_told (e := e) (r := r) chunk fin
      have hrole' := heff.roleOf hdata (by simp) fun hr => absurd hr hne
      obtain ⟨buf', hheld'⟩ := held_of_role hrole'
      rw [← heq] at hmore
      refine ⟨hlater.counted hcounted, ?_, fun hopen => ?_⟩
      · rw [howns]
        rcases hmore with ⟨-, hsame⟩ | hmore
        · rw [hsame]
          exact (htranscript.stale chunk hbefore.before hbefore.got).later hlater
        · rw [hmore]
          exact .told ((htold.extend hbefore).later hlater)
      · rw [howns, hheld']
        rcases hmore with ⟨hclosed, -⟩ | hmore
        · simp [hclosed] at hopen
        · rw [hmore]
          exact .data ((htold.extend hbefore).later hlater)
  | other hset hdata hsilent =>
      obtain ⟨hsame, hrole'⟩ := heff.told_other (role_of_held hheldOf) hset hdata hne
      obtain ⟨buf', hheld'⟩ := held_of_role hrole'
      refine ⟨hlater.counted hcounted, ?_, fun _ => ?_⟩
      · rw [howns, hsame]
        exact (htranscript.stale chunk hbefore.before hbefore.got).later hlater
      · rw [howns, hheld', hsame]
        refine .other hset hdata (hsilent.imp_right fun hs => ⟨hs.1, ?_⟩)
        rw [hlater.got, hbefore.got]
        exact hs.2.append chunk

omit [H3.Codec] in
theorem toldOf_surfaceReset {bidi : Bool} (hrole : e.roleOf r = some (.wtData bidi)) (code : Nat) :
    (e.surfaceReset r code).toldOf r = e.toldOf r ++ [.streamReset r (resetCode code)] := by
  unfold surfaceReset
  rw [show (e.streams.get r).map Stream.role = some (.wtData bidi) from hrole]
  refine (toldOf_append (l := [_]) rfl r).trans ?_
  simp [Ev.tellsOf, resetCode]
  rfl

omit [H3.Codec] in
/-- A RESET of a data stream is told, or the session ends. -/
theorem recvReset_told {bidi : Bool} (hrole : e.roleOf r = some (.wtData bidi)) (code : Nat)
    (finalSize : Option Nat) :
    (e.recvReset r code finalSize).closed = true ∧ (e.recvReset r code finalSize).toldOf r = e.toldOf r ∨
      (e.recvReset r code finalSize).toldOf r = e.toldOf r ++ [.streamReset r (resetCode code)] := by
  unfold recvReset
  split
  next size st hst =>
    split
    · have hacc := toldOf_accountReceive e r (size - st.recvPrefix - st.recvPayload) r
      split
      next e1 heq =>
        rw [heq] at hacc
        exact .inl ⟨accountReceive_closed heq, hacc⟩
      next e1 heq =>
        obtain rfl := accountReceive_ok heq
        exact .inr (toldOf_surfaceReset ((roleOf_chargeStream _ _ _ _).trans hrole) code)
    · exact .inr (toldOf_surfaceReset hrole code)
  · exact .inr (toldOf_surfaceReset hrole code)

omit [H3.Codec] in
/-- A RESET of a pending stream ends it. -/
theorem recvReset_pending {st : Stream} (hst : e.streams.get r = some st)
    (hrole : st.role = .pendingUni ∨ st.role = .pendingBidi) (code : Nat) (finalSize : Option Nat) :
    e.recvReset r code finalSize = e.setRecvDead r := by
  have hdata : st.role.isWtData = false := by rcases hrole with h | h <;> rw [h] <;> rfl
  have hsurface : e.surfaceReset r code = e.setRecvDead r := by
    unfold surfaceReset
    rw [hst, Option.map_some]
    rcases hrole with h | h <;> rw [h]
  unfold recvReset
  cases finalSize with
  | none => exact hsurface
  | some size =>
      simp only [hst, hdata, Bool.false_eq_true, if_false]
      exact hsurface

/-- A RESET of a stream other than the CONNECT stream. -/
theorem recvReset_conveyed (he : e.closed = false) (hne : r ≠ connectId) {s : Quic.QStream} {st : Stream}
    (hst : e.streams.get r = some st) (hbefore : s.recv.ended = false)
    (hgot : (e.conn.streams r).recv.got = s.recv.got) {code : Nat}
    (herr : (e.conn.streams r).recv.error = some code) (hended : (e.conn.streams r).recv.ended = true)
    (htranscript : Transcript (e.owns r) r s.recv (e.toldOf r))
    (hstance : Stance (e.owns r) r s (e.toldOf r) (some (heldAs st)))
    (hcounted : (e.conn.streams r).recv.Counted) (hx : (e.conn.streams r).Exhausted)
    (hread : (e.conn.streams r).ResetRead) (finalSize : Option Nat) :
    (e.recvReset r code finalSize).Conveyed r := by
  have heff := recvReset_effects he hx hread code finalSize
  have hlater := heff.later r
  have hgot' := hlater.got.trans hgot
  have howns : (e.recvReset r code finalSize).owns r = e.owns r := by unfold owns; rw [Effects.cfg heff]
  have hheld : e.heldOf r = some (heldAs st) := congrArg (Option.map heldAs) hst
  have hstale : Transcript (e.owns r) r ((e.recvReset r code finalSize).conn.streams r).recv (e.toldOf r) :=
    htranscript.stale [] hbefore (by rw [hgot', List.append_nil])
  rw [← hheld] at hstance
  generalize hheldOf : e.heldOf r = held at hstance
  cases hstance with
  | unseen | spent | gone => simp [hheld] at hheldOf
  | @pending buf hown hsilent hbuf hno =>
      have heq : heldAs st = (if isBidi r then .pendingBidi else .pendingUni, buf) :=
        Option.some.inj (hheld.symm.trans hheldOf)
      have hrole : st.role = .pendingUni ∨ st.role = .pendingBidi := by
        have h : st.role = if isBidi r then .pendingBidi else .pendingUni := congrArg Prod.fst heq
        cases hbidi : isBidi r with
        | true => exact .inr (by simpa [hbidi] using h)
        | false => exact .inl (by simpa [hbidi] using h)
      have hdead := recvReset_pending hst hrole code finalSize
      have hsame : (e.recvReset r code finalSize).toldOf r = e.toldOf r := by
        rw [hdead]
        rfl
      refine ⟨hlater.counted hcounted, ?_, fun _ => ?_⟩
      · rw [howns, hsame]
        exact hstale
      · have hheld' : (e.recvReset r code finalSize).heldOf r = e.heldOf r := by
          rw [hdead]
          exact Unread.heldOf_modify e (f := fun st => { st with recvDead := true }) rfl (fun _ => rfl) r
        rw [howns, hsame, hheld', hheldOf]
        exact .pending hown hsilent (hbuf.trans hgot'.symm) (hgot'.symm ▸ hno)
  | data htold =>
      have hdata := role_of_held hheldOf
      have hmore := recvReset_told hdata code finalSize
      have hrole' := heff.roleOf hdata (by simp) fun hr => absurd hr hne
      obtain ⟨buf', hheld'⟩ := held_of_role hrole'
      refine ⟨hlater.counted hcounted, ?_, fun hopen => ?_⟩
      · rw [howns]
        rcases hmore with ⟨-, hsame⟩ | hmore
        · rw [hsame]
          exact hstale
        · rw [hmore]
          exact .told ((htold.aborted hbefore hgot hended herr).later hlater)
      · rw [howns, hheld']
        rcases hmore with ⟨hclosed, -⟩ | hmore
        · simp [hclosed] at hopen
        · rw [hmore]
          exact .data ((htold.aborted hbefore hgot hended herr).later hlater)
  | other hset hdata hsilent =>
      obtain ⟨hsame, hrole'⟩ := heff.told_other (role_of_held hheldOf) hset hdata hne
      obtain ⟨buf', hheld'⟩ := held_of_role hrole'
      refine ⟨hlater.counted hcounted, ?_, fun _ => ?_⟩
      · rw [howns, hsame]
        exact hstale
      · rw [howns, hheld', hsame]
        exact .other hset hdata (hsilent.imp_right fun hs => ⟨hs.1, hgot'.symm ▸ hs.2⟩)

/-- One pass of `on_readable`. -/
theorem readStep_conveyed (hl : e.Layout) (he : e.closed = false) (h : ∀ i, i ≠ connectId → e.Conveyed i)
    (id : Nat) (backpressured : Bool) {i : Nat} (hi : i ≠ connectId) :
    (readStep id backpressured e).1.Conveyed i := by
  have halive := hl.alive_of_readable he id
  have hspec := Quic.Connection.streamRecv_spec e.conn id
  have hlayout : ∀ cap, Layout { e with conn := (e.conn.streamRecv id cap).2 } := fun cap =>
    hl.same (.conn e (hspec cap).isServer (hspec cap).wellFormed (hspec cap).phase
      fun hwf _ => (hspec cap).exhausted hwf)
  obtain ⟨hcounted, htranscript, hstance⟩ := h i hi
  have helse : ∀ {cap : Nat} {e' : Endpoint},
      Effects id { e with conn := (e.conn.streamRecv id cap).2 } e' → i ≠ id → e'.Conveyed i := by
    intro cap e' heff hne
    have hconn : e'.conn.streams i = e.conn.streams i := (heff.conn_ne hne).trans ((hspec cap).ne hne)
    have howns : e'.owns i = e.owns i := by unfold owns; rw [Effects.cfg heff]
    have htold : e'.toldOf i = e.toldOf i := heff.told_ne hne
    refine ⟨hconn.symm ▸ hcounted, ?_, fun hopen => ?_⟩
    · rw [howns, hconn, htold]
      exact htranscript
    · have hheld : e'.heldOf i = e.heldOf i :=
        congrArg (Option.map heldAs) (heff.elsewhere (hlayout cap) hopen hne hi)
      rw [howns, hconn, htold, hheld]
      exact hstance he
  unfold readStep
  cases hst : e.streams.get id with
  | none => exact ⟨hcounted, htranscript, hstance⟩
  | some st =>
      simp only
      split
      · exact ⟨hcounted, htranscript, hstance⟩
      · specialize hspec (readLen st backpressured)
        have hl0 := hlayout (readLen st backpressured)
        have helse := @helse (readLen st backpressured)
        have hheld : e.heldOf id = some (heldAs st) := congrArg (Option.map heldAs) hst
        cases hrecv : e.conn.streamRecv id (readLen st backpressured) with
        | mk res c =>
            rw [hrecv] at hspec hl0 helse
            cases res with
            | ok res =>
                obtain ⟨chunk, fin⟩ := res
                obtain ⟨hended, hgot, hfin⟩ := recv_heard hspec hl.wellFormed
                have hx : fin = true → (c.streams id).Exhausted := fun hf =>
                  Quic.Connection.Recv.exhausted_of_fin (hf ▸ hspec) hl.wellFormed
                have hread : fin = true → (c.streams id).FinRead := fun hf =>
                  Quic.Connection.Recv.finRead (hf ▸ hspec)
                have hreadable : Readable { e with conn := c } := hl0.readable he
                by_cases heq : i = id
                · subst heq
                  refine processRecv_conveyed (e := { e with conn := c }) (s := e.conn.streams i) hl0 he hi
                    (halive hspec.readable) hst ⟨hended, hgot, hfin, fun hf => ?_⟩ htranscript
                    (hheld ▸ hstance he) (hspec.counted hcounted) hx hread
                  exact (hf ▸ hspec).final hl.wellFormed hcounted
                · exact helse (processRecv_effects hreadable (halive hspec.readable) chunk hx hread) heq
            | error err =>
                cases err with
                | streamReset code =>
                    obtain ⟨hended, hgot⟩ := recv_reset hspec hl.wellFormed
                    have hx : (c.streams id).Exhausted := hspec.exhausted_of_reset hl.wellFormed
                    obtain ⟨herr, hspent⟩ := hspec.reset_error
                    by_cases heq : i = id
                    · subst heq
                      exact recvReset_conveyed (e := { e with conn := c }) (s := e.conn.streams i) he hi hst
                        hended hgot herr hspent htranscript (hheld ▸ hstance he) (hspec.counted hcounted) hx
                        hspec.resetRead _
                    · exact helse (recvReset_effects (e := { e with conn := c }) he hx hspec.resetRead
                        code _) heq
                | _ =>
                    obtain rfl := recv_nothing hspec (by simp)
                    exact ⟨hcounted, htranscript, hstance⟩

end

/-! ## Runs -/

section

variable {e : Endpoint}

omit [H3.Codec] in
/-- Of a stream of our own that nothing was read of, nothing was told. -/
theorem Transcript.eq_nil {i : Nat} {l : List Ev} (h : Transcript true i {} l) : l = [] := by
  have hempty : ∀ {chunks : List Bytes}, [] ∉ chunks → chunks.flatten = [] → chunks = [] := by
    intro chunks hne hflat
    cases chunks with
    | nil => rfl
    | cons chunk chunks =>
        have hchunk : chunk = [] := (List.append_eq_nil_iff.mp hflat).1
        exact absurd (hchunk ▸ List.mem_cons_self) hne
  cases h with
  | silent hl => exact hl
  | told htold =>
      obtain ⟨start, chunks, last, -, hne, hflat, hlast, rfl⟩ := htold
      obtain rfl := hempty hne (hflat.trans List.drop_nil)
      obtain rfl := hlast.eq_nil rfl
      rfl
  | cut _ hne hspelled hl =>
      rw [List.drop_nil, List.prefix_nil] at hspelled
      obtain rfl := hempty hne hspelled
      exact hl

omit [H3.Codec] in
theorem classifyNew_local {isServer : Bool} {id : Nat} (h : isLocal id isServer = true) :
    classifyNew id isServer = .ignored := by
  unfold isLocal at h
  cases isServer with
  | true =>
      have h4 : id % 4 ≠ 0 ∧ id % 4 ≠ 2 := by
        simp at h
        omega
      simp [classifyNew, h4]
  | false =>
      have h4 : id % 4 ≠ 3 ∧ id % 4 ≠ 1 := by
        simp at h
        omega
      simp [classifyNew, h4]

omit [H3.Codec] in
theorem classifyNew_peer {isServer : Bool} {id : Nat} (h : isLocal id isServer = false)
    (hne : id ≠ connectId) :
    classifyNew id isServer = if isBidi id then .pendingBidi else .pendingUni := by
  unfold isLocal at h
  unfold isBidi
  cases isServer with
  | true =>
      have h4 : id % 4 = 0 ∨ id % 4 = 2 := by
        simp at h
        omega
      rcases h4 with h4 | h4
      · have h2 : id / 2 % 2 = 0 := by omega
        simp [classifyNew, h4, hne, h2]
      · have h2 : id / 2 % 2 = 1 := by omega
        simp [classifyNew, h4, h2]
  | false =>
      have h4 : id % 4 = 3 ∨ id % 4 = 1 := by
        simp at h
        omega
      rcases h4 with h4 | h4
      · have h2 : id / 2 % 2 = 1 := by omega
        simp [classifyNew, h4, h2]
      · have h2 : id / 2 % 2 = 0 := by omega
        simp [classifyNew, h4, h2]

/-- What holds of a session throughout a run. -/
structure Candid (e : Endpoint) : Prop where
  layout : e.Layout
  conveyed : ∀ i, i ≠ connectId → e.Conveyed i

omit [H3.Codec] in
theorem Conveyed.unread {e' : Endpoint} {i : Nat} (h : e.Conveyed i) (hl : e.Layout) (hu : Unread e e')
    (htold : e'.toldOf i = e.toldOf i) (hclosed : e'.closed = e.closed)
    (hx : (e.conn.streams i).Exhausted → (e'.conn.streams i).Exhausted) (hi : i ≠ connectId) :
    e'.Conveyed i := by
  have howns : e'.owns i = e.owns i := by unfold owns; rw [hu.cfg]
  refine ⟨(hu.later i).counted h.counted, ?_, fun hopen => ?_⟩
  · rw [howns, htold]
    exact h.transcript.later (hu.later i)
  · have hstance := h.stance (hclosed ▸ hopen)
    rcases hu.held i hi with hsame | ⟨hlocal, hcontrol | ⟨habs, bidi, hbidi, hdata⟩⟩
    · rw [howns, htold, hsame]
      exact hstance.later (hu.later i) hx
    · rw [howns, hcontrol]
      exact .other (by simp) rfl (.inl hlocal)
    · have hown : e.owns i = true := hlocal
      have hrecv := (hl.wellFormed i).absent habs
      have hnil : e.toldOf i = [] := by
        have htranscript := h.transcript
        rw [hown, hrecv] at htranscript
        exact htranscript.eq_nil
      rw [howns, htold, hdata, hown, hnil, ← hbidi]
      have hlater := hu.later i
      rw [hrecv] at hlater
      exact .data (.later ⟨0, [], [], rfl, by simp, rfl, .unfinished rfl, rfl⟩ hlater)

omit [H3.Codec] in
theorem Candid.touch (h : e.Candid) (he : e.closed = false) {id : Nat}
    (hr : e.conn.readable id = true) : (e.touch id).Candid := by
  refine ⟨h.layout.touch he hr, fun i hi => ?_⟩
  unfold Endpoint.touch
  split
  · exact h.conveyed i hi
  next hnew =>
    obtain ⟨hcounted, htranscript, hstance⟩ := h.conveyed i hi
    refine ⟨hcounted, htranscript, fun _ => ?_⟩
    by_cases heq : i = id
    · subst heq
      have hnone : e.heldOf i = none := by
        have hget : e.streams.get i = none := by simpa [Table.contains] using hnew
        rw [heldOf, hget]
        rfl
      have hheld : (e.insertStream i (.new (classifyNew i e.cfg.isServer) e.parserMemory)).heldOf i =
          some (classifyNew i e.cfg.isServer, []) :=
        congrArg (Option.map heldAs) (Table.get_insert_self e.streams i _)
      have hstance := hstance he
      rw [hnone] at hstance
      show Stance (e.owns i) i (e.conn.streams i) (e.toldOf i) (heldOf _ i)
      rw [hheld]
      cases hown : e.owns i with
      | true =>
          rw [classifyNew_local hown]
          exact .other (by simp) rfl (.inl rfl)
      | false =>
          rw [classifyNew_peer hown hi]
          cases hstance with
          | unseen hnil hl => exact .pending rfl hl hnil.symm (hnil.symm ▸ rfl)
          | spent hx => simp [Quic.Connection.not_readable_of_exhausted (h.layout.wellFormed i) hx] at hr
          | gone htrue => simp [hown] at htrue
    · have hheld : (e.insertStream id (.new (classifyNew id e.cfg.isServer) e.parserMemory)).heldOf i =
          e.heldOf i := congrArg (Option.map heldAs) (Table.get_insert_ne heq)
      rw [hheld]
      exact hstance he

omit [H3.Codec] in
/-- What is dropped was read to its end, unless it is our own. -/
theorem Candid.prune (h : e.Candid) : e.prune.Candid := by
  refine ⟨h.layout.prune, fun i hi => ?_⟩
  obtain ⟨hcounted, htranscript, hstance⟩ := h.conveyed i hi
  refine ⟨hcounted, htranscript, fun hopen => ?_⟩
  have hopen : e.closed = false := hopen
  have hstance := hstance hopen
  show Stance (e.owns i) i (e.conn.streams i) (e.toldOf i) (e.prune.heldOf i)
  cases hst : e.streams.get i with
  | none =>
      have hheld : e.prune.heldOf i = e.heldOf i := by simp [heldOf, Endpoint.prune, hst]
      rw [hheld]
      exact hstance
  | some st =>
      cases hkeep : retains e.cfg.isServer i st with
      | true =>
          have hheld : e.prune.heldOf i = e.heldOf i := by
            simp [heldOf, Endpoint.prune, hst, Option.filter, hkeep]
          rw [hheld]
          exact hstance
      | false =>
          have hheld : e.prune.heldOf i = none := by
            simp [heldOf, Endpoint.prune, hst, Option.filter, hkeep]
          rw [hheld]
          cases hown : e.owns i with
          | true => exact .gone rfl
          | false =>
              have hdead := recvDead_of_dropped hown hkeep
              have hx := (h.layout.ended i st hown hst hdead).resolve_left (by simp [hopen])
              rw [hown] at hstance
              refine .spent hx ?_
              have hsome : e.heldOf i = some (heldAs st) := congrArg (Option.map heldAs) hst
              generalize e.heldOf i = held at hstance hsome
              cases hstance with
              | unseen | spent | gone => cases hsome
              | pending _ hl _ hno => exact .inr ⟨hl, hno⟩
              | data htold => exact .inl htold
              | other _ _ hsilent =>
                  obtain ⟨hl, hforeign⟩ := hsilent.resolve_left (by simp)
                  exact .inr ⟨hl, hforeign.no_signal⟩

theorem Candid.step (h : e.Candid) {s : Step} (hs : e.StepAdmissible s) : (e.step s).Candid := by
  have hl' := h.layout.step hs
  cases hhears : Step.hears s with
  | false =>
      obtain ⟨hu, htold⟩ := step_unread h.layout hhears
      have hun := step_unheard h.layout hhears
      exact ⟨hl', fun i hi => (h.conveyed i hi).unread h.layout hu (htold i)
        (step_kept h.layout hhears).1 (hun.exhausted h.layout.wellFormed i) hi⟩
  | true =>
      cases s with
      | touch id => exact h.touch hs.1 hs.2
      | prune => exact h.prune
      | markClosed code reason remote =>
          refine ⟨hl', fun i hi => ?_⟩
          obtain ⟨hcounted, htranscript, -⟩ := h.conveyed i hi
          show (e.markClosed code reason remote).Conveyed i
          have howns : (e.markClosed code reason remote).owns i = e.owns i := by
            unfold owns
            rw [markClosed_cfg]
          refine ⟨by rwa [markClosed_conn], ?_, fun hopen => ?_⟩
          · rw [howns, markClosed_conn, toldOf_markClosed]
            exact htranscript
          · simp [markClosed_closed] at hopen
      | read id backpressured =>
          exact ⟨hl', fun i hi => readStep_conveyed h.layout hs h.conveyed id backpressured hi⟩
      | _ => cases hhears

omit [H3.Codec] in
theorem Start.candid (h : Start e) : e.Candid := by
  have hempty : e.streams = .empty ∧ e.ev = [] ∧ ∀ i, e.conn.streams i = {} := by
    cases h with
    | client _ _ _ _ _ _ _ hfresh => exact ⟨rfl, rfl, hfresh.2.1⟩
    | server _ _ _ _ _ _ _ hfresh => exact ⟨rfl, rfl, hfresh.2.1⟩
  obtain ⟨hstreams, hev, hconn⟩ := hempty
  refine ⟨h.layout, fun i _ => ?_⟩
  have htold : e.toldOf i = [] := by rw [toldOf, hev]; rfl
  have hheld : e.heldOf i = none := by rw [heldOf, hstreams]; rfl
  refine ⟨?_, .silent htold, fun _ => ?_⟩
  · rw [hconn]
    exact fun _ _ => rfl
  · rw [hheld, htold, hconn]
    exact .unseen rfl rfl

/-- The events of a stream are what was read of it. -/
structure Truthful (e : Endpoint) (i : Nat) : Prop where
  transcript : Transcript (e.owns i) i (e.conn.streams i).recv (e.toldOf i)
  /-- An open session holds nothing back of a stream of the peer whose signal was read. -/
  prompt : e.closed = false → e.owns i = false → ∀ start,
    signalLength (isBidi i) (e.conn.streams i).recv.got = some start →
      ToldAll false i (e.conn.streams i).recv (e.toldOf i)
  /-- Nor of any data stream that it still has. -/
  current : e.closed = false → ∀ bidi, e.roleOf i = some (.wtData bidi) →
    ToldAll (e.owns i) i (e.conn.streams i).recv (e.toldOf i)

omit [H3.Codec] in
theorem Conveyed.truthful {i : Nat} (h : e.Conveyed i) : e.Truthful i := by
  refine ⟨h.transcript, fun hopen hown start hstart => ?_, fun hopen bidi hrole => ?_⟩
  · have hstance := h.stance hopen
    rw [hown] at hstance
    exact hstance.told hstart
  · have hstance := h.stance hopen
    obtain ⟨buf, hheld⟩ := held_of_role hrole
    generalize e.heldOf i = held at hstance hheld
    cases hstance with
    | unseen | spent | gone => cases hheld
    | pending => cases hbidi : isBidi i <;> simp [hbidi] at hheld
    | data htold => exact htold
    | other _ hdata =>
        cases hheld
        cases hdata

end

end

/-- A stream of the peer whose signal arrives in two parts. -/
def toldRun : List Call :=
  serverHandshake ++ [.network (.data 4 ((streamSignal true).take 1)), .onReadable 4 false,
    .network (.data 4 ((streamSignal true).drop 1 ++ [1, 2])), .onReadable 4 false,
    .network (.fin 4), .onReadable 4 false]

theorem toldRun_admissible :
    letI := H3.Codec.plain
    Along Endpoint.call Admissible sampleServer toldRun := by
  decide +kernel

end Endpoint

end RWebTransport
