import Mathlib.Logic.Relation
import RWebTransport.QuicInvariant
import RWebTransport.Session.Run

/-!
# What reading can do

The small effects that reading a stream consists of, each with the guard the
source has tested, and what one of them does to the entry of a stream.  An
invariant of a session needs one case for each effect.
-/

namespace RWebTransport

/-- The entries of the history that a parser writes, but for the HEADERS frames
of the CONNECT stream. -/
def Trace.isInput : Trace → Bool
  | .controlFrame _ | .capsule _ _ | .connectFin _ _ => true
  | .connectFrame ty _ => ty != H3.frameHeaders
  | _ => false

namespace Endpoint

open Relation (ReflTransGen)

/-- The role of a stream that has an entry. -/
def roleOf (e : Endpoint) (id : Nat) : Option Role := (e.streams.get id).map Stream.role

/-- A pending stream. -/
def Pending (e : Endpoint) (id : Nat) : Prop :=
  e.roleOf id = some .pendingUni ∨ e.roleOf id = some .pendingBidi

/-- The session still reads the stream. -/
def Alive (e : Endpoint) (id : Nat) : Prop := ∀ st, e.streams.get id = some st → st.recvDead = false

/-- Queues the answer to a CONNECT request. -/
def respond (e : Endpoint) (id : Nat) (frame : Bytes) (fin : Bool) : Endpoint :=
  e.modifyStream id fun st => { st.push frame none with finQueued := fin || st.finQueued }

/-- Takes the first HEADERS frame off a CONNECT stream. -/
def takeHeaders (e : Endpoint) (id : Nat) (block : Bytes) : Endpoint :=
  (e.log (.connectFrame H3.frameHeaders block)).setHeadersDone id

/-- Reports errors. -/
def emitErrors (e : Endpoint) (messages : List String) : Endpoint :=
  { e with ev := e.ev ++ messages.map Ev.error }

/-- A rejection, with its response if that could be encoded. -/
def refuse (e : Endpoint) (id : Nat) (frame : Option Bytes) (messages : List String)
    (status : Nat) : Endpoint :=
  ((((match frame with
    | some frame => e.respond id frame true
    | none => e) : Endpoint).emitErrors messages).log (.rejected status)).markClosed 0 [] false

/-- The session ends in order: a CLOSE_WEBTRANSPORT_SESSION capsule was taken, or
the end of the CONNECT stream was read with no frame or capsule unfinished. -/
def EndsInOrder (r : Nat) (e : Endpoint) : Prop :=
  (∃ value, e.history.getLast? = some (.capsule H3.wtCloseSessionCapsule value)) ∨
    e.roleOf r = some .connect ∧ (e.conn.streams r).FinRead ∧
      e.history.getLast? = some (.connectFin 0 0)

/-- A stream whose end is the end of the session. -/
def Critical (e : Endpoint) (id : Nat) : Prop :=
  e.roleOf id = some .peerControl ∨ (∃ encoder, e.roleOf id = some (.peerQpack encoder)) ∨
    e.roleOf id = some .connect

variable [H3.Codec]

/-- A response the client accepts. -/
structure Grants (cfg : Config) (block : Bytes) (protocol : Option String)
    (headers : List (String × String)) : Prop where
  decoded : ∃ fields, H3.decodeHeaderBlock block = .ok fields ∧
    (∃ status, H3.statusOf fields = some status ∧ 200 ≤ status ∧ status < 300) ∧
    protocol = H3.wtProtocolOf fields ∧ headers = H3.responseHeaders fields
  offered : ∀ p ∈ protocol, p ∈ cfg.protocols

/-- A header block that does not make a waiting client ready. -/
def Ungranted (e : Endpoint) (block : Bytes) : Prop :=
  e.cfg.isServer = false → e.ready = false → ∀ protocol headers, ¬Grants e.cfg block protocol headers

theorem Ungranted.of_server {e : Endpoint} (h : e.cfg.isServer = true) {block : Bytes} :
    e.Ungranted block := fun hc => by simp [h] at hc

theorem Ungranted.of_undecoded {e : Endpoint} {block : Bytes} {err : String}
    (h : H3.decodeHeaderBlock block = .error err) : e.Ungranted block := by
  rintro - - protocol headers ⟨⟨fields, hfields, -⟩, -⟩
  simp [h] at hfields

/-- A request the server accepts, if it can encode the response. -/
structure Admits (cfg : Config) (block : Bytes) (selected : Option String) (q : ServerRequest) :
    Prop where
  decoded : ∃ fields, H3.decodeHeaderBlock block = .ok fields ∧
    (ConnectRequest.ofHeaders fields).method = some (H3.ascii "CONNECT") ∧
    (ConnectRequest.ofHeaders fields).protocol = some (H3.ascii "webtransport") ∧
    selected = (cfg.supportedProtocols.find? fun p =>
      (ConnectRequest.ofHeaders fields).requested.contains p) ∧
    q = (ConnectRequest.ofHeaders fields).details cfg selected
  origin : ∀ allowed, cfg.allowedOrigins = some allowed → ∃ o ∈ q.origin, o ∈ allowed

/-- One effect of reading the stream `r`. -/
inductive Effect (r : Nat) : Endpoint → Endpoint → Prop
  | heap (e : Endpoint) (h : Heap) : Effect r e { e with heap := h }
  | log (e : Endpoint) {t : Trace} : t.isInput = true → Effect r e (e.log t)
  | frames (e : Endpoint) {id : Nat} (f : FrameParser) : id = r ∨ id = connectId →
      Effect r e (e.modifyStream id fun st => { st with frames := f })
  | classBuf (e : Endpoint) (b : ParserBuffer) : e.Pending r →
      Effect r e (e.modifyStream r fun st => { st with classBuf := b })
  | capsuleBuf (e : Endpoint) (b : ParserBuffer) : Effect r e { e with capsuleBuf := b }
  | controlDone (e : Endpoint) : e.roleOf r = some .peerControl → Effect r e (e.setHeadersDone r)
  | terminal (e : Endpoint) (t : Nat × String) : e.closed = true →
      Effect r e { e with terminalError := some t }
  | closeConn (e : Endpoint) (code : Nat) (reason : Bytes) : e.closed = true →
      Effect r e (e.closeConn code reason)
  | fail (e : Endpoint) (message : String) (code : Nat) (reason : Bytes) (remote : Bool) :
      e.closed = false → Effect r e ((e.emit (.error message)).markClosed code reason remote)
  | finish (e : Endpoint) (code : Nat) (reason : Bytes) (remote : Bool) : e.closed = false →
      EndsInOrder r e → Effect r e (e.markClosed code reason remote)
  | kill (e : Endpoint) : e.closed = true → e.frameError r = true → Effect r e (e.killRecv r)
  | killFail (e : Endpoint) (message : String) (code : Nat) (reason : Bytes) (remote : Bool) :
      e.closed = false → e.frameError r = true →
      Effect r e (((e.killRecv r).emit (.error message)).markClosed code reason remote)
  | credit (e : Endpoint) {ty v limit : Nat} : e.closed = false → e.creditLimit ty = some limit →
      limit < v → v < 2 ^ 62 → Effect r e (e.setCreditLimit ty v)
  | draining (e : Endpoint) : e.drainEmitted = false → e.closed = false →
      Effect r e (({ e with drainEmitted := true } : Endpoint).emit .draining)
  | settings (e : Endpoint) {s : H3.PeerSettings} : e.closed = false →
      e.roleOf r = some .peerControl → e.headersDone r = false → s.Bounded →
      Effect r e ((e.setHeadersDone r).seedLimits s)
  | connectRefused (e : Endpoint) : Effect r e { e with connectPending := false }
  | connect (e : Endpoint) {s : H3.PeerSettings} (frame : Bytes) : e.closed = false →
      e.connectPending = true → e.peerSettings = some s → s.webtransportOk = true →
      Effect r e ((({ e with connectPending := false } : Endpoint).log .connectQueued).insertStream
        connectId (.withPrefix .connect frame e.parserMemory))
  | unrequested (e : Endpoint) {s : H3.PeerSettings} {err : String} : e.closed = false →
      e.connectPending = true → e.peerSettings = some s → s.webtransportOk = true →
      H3.encodeHeadersFrame (H3.connectHeaders e.cfg.authority e.cfg.path e.cfg.origin
        e.cfg.extraHeaders e.cfg.protocols) = .error err →
      Effect r e (({ e with connectPending := false } : Endpoint).emit
        (.error s!"failed to encode CONNECT: {err}"))
  | headers (e : Endpoint) {id : Nat} (block : Bytes) : e.roleOf id = some .connect →
      e.headersDone id = false → e.Ungranted block → Effect r e (e.takeHeaders id block)
  | moreHeaders (e : Endpoint) {id : Nat} (block : Bytes) : e.roleOf id = some .connect →
      e.headersDone id = true → Effect r e (e.log (.connectFrame H3.frameHeaders block))
  | undecoded (e : Endpoint) {id : Nat} {block : Bytes} {err : String} : e.cfg.isServer = false →
      e.closed = false → e.roleOf id = some .connect → e.headersDone id = false →
      H3.decodeHeaderBlock block = .error err →
      Effect r e ((e.takeHeaders id block).emit (.error s!"failed to decode CONNECT response: {err}"))
  | ready (e : Endpoint) {id : Nat} {block : Bytes} {protocol : Option String}
      {headers : List (String × String)} : e.cfg.isServer = false → e.closed = false →
      e.ready = false → e.roleOf id = some .connect → e.headersDone id = false →
      Grants e.cfg block protocol headers →
      Effect r e ((e.takeHeaders id block).becomeReady.emit (.ready protocol headers))
  | accept (e : Endpoint) {id : Nat} {s : H3.PeerSettings} {block : Bytes} {selected : Option String}
      {q : ServerRequest} (frame : Bytes) :
      e.cfg.isServer = true → e.closed = false → e.roleOf id = some .connect →
      e.headersDone id = false → e.peerSettings = some s → s.admitsConnect = true →
      Admits e.cfg block selected q →
      Effect r e (((e.takeHeaders id block).respond id frame false).becomeReady.emit (.serverReady q))
  | unanswered (e : Endpoint) {id : Nat} {block : Bytes} {selected : Option String}
      {q : ServerRequest} {err : String} : e.cfg.isServer = true → e.closed = false →
      e.roleOf id = some .connect → e.headersDone id = false → Admits e.cfg block selected q →
      H3.encodeHeadersFrame (acceptHeaders e.cfg selected) = .error err →
      Effect r e ((e.takeHeaders id block).emit (.error s!"failed to encode CONNECT response: {err}"))
  | reject (e : Endpoint) {id : Nat} {block : Bytes} (frame : Option Bytes) {messages : List String}
      (status : Nat) : e.cfg.isServer = true → e.closed = false → e.roleOf id = some .connect →
      e.headersDone id = false → (e.ready = false → messages ≠ []) →
      Effect r e ((e.takeHeaders id block).refuse id frame messages status)
  | refuse (e : Endpoint) {id : Nat} {s : H3.PeerSettings} (frame : Option Bytes)
      {messages : List String} (status : Nat) :
      e.cfg.isServer = true → e.closed = false → e.roleOf id = some .connect →
      e.peerSettings = some s → s.admitsConnect = false → (e.ready = false → messages ≠ []) →
      Effect r e (e.refuse id frame messages status)
  | classify (e : Endpoint) {role : Role} : e.roleOf r = some .pendingUni → e.Alive r →
      (role = .ignored ∨ (role = .peerControl ∨ ∃ encoder, role = .peerQpack encoder) ∧
        e.duplicateRole r role = false) → Effect r e (e.classify r role)
  | discard (e : Endpoint) : e.Pending r → Effect r e ((e.shutdownRead r 0).classify r .ignored)
  | resolve (e : Endpoint) {bidi : Bool} (header : Nat) :
      e.roleOf r = some (if bidi then .pendingBidi else .pendingUni) →
      Effect r e ((e.classify r (.wtData bidi)).modifyStream r fun st =>
        { st with recvPrefix := header })
  | count (e : Endpoint) (bidi : Bool) : Effect r e (e.countStream bidi)
  | charge (e : Endpoint) {bidi : Bool} (amount : Nat) :
      e.roleOf r = some (.wtData bidi) → Effect r e (e.chargeStream r amount)
  | incoming (e : Endpoint) {bidi : Bool} : e.roleOf r = some (.wtData bidi) → e.closed = false →
      Quic.isLocal r e.cfg.isServer = false → Effect r e (e.emit (.incomingStream r bidi))
  | data (e : Endpoint) {bidi : Bool} (chunk : Bytes) :
      e.roleOf r = some (.wtData bidi) → e.closed = false → Effect r e (e.emit (.streamData r chunk))
  | finished (e : Endpoint) {bidi : Bool} : e.roleOf r = some (.wtData bidi) → e.closed = false →
      (e.conn.streams r).Exhausted → Effect r e ((e.setRecvDead r).emit (.streamFinished r))
  | reset (e : Endpoint) {bidi : Bool} (code : Nat) : e.roleOf r = some (.wtData bidi) →
      e.closed = false → (e.conn.streams r).Exhausted →
      Effect r e ((e.setRecvDead r).emit (.streamReset r code))
  | recvDead (e : Endpoint) : e.closed = true ∨ ¬e.Critical r → (e.conn.streams r).Exhausted →
      Effect r e (e.setRecvDead r)
  | resetFail (e : Endpoint) (message : String) (code : Nat) (reason : Bytes) (remote : Bool) :
      e.closed = false → e.Critical r →
      Effect r e (((e.setRecvDead r).emit (.error message)).markClosed code reason remote)
  | resetClose (e : Endpoint) (code : Nat) (reason : Bytes) (remote : Bool) : e.closed = false →
      e.roleOf r = some .connect → e.ready = true → (e.conn.streams r).ResetRead →
      Effect r e ((e.setRecvDead r).markClosed code reason remote)
  | forget (e : Endpoint) : e.Pending r → Effect r e (e.removeStream r)

/-- A sequence of effects. -/
abbrev Effects (r : Nat) : Endpoint → Endpoint → Prop := ReflTransGen (Effect r)

section

variable {r : Nat} {e e' : Endpoint}

/-- What every effect preserves. -/
theorem Effects.invariant {I : Endpoint → Prop} (hI : ∀ e e', Effect r e e' → I e → I e')
    (h : Effects r e e') (he : I e) : I e' := by
  induction h with
  | refl => exact he
  | tail _ hstep ih => exact hI _ _ hstep ih

/-- A reflexive and transitive relation that contains every effect. -/
theorem Effects.rel {R : Endpoint → Endpoint → Prop} (hrefl : ∀ e, R e e)
    (htrans : ∀ {a b c}, R a b → R b c → R a c) (hR : ∀ e e', Effect r e e' → R e e')
    (h : Effects r e e') : R e e' := by
  induction h with
  | refl => exact hrefl _
  | tail _ hstep ih => exact htrans ih (hR _ _ hstep)

/-! ## What an effect does to an entry -/

/-- The changes an effect makes to the entry of a stream. -/
inductive EntryEffect : Stream → Stream → Prop
  | same (st : Stream) : EntryEffect st st
  | parse (st : Stream) (frames : FrameParser) (classBuf : ParserBuffer) (headersDone : Bool) :
      (st.headersDone = true → headersDone = true) →
      EntryEffect st { st with frames := frames, classBuf := classBuf, headersDone := headersDone }
  | dead (st : Stream) (headersDone : Bool) : (st.headersDone = true → headersDone = true) →
      EntryEffect st { st.dead with headersDone := headersDone }
  | recvDead (st : Stream) : EntryEffect st { st with recvDead := true }
  | respond (st : Stream) (frame : Bytes) (fin headersDone : Bool) : st.role = .connect →
      (st.headersDone = true → headersDone = true) →
      EntryEffect st { st.push frame none with
        finQueued := fin || st.finQueued, headersDone := headersDone }
  | refuse (st : Stream) (frame : Bytes) (headersDone : Bool) : st.role = .connect →
      (st.headersDone = true → headersDone = true) →
      EntryEffect st { (st.push frame none).dead with
        finQueued := true, headersDone := headersDone }
  | classify (st : Stream) (role : Role) : st.role = .pendingUni ∨ st.role = .pendingBidi →
      role ≠ .pendingUni ∧ role ≠ .pendingBidi ∧ role ≠ .connect ∧ role ≠ .localControlPlane →
      role.isWtData = false →
      EntryEffect st { st with role := role, classBuf := .new st.classBuf.memory }
  | resolve (st : Stream) (bidi : Bool) (header : Nat) :
      st.role = (if bidi then .pendingBidi else .pendingUni) →
      EntryEffect st { st with
        role := .wtData bidi, classBuf := .new st.classBuf.memory, recvPrefix := header }
  | charge (st : Stream) (amount : Nat) : st.role.isWtData = true →
      EntryEffect st { st with recvPayload := st.recvPayload + amount }

omit [H3.Codec] in
theorem entry_modify {t : Table Stream} {id i : Nat} {f : Stream → Stream} {st' : Stream}
    (hg : (t.modify id f).get i = some st') (hf : ∀ st, t.get id = some st → EntryEffect st (f st)) :
    ∃ st, t.get i = some st ∧ EntryEffect st st' := by
  rw [Table.get_modify] at hg
  split at hg
  next hi =>
    subst hi
    cases hst : t.get i with
    | none => simp [hst] at hg
    | some st =>
        simp only [hst, Option.map_some, Option.some.injEq] at hg
        exact ⟨st, rfl, hg ▸ hf st hst⟩
  · exact ⟨st', hg, .same st'⟩

omit [H3.Codec] in
theorem entry_map {t : Table Stream} {i : Nat} {f : Stream → Stream} {st' : Stream}
    (hg : (t.map f).get i = some st') (hf : ∀ st, EntryEffect st (f st)) :
    ∃ st, t.get i = some st ∧ EntryEffect st st' := by
  rw [Table.get_map] at hg
  cases hst : t.get i with
  | none => simp [hst] at hg
  | some st =>
      simp only [hst, Option.map_some, Option.some.injEq] at hg
      exact ⟨st, rfl, hg ▸ hf st⟩

omit [H3.Codec] in
theorem entry_close {t : Table Stream} {id i : Nat} {f : Stream → Stream} {st' : Stream}
    (hg : ((t.modify id f).map Stream.dead).get i = some st') (hf : ∀ st, (f st).dead = st.dead) :
    ∃ st, t.get i = some st ∧ EntryEffect st st' := by
  rw [Table.get_map, Table.get_modify] at hg
  cases hst : t.get i with
  | none => simp [hst] at hg
  | some st =>
      refine ⟨st, rfl, ?_⟩
      simp only [hst, Option.map_some] at hg
      split at hg
      · rw [← Option.some.inj hg, hf]
        exact .dead st _ fun h => h
      · rw [← Option.some.inj hg]
        exact .dead st _ fun h => h

omit [H3.Codec] in
theorem role_of_roleOf {e : Endpoint} {id : Nat} {st : Stream} {role : Role}
    (hst : e.streams.get id = some st) (hrole : e.roleOf id = some role) : st.role = role := by
  simpa [roleOf, hst] using hrole

omit [H3.Codec] in
theorem markClosed_streams {e : Endpoint} (h : e.closed = false) (code : Nat) (reason : Bytes)
    (remote : Bool) : (e.markClosed code reason remote).streams = e.streams.map Stream.dead := by
  simp [markClosed, h]

omit [H3.Codec] in
theorem setCreditLimit_streams (e : Endpoint) (ty v : Nat) :
    (e.setCreditLimit ty v).streams = e.streams := by
  unfold setCreditLimit
  split_ifs <;> rfl

/-- The new entry of the client's CONNECT stream. -/
def IsConnect (e : Endpoint) (i : Nat) (st : Stream) : Prop :=
  i = connectId ∧ e.closed = false ∧ e.connectPending = true ∧ e.peerSettings.isSome = true ∧
    ∃ frame, st = .withPrefix .connect frame e.parserMemory

omit [H3.Codec] in
/-- The entries behind a rejection: a response may be queued, and all are dead. -/
theorem refuse_get {e : Endpoint} (hc : e.closed = false) (id : Nat) (frame : Option Bytes)
    (messages : List String) (status i : Nat) :
    (e.refuse id frame messages status).streams.get i = (e.streams.get i).map fun st =>
      (match frame with
        | some frame => if i = id then { st.push frame none with finQueued := true } else st
        | none => st : Stream).dead := by
  cases frame with
  | none => rw [refuse, markClosed_streams (by exact hc), Table.get_map]; rfl
  | some frame =>
      rw [refuse, markClosed_streams (by exact hc), Table.get_map]
      simp only [log, emitErrors, respond, modifyStream, Table.get_modify]
      split <;> cases e.streams.get i <;> rfl

omit [H3.Codec] in
theorem takeHeaders_get (e : Endpoint) (id : Nat) (block : Bytes) (i : Nat) :
    (e.takeHeaders id block).streams.get i = (e.streams.get i).map fun st =>
      if i = id then { st with headersDone := true } else st := by
  simp only [takeHeaders, log, setHeadersDone, modifyStream, Table.get_modify]
  split <;> cases e.streams.get i <;> rfl

omit [H3.Codec] in
theorem takeHeaders_roleOf (e : Endpoint) (id : Nat) (block : Bytes) (i : Nat) :
    (e.takeHeaders id block).roleOf i = e.roleOf i := by
  simp only [roleOf, takeHeaders_get]
  cases e.streams.get i with
  | none => rfl
  | some st =>
      simp only [Option.map_some]
      split <;> rfl

/-- Every entry behind an effect comes from an entry in front of it, or is the
client's new CONNECT stream. -/
theorem Effect.entry (h : Effect r e e') {i : Nat} {st' : Stream}
    (hg : e'.streams.get i = some st') :
    (∃ st, e.streams.get i = some st ∧ EntryEffect st st') ∨ e.IsConnect i st' := by
  have htake : ∀ {id : Nat} {block : Bytes}, (e.takeHeaders id block).streams.get i = some st' →
      ∃ st, e.streams.get i = some st ∧ EntryEffect st st' := by
    intro id block hg
    simp only [takeHeaders_get, Option.map_eq_some_iff] at hg
    obtain ⟨st, hst, rfl⟩ := hg
    refine ⟨st, hst, ?_⟩
    split
    · exact .parse st _ _ _ fun _ => rfl
    · exact .same st
  cases h with
  | frames f => exact .inl (entry_modify hg fun st _ => .parse st _ _ _ fun h => h)
  | classBuf b => exact .inl (entry_modify hg fun st _ => .parse st _ _ _ fun h => h)
  | controlDone => exact .inl (entry_modify hg fun st _ => .parse st _ _ _ fun _ => rfl)
  | fail message code reason remote hc =>
      rw [markClosed_streams (by exact hc)] at hg
      exact .inl (entry_map hg fun st => .dead st _ fun h => h)
  | finish code reason remote hc =>
      rw [markClosed_streams hc] at hg
      exact .inl (entry_map hg fun st => .dead st _ fun h => h)
  | kill => exact .inl (entry_modify hg fun st _ => .dead st _ fun h => h)
  | killFail message code reason remote hc =>
      rw [markClosed_streams (by exact hc)] at hg
      exact .inl (entry_close hg fun _ => rfl)
  | credit =>
      rw [setCreditLimit_streams] at hg
      exact .inl ⟨st', hg, .same st'⟩
  | settings => exact .inl (entry_modify hg fun st _ => .parse st _ _ _ fun _ => rfl)
  | connect frame hc hp hs =>
      simp only [insertStream, Table.get_insert] at hg
      split at hg
      next hi => exact .inr ⟨hi, hc, hp, by simp [hs], frame, (Option.some.inj hg).symm⟩
      · exact .inl ⟨st', hg, .same st'⟩
  | headers => exact .inl (htake hg)
  | undecoded => exact .inl (htake hg)
  | ready => exact .inl (htake hg)
  | unanswered => exact .inl (htake hg)
  | @accept id s block selected q frame hsrv hc hrole =>
      -- the answer is queued on a stream marked as parsed
      have hget : ((e.takeHeaders id block).streams.modify id fun st =>
          { st.push frame none with finQueued := false || st.finQueued }).get i = some st' := hg
      rw [Table.get_modify, takeHeaders_get] at hget
      cases hst : e.streams.get i with
      | none => simp [hst] at hget
      | some st =>
          refine .inl ⟨st, rfl, ?_⟩
          by_cases hi : i = id
          · subst hi
            simp only [hst, if_true, Option.map_some, Option.some.injEq] at hget
            rw [← hget]
            exact .respond st frame false true (role_of_roleOf hst hrole) fun _ => rfl
          · simp only [hst, hi, if_false, Option.map_some, Option.some.injEq] at hget
            exact hget ▸ .same st
  | @reject id block frame messages status hsrv hc hrole =>
      rw [refuse_get (by exact hc), takeHeaders_get] at hg
      cases hst : e.streams.get i with
      | none => simp [hst] at hg
      | some st =>
          refine .inl ⟨st, rfl, ?_⟩
          simp only [hst, Option.map_some, Option.some.injEq] at hg
          rw [← hg]
          by_cases hi : i = id
          · subst hi
            cases frame with
            | none =>
                simp only [if_true]
                exact .dead st true fun _ => rfl
            | some frame =>
                simp only [if_true]
                exact .refuse st frame true (role_of_roleOf hst hrole) fun _ => rfl
          · cases frame with
            | none =>
                simp only [hi, if_false]
                exact .dead st _ fun h => h
            | some frame =>
                simp only [hi, if_false]
                exact .dead st _ fun h => h
  | @refuse id s frame messages status hsrv hc hrole =>
      rw [refuse_get hc] at hg
      cases hst : e.streams.get i with
      | none => simp [hst] at hg
      | some st =>
          refine .inl ⟨st, rfl, ?_⟩
          simp only [hst, Option.map_some, Option.some.injEq] at hg
          rw [← hg]
          by_cases hi : i = id
          · subst hi
            cases frame with
            | none => exact .dead st _ fun h => h
            | some frame =>
                simp only [if_true]
                exact .refuse st frame _ (role_of_roleOf hst hrole) fun h => h
          · cases frame with
            | none => exact .dead st _ fun h => h
            | some frame =>
                simp only [hi, if_false]
                exact .dead st _ fun h => h
  | classify hrole halive hnew =>
      refine .inl (entry_modify hg fun st hst => .classify st _ (.inl (role_of_roleOf hst hrole)) ?_ ?_)
      all_goals rcases hnew with rfl | ⟨rfl | ⟨encoder, rfl⟩, -⟩ <;> simp [Role.isWtData]
  | discard hp =>
      refine .inl (entry_modify hg fun st hst => .classify st _ ?_ (by simp) rfl)
      exact hp.imp (role_of_roleOf hst) (role_of_roleOf hst)
  | @resolve bidi header hrole =>
      simp only [modifyStream, Endpoint.classify, Table.get_modify] at hg
      split at hg
      next hi =>
        subst hi
        cases hst : e.streams.get i with
        | none => simp [hst] at hg
        | some st =>
            simp only [hst, Option.map_some, Option.some.injEq] at hg
            refine .inl ⟨st, rfl, ?_⟩
            rw [← hg]
            exact .resolve st bidi header (role_of_roleOf hst hrole)
      · exact .inl ⟨st', hg, .same st'⟩
  | charge amount hrole =>
      exact .inl (entry_modify hg fun st hst =>
        .charge st amount (by rw [role_of_roleOf hst hrole]; rfl))
  | finished => exact .inl (entry_modify hg fun st _ => .recvDead st)
  | reset => exact .inl (entry_modify hg fun st _ => .recvDead st)
  | recvDead => exact .inl (entry_modify hg fun st _ => .recvDead st)
  | resetFail message code reason remote hc =>
      rw [markClosed_streams (by exact hc)] at hg
      exact .inl (entry_close hg fun _ => rfl)
  | resetClose code reason remote hc =>
      rw [markClosed_streams (e := e.setRecvDead r) hc] at hg
      exact .inl (entry_close hg fun _ => rfl)
  | forget hp =>
      simp only [removeStream, Table.get_erase] at hg
      split at hg
      · cases hg
      · exact .inl ⟨st', hg, .same st'⟩
  | _ => exact .inl ⟨st', hg, .same st'⟩

/-! ## What effects leave alone -/

omit [H3.Codec] in
theorem markClosed_cfg (e : Endpoint) (code : Nat) (reason : Bytes) (remote : Bool) :
    (e.markClosed code reason remote).cfg = e.cfg := by
  unfold markClosed
  split <;> rfl

omit [H3.Codec] in
theorem markClosed_conn (e : Endpoint) (code : Nat) (reason : Bytes) (remote : Bool) :
    (e.markClosed code reason remote).conn = e.conn := by
  unfold markClosed
  split <;> rfl

omit [H3.Codec] in
theorem markClosed_closed (e : Endpoint) (code : Nat) (reason : Bytes) (remote : Bool) :
    (e.markClosed code reason remote).closed = true := by
  unfold markClosed
  split
  next h => exact h
  · rfl

omit [H3.Codec] in
theorem markClosed_flags (e : Endpoint) (code : Nat) (reason : Bytes) (remote : Bool) :
    (e.markClosed code reason remote).ready = e.ready ∧
      (e.markClosed code reason remote).setupSent = e.setupSent ∧
      (e.markClosed code reason remote).connectPending = e.connectPending ∧
      (e.markClosed code reason remote).peerSettings = e.peerSettings ∧
      (e.markClosed code reason remote).history = e.history := by
  unfold markClosed
  split <;> exact ⟨rfl, rfl, rfl, rfl, rfl⟩

omit [H3.Codec] in
/-- The first call emits `Closed`. -/
theorem markClosed_ev {e : Endpoint} (h : e.closed = false) (code : Nat) (reason : Bytes)
    (remote : Bool) : (e.markClosed code reason remote).ev = e.ev ++ [.closed code reason remote] := by
  simp [markClosed, h]

/-- The session in front of the last step of a rejection. -/
def refusing (e : Endpoint) (id : Nat) (frame : Option Bytes) (messages : List String)
    (status : Nat) : Endpoint :=
  (((match frame with
    | some frame => e.respond id frame true
    | none => e) : Endpoint).emitErrors messages).log (.rejected status)

omit [H3.Codec] in
theorem refuse_eq (e : Endpoint) (id : Nat) (frame : Option Bytes) (messages : List String)
    (status : Nat) :
    e.refuse id frame messages status = (e.refusing id frame messages status).markClosed 0 [] false :=
  rfl

omit [H3.Codec] in
/-- A response changes nothing but an entry. -/
theorem refusing_session (e : Endpoint) (id : Nat) (frame : Option Bytes) (messages : List String)
    (status : Nat) : (e.refusing id frame messages status).cfg = e.cfg ∧
      (e.refusing id frame messages status).conn = e.conn ∧
      (e.refusing id frame messages status).closed = e.closed ∧
      (e.refusing id frame messages status).ready = e.ready ∧
      (e.refusing id frame messages status).setupSent = e.setupSent ∧
      (e.refusing id frame messages status).connectPending = e.connectPending ∧
      (e.refusing id frame messages status).peerSettings = e.peerSettings ∧
      (e.refusing id frame messages status).ev = e.ev ++ messages.map Ev.error ∧
      (e.refusing id frame messages status).history = e.history ++ [.rejected status] := by
  cases frame <;> exact ⟨rfl, rfl, rfl, rfl, rfl, rfl, rfl, rfl, rfl⟩

/-- What a session is constructed with does not change. -/
theorem Effect.cfg (h : Effect r e e') : e'.cfg = e.cfg := by
  cases h with
  | fail | finish | killFail | resetFail | resetClose => exact markClosed_cfg _ _ _ _
  | reject | refuse =>
      exact (markClosed_cfg _ _ _ _).trans (refusing_session _ _ _ _ _).1
  | credit => unfold setCreditLimit; split_ifs <;> rfl
  | _ => rfl

theorem Effects.cfg (h : Effects r e e') : e'.cfg = e.cfg :=
  h.rel (R := fun e e' => e'.cfg = e.cfg) (fun _ => rfl) (fun hab hbc => hbc.trans hab)
    fun _ _ => Effect.cfg

/-- An entry is dropped only while it is pending. -/
theorem Effect.get_isSome (h : Effect r e e') {i : Nat} {role : Role}
    (hrole : e.roleOf i = some role) (hset : role ≠ .pendingUni ∧ role ≠ .pendingBidi) :
    (e'.streams.get i).isSome = true := by
  have hsome : (e.streams.get i).isSome = true := by
    cases hg : e.streams.get i with
    | none => simp [Endpoint.roleOf, hg] at hrole
    | some st => rfl
  have hmod : ∀ (t : Table Stream) (id : Nat) (f : Stream → Stream),
      (t.get i).isSome = true → ((t.modify id f).get i).isSome = true := by
    intro t id f ht
    rw [Table.get_modify]
    split <;> simpa using ht
  have htake : ∀ (id : Nat) (block : Bytes),
      ((e.takeHeaders id block).streams.get i).isSome = true := by
    intro id block
    simpa [takeHeaders_get] using hsome
  cases h with
  | frames | classBuf | controlDone | kill | settings | classify | discard | charge |
      finished | reset | recvDead => exact hmod _ _ _ hsome
  | headers | undecoded | ready | unanswered => exact htake _ _
  | fail message code reason remote hc =>
      rw [markClosed_streams (by exact hc), Table.get_map, Option.isSome_map]
      exact hsome
  | finish code reason remote hc => rw [markClosed_streams hc]; simpa using hsome
  | killFail message code reason remote hc =>
      rw [markClosed_streams (by exact hc), Table.get_map, Option.isSome_map]
      exact hmod _ _ _ hsome
  | resetFail message code reason remote hc =>
      rw [markClosed_streams (by exact hc), Table.get_map, Option.isSome_map]
      exact hmod _ _ _ hsome
  | resetClose code reason remote hc =>
      rw [markClosed_streams (e := e.setRecvDead r) hc, Table.get_map, Option.isSome_map]
      exact hmod _ _ _ hsome
  | credit => rw [setCreditLimit_streams]; exact hsome
  | connect frame =>
      simp only [insertStream, Table.get_insert]
      split
      · rfl
      · exact hsome
  | accept => exact hmod _ _ _ (htake _ _)
  | reject frame status hsrv hc =>
      rw [refuse_get (by exact hc), Option.isSome_map]
      exact htake _ _
  | refuse frame status hsrv hc =>
      rw [refuse_get hc, Option.isSome_map]
      exact hsome
  | resolve => exact hmod _ _ _ (hmod _ _ _ hsome)
  | forget hp =>
      have hne : i ≠ r := by
        rintro rfl
        rcases hp with hp | hp <;> rw [hp] at hrole <;> simp_all
      simpa [removeStream, Table.get_erase, hne] using hsome
  | _ => exact hsome

omit [H3.Codec] in
theorem EntryEffect.role {st st' : Stream} (h : EntryEffect st st')
    (hset : st.role ≠ .pendingUni ∧ st.role ≠ .pendingBidi) : st'.role = st.role := by
  cases h with
  | classify role hp => exact absurd hp (by simp [hset])
  | resolve bidi header hp =>
      split at hp
      · exact absurd hp hset.2
      · exact absurd hp hset.1
  | _ => rfl

/-- A role that is settled stays, but for what the client's CONNECT replaces. -/
theorem Effect.roleOf (h : Effect r e e') {i : Nat} {role : Role}
    (hrole : e.roleOf i = some role) (hset : role ≠ .pendingUni ∧ role ≠ .pendingBidi)
    (hconnect : i = connectId → role = .connect) : e'.roleOf i = some role := by
  obtain ⟨st', hg'⟩ := Option.isSome_iff_exists.mp (h.get_isSome hrole hset)
  rcases h.entry hg' with ⟨st, hg, hst⟩ | ⟨hi, -, -, -, frame, rfl⟩
  · have hr := role_of_roleOf hg hrole
    simp [Endpoint.roleOf, hg', hst.role (hr ▸ hset), hr]
  · simp [Endpoint.roleOf, hg', hconnect hi, Stream.withPrefix, Stream.new]

theorem Effects.roleOf (h : Effects r e e') {i : Nat} {role : Role}
    (hrole : e.roleOf i = some role) (hset : role ≠ .pendingUni ∧ role ≠ .pendingBidi)
    (hconnect : i = connectId → role = .connect) : e'.roleOf i = some role :=
  h.invariant (fun _ _ hs hr => hs.roleOf hr hset hconnect) hrole

/-- On a server the deferred CONNECT of a client plays no role. -/
def ServerIdle (e : Endpoint) : Prop := e.cfg.isServer = true → e.connectPending = false

/-- The CONNECT stream of a server has its role from the start. -/
def ConnectRole (e : Endpoint) : Prop :=
  ∀ st, e.streams.get connectId = some st → st.role = .connect

theorem Effect.serverIdle (h : Effect r e e') (hidle : e.ServerIdle) : e'.ServerIdle := by
  have hpending : e'.connectPending = e.connectPending ∨ e'.connectPending = false := by
    cases h with
    | fail | finish | killFail | resetFail | resetClose =>
        exact .inl (markClosed_flags _ _ _ _).2.2.1
    | reject | refuse =>
        exact .inl ((markClosed_flags _ _ _ _).2.2.1.trans (refusing_session _ _ _ _ _).2.2.2.2.2.1)
    | credit => unfold setCreditLimit; split_ifs <;> exact .inl rfl
    | connectRefused | connect | unrequested => exact .inr rfl
    | _ => exact .inl rfl
  intro hserver
  rcases hpending with hp | hp
  · rw [hp]
    exact hidle (h.cfg ▸ hserver)
  · exact hp

theorem Effect.connectRole (h : Effect r e e') (hrole : e.ConnectRole) : e'.ConnectRole := by
  intro st' hg'
  rcases h.entry hg' with ⟨st, hg, hst⟩ | ⟨-, -, -, -, frame, rfl⟩
  · have hr := hrole st hg
    rw [hst.role (by simp [hr]), hr]
  · rfl

omit [H3.Codec] in
theorem not_critical {id : Nat} {role : Role} (hrole : e.roleOf id = some role)
    (h : role ≠ .peerControl ∧ (∀ encoder, role ≠ .peerQpack encoder) ∧ role ≠ .connect) :
    ¬e.Critical id := by
  rintro (hc | ⟨encoder, hc⟩ | hc)
  · exact h.1 (Option.some.inj (hrole.symm.trans hc))
  · exact h.2.1 encoder (Option.some.inj (hrole.symm.trans hc))
  · exact h.2.2 (Option.some.inj (hrole.symm.trans hc))

/-! ## What effects do to the connection and to the closed flag -/

theorem Effect.closed (h : Effect r e e') (hc : e.closed = true) : e'.closed = true := by
  cases h with
  | fail | finish | killFail | resetFail | resetClose | reject | refuse =>
      exact markClosed_closed _ _ _ _
  | credit => unfold setCreditLimit; split_ifs <;> exact hc
  | _ => exact hc

theorem Effects.closed (h : Effects r e e') (hc : e.closed = true) : e'.closed = true :=
  h.invariant (fun _ _ => Effect.closed) hc

/-- An effect changes a stream of the connection only by shutting it down. -/
theorem Effect.conn (h : Effect r e e') : e'.conn.streams = e.conn.streams ∨
    e'.conn.streams = (e.conn.streamShutdownRead r 0).streams ∧
      (e'.closed = true ∨ e.Pending r ∧ e'.roleOf r = some .ignored) := by
  cases h with
  | fail | finish | resetFail | resetClose => rw [markClosed_conn]; exact .inl rfl
  | reject | refuse =>
      rw [refuse_eq, markClosed_conn, (refusing_session _ _ _ _ _).2.1]
      exact .inl rfl
  | killFail => rw [markClosed_conn]; exact .inr ⟨rfl, .inl (markClosed_closed _ _ _ _)⟩
  | kill hc => exact .inr ⟨rfl, .inl hc⟩
  | closeConn => exact .inl (Quic.Connection.close_streams _ _ _ _)
  | credit => unfold setCreditLimit; split_ifs <;> exact .inl rfl
  | discard hp =>
      refine .inr ⟨rfl, .inr ⟨hp, ?_⟩⟩
      cases hg : e.streams.get r with
      | none => rcases hp with hp | hp <;> simp [Endpoint.roleOf, hg] at hp
      | some st => simp [Endpoint.roleOf, Endpoint.classify, shutdownRead, hg]
  | _ => exact .inl rfl

omit [H3.Codec] in
theorem EntryEffect.stays_dead {st st' : Stream} (h : EntryEffect st st') (hd : st.recvDead = true) :
    st'.recvDead = true := by
  cases h with
  | dead | recvDead | refuse => rfl
  | _ => exact hd

/-- No stream of a closed session is read; our own control plane never is. -/
def AllDead (e : Endpoint) : Prop :=
  e.closed = true → ∀ i st, e.streams.get i = some st → st.role ≠ .localControlPlane →
    st.recvDead = true

theorem Effect.allDead (h : Effect r e e') (hall : e.AllDead) : e'.AllDead := by
  have hmap : ∀ {t : Table Stream} {i : Nat} {st : Stream}, (t.map Stream.dead).get i = some st →
      st.recvDead = true := by
    intro t i st hg
    simp only [Table.get_map, Option.map_eq_some_iff] at hg
    obtain ⟨st0, -, rfl⟩ := hg
    rfl
  intro hc i st' hg hrole
  cases hclosed : e.closed with
  | true =>
      rcases h.entry hg with ⟨st, hst, heff⟩ | ⟨-, hopen, -⟩
      · refine heff.stays_dead (hall hclosed i st hst fun hl => hrole ?_)
        rw [heff.role (by simp [hl]), hl]
      · simp [hclosed] at hopen
  | false =>
      cases h with
      | finish code reason remote =>
          rw [markClosed_streams hclosed] at hg
          exact hmap hg
      | fail | killFail | resetFail | resetClose =>
          rw [markClosed_streams (by exact hclosed)] at hg
          exact hmap hg
      | reject | refuse =>
          rw [refuse_eq, markClosed_streams (by rw [(refusing_session _ _ _ _ _).2.2.1]; exact hclosed)]
            at hg
          exact hmap hg
      | kill hopen => simp [hclosed] at hopen
      | credit =>
          unfold setCreditLimit at hc
          split_ifs at hc <;> exact absurd (hclosed.symm.trans hc) (by simp)
      | _ => exact absurd (hclosed.symm.trans hc) (by simp)

theorem Effects.allDead (h : Effects r e e') (hall : e.AllDead) : e'.AllDead :=
  h.invariant (fun _ _ => Effect.allDead) hall

end

end Endpoint

end RWebTransport
