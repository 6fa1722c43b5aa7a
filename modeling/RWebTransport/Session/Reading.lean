import RWebTransport.Session.Effect

/-!
# Reading is a sequence of effects

`processRecv_effects` and its companions follow every path through the parsers
once and take it apart into effects.
-/

namespace RWebTransport.Endpoint

open Relation (ReflTransGen)

variable [H3.Codec] {r : Nat}

/-! ## Ending a session -/

theorem effects_heap (e : Endpoint) (h : Heap) : Effects r e { e with heap := h } :=
  .single (.heap e h)

theorem effects_error_close {e : Endpoint} (h : e.closed = false) (message : String) (code : Nat)
    (reason : Bytes) (remote : Bool) :
    Effects r e ((e.emit (.error message)).markClosed code reason remote) :=
  .single (.fail e message code reason remote h)

theorem parserLimitExceeded_effects (e : Endpoint) : Effects r e e.parserLimitExceeded := by
  unfold parserLimitExceeded
  split
  · exact .refl
  next h => exact effects_error_close (by simpa using h) _ _ _ _

theorem flowError_effects (e : Endpoint) (message : String) : Effects r e (e.flowError message) := by
  unfold flowError
  split
  · exact .refl
  next h =>
    have hc : e.closed = false := by simpa using h
    -- the latched error is set in front of the end, which does not look at it
    have heq : (({ e with terminalError := some (0x045d4487, message) } : Endpoint).emit
        (.error message)).markClosed 0 [] true =
        { (e.emit (.error message)).markClosed 0 [] true with
          terminalError := some (0x045d4487, message) } := by
      simp [markClosed, emit, hc]
    rw [heq]
    exact .tail (effects_error_close hc _ _ _ _) (.terminal _ _ (markClosed_closed _ _ _ _))

theorem protocolError_effects (e : Endpoint) (code : Nat) (message : String) :
    Effects r e (e.protocolError code message) := by
  unfold protocolError
  split
  · exact .refl
  next h =>
    exact .tail (effects_error_close (by simpa using h) _ _ _ _)
      (.closeConn _ _ _ (markClosed_closed _ _ _ _))

/-! ## Capsules -/

theorem handleCapsule_effects {e : Endpoint} (he : e.closed = false) {ty : Nat} {value : Bytes}
    (htaken : e.history.getLast? = some (.capsule ty value)) :
    Effects r e (e.handleCapsule ty value).1 := by
  unfold handleCapsule
  split_ifs with hclose hdrain hfc
  · exact .single (.finish e _ _ _ he (.inl ⟨value, hclose.1 ▸ htaken⟩))
  · simp only [Bool.not_eq_true'] at hdrain
    exact .single (.draining e hdrain.2.1 he)
  · split
    · exact flowError_effects _ _
    next v n hv =>
      split_ifs with hbad
      · exact flowError_effects _ _
      · split
        · exact .refl
        next limit hlimit =>
          split_ifs with hle
          · exact flowError_effects _ _
          · exact .single (.credit e he hlimit (by omega) (H3.readVarint_lt hv))
  · exact .refl

theorem capsuleStep_effects (e : Endpoint) : Effects r e (capsuleStep e).1 := by
  unfold capsuleStep
  split_ifs with hclosed
  · exact .refl
  · have he : e.closed = false := by simpa using hclosed
    split
    · exact .refl
    next ty n1 hty =>
      split
      · exact .refl
      next len n2 hlen =>
        simp only
        split_ifs with hbig hshort
        · exact effects_error_close he _ _ _ _
        · exact .refl
        · split
          next h hcopy => exact .trans (effects_heap e h) (parserLimitExceeded_effects _)
          next value h hcopy =>
            have hbuf := Effect.capsuleBuf (r := r) e (e.capsuleBuf.consume h (n1 + n2 + len)).1
            refine .head hbuf (.head (.heap _ (e.capsuleBuf.consume h (n1 + n2 + len)).2) ?_)
            refine .head (.log _ (t := .capsule ty value.data) rfl) ?_
            exact .tail (handleCapsule_effects (by exact he) List.getLast?_concat) (.heap _ _)

theorem scanCapsules_effects (e : Endpoint) (payload : Bytes) :
    Effects r e (e.scanCapsules payload) := by
  unfold scanCapsules
  split
  · exact .refl
  · split
    next h hx => exact .trans (effects_heap e h) (parserLimitExceeded_effects _)
    next buf h hx =>
      refine .head (.capsuleBuf e buf) (.head (.heap _ h) ?_)
      exact iterate_rel (I := fun _ => True) (fun _ => .refl) .trans
        (fun s _ => ⟨capsuleStep_effects s, trivial⟩) _ trivial

/-! ## Frames -/

theorem nextFrame_effects (e : Endpoint) {id : Nat} (hid : id = r ∨ id = connectId) :
    Effects r e (e.nextFrame id).2 := by
  unfold nextFrame
  split
  · exact .refl
  · exact .head (.frames e _ hid) (.single (.heap _ _))

theorem pushFrames_effects (e : Endpoint) (chunk : Bytes) :
    Effects r e (e.pushFrames r chunk) := by
  unfold pushFrames
  split
  · exact .refl
  · exact .head (.frames e _ (.inl rfl)) (.single (.heap _ _))

theorem dropBuffer_effects (e : Endpoint) (b : ParserBuffer) : Effects r e (e.dropBuffer b) :=
  effects_heap e _

/-! ## What a capsule leaves alone -/

omit [H3.Codec] in
theorem handleCapsule_peerSettings (e : Endpoint) (ty : Nat) (value : Bytes) :
    (e.handleCapsule ty value).1.peerSettings = e.peerSettings := by
  have hclose : ∀ (e : Endpoint) c r b, (e.markClosed c r b).peerSettings = e.peerSettings := by
    intro e c r b
    unfold markClosed
    split <;> rfl
  have hflow : ∀ (e : Endpoint) m, (e.flowError m).peerSettings = e.peerSettings := by
    intro e m
    unfold flowError
    split
    · rfl
    · exact hclose _ _ _ _
  unfold handleCapsule
  split_ifs
  · exact hclose _ _ _ _
  · rfl
  · split
    · exact hflow _ _
    · split_ifs
      · exact hflow _ _
      · split
        · rfl
        · split_ifs
          · exact hflow _ _
          · unfold setCreditLimit
            split_ifs <;> rfl
  · rfl

omit [H3.Codec] in
theorem parserLimitExceeded_peerSettings (e : Endpoint) :
    e.parserLimitExceeded.peerSettings = e.peerSettings := by
  unfold parserLimitExceeded markClosed
  split_ifs <;> rfl

omit [H3.Codec] in
theorem capsuleStep_peerSettings (e : Endpoint) :
    (capsuleStep e).1.peerSettings = e.peerSettings := by
  unfold capsuleStep
  split_ifs
  · rfl
  · split
    · rfl
    · split
      · rfl
      · simp only
        split_ifs
        · unfold markClosed
          split <;> rfl
        · rfl
        · split
          · exact parserLimitExceeded_peerSettings _
          · exact handleCapsule_peerSettings _ _ _

omit [H3.Codec] in
theorem scanCapsules_peerSettings (e : Endpoint) (payload : Bytes) :
    (e.scanCapsules payload).peerSettings = e.peerSettings := by
  unfold scanCapsules
  split
  · rfl
  · split
    · exact parserLimitExceeded_peerSettings _
    next buf h hx =>
      exact iterate_invariant (I := fun s => s.peerSettings = e.peerSettings)
        (fun s hs => (capsuleStep_peerSettings s).trans hs) _
        (s := { e with capsuleBuf := buf, heap := h }) rfl

/-! ## The CONNECT stream -/

omit [H3.Codec] in
theorem headersDone_of_nextFrame (e : Endpoint) (id i : Nat) :
    (e.nextFrame id).2.headersDone i = e.headersDone i := by
  unfold nextFrame
  cases hg : e.streams.get id with
  | none => rfl
  | some st =>
      simp only [headersDone, Table.get_modify]
      split
      · cases e.streams.get i <;> rfl
      · rfl

omit [H3.Codec] in
theorem nextFrame_session (e : Endpoint) (id : Nat) :
    (e.nextFrame id).2.cfg = e.cfg ∧ (e.nextFrame id).2.peerSettings = e.peerSettings ∧
      (e.nextFrame id).2.closed = e.closed ∧ (e.nextFrame id).2.ready = e.ready := by
  unfold nextFrame
  split <;> exact ⟨rfl, rfl, rfl, rfl⟩

/-- While the session is open, only a pending stream is shut down. -/
theorem Effects.conn_of_open {e e' : Endpoint} (h : Effects r e e') (hopen : e'.closed = false)
    {role : Role} (hrole : e.roleOf r = some role) (hset : role ≠ .pendingUni ∧ role ≠ .pendingBidi)
    (hconnect : r = connectId → role = .connect) : e'.conn.streams = e.conn.streams := by
  induction h with
  | refl => rfl
  | tail hpre hstep ih =>
      rename_i b c
      have hb : b.closed = false := by
        cases hb : b.closed with
        | false => rfl
        | true => exact absurd (hstep.closed hb) (by simp [hopen])
      rcases hstep.conn with hs | ⟨-, hs | ⟨hp, -⟩⟩
      · exact hs.trans (ih hb)
      · exact absurd hs (by simp [hopen])
      · have hb := Effects.roleOf hpre hrole hset hconnect
        rcases hp with hp | hp
        · exact absurd (Option.some.inj (hb.symm.trans hp)) hset.1
        · exact absurd (Option.some.inj (hb.symm.trans hp)) hset.2

/-- What the client makes of the response in a header block. -/
theorem connectResponse_effects {e : Endpoint} (hclient : e.cfg.isServer = false)
    (he : e.closed = false) (hrole : e.roleOf r = some .connect) (hdone : e.headersDone r = false)
    {block : Bytes} {headers : List H3.Header} (hdec : H3.decodeHeaderBlock block = .ok headers) :
    Effects r e ((e.takeHeaders r block).connectResponse headers) := by
  have htake (hno : e.Ungranted block) : Effects r e (e.takeHeaders r block) :=
    .single (.headers e block hrole hdone hno)
  have hfields : ∀ {protocol : Option String} {hs : List (String × String)},
      Grants e.cfg block protocol hs → protocol = H3.wtProtocolOf headers ∧
        ∃ status, H3.statusOf headers = some status ∧ 200 ≤ status ∧ status < 300 := by
    rintro protocol hs ⟨⟨fields, hf, hstatus, hprotocol, -⟩, -⟩
    obtain rfl : headers = fields := Except.ok.inj (hdec.symm.trans hf)
    exact ⟨hprotocol, hstatus⟩
  unfold connectResponse
  simp only
  split_ifs with hstatus hready hproto
  · exact htake fun _ hwait => absurd (hready.symm.trans hwait) (by simp)
  · refine (htake fun _ _ protocol hs hgrants => ?_).trans (protocolError_effects _ _ _)
    obtain ⟨p, hp, hnot⟩ := (Option.any_eq_true _ _).mp hproto
    have hoffered : p ∈ e.cfg.protocols := hgrants.offered p ((hfields hgrants).1.trans hp)
    simp [show (e.takeHeaders r block).cfg = e.cfg from rfl, hoffered] at hnot
  · have hready : e.ready = false := Bool.eq_false_iff.mpr hready
    refine .single (.ready e hclient he hready hrole hdone ⟨⟨headers, hdec, ?_, rfl, rfl⟩, ?_⟩)
    · cases hst : H3.statusOf headers with
      | none => simp [hst] at hstatus
      | some status => exact ⟨status, rfl, by simpa [hst] using hstatus⟩
    · intro p hp
      simp only [Bool.not_eq_true, Option.any_eq_false] at hproto
      have hin : p ∈ (e.takeHeaders r block).cfg.protocols := by simpa using hproto p hp
      exact hin
  · refine (htake fun _ _ protocol hs hgrants => ?_).trans
      (.tail (effects_error_close (by exact he) _ _ _ _)
        (.closeConn _ _ _ (markClosed_closed _ _ _ _)))
    obtain ⟨-, status, hst, hok⟩ := hfields hgrants
    exact hstatus (by simpa [hst] using hok)

/-- A frame of the CONNECT stream other than the first HEADERS frame. -/
theorem logFrame_effects {e : Endpoint} {id : Nat} (hrole : e.roleOf id = some .connect) {ty : Nat}
    (h : ¬(ty = H3.frameHeaders ∧ (!e.headersDone id) = true)) (payload : Bytes) :
    Effects r e (e.log (.connectFrame ty payload)) := by
  by_cases hty : ty = H3.frameHeaders
  · subst hty
    exact .single (.moreHeaders e payload hrole (by simpa using h))
  · exact .single (.log e (by simpa [Trace.isInput] using hty))

/-- What holds throughout the parsing of a client's CONNECT stream. -/
structure ClientConnect (id : Nat) (e : Endpoint) : Prop where
  isClient : e.cfg.isServer = false
  role : e.roleOf id = some .connect

theorem connectStep_effects {e : Endpoint} (h : ClientConnect r e) :
    Effects r e (connectStep r e).1 := by
  unfold connectStep
  split_ifs with hclosed
  · exact .refl
  · have he : e.closed = false := by simpa using hclosed
    have hnext := nextFrame_effects e (r := r) (.inl rfl)
    have hsession := nextFrame_session e r
    have hheadersDone := headersDone_of_nextFrame e r r
    split
    next e1 heq =>
      rw [heq] at hnext
      exact hnext
    next ty payload e1 heq =>
      rw [heq] at hnext hsession hheadersDone
      have hclient : e1.cfg.isServer = false := hsession.1 ▸ h.isClient
      have he1 : e1.closed = false := hsession.2.2.1.trans he
      have hrole : e1.roleOf r = some .connect := hnext.roleOf h.role (by simp) fun _ => rfl
      refine hnext.trans (.trans ?_ (dropBuffer_effects _ payload))
      simp only
      rw [← hheadersDone]
      split_ifs with hheaders hdata
      · have hdone : e1.headersDone r = false := by simpa using hheaders.2
        obtain ⟨rfl, -⟩ := hheaders
        split
        next headers hdec => exact connectResponse_effects hclient he1 hrole hdone hdec
        next err hdec => exact .single (.undecoded e1 hclient he1 hrole hdone hdec)
      · exact (logFrame_effects hrole hheaders _).trans (scanCapsules_effects _ _)
      · exact logFrame_effects hrole hheaders _

theorem ClientConnect.effects {e e' : Endpoint} {id : Nat} (h : ClientConnect id e)
    (heff : Effects r e e') : ClientConnect id e' :=
  ⟨heff.cfg ▸ h.isClient, heff.roleOf h.role (by simp) fun _ => rfl⟩

theorem parseConnectFrames_effects {e : Endpoint} (h : ClientConnect r e) :
    Effects r e (e.parseConnectFrames r) :=
  iterate_rel (I := ClientConnect r) (fun _ => .refl) .trans
    (fun _ hs => ⟨connectStep_effects hs, hs.effects (connectStep_effects hs)⟩) _ h

omit [H3.Codec] in
/-- The messages of a rejection: one, unless the session is ready. -/
theorem rejection_messages {e : Endpoint} (he : e.closed = false) (messages : List String)
    (message : String) :
    (if !(e.emitErrors messages).ready ∧ !(e.emitErrors messages).closed then
      (e.emitErrors messages).emit (.error message) else e.emitErrors messages) =
    e.emitErrors (messages ++ if e.ready then [] else [message]) := by
  have he' : (e.emitErrors messages).closed = false := he
  cases hready : e.ready with
  | true =>
      have hr : (e.emitErrors messages).ready = true := hready
      simp [hr]
  | false =>
      have hr : (e.emitErrors messages).ready = false := hready
      rw [if_pos (by simp [hr, he'])]
      simp [emit, emitErrors]

/-- `reject_connect`, behind errors that were reported before. -/
theorem rejectConnect_eq {e : Endpoint} (he : e.closed = false) (id : Nat) (messages : List String)
    (status : Nat) : ∃ frame messages', (e.ready = false → messages' ≠ []) ∧
      (e.emitErrors messages).rejectConnect id status = e.refuse id frame messages' status := by
  have hne : e.ready = false → (messages ++ if e.ready then []
      else [s!"rejected CONNECT with status {status}"]) ≠ [] := by
    intro hr
    simp [hr]
  unfold rejectConnect
  split
  next frame _ =>
    refine ⟨some frame, _, hne, ?_⟩
    have hmessages := rejection_messages (e := e.respond id frame true) he messages
      s!"rejected CONNECT with status {status}"
    exact congrArg (fun e : Endpoint => (e.log (.rejected status)).markClosed 0 [] false) hmessages
  next =>
    refine ⟨none, _, hne, ?_⟩
    have hmessages := rejection_messages he messages s!"rejected CONNECT with status {status}"
    exact congrArg (fun e : Endpoint => (e.log (.rejected status)).markClosed 0 [] false) hmessages

/-- What the server makes of the request in a header block. -/
theorem acceptConnect_effects {e : Endpoint} {id : Nat} {s : H3.PeerSettings}
    (hserver : e.cfg.isServer = true) (he : e.closed = false) (hrole : e.roleOf id = some .connect)
    (hdone : e.headersDone id = false) (hs : e.peerSettings = some s) (hadmits : s.admitsConnect)
    {block : Bytes} {headers : List H3.Header} (hdec : H3.decodeHeaderBlock block = .ok headers) :
    Effects r e ((e.takeHeaders id block).acceptConnect id headers) := by
  have hreject : ∀ status, Effects r e ((e.takeHeaders id block).rejectConnect id status) := by
    intro status
    obtain ⟨frame, messages, hne, heq⟩ :=
      rejectConnect_eq (e := e.takeHeaders id block) he id [] status
    have hnil : (e.takeHeaders id block).emitErrors [] = e.takeHeaders id block := by
      simp [emitErrors]
    rw [hnil] at heq
    rw [heq]
    exact .single (.reject e frame status hserver he hrole hdone hne)
  unfold acceptConnect
  simp only
  split
  · exact hreject 400
  next hvalid =>
    split
    · exact hreject 403
    next horigin =>
      have hadmit : Admits e.cfg block _ _ :=
        ⟨⟨headers, hdec, (not_not.mp hvalid).1, (not_not.mp hvalid).2, rfl, rfl⟩, fun allowed ha => by
          have ha' : (e.takeHeaders id block).cfg.allowedOrigins = some allowed := ha
          simp only [ha', Option.any_some, Bool.not_eq_true', Bool.not_eq_false, Option.any_eq_true]
            at horigin
          obtain ⟨o, ho, hin⟩ := horigin
          exact ⟨o, ho, by simpa using hin⟩⟩
      split
      · exact .single (.accept e _ hserver he hrole hdone hs hadmits hadmit)
      next err herr => exact .single (.unanswered e hserver he hrole hdone hadmit herr)

/-- What holds throughout the parsing of a server's CONNECT stream. -/
structure ServerConnect (s : H3.PeerSettings) (id : Nat) (e : Endpoint) : Prop where
  isServer : e.cfg.isServer = true
  role : e.roleOf id = some .connect
  settings : e.peerSettings = some s

theorem serverConnectStep_effects {e : Endpoint} {s : H3.PeerSettings} {id : Nat}
    (hid : id = r ∨ id = connectId) (h : ServerConnect s id e) (hadmits : s.admitsConnect) :
    Effects r e (serverConnectStep id e).1 := by
  unfold serverConnectStep
  split_ifs with hclosed
  · exact .refl
  · have he : e.closed = false := by simpa using hclosed
    have hnext := nextFrame_effects e hid
    have hsession := nextFrame_session e id
    have hheadersDone := headersDone_of_nextFrame e id id
    split
    next e1 heq =>
      rw [heq] at hnext
      exact hnext
    next ty payload e1 heq =>
      rw [heq] at hnext hsession hheadersDone
      have he1 : e1.closed = false := hsession.2.2.1.trans he
      have hserver : e1.cfg.isServer = true := hsession.1 ▸ h.isServer
      have hs : e1.peerSettings = some s := hsession.2.1.trans h.settings
      have hrole : e1.roleOf id = some .connect :=
        hnext.roleOf h.role (by simp) fun _ => rfl
      refine hnext.trans (.trans ?_ (dropBuffer_effects _ payload))
      simp only
      rw [← hheadersDone]
      split_ifs with hheaders hdata
      · have hdone : e1.headersDone id = false := by simpa using hheaders.2
        obtain ⟨rfl, -⟩ := hheaders
        split
        next headers hdec => exact acceptConnect_effects hserver he1 hrole hdone hs hadmits hdec
        next err hdec =>
          obtain ⟨frame, messages, hne, heq⟩ := rejectConnect_eq (e := e1.takeHeaders id payload.data)
            he1 id [s!"failed to decode CONNECT request: {err}"] 400
          exact heq ▸ .single (.reject e1 frame 400 hserver he1 hrole hdone hne)
      · exact (logFrame_effects hrole hheaders _).trans (scanCapsules_effects _ _)
      · exact logFrame_effects hrole hheaders _

theorem rejectConnect_peerSettings (e : Endpoint) (id status : Nat) :
    (e.rejectConnect id status).peerSettings = e.peerSettings := by
  unfold rejectConnect markClosed
  simp only
  split <;> split_ifs <;> rfl

theorem acceptConnect_peerSettings (e : Endpoint) (id : Nat) (headers : List H3.Header) :
    (e.acceptConnect id headers).peerSettings = e.peerSettings := by
  unfold acceptConnect
  simp only
  split
  · exact rejectConnect_peerSettings _ _ _
  · split
    · exact rejectConnect_peerSettings _ _ _
    · split <;> rfl

theorem serverConnectStep_peerSettings (e : Endpoint) (id : Nat) :
    (serverConnectStep id e).1.peerSettings = e.peerSettings := by
  unfold serverConnectStep
  split_ifs
  · rfl
  · have hsession := nextFrame_session e id
    split
    next e1 heq =>
      rw [heq] at hsession
      exact hsession.2.1
    next ty payload e1 heq =>
      rw [heq] at hsession
      refine Eq.trans ?_ hsession.2.1
      simp only [dropBuffer]
      split_ifs
      · split
        · exact acceptConnect_peerSettings _ _ _
        · exact rejectConnect_peerSettings _ _ _
      · exact scanCapsules_peerSettings _ _
      · rfl

theorem parseServerConnectFrames_effects {e : Endpoint} {id : Nat}
    (hid : id = r ∨ id = connectId) (hserver : e.cfg.isServer = true) (hrole : e.roleOf id = some .connect) (he : e.closed = false) :
    Effects r e (e.parseServerConnectFrames id) := by
  unfold parseServerConnectFrames
  split
  · exact .refl
  next s hs =>
    split
    next hbad =>
      have hbad : s.admitsConnect = false := by simpa using hbad
      obtain ⟨frame, messages, hne, heq⟩ := rejectConnect_eq he id [] 400
      have hnil : e.emitErrors [] = e := by simp [emitErrors]
      rw [hnil] at heq
      rw [heq]
      exact .single (.refuse e frame 400 hserver he hrole hs hbad hne)
    next hadmits =>
      have hadmits : s.admitsConnect = true := by simpa using hadmits
      refine iterate_rel (I := ServerConnect s id) (fun _ => .refl) .trans (fun e1 h => ?_) _
        ⟨hserver, hrole, hs⟩
      have heff := serverConnectStep_effects hid h hadmits
      exact ⟨heff, heff.cfg ▸ h.isServer, heff.roleOf h.role (by simp) fun _ => rfl,
        (serverConnectStep_peerSettings e1 id).trans h.settings⟩

/-! ## The control stream -/

theorem queueConnect_effects {e : Endpoint} {settings : H3.PeerSettings} (he : e.closed = false)
    (hp : e.connectPending = true) (hs : e.peerSettings = some settings)
    (hok : settings.webtransportOk = true) :
    Effects r e ({ e with connectPending := false } : Endpoint).queueConnect := by
  unfold queueConnect
  split
  next frame _ => exact .single (.connect e frame he hp hs hok)
  next err herr => exact .single (.unrequested e he hp hs hok herr)

theorem releaseConnect_effects {e : Endpoint} {settings : H3.PeerSettings} (he : e.closed = false)
    (hs : e.peerSettings = some settings) : Effects r e (e.releaseConnect settings) := by
  unfold releaseConnect
  split_ifs with hp hok
  · exact queueConnect_effects he hp hs hok
  · exact .head (.connectRefused e)
      (effects_error_close (e := { e with connectPending := false }) he _ _ _ _)
  · exact .refl

theorem applySettings_effects {e : Endpoint} {settings : H3.PeerSettings}
    (he : e.closed = false) (hrole : e.roleOf r = some .peerControl)
    (hdone : e.headersDone r = false) (hb : settings.Bounded) (hidle : e.ServerIdle)
    (hconnect : e.cfg.isServer = true → e.ConnectRole) :
    Effects r e ((e.setHeadersDone r).applySettings settings) := by
  have hseed : Effects r e ((e.setHeadersDone r).seedLimits settings) :=
    .single (.settings e he hrole hdone hb)
  have hrelease : Effects r e (((e.setHeadersDone r).seedLimits settings).releaseConnect settings) :=
    hseed.trans
      (releaseConnect_effects (e := (e.setHeadersDone r).seedLimits settings) he rfl)
  unfold applySettings
  simp only
  split_ifs with hserver
  · have hpre : (((e.setHeadersDone r).seedLimits settings).releaseConnect settings) =
        (e.setHeadersDone r).seedLimits settings := by
      have hcfg : e.cfg.isServer = true := by rw [← hrelease.cfg]; exact hserver.1
      have hp : ((e.setHeadersDone r).seedLimits settings).connectPending = false := hidle hcfg
      simp [releaseConnect, hp]
    rw [hpre] at hserver hrelease ⊢
    refine hrelease.trans (parseServerConnectFrames_effects (.inr rfl) hserver.1 ?_ he)
    -- the entry is there, and marking the control stream does not change its role
    obtain ⟨st, hst⟩ := Option.isSome_iff_exists.mp hserver.2
    have hst' : ((e.streams.modify r fun st => { st with headersDone := true }).get connectId) =
        some st := hst
    rw [Table.get_modify] at hst'
    simp only [Endpoint.roleOf, hst, Option.map_some, Option.some.injEq]
    split at hst'
    next hi =>
      cases hg : e.streams.get connectId with
      | none => simp [hg] at hst'
      | some st0 =>
          simp only [hg, Option.map_some, Option.some.injEq] at hst'
          rw [← hst']
          exact hconnect hserver.1 st0 hg
    · exact hconnect hserver.1 st hst'
  · exact hrelease

/-- What holds throughout the parsing of the peer's control stream. -/
structure ControlStream (r : Nat) (e : Endpoint) : Prop where
  role : e.roleOf r = some .peerControl
  idle : e.ServerIdle
  connectRole : e.ConnectRole

omit [H3.Codec] in
theorem ControlStream.ne {e : Endpoint} (h : ControlStream r e) : r ≠ connectId := by
  rintro rfl
  have hrole := h.role
  cases hg : e.streams.get connectId with
  | none => simp [Endpoint.roleOf, hg] at hrole
  | some st => simp [Endpoint.roleOf, hg, h.connectRole st hg] at hrole

theorem ControlStream.effects {e e' : Endpoint} (h : ControlStream r e) (heff : Effects r e e') :
    ControlStream r e' where
  role := heff.roleOf h.role (by simp) fun hid => absurd hid h.ne
  idle := heff.invariant (fun _ _ hs => hs.serverIdle) h.idle
  connectRole := heff.invariant (fun _ _ hs => hs.connectRole) h.connectRole

theorem handleControlFrame_effects {e : Endpoint} (h : ControlStream r e) (he : e.closed = false)
    (ty : Nat) (payload : Bytes) :
    Effects r e (e.handleControlFrame r (!e.headersDone r) ty payload) := by
  unfold handleControlFrame
  split_ifs with hfirst hsettings hrepeat hbad hgoaway
  · exact protocolError_effects _ _ _
  · exact protocolError_effects _ _ _
  · have hdone : e.headersDone r = false := by simpa using hrepeat
    simp only
    split
    next settings hs =>
      exact applySettings_effects he h.role hdone (H3.parseSettings_bounded hs) h.idle
        fun _ => h.connectRole
    · exact .head (.controlDone e h.role) (protocolError_effects _ _ _)
  · exact protocolError_effects _ _ _
  · simp only [Bool.not_eq_true'] at hgoaway
    exact .single (.draining e hgoaway.2.1 he)
  · exact .refl

theorem controlStep_effects {e : Endpoint} (h : ControlStream r e) :
    Effects r e (controlStep r e).1 := by
  unfold controlStep
  split_ifs with hclosed
  · exact .refl
  · have he : e.closed = false := by simpa using hclosed
    have hnext := nextFrame_effects e (r := r) (.inl rfl)
    have hsession := nextFrame_session e r
    have hdone := headersDone_of_nextFrame e r r
    split
    next e1 heq =>
      rw [heq] at hnext
      exact hnext
    next ty payload e1 heq =>
      rw [heq] at hnext hsession hdone
      have hlog : Effects r e (e1.log (.controlFrame ty)) := hnext.tail (.log e1 rfl)
      refine hlog.trans (.trans ?_ (dropBuffer_effects _ payload))
      have hframe := handleControlFrame_effects (h.effects hlog) (hsession.2.2.1.trans he) ty
        payload.data
      have heq : (e1.log (.controlFrame ty)).headersDone r = e.headersDone r := hdone
      rwa [heq] at hframe

theorem parseControlFrames_effects {e : Endpoint} (h : ControlStream r e) :
    Effects r e (e.parseControlFrames r) :=
  iterate_rel (I := ControlStream r) (fun _ => .refl) .trans
    (fun _ hs => ⟨controlStep_effects hs, hs.effects (controlStep_effects hs)⟩) _ h

/-! ## Chunks -/

theorem recvControl_effects {e : Endpoint} (h : ControlStream r e) (chunk : Bytes) (fin : Bool) :
    Effects r e (e.recvControl r chunk fin) := by
  have hpush := pushFrames_effects (r := r) e chunk
  have hparse : Effects r e ((e.pushFrames r chunk).parseControlFrames r) :=
    hpush.trans (parseControlFrames_effects (h.effects hpush))
  unfold recvControl
  simp only
  generalize (e.pushFrames r chunk).parseControlFrames r = e1 at hparse ⊢
  have hfin : Effects r e (if fin ∧ !e1.closed then
      e1.protocolError 0x104 "peer closed the HTTP/3 control stream" else e1) := by
    split
    · exact hparse.trans (protocolError_effects _ _ _)
    · exact hparse
  generalize (if fin ∧ !e1.closed then
      e1.protocolError 0x104 "peer closed the HTTP/3 control stream" else e1) = e2 at hfin ⊢
  split_ifs with herror hclosed
  · exact hfin.tail (.kill e2 hclosed herror)
  · have hopen : e2.closed = false := by simpa [killRecv, shutdownRead] using hclosed
    exact .tail (hfin.tail (.killFail e2 _ _ _ _ hopen herror))
      (.closeConn _ _ _ (markClosed_closed _ _ _ _))
  · exact hfin

theorem recvConnect_effects {e : Endpoint} (hrole : e.roleOf r = some .connect)
    (he : e.closed = false) (chunk : Bytes) {fin : Bool}
    (hread : fin = true → (e.conn.streams r).FinRead) :
    Effects r e (e.recvConnect r chunk fin) := by
  have hpush := pushFrames_effects (r := r) e chunk
  have hclosed : (e.pushFrames r chunk).closed = false := by
    unfold pushFrames
    split <;> exact he
  unfold recvConnect
  simp only
  generalize e.pushFrames r chunk = e1 at hpush hclosed ⊢
  have hparse : Effects r e (if e1.cfg.isServer then e1.parseServerConnectFrames r
      else e1.parseConnectFrames r) := by
    split
    next hserver =>
      exact hpush.trans (parseServerConnectFrames_effects (.inl rfl) hserver
        (hpush.roleOf hrole (by simp) fun _ => rfl) hclosed)
    next hclient =>
      exact hpush.trans (parseConnectFrames_effects ⟨by simpa using hclient,
        hpush.roleOf hrole (by simp) fun _ => rfl⟩)
  generalize (if e1.cfg.isServer then e1.parseServerConnectFrames r
      else e1.parseConnectFrames r) = e2 at hparse ⊢
  have hlatched : Effects r e (if e2.frameError r ∧ !e2.closed then
      (((e2.killRecv r).emit (.error "malformed HTTP/3 CONNECT stream")).markClosed 0 [] true
        ).closeConn 0 (H3.ascii "h3 connect error") else e2) := by
    split
    next h =>
      have hc : e2.closed = false := by simpa using h.2
      exact .tail (hparse.tail (.killFail e2 _ _ _ _ hc h.1))
        (.closeConn _ _ _ (markClosed_closed _ _ _ _))
    · exact hparse
  generalize (if e2.frameError r ∧ !e2.closed then
      (((e2.killRecv r).emit (.error "malformed HTTP/3 CONNECT stream")).markClosed 0 [] true
        ).closeConn 0 (H3.ascii "h3 connect error") else e2) = e3 at hlatched ⊢
  split_ifs with hfin hcut
  · exact (hlatched.tail (.log e3 rfl)).trans (protocolError_effects _ _ _)
  · have hopen : e3.closed = false := by simpa using hfin.2
    have hrole3 := hlatched.roleOf hrole (by simp) fun _ => rfl
    -- an open session has shut nothing down on the way
    have hconn := Effects.conn_of_open hlatched hopen hrole (by simp) fun _ => rfl
    simp only [not_or, Nat.not_lt, Nat.le_zero] at hcut
    rw [hcut.1, hcut.2]
    exact (hlatched.tail (.log e3 rfl)).tail (.finish (e3.log (.connectFin 0 0)) _ _ _ hopen
      (.inr ⟨hrole3, hconn ▸ hread hfin.1, by simp [log]⟩))
  · exact hlatched

theorem accountReceive_effects {e : Endpoint} {bidi : Bool} (hrole : e.roleOf r = some (.wtData bidi))
    (amount : Nat) : Effects r e (e.accountReceive r amount).1 := by
  unfold accountReceive
  simp only
  split
  · exact .head (.charge e amount hrole) (flowError_effects _ _)
  · exact .single (.charge e amount hrole)

omit [H3.Codec] in
/-- Payload within the limit is only counted. -/
theorem accountReceive_ok {e e1 : Endpoint} {id amount : Nat}
    (h : e.accountReceive id amount = (e1, true)) : e1 = e.chargeStream id amount := by
  unfold accountReceive at h
  simp only at h
  split at h
  · simp at h
  · exact (congrArg Prod.fst h).symm

theorem accountIncoming_effects (e : Endpoint) (bidi : Bool) :
    Effects r e (e.accountIncoming bidi).1 := by
  unfold accountIncoming
  simp only
  split
  · exact .head (.count e bidi) (flowError_effects _ _)
  · exact .single (.count e bidi)

omit [H3.Codec] in
/-- A stream within the limit is only counted. -/
theorem accountIncoming_ok {e e1 : Endpoint} {bidi : Bool}
    (h : e.accountIncoming bidi = (e1, true)) : e1 = e.countStream bidi := by
  unfold accountIncoming at h
  simp only at h
  split at h
  · simp at h
  · exact (congrArg Prod.fst h).symm

theorem surfaceData_effects {e : Endpoint} {bidi : Bool} (hrole : e.roleOf r = some (.wtData bidi))
    (he : e.closed = false) (chunk : Bytes) {fin : Bool}
    (hfin : fin = true → (e.conn.streams r).Exhausted) :
    Effects r e (e.surfaceData r chunk fin) := by
  have hdata : Effects r e (if chunk.isEmpty then e else e.emit (.streamData r chunk)) := by
    split
    · exact .refl
    · exact .single (.data e chunk hrole he)
  unfold surfaceData
  simp only
  split
  next hf =>
    cases hempty : chunk.isEmpty with
    | true =>
        simp only [hempty, if_true] at hdata ⊢
        exact hdata.tail (.finished e hrole he (hfin hf))
    | false =>
        simp only [hempty, Bool.false_eq_true, if_false] at hdata ⊢
        exact hdata.tail (.finished (e.emit (.streamData r chunk)) hrole he (hfin hf))
  · exact hdata

omit [H3.Codec] in
theorem roleOf_chargeStream (e : Endpoint) (id amount i : Nat) :
    (e.chargeStream id amount).roleOf i = e.roleOf i := by
  simp only [roleOf, chargeStream, Table.get_modify]
  split
  · cases e.streams.get i <;> rfl
  · rfl

theorem recvData_effects {e : Endpoint} {bidi : Bool} (hrole : e.roleOf r = some (.wtData bidi))
    (he : e.closed = false) (chunk : Bytes) {fin : Bool}
    (hfin : fin = true → (e.conn.streams r).Exhausted) :
    Effects r e (e.recvData r chunk fin) := by
  have hacc := accountReceive_effects hrole chunk.length
  unfold recvData
  split
  next e1 heq =>
    rw [heq] at hacc
    exact hacc
  next e1 heq =>
    rw [heq] at hacc
    have he1 := accountReceive_ok heq
    have hrole1 : e1.roleOf r = some (.wtData bidi) := by rwa [he1, roleOf_chargeStream]
    subst he1
    exact hacc.trans (surfaceData_effects hrole1 he chunk hfin)

theorem pushClass_effects {e : Endpoint} (hp : e.Pending r) (chunk : Bytes) :
    Effects r e (e.pushClass r chunk).1 := by
  unfold pushClass
  split
  · exact .refl
  · split
    next h hx => exact .trans (effects_heap e h) (parserLimitExceeded_effects _)
    next buf h hx => exact .head (.classBuf e buf hp) (.single (.heap _ h))

omit [H3.Codec] in
/-- Appending to a pending stream leaves the session as it was. -/
theorem pushClass_ok {e e1 : Endpoint} {id : Nat} {chunk buf : Bytes}
    (h : e.pushClass id chunk = (e1, some buf)) :
    (∀ i, e1.roleOf i = e.roleOf i) ∧ e1.conn = e.conn ∧ e1.closed = e.closed ∧
      (e.Alive id → e1.Alive id) := by
  unfold pushClass at h
  split at h
  · simp at h
  next st hst =>
    split at h
    · simp at h
    · simp only [Prod.mk.injEq, Option.some.injEq] at h
      rw [← h.1]
      refine ⟨fun i => ?_, rfl, rfl, fun halive st' hg => ?_⟩
      · simp only [roleOf, Table.get_modify]
        split
        · cases e.streams.get i <;> rfl
        · rfl
      · simp only [Table.get_modify_self, hst, Option.map_some, Option.some.injEq] at hg
        rw [← hg]
        exact halive st hst

omit [H3.Codec] in
theorem roleOf_classify {e : Endpoint} {id : Nat} {role : Role} (h : (e.roleOf id).isSome = true) :
    (e.classify id role).roleOf id = some role := by
  cases hg : e.streams.get id with
  | none => simp [roleOf, hg] at h
  | some st => simp [roleOf, classify, hg]

theorem surfaceStream_effects {e : Endpoint} {bidi : Bool}
    (hrole : e.roleOf r = some (if bidi then .pendingBidi else .pendingUni))
    (hlocal : Quic.isLocal r e.cfg.isServer = false) (he : e.closed = false) (buf : Bytes)
    (header : Nat) {fin : Bool} (hfin : fin = true → (e.conn.streams r).Exhausted) :
    Effects r e (e.surfaceStream r bidi buf header fin) := by
  have hresolve := Effect.resolve e header hrole
  have hresolved : ((e.classify r (.wtData bidi)).modifyStream r fun st =>
      { st with recvPrefix := header }).roleOf r = some (.wtData bidi) := by
    cases hg : e.streams.get r with
    | none => simp [Endpoint.roleOf, hg] at hrole
    | some st => simp [Endpoint.roleOf, classify, modifyStream, hg]
  have hcfg : ((e.classify r (.wtData bidi)).modifyStream r fun st =>
      { st with recvPrefix := header }).cfg = e.cfg := rfl
  have hconn : ((e.classify r (.wtData bidi)).modifyStream r fun st =>
      { st with recvPrefix := header }).conn = e.conn := rfl
  have hopen : ((e.classify r (.wtData bidi)).modifyStream r fun st =>
      { st with recvPrefix := header }).closed = false := he
  unfold surfaceStream
  simp only
  generalize ((e.classify r (.wtData bidi)).modifyStream r fun st =>
      { st with recvPrefix := header }) = e1 at hresolve hresolved hcfg hconn hopen ⊢
  have hcount := accountIncoming_effects (r := r) e1 bidi
  split
  next e2 heq =>
    rw [heq] at hcount
    exact .head hresolve hcount
  next e2 heq =>
    rw [heq] at hcount
    obtain rfl := accountIncoming_ok heq
    have hacc := accountReceive_effects (e := e1.countStream bidi) hresolved (buf.drop header).length
    split
    next e3 heq3 =>
      rw [heq3] at hacc
      exact .head hresolve (hcount.trans hacc)
    next e3 heq3 =>
      rw [heq3] at hacc
      obtain rfl := accountReceive_ok heq3
      have hrole3 := (roleOf_chargeStream (e1.countStream bidi) r (buf.drop header).length r).trans
        hresolved
      refine .head hresolve (hcount.trans (hacc.trans ?_))
      refine .head (.incoming _ hrole3 hopen (hcfg.symm ▸ hlocal)) ?_
      refine surfaceData_effects (e := ((e1.countStream bidi).chargeStream r
        (buf.drop header).length).emit (.incomingStream r bidi)) hrole3 hopen _ fun hf => ?_
      exact hconn.symm ▸ hfin hf

/-! ## Classification -/

theorem forgetIf_effects {e : Endpoint} (hp : e.Pending r) (fin : Bool) :
    Effects r e (e.forgetIf r fin) := by
  unfold forgetIf
  split
  · exact .single (.forget e hp)
  · exact .refl

theorem resolvePendingUni_effects {e : Endpoint} (hrole : e.roleOf r = some .pendingUni)
    (hidle : e.ServerIdle) (hconnect : e.ConnectRole)
    (hlocal : Quic.isLocal r e.cfg.isServer = false) (he : e.closed = false)
    (halive : e.Alive r) (chunk : Bytes) {fin : Bool}
    (hfin : fin = true → (e.conn.streams r).Exhausted) :
    Effects r e (e.resolvePendingUni r chunk fin) := by
  have hpush := pushClass_effects (.inl hrole) chunk
  unfold resolvePendingUni
  split
  next e1 heq =>
    rw [heq] at hpush
    exact hpush
  next e1 buf heq =>
    obtain ⟨hroles, hconn, hclosed, hkept⟩ := pushClass_ok heq
    have halive1 := hkept halive
    have hrole1 : e1.roleOf r = some .pendingUni := (hroles r).trans hrole
    rw [heq] at hpush
    refine hpush.trans ?_
    have hlocal1 : Quic.isLocal r e1.cfg.isServer = false := by
      rw [Effects.cfg hpush]
      exact hlocal
    have hidle1 := hpush.invariant (fun _ _ hs => hs.serverIdle) hidle
    have hconnect1 := hpush.invariant (fun _ _ hs => hs.connectRole) hconnect
    split
    · exact forgetIf_effects (.inl hrole1) fin
    next ty n hty =>
      simp only
      split_ifs with hcontrol hdup hqpack hdup hend hwt
      · exact protocolError_effects _ _ _
      · have hclass : Effect r e1 (e1.classify r .peerControl) :=
          .classify e1 hrole1 halive1 (.inr ⟨.inl rfl, by simpa using hdup⟩)
        refine .head hclass (recvControl_effects ⟨?_, ?_, ?_⟩ _ _)
        · exact roleOf_classify (by simp [hrole1])
        · exact hclass.serverIdle hidle1
        · exact hclass.connectRole hconnect1
      · exact protocolError_effects _ _ _
      · exact .head (.classify e1 hrole1 halive1 (.inr ⟨.inr ⟨_, rfl⟩, by simpa using hdup⟩))
          (protocolError_effects _ _ _)
      · exact .single (.classify e1 hrole1 halive1 (.inr ⟨.inr ⟨_, rfl⟩, by simpa using hdup⟩))
      · split
        · exact forgetIf_effects (.inl hrole1) fin
        next session n2 hsession =>
          split_ifs with hforeign
          · exact .single (.discard e1 (.inl hrole1))
          · exact surfaceStream_effects hrole1 hlocal1 (hclosed.trans he) buf (n + n2)
              fun hf => hconn.symm ▸ hfin hf
      · exact .single (.classify e1 hrole1 halive1 (.inl rfl))

theorem resolvePendingBidi_effects {e : Endpoint} (hrole : e.roleOf r = some .pendingBidi)
    (hlocal : Quic.isLocal r e.cfg.isServer = false) (he : e.closed = false) (chunk : Bytes)
    {fin : Bool} (hfin : fin = true → (e.conn.streams r).Exhausted) :
    Effects r e (e.resolvePendingBidi r chunk fin) := by
  have hpush := pushClass_effects (.inr hrole) chunk
  unfold resolvePendingBidi
  split
  next e1 heq =>
    rw [heq] at hpush
    exact hpush
  next e1 buf heq =>
    obtain ⟨hroles, hconn, hclosed, -⟩ := pushClass_ok heq
    have hrole1 : e1.roleOf r = some .pendingBidi := (hroles r).trans hrole
    rw [heq] at hpush
    refine hpush.trans ?_
    have hlocal1 : Quic.isLocal r e1.cfg.isServer = false := by
      rw [Effects.cfg hpush]
      exact hlocal
    split
    · exact forgetIf_effects (.inr hrole1) fin
    next signal n hsignal =>
      split_ifs with hother
      · exact .single (.discard e1 (.inr hrole1))
      · split
        · exact forgetIf_effects (.inr hrole1) fin
        next session n2 hsession =>
          split_ifs with hforeign
          · exact .single (.discard e1 (.inr hrole1))
          · exact surfaceStream_effects hrole1 hlocal1 (hclosed.trans he) buf (n + n2)
              fun hf => hconn.symm ▸ hfin hf

/-! ## Reading -/

/-- What the reading of a stream takes for granted about the session. -/
structure Readable (e : Endpoint) : Prop where
  idle : e.ServerIdle
  connectRole : e.ConnectRole
  pending : ∀ id, e.Pending id → Quic.isLocal id e.cfg.isServer = false
  opened : e.closed = false

theorem processRecv_effects {e : Endpoint} (h : e.Readable) (halive : e.Pending r → e.Alive r)
    (chunk : Bytes) {fin : Bool} (hfin : fin = true → (e.conn.streams r).Exhausted)
    (hread : fin = true → (e.conn.streams r).FinRead) :
    Effects r e (e.processRecv r chunk fin) := by
  unfold processRecv
  split
  · exact .refl
  · exact .refl
  · split
    · exact protocolError_effects _ _ _
    · exact .refl
  next hrole =>
    split
    next hf => exact .single (.recvDead e (.inr (not_critical hrole (by simp))) (hfin hf))
    · exact .refl
  next hrole => exact recvControl_effects ⟨hrole, h.idle, h.connectRole⟩ chunk fin
  next hrole => exact recvConnect_effects hrole h.opened chunk hread
  next bidi hrole => exact recvData_effects hrole h.opened chunk hfin
  next hrole =>
    exact resolvePendingUni_effects hrole h.idle h.connectRole (h.pending r (.inl hrole)) h.opened
      (halive (.inl hrole)) chunk hfin
  next hrole =>
    exact resolvePendingBidi_effects hrole (h.pending r (.inr hrole)) h.opened chunk hfin

theorem surfaceReset_effects {e : Endpoint} (he : e.closed = false)
    (hx : (e.conn.streams r).Exhausted) (hread : (e.conn.streams r).ResetRead) (code : Nat) :
    Effects r e (e.surfaceReset r code) := by
  have hcritical : e.Critical r →
      Effects r e ((e.setRecvDead r).protocolError 0x104 "peer reset a critical HTTP/3 stream") := by
    intro hc
    have hopen : (e.setRecvDead r).closed = false := he
    unfold protocolError
    rw [if_neg (by simp [hopen])]
    exact .tail (.single (.resetFail e _ _ _ _ he hc))
      (.closeConn _ _ _ (markClosed_closed _ _ _ _))
  unfold surfaceReset
  simp only
  split
  next bidi hrole => exact .single (.reset e _ hrole he hx)
  next hrole => exact hcritical (.inl hrole)
  next encoder hrole => exact hcritical (.inr (.inl ⟨encoder, hrole⟩))
  next hrole =>
    have hc : e.Critical r := .inr (.inr hrole)
    split_ifs with hclosed hready
    · exact .single (.recvDead e (.inl hclosed) hx)
    · exact .single (.resetClose e _ _ _ he hrole hready hread)
    · exact .single (.resetFail e _ _ _ _ he hc)
  next h1 h2 h3 h4 =>
    refine .single (.recvDead e (.inr ?_) hx)
    rintro (hc | ⟨encoder, hc⟩ | hc)
    · exact h2 hc
    · exact h3 encoder hc
    · exact h4 hc

theorem recvReset_effects {e : Endpoint} (he : e.closed = false)
    (hx : (e.conn.streams r).Exhausted) (hread : (e.conn.streams r).ResetRead) (code : Nat) (finalSize : Option Nat) :
    Effects r e (e.recvReset r code finalSize) := by
  unfold recvReset
  split
  next size st hst =>
    split_ifs with hdata
    · have hrole : ∃ bidi, e.roleOf r = some (.wtData bidi) := by
        cases hr : st.role with
        | wtData bidi => exact ⟨bidi, by simp [Endpoint.roleOf, hst, hr]⟩
        | _ => simp [hr, Role.isWtData] at hdata
      obtain ⟨bidi, hrole⟩ := hrole
      have hacc := accountReceive_effects hrole (size - st.recvPrefix - st.recvPayload)
      split
      next e1 heq =>
        rw [heq] at hacc
        exact hacc
      next e1 heq =>
        rw [heq] at hacc
        obtain rfl := accountReceive_ok heq
        exact hacc.trans (surfaceReset_effects (e := e.chargeStream r _) he hx hread code)
    · exact surfaceReset_effects he hx hread code
  · exact surfaceReset_effects he hx hread code

/-- A pass of the loop of `on_readable` reads the connection at most once, and
the rest of it are effects. -/
theorem readStep_effects {e : Endpoint} (h : e.Readable) (hwf : e.conn.WellFormed) {id : Nat}
    (halive : e.conn.readable id = true → e.Pending id → e.Alive id) (backpressured : Bool) :
    (readStep id backpressured e).1 = e ∨
      ∃ cap, Effects id { e with conn := (e.conn.streamRecv id cap).2 }
        (readStep id backpressured e).1 := by
  unfold readStep
  split
  · exact .inl rfl
  next st hst =>
    split_ifs with hhold
    · exact .inl rfl
    · refine .inr ⟨readLen st backpressured, ?_⟩
      have hread : ∀ conn, Readable { e with conn := conn } := fun conn => ⟨h.1, h.2, h.3, h.4⟩
      have hspec := Quic.Connection.streamRecv_spec e.conn id (readLen st backpressured)
      simp only
      split
      next chunk fin conn heq =>
        simp only [heq] at hspec ⊢
        refine processRecv_effects (hread conn) (halive hspec.readable) chunk (fun hf => ?_) fun hf => ?_
        · subst hf
          exact hspec.exhausted_of_fin hwf
        · subst hf
          exact hspec.finRead
      next code conn heq =>
        simp only [heq] at hspec ⊢
        exact recvReset_effects (e := { e with conn := conn }) h.opened
          (hspec.exhausted_of_reset hwf) hspec.resetRead code _
      next conn hne heq =>
        rw [heq]

end RWebTransport.Endpoint
