import RWebTransport.H3.Subprotocol
import RWebTransport.Session.Handshake

/-!
# Subprotocol agreement

The server picks a subprotocol for the request of the client and names it in its
response; the client checks the name against its own offer.  Both read a header
field that the headers configured by the application may carry as well.

A client that took a response it can accept is ready: `Answered` says so for
every reachable state.
-/

namespace RWebTransport

namespace Endpoint

variable [H3.Codec]

/-! ## A response that was taken -/

/-- The first header block of the CONNECT stream was used. -/
structure Answered (e : Endpoint) : Prop where
  taken : e.connectDone = some true → ∃ block, firstHeaders e.history = some block
  /-- A client that waits was not granted its request. -/
  waiting : ∀ block, firstHeaders e.history = some block → e.Ungranted block

section

variable {e e' : Endpoint}

theorem Ungranted.congr {block : Bytes} (h : e.Ungranted block) (hcfg : e'.cfg = e.cfg)
    (hready : e'.ready = e.ready) : e'.Ungranted block := by
  unfold Ungranted
  rw [hcfg, hready]
  exact h

/-- No header block was taken off the CONNECT stream but behind the first one. -/
theorem Answered.recorded (h : e.Answered) (hcfg : e'.cfg = e.cfg) (hready : e'.ready = e.ready)
    (hconnect : e'.connectDone = some true → e.connectDone = some true) {l : List Trace}
    (hhistory : e'.history = e.history ++ l)
    (hl : (∀ t ∈ l, t.headerBlock = none) ∨ e.connectDone = some true) : e'.Answered := by
  have hfirst : firstHeaders e'.history = firstHeaders e.history := by
    rw [hhistory]
    rcases hl with hl | hdone
    · exact firstHeaders_append_of_none hl
    · obtain ⟨block, hblock⟩ := h.taken hdone
      rw [firstHeaders_append_of_some hblock, hblock]
  constructor
  · intro hdone
    rw [hfirst]
    exact h.taken (hconnect hdone)
  · intro block hblock
    rw [hfirst] at hblock
    exact (h.waiting block hblock).congr hcfg hready

theorem Answered.mute (h : e.Answered) (hm : Mute e e') : e'.Answered := by
  obtain ⟨l, hl, -, hblocks⟩ := hm.history
  exact h.recorded hm.cfg hm.ready (fun hdone => hm.connect ▸ hdone) hl hblocks

/-- The first header block is taken by a session that it does not leave waiting. -/
theorem Answered.first (hgated : e.Gated) (hdone : e.connectDone = some false) {block : Bytes}
    (hfirst : firstHeaders e'.history = firstHeaders (e.history ++ [.connectFrame H3.frameHeaders block]))
    (hno : e'.Ungranted block) : e'.Answered := by
  have hnone : e.history.findSome? Trace.headerBlock = none := hgated.taken (by simp [hdone])
  have hblock : firstHeaders e'.history = some block := by
    rw [hfirst]
    simp [firstHeaders, List.findSome?_append, hnone, Trace.headerBlock]
  constructor
  · intro _
    exact ⟨block, hblock⟩
  · intro other hother
    obtain rfl : block = other := Option.some.inj (hblock.symm.trans hother)
    exact hno

omit [H3.Codec] in
/-- Becoming ready leaves no header block in the history. -/
theorem firstHeaders_ready (l : List Trace) : firstHeaders (l ++ [.ready]) = firstHeaders l :=
  firstHeaders_append_of_none (by simp [Trace.headerBlock])

theorem Answered.shakes (h : e.Answered) (hgated : e.Gated) (hs : Shakes e e') : e'.Answered := by
  cases hs with
  | @settings r s hc hne =>
      have hdone : ((e.setHeadersDone r).seedLimits s).connectDone = e.connectDone :=
        congrArg (Option.map Stream.headersDone) (Table.get_modify_ne hne)
      exact h.recorded rfl rfl (fun hd => hdone ▸ hd) (l := [.settings s]) rfl
        (.inl (by simp [Trace.headerBlock]))
  | @connect s frame hclient hc hp hsettings hok =>
      have hdone : ((({ e with connectPending := false } : Endpoint).log .connectQueued).insertStream
          connectId (.withPrefix .connect frame e.parserMemory)).connectDone = some false := by
        simp [connectDone, insertStream, Stream.withPrefix, Stream.new]
      exact h.recorded rfl rfl (fun hd => by simp [hdone] at hd) (l := [.connectQueued]) rfl
        (.inl (by simp [Trace.headerBlock]))
  | headers block hdone hno =>
      exact .first hgated hdone rfl hno
  | @ready block protocol headers hclient hc hdone hgrants =>
      refine .first hgated hdone (firstHeaders_ready _) ?_
      intro _ hwait
      cases hwait
  | @accept s block selected q frame hserver hc hdone hs hadmits hadmit =>
      refine .first hgated hdone (firstHeaders_ready _) ?_
      intro hclient
      exact absurd (hserver.symm.trans hclient) (by simp)
  | rejected status hc =>
      have hmute := Mute.markClosed (e.log (.rejected status)) 0 [] false
      have hlog : (e.log (.rejected status)).Answered :=
        h.recorded rfl rfl (fun hd => hd) (l := [.rejected status]) rfl
          (.inl (by simp [Trace.headerBlock]))
      exact hlog.mute hmute

end

/-- Taken responses are used, by everything that happens. -/
theorem answered_whole : Whole fun e => e.Gated ∧ e.Answered where
  effect heff hl h := by
    have hshaken := heff.shaken hl
    clear heff hl
    induction hshaken with
    | refl => exact h
    | tail _ hstep ih =>
        rcases hstep with hmute | hshakes
        · exact ⟨ih.1.mute hmute, ih.2.mute hmute⟩
        · exact ⟨ih.1.shakes hshakes, ih.2.shakes ih.1 hshakes⟩
  quiet hq h := ⟨h.1.mute (.of_quiet hq), h.2.mute (.of_quiet hq)⟩
  setup e h := by
    refine ⟨gated_whole.setup e h.1, ?_⟩
    rcases onEstablished_spec e with heq | ⟨-, -, -, hcfg, -, hready, -, -, -, hhistory, hconnect⟩
    · rw [heq]
      exact h.2
    · exact h.2.recorded hcfg hready (fun hd => hconnect ▸ hd) (l := []) (by simp [hhistory])
        (.inl (by simp))
  meet e hserver hnone h := by
    refine ⟨gated_whole.meet e hserver hnone h.1, ?_⟩
    have hdone : e.meetConnect.connectDone = some false := by
      simp [meetConnect, connectDone, insertStream, Stream.new]
    exact h.2.recorded rfl rfl (fun hd => by simp [hdone] at hd) (l := [])
      (List.append_nil e.history).symm (.inl (by simp))
  close e code reason remote h :=
    ⟨gated_whole.close e code reason remote h.1, h.2.mute (.markClosed e code reason remote)⟩

theorem Start.answered {e : Endpoint} (h : Start e) : e.Answered := by
  cases h with
  | client | server =>
      constructor
      · intro hdone
        cases hdone
      · intro block hblock
        cases hblock

/-- A client that took a response it can accept has reported it. -/
theorem Answered.ready {e : Endpoint} (h : e.Answered) (hgated : e.Gated)
    (hclient : e.cfg.isServer = false) {block : Bytes} (hblock : firstHeaders e.history = some block)
    {protocol : Option String} {headers : List (String × String)}
    (hgrants : Grants e.cfg block protocol headers) :
    ∃ headers, .ready protocol headers ∈ e.ev := by
  cases hready : e.ready with
  | false => exact absurd hgrants (h.waiting block hblock hclient hready protocol headers)
  | true =>
      obtain ⟨-, v, other, hopened, hcause⟩ := hgated.ready hready
      obtain ⟨before, after, hev, -⟩ := hopened.ev
      obtain ⟨before', after', hhistory, -, -, -, hfirst, -⟩ := hopened.history
      have hother : firstHeaders e.history = some other := by
        rw [hhistory]
        exact firstHeaders_append_of_some hfirst _
      obtain rfl : block = other := Option.some.inj (hblock.symm.trans hother)
      rcases hcause with ⟨protocol', headers', -, rfl, hgrants'⟩ | ⟨_, _, hserver, -⟩
      · obtain ⟨fields, hfields, -, hprotocol, -⟩ := hgrants.decoded
        obtain ⟨fields', hfields', -, hprotocol', -⟩ := hgrants'.decoded
        obtain rfl : fields = fields' := Except.ok.inj (hfields.symm.trans hfields')
        refine ⟨headers', ?_⟩
        rw [hev, hprotocol, ← hprotocol']
        simp
      · exact absurd (hserver.symm.trans hclient) (by simp)

/-- What a client reported comes from the first header block. -/
theorem Gated.granted {e : Endpoint} (h : e.Gated) {block : Bytes}
    (hblock : firstHeaders e.history = some block) {protocol : Option String}
    {headers : List (String × String)} (hready : .ready protocol headers ∈ e.ev) :
    Grants e.cfg block protocol headers := by
  obtain ⟨other, hopened, hcause⟩ := h.gate hready rfl
  obtain ⟨before, after, hhistory, -, -, -, hfirst, -⟩ := hopened.history
  have hother : firstHeaders e.history = some other := by
    rw [hhistory]
    exact firstHeaders_append_of_some hfirst _
  obtain rfl : block = other := Option.some.inj (hblock.symm.trans hother)
  rcases hcause with ⟨protocol', headers', -, heq, hgrants⟩ | ⟨_, _, -, heq, -⟩
  · cases heq
    exact hgrants
  · cases heq

/-- What a server reported comes from the first header block. -/
theorem Gated.admitted {e : Endpoint} (h : e.Gated) {block : Bytes}
    (hblock : firstHeaders e.history = some block) {q : ServerRequest}
    (hready : .serverReady q ∈ e.ev) : ∃ selected, Admits e.cfg block selected q := by
  obtain ⟨other, hopened, hcause⟩ := h.gate hready rfl
  obtain ⟨before, after, hhistory, -, -, -, hfirst, -⟩ := hopened.history
  have hother : firstHeaders e.history = some other := by
    rw [hhistory]
    exact firstHeaders_append_of_some hfirst _
  obtain rfl : block = other := Option.some.inj (hblock.symm.trans hother)
  rcases hcause with ⟨_, _, -, heq, -⟩ | ⟨selected, q', -, heq, hadmits⟩
  · cases heq
  · cases heq
    exact ⟨selected, hadmits⟩

/-! ## Two endpoints -/

/-- A state of an endpoint in some run. -/
def Reached (e : Endpoint) : Prop :=
  ∃ start calls, Start start ∧ Along call Admissible start calls ∧ execute call start calls = e

theorem Reached.answered {e : Endpoint} (h : e.Reached) : e.Gated ∧ e.Answered := by
  obtain ⟨start, calls, hstart, hrun, rfl⟩ := h
  exact (answered_whole.run ⟨hstart.layout, hstart.gated, hstart.answered⟩ hrun).2

/-- QPACK delivers the fields of a header list, if it encodes it. -/
def Lossless (headers : List H3.Header) : Prop :=
  ∀ block, H3.Codec.qpackEncode headers = .ok block →
    H3.Codec.qpackDecode block = .ok (headers.map H3.Header.lower)

/-- Structured fields bring the offers of a client across. -/
structure Offers (cfg : Config) : Prop where
  printable : ∀ p ∈ cfg.protocols, H3.IsPrintable p
  item : ∀ p ∈ cfg.protocols, H3.Codec.sfvItem (H3.serializeSfString p) = some (some p)
  list : H3.Codec.sfvList (H3.serializeSfStringList cfg.protocols) = some (cfg.protocols.map some)

/-- The request of a client. -/
def requestHeaders (cfg : Config) : List H3.Header :=
  H3.connectHeaders cfg.authority cfg.path cfg.origin cfg.extraHeaders cfg.protocols

/-- Headers of the application, as QPACK delivers them. -/
def wireFields (fields : List (String × String)) : List H3.Header :=
  fields.map fun p => H3.Header.lower ⟨H3.asBytes p.1, H3.asBytes p.2⟩

/-- The first supported subprotocol among those offered. -/
def firstOffered (supported offered : List String) : Option String :=
  supported.find? fun p => offered.contains p

/-- The field in which a client makes its offer. -/
def offerValues (cfg : Config) : List Bytes :=
  if cfg.protocols.isEmpty then [] else [H3.asBytes (H3.serializeSfStringList cfg.protocols)]

omit [H3.Codec] in
theorem valuesOf_requestHeaders (cfg : Config) :
    H3.valuesOf H3.wtAvailableProtocols ((requestHeaders cfg).map H3.Header.lower) =
      offerValues cfg ++ H3.valuesOf H3.wtAvailableProtocols (wireFields cfg.extraHeaders) := by
  have hname : ∀ name : Bytes, name.map H3.lowerByte ≠ H3.wtAvailableProtocols → ∀ value : Bytes,
      H3.valuesOf H3.wtAvailableProtocols [H3.Header.lower ⟨name, value⟩] = [] := by
    intro name hne value
    have hlower : (H3.Header.lower ⟨name, value⟩).name ≠ H3.wtAvailableProtocols := hne
    rw [H3.valuesOf_cons, if_neg hlower]
    rfl
  have hcons : ∀ (h : H3.Header) (rest : List H3.Header), H3.valuesOf H3.wtAvailableProtocols (h :: rest) =
      H3.valuesOf H3.wtAvailableProtocols [h] ++ H3.valuesOf H3.wtAvailableProtocols rest := by
    intro h rest
    exact H3.valuesOf_append _ [h] rest
  have hpseudo : H3.valuesOf H3.wtAvailableProtocols (List.map H3.Header.lower
      [⟨H3.ascii ":method", H3.ascii "CONNECT"⟩, ⟨H3.ascii ":protocol", H3.ascii "webtransport"⟩,
        ⟨H3.ascii ":scheme", H3.ascii "https"⟩, ⟨H3.ascii ":authority", H3.asBytes cfg.authority⟩,
        ⟨H3.ascii ":path", H3.asBytes cfg.path⟩]) = [] := by
    simp only [List.map_cons, List.map_nil]
    rw [hcons, hname _ (by decide), hcons, hname _ (by decide), hcons, hname _ (by decide), hcons,
      hname _ (by decide), hname _ (by decide)]
    rfl
  have hoffer : H3.valuesOf H3.wtAvailableProtocols (List.map H3.Header.lower
      (if cfg.protocols.isEmpty then []
        else [⟨H3.wtAvailableProtocols, H3.asBytes (H3.serializeSfStringList cfg.protocols)⟩])) =
      offerValues cfg := by
    have hlower : H3.wtAvailableProtocols.map H3.lowerByte = H3.wtAvailableProtocols := by decide
    unfold offerValues
    split_ifs
    · rfl
    · simp [H3.valuesOf, H3.Header.lower, hlower]
  have hextra : (cfg.extraHeaders.map fun p => (⟨H3.asBytes p.1, H3.asBytes p.2⟩ : H3.Header)).map
      H3.Header.lower = wireFields cfg.extraHeaders := by
    rw [List.map_map]
    rfl
  unfold requestHeaders H3.connectHeaders
  rw [List.map_append, List.map_append, List.map_append, H3.valuesOf_append, H3.valuesOf_append,
    H3.valuesOf_append, hpseudo, hoffer, hextra]
  cases cfg.origin with
  | none => rfl
  | some o => exact congrArg (fun l => [] ++ l ++ offerValues cfg ++ _) (hname _ (by decide) _)

omit [H3.Codec] in
theorem valuesOf_acceptHeaders (cfg : Config) (selected : Option String) :
    H3.valuesOf H3.wtProtocol ((acceptHeaders cfg selected).map H3.Header.lower) =
      (selected.map fun p => H3.asBytes (H3.serializeSfString p)).toList ++
        H3.valuesOf H3.wtProtocol (wireFields cfg.responseHeaders) := by
  have hlower : H3.wtProtocol.map H3.lowerByte = H3.wtProtocol := by decide
  rw [acceptHeaders, List.map_cons, H3.valuesOf_cons, if_neg (by decide), List.map_append,
    H3.valuesOf_append, List.map_map]
  congr 1
  cases selected with
  | none => rfl
  | some p => simp [H3.valuesOf, H3.Header.lower, hlower]

omit [H3.Codec] in
theorem statusOf_acceptHeaders (cfg : Config) (selected : Option String) :
    H3.statusOf ((acceptHeaders cfg selected).map H3.Header.lower) = some 200 := by
  have hname : (H3.Header.lower ⟨H3.ascii ":status", H3.ascii "200"⟩).name == H3.ascii ":status" := by
    decide
  have hvalue : (H3.fromUtf8 (H3.ascii "200")).bind (fun v => H3.parseU16 (H3.trim v)) = some 200 := by
    decide
  rw [H3.statusOf, acceptHeaders, List.map_cons, List.find?_cons]
  simp only [hname]
  exact hvalue

/-- What the server takes for the offer: all fields of the name, joined. -/
def joinedOffer (cfg : Config) : List String :=
  H3.parseSfStringList (", ".intercalate ((offerValues cfg ++
    H3.valuesOf H3.wtAvailableProtocols (wireFields cfg.extraHeaders)).map H3.fromUtf8Lossy))

theorem requested_requestHeaders (cfg : Config) :
    (ConnectRequest.ofHeaders ((requestHeaders cfg).map H3.Header.lower)).requested =
      joinedOffer cfg := by
  rw [ConnectRequest.requested, ConnectRequest.protocolFields_eq, valuesOf_requestHeaders]
  rfl

/-- Without extra fields of the name, the server sees the offer. -/
theorem joinedOffer_eq {cfg : Config} (h : Offers cfg)
    (hextra : H3.valuesOf H3.wtAvailableProtocols (wireFields cfg.extraHeaders) = []) :
    joinedOffer cfg = cfg.protocols := by
  have hfields : ", ".intercalate ((offerValues cfg).map H3.fromUtf8Lossy) =
      H3.serializeSfStringList cfg.protocols := by
    unfold offerValues
    cases hprotocols : cfg.protocols with
    | nil => rfl
    | cons p rest =>
        have hascii := H3.serializeSfStringList_ascii h.printable
        rw [hprotocols] at hascii
        simp [H3.fromUtf8Lossy_asBytes hascii]
  rw [joinedOffer, hextra, List.append_nil, hfields, H3.parseSfStringList, h.list]
  simp

/-- The response names the selection, if nothing else does. -/
theorem wtProtocolOf_named {cfg offers : Config} (h : Offers offers) {p : String}
    (hp : p ∈ offers.protocols)
    (hextra : H3.valuesOf H3.wtProtocol (wireFields cfg.responseHeaders) = []) :
    H3.wtProtocolOf ((acceptHeaders cfg (some p)).map H3.Header.lower) = some p := by
  have hascii := H3.serializeSfString_ascii (h.printable p hp)
  rw [H3.wtProtocolOf_eq, valuesOf_acceptHeaders, hextra]
  simp [H3.fromUtf8_asBytes hascii, H3.trim_serializeSfString, H3.parseSfStringItem, h.item p hp]

/-- A repeated field names nothing. -/
theorem wtProtocolOf_repeated {cfg : Config} (p : String)
    (hextra : H3.valuesOf H3.wtProtocol (wireFields cfg.responseHeaders) ≠ []) :
    H3.wtProtocolOf ((acceptHeaders cfg (some p)).map H3.Header.lower) = none := by
  rw [H3.wtProtocolOf_eq, valuesOf_acceptHeaders]
  cases hvalues : H3.valuesOf H3.wtProtocol (wireFields cfg.responseHeaders) with
  | nil => exact absurd hvalues hextra
  | cons value rest => rfl

/-- Without a selection, the configured headers speak alone. -/
theorem wtProtocolOf_configured (cfg : Config) :
    H3.wtProtocolOf ((acceptHeaders cfg none).map H3.Header.lower) =
      H3.wtProtocolOf (wireFields cfg.responseHeaders) := by
  rw [H3.wtProtocolOf_eq, H3.wtProtocolOf_eq, valuesOf_acceptHeaders]
  rfl

/-! ## The agreement -/

/-- Both sides hold the first supported subprotocol that was offered. -/
structure Agreement (server client : Endpoint) (q : ServerRequest) : Prop where
  selected : q.protocol = firstOffered server.cfg.supportedProtocols client.cfg.protocols
  ready : ∃ headers, .ready q.protocol headers ∈ client.ev

/-- The configured headers do not interfere: extra fields of the offer leave the
selection as it is, and no field of the response names a subprotocol besides it. -/
structure Undisturbed (server client : Config) : Prop where
  offer : H3.valuesOf H3.wtAvailableProtocols (wireFields client.extraHeaders) = [] ∨
    firstOffered server.supportedProtocols (joinedOffer client) =
      firstOffered server.supportedProtocols client.protocols
  response : H3.valuesOf H3.wtProtocol (wireFields server.responseHeaders) = [] ∨
    (∀ p ∈ server.supportedProtocols, p ∉ client.protocols) ∧
      H3.wtProtocolOf (wireFields server.responseHeaders) = none

omit [H3.Codec] in
theorem mem_of_firstOffered {supported offered : List String} {p : String}
    (h : firstOffered supported offered = some p) : p ∈ offered := by
  simpa using List.find?_some h

omit [H3.Codec] in
theorem firstOffered_eq_none {supported offered : List String} :
    firstOffered supported offered = none ↔ ∀ p ∈ supported, p ∉ offered := by
  simp [firstOffered]

/-- The selection of the server, from the request of the client. -/
theorem protocol_of_admits {cfg client : Config} {block : Bytes} {selected : Option String}
    {q : ServerRequest} (h : Admits cfg block selected q)
    (hblock : H3.Codec.qpackDecode block = .ok ((requestHeaders client).map H3.Header.lower)) :
    q.protocol = firstOffered cfg.supportedProtocols (joinedOffer client) := by
  obtain ⟨fields, hfields, -, -, hselected, rfl⟩ := h.decoded
  rw [H3.decodeHeaderBlock, hblock] at hfields
  obtain rfl := Except.ok.inj hfields
  rw [requested_requestHeaders] at hselected
  exact hselected

/-- A client and a server that took the request and the response of each other
agree on the subprotocol exactly if the configured headers do not interfere. -/
theorem subprotocol_agreement_iff {server client : Endpoint} (hserver : server.Reached)
    (hclient : client.Reached) (hrole : client.cfg.isServer = false) (hoffers : Offers client.cfg)
    {q : ServerRequest} (hq : .serverReady q ∈ server.ev) {request response : Bytes}
    (hlossless : Lossless (requestHeaders client.cfg))
    (hrequest : H3.Codec.qpackEncode (requestHeaders client.cfg) = .ok request)
    (htaken : firstHeaders server.history = some request)
    (hlossless' : Lossless (acceptHeaders server.cfg q.protocol))
    (hresponse : H3.Codec.qpackEncode (acceptHeaders server.cfg q.protocol) = .ok response)
    (htaken' : firstHeaders client.history = some response) :
    Agreement server client q ↔ Undisturbed server.cfg client.cfg := by
  obtain ⟨selected, hadmits⟩ := hserver.answered.1.admitted htaken hq
  have hprotocol := protocol_of_admits hadmits (hlossless request hrequest)
  have hdecoded : H3.decodeHeaderBlock response =
      .ok ((acceptHeaders server.cfg q.protocol).map H3.Header.lower) := by
    rw [H3.decodeHeaderBlock, hlossless' response hresponse]
  constructor
  · rintro ⟨hselected, headers, hready⟩
    obtain ⟨fields, hfields, -, hnamed, -⟩ :=
      (hclient.answered.1.granted htaken' hready).decoded
    obtain rfl := Except.ok.inj (hdecoded.symm.trans hfields)
    constructor
    · exact .inr (hprotocol.symm.trans hselected)
    · by_cases hextra : H3.valuesOf H3.wtProtocol (wireFields server.cfg.responseHeaders) = []
      · exact .inl hextra
      · cases hp : q.protocol with
        | some p =>
            rw [hp, wtProtocolOf_repeated p hextra] at hnamed
            cases hnamed
        | none =>
            rw [hp, wtProtocolOf_configured] at hnamed
            exact .inr ⟨firstOffered_eq_none.mp (hselected.symm.trans hp), hnamed.symm⟩
  · rintro ⟨hoffer, hanswer⟩
    have hselected : q.protocol =
        firstOffered server.cfg.supportedProtocols client.cfg.protocols := by
      rcases hoffer with hextra | hsame
      · rw [hprotocol, joinedOffer_eq hoffers hextra]
      · exact hprotocol.trans hsame
    have hnamed : H3.wtProtocolOf ((acceptHeaders server.cfg q.protocol).map H3.Header.lower) =
        q.protocol := by
      rcases hanswer with hextra | ⟨hnone, hconfigured⟩
      · cases hp : q.protocol with
        | some p => exact wtProtocolOf_named hoffers (mem_of_firstOffered (hselected.symm.trans hp)) hextra
        | none =>
            rw [wtProtocolOf_configured, H3.wtProtocolOf_eq, hextra]
      · have hp : q.protocol = none := hselected.trans (firstOffered_eq_none.mpr hnone)
        rw [hp, wtProtocolOf_configured, hconfigured]
    have hgrants : Grants client.cfg response q.protocol
        (H3.responseHeaders ((acceptHeaders server.cfg q.protocol).map H3.Header.lower)) := by
      refine ⟨⟨_, hdecoded, ⟨200, statusOf_acceptHeaders _ _, by omega, by omega⟩, hnamed.symm, rfl⟩, ?_⟩
      intro p hp
      exact mem_of_firstOffered (hselected.symm.trans hp)
    exact ⟨hselected, hclient.answered.2.ready hclient.answered.1 hrole htaken' hgrants⟩

/-- The request of `sampleClient`. -/
def sampleOffer : List (String × String) :=
  [(":method", "CONNECT"), (":protocol", "webtransport"), (":scheme", "https"),
    (":authority", "example.org"), (":path", "/"), ("wt-available-protocols", "\"chat\"")]

/-- A header list of ASCII text as `Codec.plain` writes it. -/
def plainBlock (fields : List (String × String)) : Bytes :=
  fields.flatMap fun h => H3.plainString (H3.ascii h.1) ++ H3.plainString (H3.ascii h.2)

/-- A server takes the request of `sampleClient`. -/
def serverNegotiation : List Call :=
  [.onEstablished, .network (.data 2 sampleControl), .onReadable 2 false,
    .network (.data 0 (sampleHeaders sampleOffer)), .onReadable 0 false, flushOnce]

/-- `sampleClient` takes a response. -/
def clientNegotiation (response : List (String × String)) : List Call :=
  [.onEstablished, .network (.data 3 sampleControl), .onReadable 3 false, flushOnce,
    .network (.data 0 (sampleHeaders response)), .onReadable 0 false, flushOnce]

/-- What a server of `chat` makes of the request. -/
def sampleSelection : ServerRequest :=
  { authority := "example.org", path := "/", origin := none, headers := []
    requestedProtocols := ["chat"], protocol := some "chat", remoteAddr := "192.0.2.1"
    remotePort := 443 }

omit [H3.Codec] in
theorem sampleRequest_encoded :
    letI := H3.Codec.plain
    H3.Codec.qpackEncode (requestHeaders sampleClient.cfg) = .ok (plainBlock sampleOffer) := by
  decide +kernel

omit [H3.Codec] in
theorem sampleRequest_lossless :
    letI := H3.Codec.plain
    Lossless (requestHeaders sampleClient.cfg) := by
  intro block hblock
  obtain rfl := Except.ok.inj (sampleRequest_encoded.symm.trans hblock)
  decide +kernel

omit [H3.Codec] in
theorem sampleClient_offers :
    letI := H3.Codec.plain
    Offers sampleClient.cfg := by
  have hprotocols : sampleClient.cfg.protocols = ["chat"] := rfl
  refine @Offers.mk H3.Codec.plain _ ?_ ?_ ?_
  · intro p hp
    obtain rfl : p = "chat" := by simpa [hprotocols] using hp
    intro c hc
    have hc : c = 'c' ∨ c = 'h' ∨ c = 'a' ∨ c = 't' := by simpa using hc
    rcases hc with rfl | rfl | rfl | rfl <;> decide
  · intro p hp
    obtain rfl : p = "chat" := by simpa [hprotocols] using hp
    decide +kernel
  · rw [hprotocols]
    decide +kernel

/-- The response of `sampleServer`. -/
def sampleAnswer : List (String × String) := [(":status", "200"), ("wt-protocol", "\"chat\"")]

omit [H3.Codec] in
theorem sampleAnswer_encoded :
    letI := H3.Codec.plain
    H3.Codec.qpackEncode (acceptHeaders sampleServer.cfg (some "chat")) =
      .ok (plainBlock sampleAnswer) := by
  decide +kernel

omit [H3.Codec] in
theorem sampleAnswer_lossless :
    letI := H3.Codec.plain
    Lossless (acceptHeaders sampleServer.cfg (some "chat")) := by
  intro block hblock
  obtain rfl := Except.ok.inj (sampleAnswer_encoded.symm.trans hblock)
  decide +kernel

omit [H3.Codec] in
theorem subprotocol_agreement_sample :
    letI := H3.Codec.plain
    Agreement (execute call sampleServer serverNegotiation)
      (execute call sampleClient (clientNegotiation sampleAnswer)) sampleSelection := by
  let _ := H3.Codec.plain
  have hserver : (execute call sampleServer serverNegotiation).Reached :=
    ⟨sampleServer, serverNegotiation, sampleServer_start, by decide +kernel, rfl⟩
  have hclient : (execute call sampleClient (clientNegotiation sampleAnswer)).Reached :=
    ⟨sampleClient, clientNegotiation sampleAnswer, sampleClient_start, by decide +kernel, rfl⟩
  have hscfg : (execute call sampleServer serverNegotiation).cfg = sampleServer.cfg := by
    decide +kernel
  have hccfg : (execute call sampleClient (clientNegotiation sampleAnswer)).cfg =
      sampleClient.cfg := by decide +kernel
  have hrole : (execute call sampleClient (clientNegotiation sampleAnswer)).cfg.isServer = false := by
    rw [hccfg]
    rfl
  have hq : .serverReady sampleSelection ∈ (execute call sampleServer serverNegotiation).ev := by
    decide +kernel
  have htaken : firstHeaders (execute call sampleServer serverNegotiation).history =
      some (plainBlock sampleOffer) := by decide +kernel
  have htaken' : firstHeaders (execute call sampleClient (clientNegotiation sampleAnswer)).history =
      some (plainBlock sampleAnswer) := by decide +kernel
  generalize execute call sampleServer serverNegotiation = server at *
  generalize execute call sampleClient (clientNegotiation sampleAnswer) = client at *
  have hoffers : Offers client.cfg := by
    rw [hccfg]
    exact sampleClient_offers
  have hlossless : Lossless (requestHeaders client.cfg) := by
    rw [hccfg]
    exact sampleRequest_lossless
  have hlossless' : Lossless (acceptHeaders server.cfg sampleSelection.protocol) := by
    rw [hscfg]
    exact sampleAnswer_lossless
  refine (subprotocol_agreement_iff hserver hclient hrole hoffers hq hlossless
    ((congrArg (fun cfg => H3.Codec.qpackEncode (requestHeaders cfg)) hccfg).trans
      sampleRequest_encoded) htaken hlossless'
    ((congrArg (fun cfg => H3.Codec.qpackEncode (acceptHeaders cfg (some "chat"))) hscfg).trans
      sampleAnswer_encoded) htaken').mpr ⟨.inl ?_, .inl ?_⟩
  · rw [hccfg]
    decide +kernel
  · rw [hscfg]
    decide +kernel

/-- A server whose configured headers name the subprotocol once more. -/
def namingServer : Endpoint :=
  .server ("192.0.2.1", 443) ["chat"] none [("wt-protocol", "\"chat\"")] 0 (sampleConnection true)
    sampleHeap

/-- The response of `namingServer`. -/
def repeatedAnswer : List (String × String) :=
  [(":status", "200"), ("wt-protocol", "\"chat\""), ("wt-protocol", "\"chat\"")]

omit [H3.Codec] in
theorem not_subprotocol_agreement :
    letI := H3.Codec.plain
    Along call Admissible namingServer serverNegotiation ∧
      .serverReady sampleSelection ∈ (execute call namingServer serverNegotiation).ev ∧
      firstHeaders (execute call namingServer serverNegotiation).history =
        some (plainBlock sampleOffer) ∧
      H3.Codec.qpackEncode (acceptHeaders namingServer.cfg (some "chat")) =
        .ok (plainBlock repeatedAnswer) ∧
      Along call Admissible sampleClient (clientNegotiation repeatedAnswer) ∧
      firstHeaders (execute call sampleClient (clientNegotiation repeatedAnswer)).history =
        some (plainBlock repeatedAnswer) ∧
      ¬Agreement (execute call namingServer serverNegotiation)
        (execute call sampleClient (clientNegotiation repeatedAnswer)) sampleSelection := by
  let _ := H3.Codec.plain
  refine ⟨by decide +kernel, by decide +kernel, by decide +kernel, by decide +kernel,
    by decide +kernel, by decide +kernel, fun h => ?_⟩
  have hready : (execute call sampleClient (clientNegotiation repeatedAnswer)).ev.filter Ev.isReady =
      [.ready none [("wt-protocol", "\"chat\""), ("wt-protocol", "\"chat\"")]] := by decide +kernel
  obtain ⟨headers, hmem⟩ := h.ready
  have hfilter := List.mem_filter.mpr
    ⟨hmem, show Ev.isReady (.ready sampleSelection.protocol headers) = true from rfl⟩
  rw [hready] at hfilter
  simp [sampleSelection] at hfilter

end Endpoint

end RWebTransport
