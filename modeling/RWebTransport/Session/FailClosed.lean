import RWebTransport.Session.Handshake

/-!
# Failing closed

An error that a session reports is followed by its end, but in three places: a
client that cannot encode its request or cannot decode the response to it, and
a server that cannot encode its response report the error and go on.  A session
is `Answerable` as long as none of the three has happened.
-/

namespace RWebTransport

def Ev.isError : Ev → Bool
  | .error _ => true
  | _ => false

/-- Behind every error comes an end. -/
def ErrorsEnd (l : List Ev) : Prop :=
  ∀ before message after, l = before ++ .error message :: after → ∃ v ∈ after, v.isClosed = true

namespace ErrorsEnd

theorem of_none {l : List Ev} (h : ∀ v ∈ l, v.isError = false) : ErrorsEnd l := by
  rintro before message after rfl
  simpa [Ev.isError] using h (.error message) (by simp)

theorem append_closed (l : List Ev) (code : Nat) (reason : Bytes) (remote : Bool) :
    ErrorsEnd (l ++ [.closed code reason remote]) := by
  intro before message after heq
  have hlast : (before ++ .error message :: after).getLast? = some (.closed code reason remote) := by
    rw [← heq]
    simp
  have hmem : .closed code reason remote ∈ after := by
    rw [List.getLast?_append, List.getLast?_cons] at hlast
    simp only [Option.some_or, Option.some.injEq] at hlast
    cases hafter : after.getLast? with
    | none => simp [hafter] at hlast
    | some v =>
        simp only [hafter, Option.getD_some] at hlast
        exact hlast ▸ List.mem_of_getLast? hafter
  exact ⟨_, hmem, rfl⟩

theorem append {l m : List Ev} (hl : ErrorsEnd l) (hm : ErrorsEnd m) : ErrorsEnd (l ++ m) := by
  intro before message after heq
  rcases List.append_eq_append_iff.mp heq with ⟨mid, -, hmid⟩ | ⟨mid, hmid, hrest⟩
  · exact hm mid message after hmid
  · cases mid with
    | nil => exact hm [] message after hrest.symm
    | cons w mid =>
        obtain ⟨rfl, rfl⟩ := List.cons.inj hrest
        obtain ⟨v, hv, hc⟩ := hl before message mid hmid
        exact ⟨v, List.mem_append_left _ hv, hc⟩

end ErrorsEnd

namespace Endpoint

variable [H3.Codec]

/-- The three things a session cannot answer have not happened: a request that
does not encode was due, the response did not decode, a response that does not
encode was due. -/
structure Answerable (e : Endpoint) : Prop where
  request : e.cfg.isServer = false → (∃ s, .settings s ∈ e.history ∧ s.webtransportOk = true) →
    ∃ frame, H3.encodeHeadersFrame (H3.connectHeaders e.cfg.authority e.cfg.path e.cfg.origin
      e.cfg.extraHeaders e.cfg.protocols) = .ok frame
  response : e.cfg.isServer = false → ∀ block, firstHeaders e.history = some block →
    ∃ fields, H3.decodeHeaderBlock block = .ok fields
  answer : e.cfg.isServer = true → ∀ block selected q, firstHeaders e.history = some block →
    Admits e.cfg block selected q →
    ∃ frame, H3.encodeHeadersFrame (acceptHeaders e.cfg selected) = .ok frame

/-- The history of an answerable session was answerable all along. -/
theorem Answerable.before {e e' : Endpoint} (h : e'.Answerable) (hcfg : e'.cfg = e.cfg)
    {m : List Trace} (hhistory : e'.history = e.history ++ m) : e.Answerable := by
  have hfirst : ∀ {block}, firstHeaders e.history = some block →
      firstHeaders e'.history = some block := fun hb => by
    rw [hhistory]
    exact firstHeaders_append_of_some hb m
  refine ⟨fun hc => ?_, fun hc block hb => ?_, fun hs block selected q hb hadmits => ?_⟩
  · rintro ⟨s, hs, hok⟩
    rw [← hcfg]
    exact h.request (hcfg.symm ▸ hc) ⟨s, hhistory ▸ List.mem_append_left _ hs, hok⟩
  · exact h.response (hcfg.symm ▸ hc) block (hfirst hb)
  · rw [← hcfg]
    exact h.answer (hcfg.symm ▸ hs) block selected q (hfirst hb) (hcfg.symm ▸ hadmits)

/-- As long as the session is answerable, an error ends it. -/
structure Failing (e e' : Endpoint) : Prop where
  cfg : e'.cfg = e.cfg
  closed : e.closed = true → e'.closed = true
  history : ∃ m, e'.history = e.history ++ m
  ev : ∃ l, e'.ev = e.ev ++ l ∧
    (e'.Answerable → ErrorsEnd l ∧ ((∃ v ∈ l, v.isError = true) → e'.closed = true))

namespace Failing

theorem trans {a b c : Endpoint} (hab : Failing a b) (hbc : Failing b c) : Failing a c where
  cfg := hbc.cfg.trans hab.cfg
  closed h := hbc.closed (hab.closed h)
  history := by
    obtain ⟨l, hl⟩ := hab.history
    obtain ⟨m, hm⟩ := hbc.history
    exact ⟨l ++ m, by rw [hm, hl, List.append_assoc]⟩
  ev := by
    obtain ⟨l, hl, hle⟩ := hab.ev
    obtain ⟨m, hm, hme⟩ := hbc.ev
    obtain ⟨_, hts⟩ := hbc.history
    refine ⟨l ++ m, by rw [hm, hl, List.append_assoc], fun hans => ?_⟩
    obtain ⟨hend, hclosed⟩ := hle (hans.before hbc.cfg hts)
    obtain ⟨hend', hclosed'⟩ := hme hans
    refine ⟨hend.append hend', ?_⟩
    rintro ⟨v, hv, herr⟩
    rcases List.mem_append.mp hv with hv | hv
    · exact hbc.closed (hclosed ⟨v, hv, herr⟩)
    · exact hclosed' ⟨v, hv, herr⟩

/-- No error was reported. -/
theorem calm {e e' : Endpoint} (hcfg : e'.cfg = e.cfg) (hclosed : e.closed = true → e'.closed = true)
    {l : List Ev} (hev : e'.ev = e.ev ++ l) (hevs : ∀ v ∈ l, v.isError = false)
    {m : List Trace} (hhistory : e'.history = e.history ++ m) : Failing e e' :=
  ⟨hcfg, hclosed, ⟨m, hhistory⟩, l, hev, fun _ => ⟨.of_none hevs, fun ⟨v, hv, herr⟩ => by
    simp [hevs v hv] at herr⟩⟩

/-- Nothing was recorded. -/
theorem of_eq {e e' : Endpoint} (hcfg : e'.cfg = e.cfg) (hclosed : e'.closed = e.closed)
    (hev : e'.ev = e.ev) (hhistory : e'.history = e.history) : Failing e e' :=
  calm hcfg (fun h => hclosed.trans h) (l := []) (by simp [hev]) (by simp) (m := [])
    (by simp [hhistory])

theorem refl (e : Endpoint) : Failing e e := of_eq rfl rfl rfl rfl

theorem takeHeaders (e : Endpoint) (id : Nat) (block : Bytes) :
    Failing e (e.takeHeaders id block) :=
  calm rfl (fun h => h) (l := []) (List.append_nil _).symm (by simp) (m := [_]) rfl

/-- The session ended behind whatever was reported. -/
theorem ends {e s : Endpoint} (hcfg : s.cfg = e.cfg) (hopen : s.closed = false) {l : List Ev}
    (hev : s.ev = e.ev ++ l) {m : List Trace} (hhistory : s.history = e.history ++ m)
    (code : Nat) (reason : Bytes) (remote : Bool) : Failing e (s.markClosed code reason remote) :=
  ⟨(markClosed_cfg s code reason remote).trans hcfg, fun _ => markClosed_closed s code reason remote,
    ⟨m, (markClosed_flags s code reason remote).2.2.2.2.trans hhistory⟩,
    l ++ [.closed code reason remote], by
      rw [markClosed_ev hopen, hev, List.append_assoc], fun _ =>
    ⟨.append_closed l code reason remote, fun _ => markClosed_closed s code reason remote⟩⟩

theorem markClosed (e : Endpoint) (code : Nat) (reason : Bytes) (remote : Bool) :
    Failing e (e.markClosed code reason remote) := by
  cases h : e.closed with
  | true =>
      simp only [Endpoint.markClosed, h, if_true]
      exact refl e
  | false => exact ends rfl h (List.append_nil _).symm (List.append_nil _).symm code reason remote

theorem of_quiet {e e' : Endpoint} (h : Quiet e e') : Failing e e' := by
  obtain ⟨l, hl, hlq⟩ := h.ev
  obtain ⟨m, hm, -⟩ := h.history
  refine calm h.cfg (fun hc => h.closed.trans hc) hl (fun v hv => ?_) hm
  have hq := hlq v hv
  cases v <;> first | rfl | cases hq

/-- An error whose cause an answerable session does not have. -/
theorem unanswerable {e e' : Endpoint} (hcfg : e'.cfg = e.cfg) (hclosed : e'.closed = e.closed)
    {l : List Ev} (hev : e'.ev = e.ev ++ l) {m : List Trace}
    (hhistory : e'.history = e.history ++ m) (h : ¬e'.Answerable) : Failing e e' :=
  ⟨hcfg, fun hc => hclosed.trans hc, ⟨m, hhistory⟩, l, hev, fun hans => absurd hans h⟩

end Failing

/-- The block that was taken just now is the first one. -/
theorem Gated.firstHeaders_takeHeaders {e : Endpoint} (h : e.Gated) (hl : e.Layout) {id : Nat}
    (hrole : e.roleOf id = some .connect) (hdone : e.headersDone id = false) (block : Bytes) :
    firstHeaders (e.takeHeaders id block).history = some block := by
  have hnone := h.taken (by simp [(connectDone_of_role hl hrole).2, hdone])
  have hnone : e.history.findSome? Trace.headerBlock = none := hnone
  show (e.history ++ [_]).findSome? _ = _
  simp [List.findSome?_append, hnone, Trace.headerBlock]

/-- What reading does, as far as errors are concerned. -/
theorem Effect.failing {r : Nat} {e e' : Endpoint} (h : Effect r e e') (hl : e.Layout)
    (hg : e.Gated) : Failing e e' := by
  cases h with
  | fail message code reason remote hc =>
      exact .ends (e := e) (s := e.emit (.error message)) rfl hc rfl (List.append_nil _).symm _ _ _
  | finish => exact .markClosed e _ _ _
  | killFail message code reason remote hc =>
      exact .ends (e := e) (s := (e.killRecv r).emit (.error message)) rfl hc rfl (List.append_nil _).symm _ _ _
  | credit =>
      unfold setCreditLimit
      split_ifs <;> exact .of_eq rfl rfl rfl rfl
  | draining =>
      exact .calm rfl (fun h => h) (l := [.draining]) rfl (by simp [Ev.isError]) (List.append_nil _).symm
  | unrequested hc hp hs hok herr =>
      refine .unanswerable rfl rfl rfl (m := []) (List.append_nil _).symm fun hans => ?_
      have hclient : e.cfg.isServer = false := by
        cases hserver : e.cfg.isServer with
        | false => rfl
        | true => simp [hl.idle hserver] at hp
      obtain ⟨frame, hframe⟩ := hans.request hclient ⟨_, hg.settings _ hs, hok⟩
      exact absurd (herr.symm.trans hframe) (by simp)
  | undecoded hclient hc hrole hdone herr =>
      refine .unanswerable rfl rfl rfl (m := [_]) rfl fun hans => ?_
      obtain ⟨fields, hfields⟩ := hans.response hclient _
        (hg.firstHeaders_takeHeaders hl hrole hdone _)
      exact absurd (herr.symm.trans hfields) (by simp)
  | unanswered hserver hc hrole hdone hadmits herr =>
      refine .unanswerable rfl rfl rfl (m := [_]) rfl fun hans => ?_
      obtain ⟨frame, hframe⟩ := hans.answer hserver _ _ _
        (hg.firstHeaders_takeHeaders hl hrole hdone _) hadmits
      exact absurd (herr.symm.trans hframe) (by simp)
  | @ready id block =>
      exact (Failing.takeHeaders e id block).trans (.calm (e := e.takeHeaders id block) rfl (fun h => h)
        (l := [.ready _ _]) rfl (by simp [Ev.isError]) (m := [.ready]) rfl)
  | @accept id s block =>
      exact (Failing.takeHeaders e id block).trans (.calm (e := e.takeHeaders id block) rfl (fun h => h)
        (l := [.serverReady _]) rfl (by simp [Ev.isError]) (m := [.ready]) rfl)
  | @reject id block frame messages status hserver hc =>
      rw [refuse_eq]
      obtain ⟨hcfg, -, hclosed, -, -, -, -, hev, hhistory⟩ :=
        refusing_session (e.takeHeaders id block) id frame messages status
      exact (Failing.takeHeaders e id block).trans (.ends hcfg (hclosed.trans hc) hev hhistory _ _ _)
  | @refuse id s frame messages status hserver hc =>
      rw [refuse_eq]
      obtain ⟨hcfg, -, hclosed, -, -, -, -, hev, hhistory⟩ :=
        refusing_session e id frame messages status
      exact .ends hcfg (hclosed.trans hc) hev hhistory _ _ _
  | incoming | data =>
      exact .calm rfl (fun h => h) (l := [_]) rfl (by simp [Ev.isError]) (List.append_nil _).symm
  | finished | reset =>
      exact .calm rfl (fun h => h) (l := [_]) rfl (by simp [Ev.isError]) (List.append_nil _).symm
  | resetFail message code reason remote hc =>
      exact .ends (e := e) (s := (e.setRecvDead r).emit (.error message)) rfl hc rfl (List.append_nil _).symm _ _ _
  | resetClose code reason remote hc =>
      exact .ends (e := e) (s := e.setRecvDead r) rfl hc (List.append_nil _).symm (List.append_nil _).symm _ _ _
  | headers block => exact .takeHeaders e _ block
  | log | settings | connect | moreHeaders | charge =>
      exact .calm rfl (fun h => h) (l := []) (List.append_nil _).symm (by simp) (m := [_]) rfl
  | _ => exact .of_eq rfl rfl rfl rfl

/-- What has happened since `e₀` is `Failing`. -/
theorem failing_whole (e₀ : Endpoint) : Whole fun e => e.Gated ∧ Failing e₀ e where
  effect heff hl h := ⟨gated_whole.effect heff hl h.1, h.2.trans (heff.failing hl h.1)⟩
  quiet hq h := ⟨gated_whole.quiet hq h.1, h.2.trans (.of_quiet hq)⟩
  setup e h := by
    refine ⟨gated_whole.setup e h.1, h.2.trans ?_⟩
    rcases onEstablished_spec e with heq | ⟨-, -, -, hcfg, hclosed, -, -, -, hev, hhistory, -⟩
    · rw [heq]
      exact .refl e
    · exact .of_eq hcfg hclosed hev hhistory
  meet e hs hnone h := ⟨gated_whole.meet e hs hnone h.1, h.2.trans (.of_eq rfl rfl rfl rfl)⟩
  close e code reason remote h :=
    ⟨gated_whole.close e code reason remote h.1, h.2.trans (.markClosed e code reason remote)⟩

/-- A call that reports an error ends the session behind the error. -/
def FailClosed (e : Endpoint) (c : Call) : Prop :=
  ∃ l, (e.call c).ev = e.ev ++ l ∧ ErrorsEnd l ∧
    ((∃ v ∈ l, v.isError = true) → (e.call c).closed = true)

/-- A session that stays answerable fails closed in every call of its run. -/
theorem fails_closed {e : Endpoint} (hstart : Start e) {calls : List Call}
    (hrun : Along call (fun e c => e.Admissible c ∧ (e.call c).Answerable) e calls) :
    Along call FailClosed e calls := by
  refine along_imp (I := fun e => e.Layout ∧ e.Gated) (fun e c hI hc => ?_)
    ⟨hstart.layout, hstart.gated⟩ hrun
  obtain ⟨hlayout, hgated, hfailing⟩ :=
    (failing_whole e).call ⟨hI.1, hI.2, .refl e⟩ hc.1
  obtain ⟨l, hl, hends⟩ := hfailing.ev
  exact ⟨⟨l, hl, hends hc.2⟩, hlayout, hgated⟩

omit [H3.Codec] in
/-- Every header block of the codec for concrete runs encodes, so only a client
depends on what it receives. -/
theorem answerable_plain {e : Endpoint} (h : e.cfg.isServer = true) :
    letI := H3.Codec.plain
    e.Answerable :=
  let _ := H3.Codec.plain
  ⟨fun _ _ => ⟨_, rfl⟩, fun hc => by simp [h] at hc, fun _ _ _ _ _ _ => ⟨_, rfl⟩⟩

/-- A request that is no CONNECT, as the server of `sampleServer` sees it. -/
def rejectedHandshake : List Call :=
  [.onEstablished, .network (.data 2 sampleControl), .onReadable 2 false,
    .network (.data 0 (sampleHeaders [(":method", "GET")])), .onReadable 0 false]

/-- A response whose header block breaks off has reached the client of `sampleClient`. -/
def garbledHandshake : List Call :=
  [.onEstablished, .network (.data 3 sampleControl), .onReadable 3 false, flushOnce,
    .network (.data 0 (H3.frame H3.frameHeaders [5]))]

omit [H3.Codec] in
theorem fails_closed_sample :
    letI := H3.Codec.plain
    Along call FailClosed sampleServer rejectedHandshake ∧
      (execute call sampleServer rejectedHandshake).ev.any Ev.isError = true := by
  let _ := H3.Codec.plain
  have hrun : Along call Admissible sampleServer rejectedHandshake := by decide +kernel
  have hserver : Along call (fun e c => (e.call c).cfg.isServer = true) sampleServer
      rejectedHandshake := by decide +kernel
  refine ⟨fails_closed sampleServer_start ?_, by decide +kernel⟩
  exact along_and hrun (along_imp (I := fun _ => True)
    (fun _ _ _ h => ⟨answerable_plain h, trivial⟩) trivial hserver)

omit [H3.Codec] in
/-- The client reports that the response did not decode, and goes on. -/
theorem not_fails_closed :
    letI := H3.Codec.plain
    Start sampleClient ∧
      Along call Admissible sampleClient (garbledHandshake ++ [.onReadable 0 false]) ∧
      ¬Along call FailClosed sampleClient (garbledHandshake ++ [.onReadable 0 false]) := by
  let _ := H3.Codec.plain
  refine ⟨sampleClient_start, by decide +kernel, fun h => ?_⟩
  have hlast := (along_append.mp h).2.1
  have hev : ((execute call sampleClient garbledHandshake).call (.onReadable 0 false)).ev =
      (execute call sampleClient garbledHandshake).ev ++
        [.error "failed to decode CONNECT response: qpack decode: DecompressionFailed"] := by
    decide +kernel
  have hopen : ((execute call sampleClient garbledHandshake).call
      (.onReadable 0 false)).closed = false := by decide +kernel
  generalize execute call sampleClient garbledHandshake = e at hlast hev hopen
  obtain ⟨l, hl, -, hclosed⟩ := hlast
  obtain rfl := List.append_cancel_left (hl.symm.trans hev)
  exact absurd (hclosed ⟨_, List.mem_singleton.mpr rfl, rfl⟩) (by simp [hopen])

end Endpoint

end RWebTransport
