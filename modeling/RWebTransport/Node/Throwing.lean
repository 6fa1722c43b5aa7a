import RWebTransport.Node.Requests

/-!
# Calls into the addon that throw

`SessionCore` files a request and then calls the transport, with nothing around
the call.  The functions of the addon check the types of their arguments and
throw at a wrong one, so such a call leaves the request in its map: the caller
got an exception and no promise.

`throwing_requestPart` says that a call that throws leaves the same requests
behind as one that returns.  `throwing_calls` says what becomes of that over
whole runs: some promise that nobody holds is settled in the end, and it is
rejected unless it belongs to a datagram.
-/

namespace RWebTransport.Node

/-! ## Calls -/

/-- A value in the place of a `Uint8Array`. -/
inductive JsValue where
  | uint8Array (data : Bytes)
  /-- An `ArrayBuffer`, another view, a string, ... -/
  | other
deriving DecidableEq, Repr

/-- Whether `cx.argument::<JsTypedArray<u8>>` takes the value. -/
def JsValue.isUint8Array : JsValue → Bool
  | .uint8Array _ => true
  | .other => false

/-- A call of one of the methods that wait for an answer of the native side. -/
inductive TransportCall where
  | openStream (bidi : Bool)
  | write (streamId : Nat) (chunk : JsValue)
  | sendDatagram (chunk : JsValue)
  | getStats
  | exportKeyingMaterial (label context : JsValue) (length : Nat)
deriving DecidableEq, Repr

namespace TransportCall

/-- What the call asks for. -/
def request : TransportCall → Request
  | .openStream _ => .openStream
  | .write streamId _ => .write streamId
  | .sendDatagram _ => .datagram
  | .getStats => .stats
  | .exportKeyingMaterial _ _ _ => .keyingMaterial

/-- Whether the function of the addon throws at its arguments. -/
def addonThrows : TransportCall → Bool
  | .openStream _ => false
  | .write _ chunk => !chunk.isUint8Array
  | .sendDatagram chunk => !chunk.isUint8Array
  | .getStats => false
  | .exportKeyingMaterial label context _ => !(label.isUint8Array && context.isUint8Array)

/-- The call as a step that returns, if the addon takes its arguments. -/
def step : TransportCall → Option SessionCore.Step
  | .openStream bidi => some (.app (.createStream bidi))
  | .write streamId (.uint8Array chunk) => some (.write streamId chunk)
  | .sendDatagram (.uint8Array chunk) => some (.app (.sendDatagram chunk))
  | .getStats => some (.app .getStats)
  | .exportKeyingMaterial (.uint8Array label) (.uint8Array context) length =>
      some (.app (.exportKeyingMaterial label context length))
  | _ => none

theorem step_isSome (c : TransportCall) : c.step.isSome = !c.addonThrows := by
  cases c with
  | openStream bidi => rfl
  | write streamId chunk => cases chunk <;> rfl
  | sendDatagram chunk => cases chunk <;> rfl
  | getStats => rfl
  | exportKeyingMaterial label context length => cases label <;> cases context <;> rfl

end TransportCall

namespace SessionCore

variable {s : SessionCore}

/-- The call, with a transport call that throws: there is no command. -/
def callThrows (s : SessionCore) : TransportCall → SessionCore
  | .openStream _ =>
      if !s.usable then s
      else { s.newRequest with opens := s.opens.insert s.nextRequestId () }
  | .write streamId _ =>
      if !s.usable then s
      else { s.newRequest with writes := s.writes.insert s.nextRequestId streamId }
  | .sendDatagram _ =>
      if !s.usable then s
      else { s.newRequest with datagramAcks := s.datagramAcks.insert s.nextRequestId () }
  | .getStats =>
      if !s.usable then s
      else { s.newRequest with statsRequests := s.statsRequests.insert s.nextRequestId () }
  | .exportKeyingMaterial _ _ length =>
      if length < 1 ∨ 4096 < length ∨ !s.usable then s
      else
        { s.newRequest with
          keyingMaterialRequests := s.keyingMaterialRequests.insert s.nextRequestId () }

/-- The call gets as far as the transport. -/
def reaches (s : SessionCore) : TransportCall → Bool
  | .exportKeyingMaterial _ _ length => decide (1 ≤ length ∧ length ≤ 4096) && s.usable
  | _ => s.usable

theorem usable_of_reaches {c : TransportCall} (h : s.reaches c = true) : s.usable = true := by
  cases c with
  | exportKeyingMaterial label context length => exact (Bool.and_eq_true_iff.mp h).2
  | _ => exact h

theorem callThrows_unreached {c : TransportCall} (h : s.reaches c = false) : s.callThrows c = s := by
  cases c with
  | exportKeyingMaterial label context length =>
      have hor : length < 1 ∨ 4096 < length ∨ !s.usable := by
        cases hu : s.usable
        · simp
        · have hrange : ¬(1 ≤ length ∧ length ≤ 4096) := by simpa [reaches, hu] using h
          omega
      rw [callThrows, if_pos hor]
  | _ => rw [callThrows, if_pos (by simpa [reaches] using h)]

theorem callThrows_registry {c : TransportCall} (h : s.reaches c = true) :
    (s.callThrows c).toRegistry =
      { s.file s.nextRequestId c.request with
        nextRequestId := s.nextRequestId + 1
        requests := s.requests.insert s.nextRequestId .pending } := by
  have hu := usable_of_reaches h
  cases c with
  | exportKeyingMaterial label context length =>
      have hrange : 1 ≤ length ∧ length ≤ 4096 := by simpa [reaches, hu] using h
      have hnot : ¬(length < 1 ∨ 4096 < length ∨ !s.usable) := by
        simp only [hu, Bool.not_true, Bool.false_eq_true, or_false]
        omega
      rw [callThrows, if_neg hnot]
      rfl
  | _ =>
      rw [callThrows, if_neg (by simp [hu])]
      rfl

/-- A call that throws leaves the same requests behind as one that returns. -/
theorem throwing_requestPart {c : TransportCall} {a : Step} (h : c.step = some a) :
    (s.callThrows c).toRegistry.requestPart = (s.step a).toRegistry.requestPart := by
  cases c with
  | openStream bidi =>
      obtain rfl := Option.some.inj h
      simp only [callThrows, step, act, createStream]
      split
      · rfl
      · simp [newRequest, Registry.requestPart]
  | write streamId chunk =>
      cases chunk with
      | other => cases h
      | uint8Array data =>
          obtain rfl := Option.some.inj h
          simp only [callThrows, step, write]
          split
          · rfl
          · simp [newRequest, Registry.requestPart]
  | sendDatagram chunk =>
      cases chunk with
      | other => cases h
      | uint8Array data =>
          obtain rfl := Option.some.inj h
          simp only [callThrows, step, act, sendDatagram]
          split
          · rfl
          · simp [newRequest, Registry.requestPart]
  | getStats =>
      obtain rfl := Option.some.inj h
      simp only [callThrows, step, act, getStats]
      split
      · rfl
      · simp [newRequest, Registry.requestPart]
  | exportKeyingMaterial label context length =>
      cases label with
      | other => cases h
      | uint8Array label =>
          cases context with
          | other => cases h
          | uint8Array context =>
              obtain rfl := Option.some.inj h
              simp only [callThrows, step, act, exportKeyingMaterial]
              split
              · rfl
              · simp [newRequest, Registry.requestPart]

/-! ## The pending maps -/

/-- The five maps. -/
def pendingMaps (s : SessionCore) :=
  (s.opens, s.writes, s.datagramAcks, s.statsRequests, s.keyingMaterialRequests)

theorem files_of_pendingMaps {s s' : SessionCore} (h : s.pendingMaps = s'.pendingMaps) (i : Nat)
    (q : Request) : s.Files i q ↔ s'.Files i q := by
  simp only [pendingMaps, Prod.mk.injEq] at h
  obtain ⟨hopens, hwrites, hdatagrams, hstats, hkeys⟩ := h
  cases q with
  | openStream => simp only [Registry.Files, hopens]
  | write streamId => simp only [Registry.Files, hwrites]
  | datagram => simp only [Registry.Files, hdatagrams]
  | stats => simp only [Registry.Files, hstats]
  | keyingMaterial => simp only [Registry.Files, hkeys]

theorem moves_callThrows (h : s.Ordered) {c : TransportCall} (hr : s.reaches c = true) :
    Registry.Moves s.toRegistry (s.callThrows c).toRegistry (some c.request) fun _ _ => none := by
  rw [callThrows_registry hr]
  exact Registry.Moves.request h (open_of_usable (usable_of_reaches hr)) c.request

theorem callThrows_waits (h : s.Ordered) {c : TransportCall} (hr : s.reaches c = true) :
    (s.callThrows c).At s.nextRequestId (.waiting c.request) := by
  have hs := (moves_callThrows h hr).stages _ _ (h.unissued le_rfl)
  rwa [if_pos rfl] at hs

theorem pendingMaps_callThrows (h : s.Ordered) (c : TransportCall) :
    (s.callThrows c).pendingMaps = s.pendingMaps ↔ s.reaches c = false := by
  constructor
  · intro heq
    by_contra hr
    have hwaits := callThrows_waits h (Bool.not_eq_false _ ▸ hr)
    exact (h.unissued le_rfl).2 c.request ((files_of_pendingMaps heq _ _).mp hwaits.2.1)
  · intro hr
    rw [callThrows_unreached hr]

/-! ## Runs -/

/-- A step whose transport calls return, or a call whose transport call throws. -/
inductive Event where
  | step (a : Step)
  | throws (c : TransportCall)

def next (s : SessionCore) : Event → SessionCore
  | .step a => s.step a
  | .throws c => s.callThrows c

/-- The requests whose promise a caller gets. -/
def held (s : SessionCore) : Event → List Nat
  | .step a => match s.returns a with
      | some (.request i _) => [i]
      | _ => []
  | .throws _ => []

theorem ordered_next (h : s.Ordered) (ev : Event) : (s.next ev).Ordered := by
  cases ev with
  | step a => exact ordered_step h a
  | throws c =>
      cases hr : s.reaches c with
      | true => exact h.moves (moves_callThrows h hr)
      | false =>
          rw [next, callThrows_unreached hr]
          exact h

theorem ordered_events (events : List Event) : (execute next {} events).Ordered :=
  execute_invariant (I := fun s => s.Ordered) (fun _ ev h _ => ordered_next h ev)
    Registry.ordered_empty (along_true next events _)

theorem mem_held {a : Step} {i : Nat} (hi : i ∈ s.held (.step a)) :
    ∃ q, s.returns a = some (.request i q) := by
  simp only [held] at hi
  split at hi
  next j q hr =>
    obtain rfl := List.mem_singleton.mp hi
    exact ⟨q, hr⟩
  · cases hi

/-- Whatever comes behind a point of the run: a promise that is settled with an
outcome in `Q` was returned to somebody. -/
def Held (Q : Settled Result → Prop) (events : List Event) : Prop :=
  ∀ before after, events = before ++ after → ∀ (more : List Step) (i : Nat) (p : Settled Result),
    (execute next {} (before ++ more.map .step)).requests.get i = some p → Q p →
    i ∈ outputs next held {} (before ++ more.map .step)

/-- No call of a kind in `K` is left by an exception of the transport. -/
def Spares (K : Request → Prop) (s : SessionCore) (ev : Event) : Prop :=
  ∀ c, ev = .throws c → s.reaches c = true → ¬K c.request

/-- Only issued ids are held. -/
theorem held_issued (events : List Event) :
    ∀ i ∈ outputs next held {} events, i < (execute next {} events).nextRequestId := by
  have hstep : ∀ (l : List Nat) (s : SessionCore) (ev : Event),
      (s.Ordered ∧ ∀ i ∈ l, i < s.nextRequestId) → True →
        (s.next ev).Ordered ∧ ∀ i ∈ l ++ held s ev, i < (s.next ev).nextRequestId := by
    intro l s ev h _
    refine ⟨ordered_next h.1 ev, fun i hi => ?_⟩
    have hle : s.nextRequestId ≤ (s.next ev).nextRequestId := by
      cases ev with
      | step a => exact (step_moves h.1 a).next ▸ Nat.le_add_right _ _
      | throws c =>
          cases hr : s.reaches c with
          | true => exact (moves_callThrows h.1 hr).next ▸ Nat.le_add_right _ _
          | false => rw [next, callThrows_unreached hr]
    rcases List.mem_append.mp hi with hi | hi
    · exact lt_of_lt_of_le (h.2 i hi) hle
    · cases ev with
      | throws c => cases hi
      | step a =>
          obtain ⟨q, hq⟩ := mem_held hi
          have hissued := (settlement_step h.1 a).issued i q hq
          exact (ordered_step h.1 a).issued i (by simp [hissued.2.1])
  have hinv := outputs_invariant (l := []) (s := {}) hstep ⟨Registry.ordered_empty, by simp⟩
    (along_true next events _)
  simpa using hinv.2

/-- The promise of a call that threw ends with the session. -/
theorem not_held {Q : Settled Result → Prop} {before : List Event} {c : TransportCall}
    (hr : (execute next {} before).reaches c = true)
    (hQ : Q (c.request.ended ⟨"", .session, none⟩)) {after : List Event} :
    ¬Held Q (before ++ .throws c :: after) := by
  intro hheld
  set s := execute next {} before with hs
  have hsplit : before ++ Event.throws c :: after = (before ++ [.throws c]) ++ after := by simp
  have hwaits := callThrows_waits (ordered_events before) hr
  have hended := (step_moves ((ordered_events before).moves (moves_callThrows (ordered_events before) hr))
    (.abort "")).stages _ _ hwaits
  have hfate : (s.callThrows c).fate (.abort "") s.nextRequestId c.request =
      some (c.request.ended ⟨"", .session, none⟩) := fate_ends rfl _ _
  rw [Stage.next, hfate] at hended
  have hmem := hheld _ _ hsplit [.abort ""] s.nextRequestId
    (c.request.ended ⟨"", .session, none⟩)
    (by simpa [execute_append, next, ← hs] using hended.1) hQ
  have hout : outputs next held {} (before ++ [Event.throws c] ++ [Step.abort ""].map .step) =
      outputs next held {} before := by
    simp [outputs_append, outputs, held, returns]
  rw [hout] at hmem
  exact absurd (held_issued before _ hmem) (lt_irrefl _)

/-- Promises that nobody holds wait for a request that may be orphaned, or ended
without an outcome in `Q`. -/
def Orphans (K : Request → Prop) (Q : Settled Result → Prop) (l : List Nat) (s : SessionCore) : Prop :=
  ∀ i, i ∉ l → s.requests.get i ≠ none →
    (∃ q, ¬K q ∧ s.At i (.waiting q)) ∨ ∃ p, ¬Q p ∧ s.At i (.ended p)

theorem orphans_next {K : Request → Prop} {Q : Settled Result → Prop}
    (hfate : ∀ (s : SessionCore) (a : Step) i q p, ¬K q → s.fate a i q = some p → ¬Q p)
    {l : List Nat} (h : s.Ordered) (ho : Orphans K Q l s) {ev : Event} (hspares : Spares K s ev) :
    Orphans K Q (l ++ s.held ev) (s.next ev) := by
  intro i hi hsome
  rw [List.mem_append, not_or] at hi
  have hmoved : ∀ {r' : Registry} {issue : Option Request} {fate : Nat → Request → Option (Settled Result)},
      Registry.Moves s.toRegistry r' issue fate → r'.requests.get i ≠ none →
      (∀ q, i = s.nextRequestId → issue = some q → ¬K q) →
      (∀ q p, ¬K q → fate i q = some p → ¬Q p) →
      (∃ q, ¬K q ∧ r'.At i (.waiting q)) ∨ ∃ p, ¬Q p ∧ r'.At i (.ended p) := by
    intro r' issue fate hm hsome' hissue hfate'
    obtain ⟨stage, hs⟩ := h.staged i
    have hs' := hm.stages i stage hs
    cases stage with
    | unissued =>
        by_cases heq : i = s.nextRequestId
        · rw [if_pos heq] at hs'
          cases issue with
          | none => exact absurd hs'.1 hsome'
          | some q => exact .inl ⟨q, hissue q heq rfl, hs'⟩
        · rw [if_neg heq] at hs'
          exact absurd hs'.1 hsome'
    | waiting q =>
        have hq : ¬K q := by
          rcases ho i hi.1 (by simp [hs.1]) with ⟨q', hq', hw⟩ | ⟨p, -, he⟩
          · exact (hs.2.2 q' hw.2.1) ▸ hq'
          · exact absurd hs.2.1 (he.2.2 q)
        cases hf : fate i q with
        | none =>
            rw [Stage.next, hf] at hs'
            exact .inl ⟨q, hq, hs'⟩
        | some p =>
            rw [Stage.next, hf] at hs'
            exact .inr ⟨p, hfate' q p hq hf, hs'⟩
    | ended p =>
        have hp : ¬Q p := by
          rcases ho i hi.1 (by simp [hs.1]) with ⟨q', -, hw⟩ | ⟨p', hp', he⟩
          · exact absurd hw.2.1 (hs.2.2 q')
          · exact Option.some.inj (hs.1.symm.trans he.1) ▸ hp'
        exact .inr ⟨p, hp, hs'⟩
  cases ev with
  | step a =>
      refine hmoved (step_moves h a) hsome (fun q heq hq => absurd ?_ hi.2) fun q p => hfate s a i q p
      rw [issues] at hq
      split at hq
      next j q' hr =>
        obtain ⟨rfl, -⟩ := returns_request hr
        simp [held, hr, heq]
      · cases hq
  | throws c =>
      cases hr : s.reaches c with
      | true =>
          refine hmoved (moves_callThrows h hr) hsome (fun q _ hq => ?_) fun _ _ _ hnone => by cases hnone
          obtain rfl := Option.some.inj hq
          exact hspares c rfl hr
      | false =>
          rw [next, callThrows_unreached hr] at hsome ⊢
          exact ho i hi.1 hsome

theorem held_of_spares {K : Request → Prop} {Q : Settled Result → Prop}
    (hfate : ∀ (s : SessionCore) (a : Step) i q p, ¬K q → s.fate a i q = some p → ¬Q p)
    (hpending : ¬Q .pending) {events : List Event} (h : Along next (Spares K) {} events) :
    Held Q events := by
  rintro before after rfl more i p hp hQ
  by_contra hi
  have halong : Along next (Spares K) {} (before ++ more.map .step) := by
    rw [along_append] at h ⊢
    refine ⟨h.1, along_of_forall fun ev hev s c hc => ?_⟩
    obtain ⟨a, -, rfl⟩ := List.mem_map.mp hev
    cases hc
  have hstep : ∀ (l : List Nat) (s : SessionCore) (ev : Event),
      s.Ordered ∧ Orphans K Q l s → Spares K s ev →
        (s.next ev).Ordered ∧ Orphans K Q (l ++ held s ev) (s.next ev) :=
    fun l s ev hI hspares => ⟨ordered_next hI.1 ev, orphans_next hfate hI.1 hI.2 hspares⟩
  have hinv := outputs_invariant (l := []) (s := {}) hstep
    ⟨Registry.ordered_empty, fun i _ hsome => absurd rfl hsome⟩ halong
  rcases hinv.2 i (by simpa using hi) (by simp [hp]) with ⟨q, -, hw⟩ | ⟨p', hp', he⟩
  · exact hpending (Option.some.inj (hw.1.symm.trans hp) ▸ hQ)
  · exact hp' (Option.some.inj (hp.symm.trans he.1) ▸ hQ)

theorem held_iff {K : Request → Prop} {Q : Settled Result → Prop}
    (hfate : ∀ (s : SessionCore) (a : Step) i q p, ¬K q → s.fate a i q = some p → ¬Q p)
    (hpending : ¬Q .pending) (hended : ∀ q error, K q → Q (q.ended error)) (events : List Event) :
    Held Q events ↔ Along next (Spares K) {} events := by
  refine ⟨fun hheld => ?_, held_of_spares hfate hpending⟩
  rw [along_iff_forall]
  rintro before ev after rfl c rfl hr hK
  exact not_held hr (hended _ _ hK) hheld

theorem fate_datagram {a : Step} {i : Nat} {p : Settled Result} (h : s.fate a i .datagram = some p) :
    ∃ v, p = .resolved v := by
  unfold fate at h
  split at h
  · exact ⟨_, (Option.some.inj h).symm⟩
  · simp at h
  next answer hends hresets hanswer =>
    split at h
    next hfor =>
      obtain rfl := Option.some.inj h
      cases a with
      | app act =>
          cases act with
          | dispatch ev =>
              cases ev with
              | datagramAck j sent =>
                  obtain rfl := Option.some.inj hanswer
                  exact ⟨_, rfl⟩
              | keyingMaterial j data =>
                  cases data <;> obtain rfl := Option.some.inj hanswer <;> simp at hfor
              | streamOpened j streamId =>
                  obtain rfl := Option.some.inj hanswer
                  simp at hfor
              | writeAck j =>
                  obtain rfl := Option.some.inj hanswer
                  simp at hfor
              | stats j counters =>
                  obtain rfl := Option.some.inj hanswer
                  simp at hfor
              | _ => cases hanswer
          | _ => cases hanswer
      | _ => cases hanswer
    · cases h
  · cases h

/-- A call that throws at the transport changes the pending maps, and nothing but
such a call makes a promise that nobody holds. -/
theorem throwing_calls (events : List Event) :
    (∀ c, ((execute next {} events).callThrows c).pendingMaps = (execute next {} events).pendingMaps ↔
      (execute next {} events).reaches c = false) ∧
    (Held (fun p => p ≠ .pending) events ↔
      Along next (fun s ev => ∀ c, ev = .throws c → s.reaches c = false) {} events) ∧
    (Held (fun p => ∃ error, p = .rejected error) events ↔
      Along next (fun s ev => ∀ c, ev = .throws c → s.reaches c = true → c.request = .datagram) {}
        events) := by
  refine ⟨fun c => pendingMaps_callThrows (ordered_events events) c, ?_, ?_⟩
  · have hspares : (fun s ev => ∀ c, ev = .throws c → s.reaches c = false) = Spares fun _ => True := by
      funext s ev
      simp [Spares]
    rw [hspares]
    exact held_iff (fun _ _ _ _ _ hK => absurd trivial hK) (by simp)
      (fun q error _ => by cases q <;> simp [Request.ended]) events
  · have hspares : (fun s ev => ∀ c, ev = .throws c → s.reaches c = true → c.request = .datagram) =
        Spares fun q => q ≠ .datagram := by
      funext s ev
      simp [Spares]
    rw [hspares]
    refine held_iff (fun s a i q p hK hf => ?_) (by simp)
      (fun q error hq => by cases q <;> simp [Request.ended] at hq ⊢) events
    obtain rfl := not_not.mp hK
    obtain ⟨v, rfl⟩ := fate_datagram hf
    simp

/-- A chunk that is not a `Uint8Array`, in a session that then ends. -/
theorem not_left_alone :
    ¬∀ (events : List Event) (c : TransportCall), c.addonThrows = true →
      ((execute next {} events).callThrows c).pendingMaps = (execute next {} events).pendingMaps := by
  intro h
  have heq := h [.step (.app .attach)] (.write 0 .other) rfl
  have hget := congrArg (fun maps => maps.2.1.get 1) heq
  cases hget

end SessionCore

end RWebTransport.Node
