import RWebTransport.Node.Lifecycle
import RWebTransport.Session.Delivery

/-!
# A session object on its native session

The JavaScript side and the native thread run side by side: commands and events
wait in queues between them.  Commands are taken in the order in which they
were issued, and events are dispatched in the order in which they were emitted.
-/

namespace RWebTransport

/-- The event as the dispatcher sees it. -/
def Ev.native : Ev → Node.NativeEvent
  | .ready protocol headers => .ready protocol headers
  | .draining => .draining
  | .serverReady request => .serverReady request.protocol
  | .closed code reason _ => .closed code reason
  | .error message => .error message
  | .datagram data => .datagram data
  | .incomingStream id bidi => .stream id bidi
  | .streamData id data => .streamData id data
  | .streamFinished id => .streamFin id
  | .streamReset id code => .streamReset id code
  | .streamStopSending id code => .streamStopSending id code
  | .streamOpened requestId id => .streamOpened requestId id
  | .writeAck requestId => .writeAck requestId
  | .datagramAck requestId sent => .datagramAck requestId sent

namespace Node

/-- What the native thread does on a command; it answers two on its own and ends
on another. -/
def Command.call : Command → Option Call
  | .openStream bidi requestId => some (.openStream bidi requestId)
  | .write id data requestId => some (.streamWrite id data requestId)
  | .fin id => some (.streamFin id)
  | .reset id code => some (.streamReset id code)
  | .stopSending id code => some (.streamStopSending id code)
  | .setPaused id paused => some (.setPaused id paused)
  | .sendDatagram data requestId => some (.sendDatagram data requestId)
  | .closeSession code reason => some (.close code reason)
  | .drain => some .sendDrain
  | .getStats _ | .exportKeyingMaterial _ _ _ _ | .shutdown => none

/-- A session object and its native session. -/
structure Transport where
  native : Endpoint
  core : SessionCore := {}
  /-- How many commands were taken. -/
  taken : Nat := 0
  /-- How many events were polled. -/
  polled : Nat := 0

namespace Transport

/-- A step of either side. -/
inductive Move where
  /-- What the native thread does of its own accord. -/
  | native (call : Call)
  | take
  | dispatch
  /-- An event of a session that the server does not know yet. -/
  | discard
  | act (a : Act)

/-- Whether the call is the effect of a command. -/
def isCommand : Call → Bool
  | .openStream _ _ | .streamWrite _ _ _ | .streamFin _ | .streamReset _ _ | .streamStopSending _ _
  | .setPaused _ _ | .sendDatagram _ _ => true
  | _ => false

/-- Whether the step belongs to the JavaScript side alone. -/
def isOwn : Act → Bool
  | .dispatch (.stats _ _) | .dispatch (.keyingMaterial _ _) => true
  | .dispatch _ => false
  | _ => true

/-- The call of the next command. -/
def nextCall (t : Transport) : Option Call := t.core.commands[t.taken]?.bind Command.call

variable [H3.Codec]

def move (t : Transport) : Move → Transport
  | .native c => { t with native := t.native.call c }
  | .take =>
      { t with
        native := match t.nextCall with
          | some c => t.native.call c
          | none => t.native
        taken := if t.taken < t.core.commands.length then t.taken + 1 else t.taken }
  | .dispatch =>
      match t.native.ev[t.polled]? with
      | some v => { t with core := t.core.dispatch v.native, polled := t.polled + 1 }
      | none => t
  | .discard => if t.polled < t.native.ev.length then { t with polled := t.polled + 1 } else t
  | .act a => { t with core := t.core.act a }

/-- What the native thread promises, and what belongs to which side. -/
def Admissible (t : Transport) : Move → Prop
  | .native c => isCommand c = false ∧ t.native.Admissible c
  | .act a => isOwn a = true
  | _ => True

/-- No step of the native session meets a write it would lose. -/
def KeepsWrites (t : Transport) : Move → Prop
  | .native c => Along Endpoint.step Endpoint.KeepsWrites t.native (t.native.steps c)
  | .take => ∀ c, t.nextCall = some c →
      Along Endpoint.step Endpoint.KeepsWrites t.native (t.native.steps c)
  | _ => True

/-- Every write whose promise was resolved lies in what its stream accepted, each
in a place of its own. -/
def WritesAccepted (t : Transport) : Prop :=
  ∀ id, ∃ l, Placed l (t.native.conn.streams id).send.data ∧
    ∀ chunk r, .write id chunk r ∈ t.core.commands →
      t.core.requests.get r = some (.resolved .done) → (r, chunk) ∈ l

end Transport

/-! ## What the session object knows -/

/-- The application has this half of the stream. -/
def Owns (e : Endpoint) (id : Nat) : Half → Prop
  | .send => e.Writable id
  | .receive => e.Surfaced id

/-- The command is on a stream of the application. -/
def Command.Owned (e : Endpoint) : Command → Prop
  | .write id _ _ | .fin id | .reset id _ => e.Writable id
  | .stopSending id _ | .setPaused id _ => e.Surfaced id
  | _ => True

/-- What the native session said for a request to be resolved this way. -/
def Told (e : Endpoint) (r : Nat) : Result → Prop
  | .stream id => ∃ q, .streamOpened q id ∈ e.ev
  | .done => .writeAck r ∈ e.ev
  | _ => True

/-- The session object knows streams and acknowledgements from the native
session only, and numbers its writes. -/
structure Grounded (e : Endpoint) (s : SessionCore) : Prop where
  objects : ∀ i o, s.objects.get i = some o → Owns e o.streamId o.half
  requests : ∀ r v, s.requests.get r = some (.resolved v) → Told e r v
  commands : ∀ c ∈ s.commands, c.Owned e
  issued : ∀ id data r, .write id data r ∈ s.commands → r < s.nextRequestId
  unique : ∀ id data id' data' r, .write id data r ∈ s.commands →
    .write id' data' r ∈ s.commands → id = id' ∧ data = data'

theorem Owns.surfaced {e : Endpoint} {id : Nat} {half : Half} (h : Owns e id half) : e.Surfaced id := by
  cases half with
  | send => exact Endpoint.Writable.surfaced h
  | receive => exact h

theorem Grounded.mono {e e' : Endpoint} {s : SessionCore} (h : Grounded e s)
    (hev : ∀ v ∈ e.ev, v ∈ e'.ev) : Grounded e' s := by
  have hw : ∀ {id}, e.Writable id → e'.Writable id := fun h => h.mono hev
  have hs : ∀ {id}, e.Surfaced id → e'.Surfaced id := fun h =>
    h.imp (fun ⟨r, hr⟩ => ⟨r, hev _ hr⟩) fun ⟨b, hb⟩ => ⟨b, hev _ hb⟩
  refine ⟨fun i o ho => ?_, fun r v hr => ?_, fun c hc => ?_, h.issued, h.unique⟩
  · have howns := h.objects i o ho
    cases hhalf : o.half with
    | send =>
        rw [hhalf] at howns
        exact hw howns
    | receive =>
        rw [hhalf] at howns
        exact hs howns
  · have htold := h.requests r v hr
    cases v with
    | stream id =>
        obtain ⟨q, hq⟩ := htold
        exact ⟨q, hev _ hq⟩
    | done => exact hev _ htold
    | _ => trivial
  · have howned := h.commands c hc
    cases c with
    | write | fin | reset => exact hw howned
    | stopSending | setPaused => exact hs howned
    | _ => trivial

/-! ### What a step adds -/

/-- A step adds objects, resolutions and commands the native session answers for. -/
structure Adds (e : Endpoint) (s s' : SessionCore) : Prop where
  objects : ∀ i o', s'.objects.get i = some o' →
    (∃ o, s.objects.get i = some o ∧ o'.streamId = o.streamId ∧ o'.half = o.half) ∨
      Owns e o'.streamId o'.half
  requests : ∀ r v, s'.requests.get r = some (.resolved v) →
    s.requests.get r = some (.resolved v) ∨ Told e r v
  commands : ∃ l, s'.commands = s.commands ++ l ∧ (∀ c ∈ l, c.Owned e) ∧
    (∀ id data r, .write id data r ∈ l → s.nextRequestId ≤ r ∧ r < s'.nextRequestId) ∧
    ∀ id data id' data' r, .write id data r ∈ l → .write id' data' r ∈ l → id = id' ∧ data = data'
  next : s.nextRequestId ≤ s'.nextRequestId

theorem Grounded.adds {e : Endpoint} {s s' : SessionCore} (h : Grounded e s) (ha : Adds e s s') :
    Grounded e s' := by
  obtain ⟨l, hl, howned, hnew, huniq⟩ := ha.commands
  refine ⟨fun i o' ho => ?_, fun r v hr => ?_, fun c hc => ?_, fun id data r hr => ?_,
    fun id data id' data' r hr hr' => ?_⟩
  · rcases ha.objects i o' ho with ⟨o, hold, hid, hhalf⟩ | howns
    · rw [hid, hhalf]
      exact h.objects i o hold
    · exact howns
  · exact (ha.requests r v hr).elim (h.requests r v) fun h => h
  · rw [hl] at hc
    exact (List.mem_append.mp hc).elim (h.commands c) (howned c)
  · rw [hl] at hr
    rcases List.mem_append.mp hr with hr | hr
    · exact lt_of_lt_of_le (h.issued id data r hr) ha.next
    · exact (hnew id data r hr).2
  · rw [hl] at hr hr'
    rcases List.mem_append.mp hr with hr | hr <;> rcases List.mem_append.mp hr' with hr' | hr'
    · exact h.unique id data id' data' r hr hr'
    · exact absurd (h.issued id data r hr) (not_lt.mpr (hnew id' data' r hr').1)
    · exact absurd (h.issued id' data' r hr') (not_lt.mpr (hnew id data r hr).1)
    · exact huniq id data id' data' r hr hr'

namespace Adds

variable {e : Endpoint}

theorem trans {a b c : SessionCore} (hab : Adds e a b) (hbc : Adds e b c) : Adds e a c where
  objects i o'' ho := by
    rcases hbc.objects i o'' ho with ⟨o', ho', hid', hhalf'⟩ | howns
    · rcases hab.objects i o' ho' with ⟨o, hold, hid, hhalf⟩ | howns
      · exact .inl ⟨o, hold, hid'.trans hid, hhalf'.trans hhalf⟩
      · rw [hid', hhalf']
        exact .inr howns
    · exact .inr howns
  requests r v hr := (hbc.requests r v hr).elim (hab.requests r v) .inr
  commands := by
    obtain ⟨l, hl, howned, hnew, huniq⟩ := hab.commands
    obtain ⟨m, hm, howned', hnew', huniq'⟩ := hbc.commands
    refine ⟨l ++ m, by rw [hm, hl, List.append_assoc], List.forall_mem_append.mpr ⟨howned, howned'⟩,
      fun id data r hr => ?_, fun id data id' data' r hr hr' => ?_⟩
    · rcases List.mem_append.mp hr with hr | hr
      · exact ⟨(hnew id data r hr).1, lt_of_lt_of_le (hnew id data r hr).2 hbc.next⟩
      · exact ⟨le_trans hab.next (hnew' id data r hr).1, (hnew' id data r hr).2⟩
    · rcases List.mem_append.mp hr with hr | hr <;> rcases List.mem_append.mp hr' with hr' | hr'
      · exact huniq id data id' data' r hr hr'
      · exact absurd (hnew id data r hr).2 (not_lt.mpr (hnew' id' data' r hr').1)
      · exact absurd (hnew id' data' r hr').2 (not_lt.mpr (hnew' id data r hr).1)
      · exact huniq' id data id' data' r hr hr'
  next := le_trans hab.next hbc.next

/-- No command was issued. -/
theorem silent {s s' : SessionCore} (hcommands : s'.commands = s.commands)
    (hnext : s.nextRequestId ≤ s'.nextRequestId)
    (hobjects : ∀ i o', s'.objects.get i = some o' →
      (∃ o, s.objects.get i = some o ∧ o'.streamId = o.streamId ∧ o'.half = o.half) ∨
        Owns e o'.streamId o'.half)
    (hrequests : ∀ r v, s'.requests.get r = some (.resolved v) →
      s.requests.get r = some (.resolved v) ∨ Told e r v) : Adds e s s' :=
  ⟨hobjects, hrequests, ⟨[], by simp [hcommands], by simp, by simp, by simp⟩, hnext⟩

/-- Neither objects nor requests have changed. -/
theorem of_eq {s s' : SessionCore} (hcommands : s'.commands = s.commands)
    (hnext : s'.nextRequestId = s.nextRequestId) (hobjects : s'.objects = s.objects)
    (hrequests : s'.requests = s.requests) : Adds e s s' :=
  silent hcommands (le_of_eq hnext.symm) (fun _ o ho => .inl ⟨o, hobjects ▸ ho, rfl, rfl⟩)
    fun _ _ hr => .inl (hrequests ▸ hr)

theorem refl (s : SessionCore) : Adds e s s := of_eq rfl rfl rfl rfl

/-- A command that writes nothing. -/
theorem command (s : SessionCore) {c : Command} (howned : c.Owned e)
    (hwrite : ∀ id data r, c ≠ .write id data r) : Adds e s (s.command c) := by
  unfold SessionCore.command
  split
  · refine ⟨fun i o ho => .inl ⟨o, ho, rfl, rfl⟩, fun r v hr => .inl hr, ⟨[c], rfl, by simpa using howned,
      fun id data r hr => ?_, fun id data id' data' r hr => ?_⟩, le_rfl⟩
    · exact absurd (List.mem_singleton.mp hr).symm (hwrite id data r)
    · exact absurd (List.mem_singleton.mp hr).symm (hwrite id data r)
  · exact refl s

theorem newRequest (s : SessionCore) : Adds e s s.newRequest := by
  refine silent rfl (Nat.le_succ _) (fun i o ho => .inl ⟨o, ho, rfl, rfl⟩) fun r v hr => .inl ?_
  simp only [SessionCore.newRequest, Table.get_insert] at hr
  split at hr
  · simp at hr
  · exact hr

/-- The objects change, but not what they are for. -/
theorem objects_of {s s' : SessionCore} (hcommands : s'.commands = s.commands)
    (hnext : s'.nextRequestId = s.nextRequestId) (hrequests : s'.requests = s.requests)
    {p : Nat → Bool} {f : StreamObject → StreamObject}
    (hf : ∀ o, (f o).streamId = o.streamId ∧ (f o).half = o.half)
    (hobjects : s'.objects = s.objects.modifyIf p f) : Adds e s s' := by
  refine silent hcommands (le_of_eq hnext.symm) (fun i o' ho => ?_) fun _ _ hr => .inl (hrequests ▸ hr)
  rw [hobjects, Table.get_modifyIf] at ho
  split at ho
  · obtain ⟨o, hold, rfl⟩ := Option.map_eq_some_iff.mp ho
    exact .inl ⟨o, hold, hf o⟩
  · exact .inl ⟨o', ho, rfl, rfl⟩

theorem modifyObject (s : SessionCore) (object : Nat) {f : StreamObject → StreamObject}
    (hf : ∀ o, (f o).streamId = o.streamId ∧ (f o).half = o.half) :
    Adds e s (s.modifyObject object f) := by
  refine silent rfl le_rfl (fun i o' ho => ?_) fun _ _ hr => .inl hr
  simp only [SessionCore.modifyObject, Table.get_modify] at ho
  split at ho
  next hi =>
    obtain ⟨o, hold, rfl⟩ := Option.map_eq_some_iff.mp ho
    exact .inl ⟨o, hi ▸ hold, hf o⟩
  · exact .inl ⟨o', ho, rfl, rfl⟩

theorem construct (s : SessionCore) {streamId : Nat} {half : Half} (h : Owns e streamId half) :
    Adds e s (s.construct streamId half) := by
  obtain ⟨hobjects, -, hrequests, -, hnext, -, -⟩ := SessionCore.construct_registry s streamId half
  have hcommands : (s.construct streamId half).commands = s.commands := by cases half <;> rfl
  refine silent hcommands (le_of_eq hnext.symm) (fun i o' ho => ?_) fun _ _ hr => .inl (hrequests ▸ hr)
  rw [hobjects, Table.get_insert] at ho
  split at ho
  · obtain rfl := Option.some.inj ho
    exact .inr h
  · exact .inl ⟨o', ho, rfl, rfl⟩

/-- Requests are settled with what the native session said. -/
theorem settled {s s' : SessionCore} (hcommands : s'.commands = s.commands)
    (hnext : s'.nextRequestId = s.nextRequestId) (hobjects : s'.objects = s.objects)
    (hrequests : ∀ r v, s'.requests.get r = some (.resolved v) →
      s.requests.get r = some (.resolved v) ∨ Told e r v) : Adds e s s' :=
  silent hcommands (le_of_eq hnext.symm) (fun _ o ho => .inl ⟨o, hobjects ▸ ho, rfl, rfl⟩) hrequests

theorem resolve_eq {α : Type} {p : Settled α} {v w : α} (h : p.resolve v = .resolved w) :
    p = .resolved w ∨ v = w := by
  cases p with
  | pending => exact .inr (Settled.resolved.inj h)
  | resolved => exact .inl h
  | rejected => cases h

theorem reject_eq {α : Type} {p : Settled α} {err : WebTransportError} {w : α}
    (h : p.reject err = .resolved w) : p = .resolved w := by
  cases p with
  | pending => cases h
  | resolved => exact h
  | rejected => cases h

theorem fail_spec (error : WebTransportError) (o : StreamObject) :
    (o.fail error).streamId = o.streamId ∧ (o.fail error).half = o.half := by
  unfold StreamObject.fail
  split <;> exact ⟨rfl, rfl⟩

theorem close_spec (o : StreamObject) : o.close.streamId = o.streamId ∧ o.close.half = o.half := by
  unfold StreamObject.close
  split <;> exact ⟨rfl, rfl⟩

theorem enqueue_spec (data : Bytes) (o : StreamObject) :
    (o.enqueue data).streamId = o.streamId ∧ (o.enqueue data).half = o.half := by
  unfold StreamObject.enqueue
  split <;> exact ⟨rfl, rfl⟩

theorem read_spec (o : StreamObject) : o.read.streamId = o.streamId ∧ o.read.half = o.half := by
  unfold StreamObject.read
  split <;> exact ⟨rfl, rfl⟩

theorem settleLifecycle (s : SessionCore) (info : Option CloseInfo)
    (error : Option WebTransportError) : Adds e s (s.settleLifecycle info error) := by
  unfold SessionCore.settleLifecycle
  simp only
  split
  · exact of_eq rfl rfl rfl rfl
  · cases error <;> exact of_eq rfl rfl rfl rfl

theorem settleAll (s : SessionCore) (err : WebTransportError) : Adds e s (s.settleAll err) := by
  refine silent rfl le_rfl (fun i o' ho => ?_) fun r v hr => ?_
  · simp only [SessionCore.settleAll, Table.get_modifyIf] at ho
    split at ho
    · obtain ⟨o, hold, rfl⟩ := Option.map_eq_some_iff.mp ho
      exact .inl ⟨o, hold, fail_spec err o⟩
    · exact .inl ⟨o', ho, rfl, rfl⟩
  · have hrejected : ∀ {v}, (s.requests.modifyIf (fun i => s.opens.contains i || s.writes.contains i ||
        s.statsRequests.contains i || s.keyingMaterialRequests.contains i) fun p => p.reject err).get r =
        some (.resolved v) → s.requests.get r = some (.resolved v) := by
      intro v hr
      rw [Table.get_modifyIf] at hr
      split at hr
      · obtain ⟨p, hp, hreject⟩ := Option.map_eq_some_iff.mp hr
        rw [hp, reject_eq hreject]
      · exact hr
    simp only [SessionCore.settleAll] at hr
    rw [Table.get_modifyIf] at hr
    split at hr
    · obtain ⟨p, hp, hresolve⟩ := Option.map_eq_some_iff.mp hr
      rcases resolve_eq hresolve with rfl | rfl
      · exact .inl (hrejected hp)
      · exact .inr trivial
    · exact .inl (hrejected hr)

theorem finish (s : SessionCore) (info : Option CloseInfo) (error : Option WebTransportError) :
    Adds e s (s.finish info error) := by
  unfold SessionCore.finish
  split
  · exact refl s
  · simp only
    have hmark : Adds e s { s with closedState := true, failedState := s.failedState || error.isSome } :=
      of_eq rfl rfl rfl rfl
    exact ((hmark.trans (settleLifecycle _ info error)).trans (settleAll _ _)).trans
      (command _ trivial (by simp))

theorem close (s : SessionCore) (code : Nat) (reason : String) : Adds e s (s.close code reason) := by
  unfold SessionCore.close
  split
  · exact refl s
  · exact command s trivial (by simp)

theorem abort (s : SessionCore) (message : String) : Adds e s (s.abort message) := by
  unfold SessionCore.abort
  split
  · exact refl s
  · exact (close s 0 message).trans (finish _ _ _)

theorem resetStream (s : SessionCore) {streamId : Nat} (h : e.Writable streamId) (code : Nat) :
    Adds e s (s.resetStream streamId code) := by
  unfold SessionCore.resetStream
  simp only
  refine (command s (c := .reset streamId (code % 2 ^ 32)) h (by simp)).trans
    (settled rfl rfl rfl fun r v hr => .inl ?_)
  simp only [Table.get_modifyIf] at hr
  split at hr
  · obtain ⟨p, hp, hreject⟩ := Option.map_eq_some_iff.mp hr
    rw [hp, reject_eq hreject]
  · exact hr

theorem stopSending (s : SessionCore) {streamId : Nat} (h : e.Surfaced streamId) (code : Nat) :
    Adds e s (s.stopSending streamId code) :=
  command s h (by simp)

theorem setPaused (s : SessionCore) {streamId : Nat} (h : e.Surfaced streamId) (paused : Bool) :
    Adds e s (s.setPaused streamId paused) :=
  command s h (by simp)

/-- A write has a number of its own. -/
theorem write (s : SessionCore) {streamId : Nat} (h : e.Writable streamId) (chunk : Bytes) :
    Adds e s (s.write streamId chunk) := by
  unfold SessionCore.write
  split
  · exact refl s
  · simp only
    refine Adds.trans (b := s.newRequest.command (.write streamId chunk s.nextRequestId)) ?_
      (of_eq rfl rfl rfl rfl)
    have hnew := newRequest (e := e) s
    unfold SessionCore.command
    split
    · refine ⟨hnew.objects, hnew.requests, ⟨[.write streamId chunk s.nextRequestId], rfl,
        fun c hc => List.mem_singleton.mp hc ▸ h, fun id data r hr => ?_, fun id data id' data' r hr hr' => ?_⟩, hnew.next⟩
      · obtain ⟨-, -, rfl⟩ : id = streamId ∧ data = chunk ∧ r = s.nextRequestId := by simpa using hr
        exact ⟨le_rfl, Nat.lt_succ_self _⟩
      · obtain ⟨rfl, rfl, -⟩ : id = streamId ∧ data = chunk ∧ r = s.nextRequestId := by simpa using hr
        obtain ⟨rfl, rfl, -⟩ : id' = id ∧ data' = data ∧ r = s.nextRequestId := by simpa using hr'
        exact ⟨rfl, rfl⟩
    · exact hnew

/-- A request of another kind. -/
theorem request {s s' : SessionCore} (c : Command) (howned : c.Owned e)
    (hwrite : ∀ id data r, c ≠ .write id data r)
    (hcommands : s'.commands = (s.newRequest.command c).commands)
    (hregistry : s'.nextRequestId = s.nextRequestId + 1 ∧ s'.objects = s.objects ∧
      s'.requests = s.newRequest.requests) : Adds e s s' := by
  have hboth := (newRequest (e := e) s).trans (command s.newRequest howned hwrite)
  have hreg := SessionCore.toRegistry_command s.newRequest c
  refine hboth.trans (of_eq hcommands ?_ ?_ ?_)
  · rw [hregistry.1, hreg]
    rfl
  · rw [hregistry.2.1, hreg]
    rfl
  · rw [hregistry.2.2, hreg]

theorem createStream (s : SessionCore) (bidi : Bool) : Adds e s (s.createStream bidi) := by
  unfold SessionCore.createStream
  split
  · exact refl s
  · exact request (.openStream bidi s.nextRequestId) trivial (by simp) rfl
      ⟨by simp [SessionCore.newRequest], by simp [SessionCore.newRequest], by simp⟩

theorem sendDatagram (s : SessionCore) (chunk : Bytes) : Adds e s (s.sendDatagram chunk) := by
  unfold SessionCore.sendDatagram
  split
  · exact refl s
  · exact request (.sendDatagram chunk s.nextRequestId) trivial (by simp) rfl
      ⟨by simp [SessionCore.newRequest], by simp [SessionCore.newRequest], by simp⟩

theorem getStats (s : SessionCore) : Adds e s s.getStats := by
  unfold SessionCore.getStats
  split
  · exact refl s
  · exact request (.getStats s.nextRequestId) trivial (by simp) rfl
      ⟨by simp [SessionCore.newRequest], by simp [SessionCore.newRequest], by simp⟩

theorem exportKeyingMaterial (s : SessionCore) (label context : Bytes) (length : Nat) :
    Adds e s (s.exportKeyingMaterial label context length) := by
  unfold SessionCore.exportKeyingMaterial
  split
  · exact refl s
  · exact request (.exportKeyingMaterial s.nextRequestId label context length) trivial (by simp) rfl
      ⟨by simp [SessionCore.newRequest], by simp [SessionCore.newRequest], by simp⟩

/-- The objects of one of our own streams. -/
theorem constructOwn (s : SessionCore) {streamId : Nat} (h : e.Writable streamId) (bidi : Bool) :
    Adds e s (s.constructOwn streamId bidi) := by
  cases bidi with
  | false => exact construct s (show Owns e streamId .send from h)
  | true =>
      have hreceive : Owns e streamId .receive := Endpoint.Writable.surfaced h
      exact (construct s hreceive).trans (construct _ (show Owns e streamId .send from h))

theorem resume {s : SessionCore} (hg : Grounded e s) (requestId : Nat) :
    Adds e s (s.resume requestId) := by
  unfold SessionCore.resume
  split
  next bidi streamId hcreating hresolved =>
    have hcreate : Adds e s { s with creating := s.creating.erase requestId } := of_eq rfl rfl rfl rfl
    exact hcreate.trans (constructOwn _ (.inl (hg.requests _ _ hresolved)) bidi)
  · exact of_eq rfl rfl rfl rfl
  · exact refl s

/-- An incoming stream gets its objects, or is refused. -/
theorem onIncoming (s : SessionCore) {streamId : Nat} {bidi : Bool}
    (h : .incomingStream streamId bidi ∈ e.ev) : Adds e s (s.onIncoming streamId bidi) := by
  have hsurfaced : e.Surfaced streamId := .inr ⟨bidi, h⟩
  unfold SessionCore.onIncoming
  split
  · simp only
    split
    next hb => exact (stopSending s hsurfaced 0).trans (resetStream _ (.inr (hb ▸ h)) 0)
    · exact stopSending s hsurfaced 0
  · split
    · exact abort s _
    · simp only
      have hreceive := construct s (show Owns e streamId .receive from hsurfaced)
      have hboth : Adds e s (if bidi = true then (s.construct streamId .receive).construct streamId .send
          else s.construct streamId .receive) := by
        split
        next hb =>
          have hsend : Owns e streamId .send := .inr (hb ▸ h)
          exact hreceive.trans (construct _ hsend)
        · exact hreceive
      exact hboth.trans (of_eq rfl rfl rfl rfl)

theorem withSink {s : SessionCore} {sinks : Table Nat} {streamId : Nat}
    {f : Nat → StreamObject → SessionCore}
    (hf : ∀ i o, s.objects.get i = some o → Adds e s (f i o)) :
    Adds e s (s.withSink sinks streamId f) := by
  unfold SessionCore.withSink
  split
  · exact refl s
  · split
    · exact refl s
    next o ho => exact hf _ o ho

/-- A request is settled. -/
theorem settle {s s' : SessionCore} (requestId : Nat) {f : Settled Result → Settled Result}
    (hf : ∀ p v, f p = .resolved v → p = .resolved v ∨ Told e requestId v)
    (hcommands : s'.commands = s.commands) (hnext : s'.nextRequestId = s.nextRequestId)
    (hobjects : s'.objects = s.objects) (hrequests : s'.requests = s.requests.modify requestId f) :
    Adds e s s' := by
  refine settled hcommands hnext hobjects fun r v hr => ?_
  rw [hrequests, Table.get_modify] at hr
  split at hr
  next hi =>
    subst hi
    obtain ⟨p, hp, hresolved⟩ := Option.map_eq_some_iff.mp hr
    rw [hp]
    exact (hf p v hresolved).imp_left (congrArg some)
  · exact .inl hr

theorem told_resolve {r : Nat} {w : Result} (hw : Told e r w) (p : Settled Result) (v : Result)
    (h : p.resolve w = .resolved v) : p = .resolved v ∨ Told e r v := by
  rcases resolve_eq h with hp | rfl
  · exact .inl hp
  · exact .inr hw

/-- The dispatcher adds what the event says. -/
theorem dispatch {s : SessionCore} (hg : Grounded e s) {v : Ev} (hv : v ∈ e.ev) :
    Adds e s (s.dispatch v.native) := by
  unfold SessionCore.dispatch
  split
  · exact refl s
  · cases v with
    | ready | draining | serverReady => exact of_eq rfl rfl rfl rfl
    | closed | error => exact finish s _ _
    | datagram => exact refl s
    | incomingStream id bidi => exact onIncoming s hv
    | streamData id data =>
        refine withSink fun i o ho => ?_
        simp only [SessionCore.onData]
        have henqueue := modifyObject (e := e) s i (enqueue_spec data)
        split
        · exact henqueue.trans (setPaused _ (hg.objects i o ho).surfaced true)
        · exact henqueue
    | streamFinished id =>
        exact withSink fun i o _ => (modifyObject s i close_spec).trans (of_eq rfl rfl rfl rfl)
    | streamReset id code =>
        exact withSink fun i o _ => (modifyObject s i (fail_spec _)).trans (of_eq rfl rfl rfl rfl)
    | streamStopSending id code =>
        exact withSink fun i o _ => (modifyObject s i (fail_spec _)).trans (of_eq rfl rfl rfl rfl)
    | streamOpened requestId id =>
        simp only [Ev.native]
        split
        · exact settle requestId (told_resolve (w := .stream id) ⟨requestId, hv⟩) rfl rfl rfl rfl
        · exact refl s
    | writeAck requestId =>
        simp only [Ev.native]
        split
        · exact settle requestId (told_resolve (w := .done) hv) rfl rfl rfl rfl
        · exact refl s
    | datagramAck requestId sent =>
        simp only [Ev.native]
        split
        · exact settle requestId (told_resolve (w := .sent sent) trivial) rfl rfl rfl rfl
        · exact refl s

theorem stats (s : SessionCore) (requestId : Nat) (counters : ConnectionStats) :
    Adds e s (s.dispatch (.stats requestId counters)) := by
  unfold SessionCore.dispatch
  split
  · exact refl s
  · simp only
    split
    · exact settle requestId (told_resolve (w := .stats counters s.droppedIncomingDatagrams) trivial)
        rfl rfl rfl rfl
    · exact of_eq rfl rfl rfl rfl

theorem keyingMaterial (s : SessionCore) (requestId : Nat) (data : Option Bytes) :
    Adds e s (s.dispatch (.keyingMaterial requestId data)) := by
  unfold SessionCore.dispatch
  split
  · exact refl s
  · simp only
    split
    · refine settle requestId (fun p v h => ?_) rfl rfl rfl rfl
      cases data with
      | some data => exact told_resolve (w := .keyingMaterial data) trivial p v h
      | none => exact .inl (reject_eq h)
    · exact refl s

theorem activeObject_owns {s : SessionCore} (hg : Grounded e s) {object : Nat} {half : Half}
    {o : StreamObject} (h : s.activeObject object half = some o) : Owns e o.streamId half := by
  simp only [SessionCore.activeObject, Option.filter_eq_some_iff, decide_eq_true_eq] at h
  obtain ⟨ho, hhalf, -⟩ := h
  exact hhalf ▸ hg.objects object o ho

/-- Every step of the JavaScript side alone. -/
theorem act {s : SessionCore} (hg : Grounded e s) {a : Act} (ha : Transport.isOwn a = true) :
    Adds e s (s.act a) := by
  cases a with
  | attach | takeIncoming | cancelIncoming | recordDroppedIncomingDatagram =>
      exact of_eq rfl rfl rfl rfl
  | failSetup message => exact finish s _ _
  | dispatch ev =>
      cases ev with
      | stats requestId counters => exact stats s requestId counters
      | keyingMaterial requestId data => exact keyingMaterial s requestId data
      | _ => cases ha
  | createStream bidi => exact createStream s bidi
  | resume requestId => exact resume hg requestId
  | sinkWrite object chunk =>
      simp only [SessionCore.act, SessionCore.sinkWrite]
      split
      next o ho => exact write s (activeObject_owns hg ho) chunk
      · exact refl s
  | sinkClose object =>
      simp only [SessionCore.act, SessionCore.sinkClose]
      split
      next o ho =>
        have hfin : Adds e s (s.finStream o.streamId) :=
          command s (c := .fin o.streamId) (activeObject_owns hg ho) (by simp)
        exact (hfin.trans (modifyObject _ object close_spec)).trans (of_eq rfl rfl rfl rfl)
      · exact refl s
  | sinkAbort object error =>
      simp only [SessionCore.act, SessionCore.sinkAbort]
      split
      next o ho =>
        exact ((resetStream s (activeObject_owns hg ho) _).trans
          (modifyObject _ object (fail_spec error))).trans (of_eq rfl rfl rfl rfl)
      · exact refl s
  | sourceCancel object code =>
      simp only [SessionCore.act, SessionCore.sourceCancel]
      split
      next o ho =>
        exact ((stopSending s (activeObject_owns hg ho) code).trans
          (modifyObject _ object close_spec)).trans (of_eq rfl rfl rfl rfl)
      · exact refl s
  | sourceRead object =>
      simp only [SessionCore.act, SessionCore.sourceRead]
      split
      next o ho =>
        exact (modifyObject s object read_spec).trans (setPaused _ (activeObject_owns hg ho) false)
      · exact refl s
  | sendDatagram chunk => exact sendDatagram s chunk
  | getStats => exact getStats s
  | exportKeyingMaterial label context length => exact exportKeyingMaterial s label context length
  | close code reason =>
      simp only [SessionCore.act, SessionCore.sessionClose]
      split
      · exact refl s
      · exact (of_eq rfl rfl rfl rfl : Adds e s { s with closeCalled := true }).trans (close _ _ _)
  | drain => exact command s trivial (by simp)

end Adds

/-! ## Runs -/

/-- A command on a stream of the application is an admissible call. -/
theorem Command.Owned.admissible {e : Endpoint} {cmd : Command} (h : cmd.Owned e) {c : Call}
    (hc : cmd.call = some c) : e.Admissible c := by
  cases cmd with
  | getStats | exportKeyingMaterial | shutdown => cases hc
  | write | fin | reset | stopSending | setPaused =>
      obtain rfl := Option.some.inj hc
      exact h
  | openStream | sendDatagram | closeSession | drain =>
      obtain rfl := Option.some.inj hc
      trivial

theorem Command.call_write {cmd : Command} {id r : Nat} {data : Bytes}
    (h : cmd.call = some (.streamWrite id data r)) : cmd = .write id data r := by
  cases cmd <;> simp_all [Command.call]

namespace Transport

/-- Both sides are sound, and the native session writes what was issued. -/
structure Sound (t : Transport) : Prop where
  layout : t.native.Layout
  delivered : t.native.Delivered
  grounded : Grounded t.native t.core
  written : ∀ id data r, .written id data r ∈ t.native.history →
    .write id data r ∈ t.core.commands

theorem Sound.writesAccepted {t : Transport} (h : t.Sound) : t.WritesAccepted := by
  intro id
  obtain ⟨l, a, b, hplaced, hdata, hacks, -⟩ := h.delivered.filed id
  refine ⟨l, hdata ▸ hplaced.append b, fun chunk r hissued hresolved => ?_⟩
  obtain ⟨i, hacked⟩ := h.delivered.acks r (h.grounded.requests r .done hresolved)
  obtain ⟨li, -, -, -, -, hi, -⟩ := h.delivered.filed i
  obtain ⟨data, -, hw⟩ := hi r hacked
  obtain ⟨rfl, rfl⟩ := h.grounded.unique id chunk i data r hissued (h.written i data r hw)
  obtain ⟨data', hmem, hw'⟩ := hacks r hacked
  obtain ⟨-, rfl⟩ := h.grounded.unique id chunk id data' r hissued (h.written id data' r hw')
  exact hmem

variable [H3.Codec]

/-- Only a call of `stream_write` writes. -/
theorem steps_write {e : Endpoint} {c : Call} {id r : Nat} {data : Bytes}
    (h : .streamWrite id data r ∈ e.steps c) : c = .streamWrite id data r := by
  have hreads : ∀ (n i : Nat) (b : Bool) (e : Endpoint), .streamWrite id data r ∉ Endpoint.reads i b n e := by
    intro n i b
    induction n with
    | zero => exact fun e => List.not_mem_nil
    | succ n ih =>
        intro e hmem
        rw [Endpoint.reads] at hmem
        split at hmem
        · exact ih _ ((List.mem_cons.mp hmem).resolve_left (by simp))
        · simp at hmem
  cases c with
  | onReadable i b =>
      simp only [Endpoint.steps] at h
      split at h
      · cases h
      · rcases List.mem_cons.mp h with h | h
        · cases h
        · split at h
          · exact absurd h (hreads _ _ _ _)
          · cases h
  | flush order => simp [Endpoint.steps, Endpoint.flushHead, Endpoint.flushTail] at h
  | streamWrite i d q =>
      obtain ⟨rfl, rfl, rfl⟩ : id = i ∧ data = d ∧ r = q := by simpa [Endpoint.steps] using h
      rfl
  | _ => simp [Endpoint.steps] at h

/-- A call of the native session. -/
theorem Sound.call {t : Transport} (h : t.Sound) {c : Call} (hadm : t.native.Admissible c)
    (hkeep : Along Endpoint.step Endpoint.KeepsWrites t.native (t.native.steps c))
    (hissued : ∀ id data r, c = .streamWrite id data r → .write id data r ∈ t.core.commands) :
    Sound { t with native := t.native.call c } := by
  let I : Endpoint → Prop := fun e => e.Layout ∧ e.Delivered ∧ (∀ v ∈ t.native.ev, v ∈ e.ev) ∧
    ∀ id data r, .written id data r ∈ e.history → .write id data r ∈ t.core.commands
  let P : Endpoint → Step → Prop := fun e s => e.KeepsWrites s ∧
    ∀ id data r, s = .streamWrite id data r → .write id data r ∈ t.core.commands
  have hstep : ∀ e s, I e → e.StepAdmissible s → P e s → I (e.step s) := by
    rintro e s ⟨hl, hd, hev, hw⟩ hs ⟨hk, hnew⟩
    obtain ⟨hev', hw'⟩ := Endpoint.step_records hl hs
    exact ⟨hl.step hs, hd.step hl hs hk, fun v hv => hev' v (hev v hv), fun id data r hr =>
      (hw' id data r hr).elim (hw id data r) (hnew id data r)⟩
  have hmeets : t.native.Meets P c := ⟨hadm, along_and hkeep (along_of_forall fun s hs _ id data r heq =>
    hissued id data r (steps_write (heq ▸ hs)))⟩
  obtain ⟨hl, hd, hev, hw⟩ := Endpoint.call_invariant (I := I) hstep
    ⟨h.layout, h.delivered, fun _ hv => hv, h.written⟩ hmeets
  exact ⟨hl, hd, h.grounded.mono hev, hw⟩

omit [H3.Codec] in
/-- The JavaScript side adds what the native session answers for. -/
theorem Sound.adds {t : Transport} (h : t.Sound) {core : SessionCore}
    (ha : Adds t.native t.core core) : Sound { t with core := core } := by
  refine ⟨h.layout, h.delivered, h.grounded.adds ha, fun id data r hr => ?_⟩
  obtain ⟨l, hl, -⟩ := ha.commands
  show _ ∈ core.commands
  rw [hl]
  exact List.mem_append_left _ (h.written id data r hr)

theorem Sound.move {t : Transport} (h : t.Sound) {m : Move} (hadm : t.Admissible m)
    (hkeep : t.KeepsWrites m) : (t.move m).Sound := by
  cases m with
  | native c =>
      refine h.call hadm.2 hkeep fun id data r hc => ?_
      subst hc
      cases hadm.1
  | take =>
      have htaken : ∀ (e : Endpoint) (n : Nat), Sound { t with native := e } →
          Sound { t with native := e, taken := n } := fun _ _ h => ⟨h.1, h.2, h.3, h.4⟩
      refine htaken _ _ ?_
      cases hnext : t.nextCall with
      | none => exact h
      | some c =>
          obtain ⟨cmd, hcmd, hcall⟩ := Option.bind_eq_some_iff.mp hnext
          have hmem := List.mem_of_getElem? hcmd
          refine h.call ((h.grounded.commands cmd hmem).admissible hcall) (hkeep c hnext)
            fun id data r hc => ?_
          subst hc
          exact Command.call_write hcall ▸ hmem
  | dispatch =>
      show Sound (match t.native.ev[t.polled]? with
        | some v => { t with core := t.core.dispatch v.native, polled := t.polled + 1 }
        | none => t)
      split
      next v hv =>
        have hdispatched := h.adds (Adds.dispatch h.grounded (List.mem_of_getElem? hv))
        exact ⟨hdispatched.1, hdispatched.2, hdispatched.3, hdispatched.4⟩
      · exact h
  | discard =>
      show Sound (if t.polled < t.native.ev.length then { t with polled := t.polled + 1 } else t)
      split
      · exact ⟨h.1, h.2, h.3, h.4⟩
      · exact h
  | act a => exact h.adds (Adds.act h.grounded hadm)

omit [H3.Codec] in
theorem Sound.start {e : Endpoint} (h : Endpoint.Start e) : Sound { native := e } := by
  have hhistory : e.history = [] := by cases h <;> rfl
  refine ⟨h.layout, .start h, ⟨fun i o ho => ?_, fun r v hr => ?_, fun c hc => ?_,
    fun id data r hr => ?_, fun id data id' data' r hr => ?_⟩, fun id data r hr => ?_⟩
  · simp at ho
  · simp at hr
  · cases hc
  · cases hr
  · cases hr
  · simp [hhistory] at hr

/-- Every resolved write was accepted, in every run in which the native session
meets no write it would lose. -/
theorem writes_accepted {e : Endpoint} (hstart : Endpoint.Start e) {moves : List Move}
    (hrun : Along move (fun t m => t.Admissible m ∧ t.KeepsWrites m) { native := e } moves) :
    (execute move { native := e } moves).WritesAccepted :=
  (execute_invariant (I := Sound) (fun _ _ h hm => h.move hm.1 hm.2) (.start hstart) hrun).writesAccepted

/-! ## Concrete runs -/

instance (t : Transport) : (m : Move) → Decidable (t.Admissible m)
  | .native c => inferInstanceAs (Decidable (isCommand c = false ∧ t.native.Admissible c))
  | .act a => inferInstanceAs (Decidable (isOwn a = true))
  | .take | .dispatch | .discard => .isTrue trivial

instance (t : Transport) : (m : Move) → Decidable (t.KeepsWrites m)
  | .native _ => inferInstanceAs (Decidable (Along _ _ _ _))
  | .take => inferInstanceAs (Decidable (∀ c ∈ t.nextCall, Along _ _ t.native (t.native.steps c)))
  | .dispatch | .discard | .act _ => .isTrue trivial

/-- A stream is opened on a session of the server, and a write on it is handed to
the native session. -/
def writeRun : List Move :=
  Endpoint.serverHandshake.map .native ++
    [.act .attach, .act (.createStream false), .take, .native Endpoint.flushOnce, .dispatch, .dispatch,
      .act (.resume 1), .act (.sinkWrite 0 [1, 2]), .take]

omit [H3.Codec] in
theorem writeRun_keeps :
    letI := H3.Codec.plain
    Along move (fun t m => t.Admissible m ∧ t.KeepsWrites m) { native := Endpoint.sampleServer }
      (writeRun ++ [.native Endpoint.flushOnce, .dispatch]) := by decide +kernel

omit [H3.Codec] in
/-- The write is flushed, and its promise resolved. -/
theorem writes_accepted_sample :
    letI := H3.Codec.plain
    (execute move { native := Endpoint.sampleServer }
      (writeRun ++ [.native Endpoint.flushOnce, .dispatch])).WritesAccepted :=
  letI := H3.Codec.plain
  writes_accepted Endpoint.sampleServer_start writeRun_keeps

omit [H3.Codec] in
/-- The peer stops the stream before the write is flushed. -/
theorem not_writes_accepted :
    letI := H3.Codec.plain
    Along move Admissible { native := Endpoint.sampleServer }
        (writeRun ++ [.native (.network (.stopSending 15 5)), .native Endpoint.flushOnce, .dispatch,
          .dispatch]) ∧
      ¬(execute move { native := Endpoint.sampleServer }
        (writeRun ++ [.native (.network (.stopSending 15 5)), .native Endpoint.flushOnce, .dispatch,
          .dispatch])).WritesAccepted := by
  let _ := H3.Codec.plain
  refine ⟨by decide +kernel, fun h => ?_⟩
  have hissued : .write 15 [1, 2] 2 ∈ (execute move { native := Endpoint.sampleServer }
      (writeRun ++ [.native (.network (.stopSending 15 5)), .native Endpoint.flushOnce, .dispatch,
        .dispatch])).core.commands := by decide +kernel
  have hresolved : (execute move { native := Endpoint.sampleServer }
      (writeRun ++ [.native (.network (.stopSending 15 5)), .native Endpoint.flushOnce, .dispatch,
        .dispatch])).core.requests.get 2 = some (.resolved .done) := by decide +kernel
  have hdata : ((execute move { native := Endpoint.sampleServer }
      (writeRun ++ [.native (.network (.stopSending 15 5)), .native Endpoint.flushOnce, .dispatch,
        .dispatch])).native.conn.streams 15).send.data = Endpoint.streamSignal false := by decide +kernel
  generalize execute move { native := Endpoint.sampleServer } (writeRun ++
    [.native (.network (.stopSending 15 5)), .native Endpoint.flushOnce, .dispatch, .dispatch]) = t
    at h hissued hresolved hdata
  obtain ⟨l, hplaced, hmem⟩ := h 15
  rw [hdata] at hplaced
  exact absurd (hplaced.within (hmem [1, 2] 2 hissued hresolved)) (by decide)

end Transport

end Node

end RWebTransport
