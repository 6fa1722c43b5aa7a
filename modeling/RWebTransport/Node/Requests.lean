import RWebTransport.Node.Lifecycle

/-!
# The requests of a session object

Five maps hold the pending requests, under ids of one counter.  Seen from a
single id this is a life of three stages: the id is not issued, a request waits
under it in the map of its kind, the request is over.  `At.next` says what a
step does to the stage of every id at once, and `step_at` that every step of the
session object is of this form: a waiting request ends by the event that carries
its id, by a reset of its stream, or with the session.
-/

namespace RWebTransport.Node

/-! ## Requests -/

/-- What a pending request asks for, as its map keeps it. -/
inductive Request where
  | openStream
  | write (streamId : Nat)
  | datagram
  | stats
  | keyingMaterial
deriving DecidableEq, Repr

/-- What the end of the session makes of a request. -/
def Request.ended (error : WebTransportError) : Request → Settled Result
  | .datagram => .resolved (.sent false)
  | _ => .rejected error

/-- What an event says about a request. -/
structure Answer where
  requestId : Nat
  /-- The requests the event is meant for. -/
  isFor : Request → Bool
  outcome : Settled Result

/-- The acknowledgements among the events. -/
def NativeEvent.answer (droppedIncoming : Nat) : NativeEvent → Option Answer
  | .streamOpened requestId streamId =>
      some ⟨requestId, fun q => q == .openStream, .resolved (.stream streamId)⟩
  | .writeAck requestId =>
      some ⟨requestId, fun | .write _ => true | _ => false, .resolved .done⟩
  | .datagramAck requestId sent => some ⟨requestId, fun q => q == .datagram, .resolved (.sent sent)⟩
  | .stats requestId counters =>
      some ⟨requestId, fun q => q == .stats, .resolved (.stats counters droppedIncoming)⟩
  | .keyingMaterial requestId (some data) =>
      some ⟨requestId, fun q => q == .keyingMaterial, .resolved (.keyingMaterial data)⟩
  | .keyingMaterial requestId none =>
      some ⟨requestId, fun q => q == .keyingMaterial,
        .rejected ⟨"keying material export failed", .session, none⟩⟩
  | _ => none

/-! ## Stages -/

/-- The life of a request id. -/
inductive Stage where
  | unissued
  | waiting (request : Request)
  | ended (outcome : Settled Result)

/-- A step that issues `issue` under the id, and ends a waiting request as `fate`
says. -/
def Stage.next (issue : Option Request) (fate : Request → Option (Settled Result)) : Stage → Stage
  | .unissued => match issue with
      | some request => .waiting request
      | none => .unissued
  | .waiting request => match fate request with
      | some outcome => .ended outcome
      | none => .waiting request
  | .ended outcome => .ended outcome

namespace Registry

variable {r r' : Registry} {i : Nat}

/-- The request waits under the id, in the map of its kind. -/
def Files (r : Registry) (i : Nat) : Request → Prop
  | .openStream => r.opens.get i = some ()
  | .write streamId => r.writes.get i = some streamId
  | .datagram => r.datagramAcks.get i = some ()
  | .stats => r.statsRequests.get i = some ()
  | .keyingMaterial => r.keyingMaterialRequests.get i = some ()

/-- The stage of an id. -/
def At (r : Registry) (i : Nat) : Stage → Prop
  | .unissued => r.requests.get i = none ∧ ∀ q, ¬r.Files i q
  | .waiting request =>
      r.requests.get i = some .pending ∧ r.Files i request ∧ ∀ q, r.Files i q → q = request
  | .ended outcome =>
      r.requests.get i = some outcome ∧ outcome ≠ .pending ∧ ∀ q, ¬r.Files i q

/-- Every id has a stage, ids are issued in order, and nothing waits in a closed
session. -/
structure Ordered (r : Registry) : Prop where
  staged : ∀ i, ∃ stage, r.At i stage
  issued : ∀ i, r.requests.get i ≠ none → i < r.nextRequestId
  ended : r.closedState = true → ∀ i, r.requests.get i ≠ some .pending

theorem ordered_empty : Ordered {} := by
  refine ⟨fun i => ⟨.unissued, rfl, fun q hq => ?_⟩, fun i hi => absurd rfl hi, fun hc => by cases hc⟩
  cases q <;> cases hq

theorem Ordered.unissued (h : r.Ordered) {i : Nat} (hi : r.nextRequestId ≤ i) : r.At i .unissued := by
  obtain ⟨stage, hs⟩ := h.staged i
  have hlt : r.requests.get i ≠ none → False := fun hne => absurd (h.issued i hne) (by omega)
  cases stage with
  | unissued => exact hs
  | waiting request => exact absurd (hlt (by simp [hs.1])) id
  | ended outcome => exact absurd (hlt (by simp [hs.1])) id

/-- A request that waits in a map is pending, and waits there only. -/
theorem Ordered.waiting (h : r.Ordered) {i : Nat} {request : Request} (hf : r.Files i request) :
    r.At i (.waiting request) := by
  obtain ⟨stage, hs⟩ := h.staged i
  cases stage with
  | unissued => exact absurd hf (hs.2 request)
  | waiting other => exact hs.2.2 request hf ▸ hs
  | ended outcome => exact absurd hf (hs.2.2 request)

theorem files_iff {i : Nat} {request q : Request} (hs : r.At i (.waiting request)) :
    r.Files i q ↔ q = request :=
  ⟨hs.2.2 q, fun hq => hq ▸ hs.2.1⟩

theorem contains_unit_iff {t : Table Unit} {i : Nat} : t.contains i = true ↔ t.get i = some () :=
  Option.isSome_iff_exists.trans ⟨fun ⟨_, h⟩ => h, fun h => ⟨(), h⟩⟩

theorem contains_opens : r.opens.contains i = true ↔ r.Files i .openStream := contains_unit_iff

theorem contains_writes : r.writes.contains i = true ↔ ∃ streamId, r.Files i (.write streamId) :=
  Option.isSome_iff_exists

theorem contains_datagramAcks : r.datagramAcks.contains i = true ↔ r.Files i .datagram :=
  contains_unit_iff

theorem contains_statsRequests : r.statsRequests.contains i = true ↔ r.Files i .stats :=
  contains_unit_iff

theorem contains_keyingMaterialRequests :
    r.keyingMaterialRequests.contains i = true ↔ r.Files i .keyingMaterial :=
  contains_unit_iff

/-! ## Steps -/

/-- Every id moves on as `Stage.next` says. -/
structure Moves (r r' : Registry) (issue : Option Request)
    (fate : Nat → Request → Option (Settled Result)) : Prop where
  stages : ∀ i stage, r.At i stage →
    r'.At i (stage.next (if i = r.nextRequestId then issue else none) (fate i))
  next : r'.nextRequestId = r.nextRequestId + if issue.isSome then 1 else 0
  closed : r'.closedState = true →
    issue = none ∧ (r.closedState = true ∨ ∀ i q, fate i q ≠ none)

theorem Ordered.moves (h : r.Ordered) {issue : Option Request}
    {fate : Nat → Request → Option (Settled Result)} (hm : Moves r r' issue fate) : r'.Ordered := by
  refine ⟨fun i => ?_, fun i hi => ?_, fun hc i hp => ?_⟩
  · obtain ⟨stage, hs⟩ := h.staged i
    exact ⟨_, hm.stages i stage hs⟩
  · by_contra hlt
    have hnext := hm.next
    have hlater : r.nextRequestId ≤ i := by split at hnext <;> omega
    have hs := hm.stages i _ (h.unissued hlater)
    split at hs
    next heq =>
      cases issue with
      | none => exact hi hs.1
      | some request => simp only [Option.isSome_some, if_true] at hnext; omega
    · exact hi hs.1
  · obtain ⟨hissue, hend⟩ := hm.closed hc
    obtain ⟨stage, hs⟩ := h.staged i
    have hs' := hm.stages i stage hs
    simp only [hissue, ite_self] at hs'
    cases stage with
    | unissued => simp [hs'.1] at hp
    | waiting request =>
        rcases hend with hc | hend
        · exact h.ended hc i hs.1
        · simp only [Stage.next] at hs'
          split at hs'
          · exact hs'.2.1 (Option.some.inj (hs'.1.symm.trans hp))
          next hnone => exact hend i request hnone
    | ended outcome => exact hs'.2.1 (Option.some.inj (hs'.1.symm.trans hp))

theorem Stage.next_none (stage : Stage) : stage.next none (fun _ => none) = stage := by
  cases stage <;> rfl

/-- The requests are left alone. -/
theorem Moves.same (hrequests : r'.requests = r.requests) (hfiles : ∀ i q, r'.Files i q ↔ r.Files i q)
    (hnext : r'.nextRequestId = r.nextRequestId) (hclosed : r'.closedState = r.closedState) :
    Moves r r' none fun _ _ => none := by
  refine ⟨fun i stage hs => ?_, by simpa using hnext, fun hc => ⟨rfl, .inl (hclosed ▸ hc)⟩⟩
  rw [ite_self, Stage.next_none]
  cases stage with
  | unissued => exact ⟨hrequests ▸ hs.1, fun q hq => hs.2 q ((hfiles i q).mp hq)⟩
  | waiting request =>
      exact ⟨hrequests ▸ hs.1, (hfiles i request).mpr hs.2.1, fun q hq =>
        hs.2.2 q ((hfiles i q).mp hq)⟩
  | ended outcome => exact ⟨hrequests ▸ hs.1, hs.2.1, fun q hq => hs.2.2 q ((hfiles i q).mp hq)⟩

/-- A request is issued under the next id. -/
theorem Moves.issued (h : r.Ordered) (hopen : r'.closedState = false) {request : Request}
    (hrequests : r'.requests = r.requests.insert r.nextRequestId .pending)
    (hfiles : ∀ i q, r'.Files i q ↔ r.Files i q ∨ i = r.nextRequestId ∧ q = request)
    (hnext : r'.nextRequestId = r.nextRequestId + 1) :
    Moves r r' (some request) fun _ _ => none := by
  refine ⟨fun i stage hs => ?_, by simpa using hnext, fun hc => by simp [hopen] at hc⟩
  by_cases hi : i = r.nextRequestId
  · subst hi
    have hnone := (h.unissued le_rfl).1
    have hfree : ∀ q, r'.Files r.nextRequestId q ↔ q = request := fun q => by
      rw [hfiles]
      exact ⟨fun hq => hq.elim (fun hq => absurd hq ((h.unissued le_rfl).2 q)) And.right,
        fun hq => .inr ⟨rfl, hq⟩⟩
    cases stage with
    | unissued =>
        rw [if_pos rfl]
        exact ⟨by rw [hrequests, Table.get_insert_self], (hfree request).mpr rfl, fun q hq =>
          (hfree q).mp hq⟩
    | waiting _ => simp [hs.1] at hnone
    | ended _ => simp [hs.1] at hnone
  · have hget : r'.requests.get i = r.requests.get i := by rw [hrequests, Table.get_insert_ne hi]
    have hsame : ∀ q, r'.Files i q ↔ r.Files i q := fun q => by simp [hfiles, hi]
    rw [if_neg hi, Stage.next_none]
    cases stage with
    | unissued => exact ⟨hget.trans hs.1, fun q hq => hs.2 q ((hsame q).mp hq)⟩
    | waiting request =>
        exact ⟨hget.trans hs.1, (hsame request).mpr hs.2.1, fun q hq => hs.2.2 q ((hsame q).mp hq)⟩
    | ended outcome => exact ⟨hget.trans hs.1, hs.2.1, fun q hq => hs.2.2 q ((hsame q).mp hq)⟩

/-- The requests that `fate` picks are over, and leave their maps. -/
theorem Moves.ended {fate : Nat → Request → Option (Settled Result)}
    (hfiles : ∀ i q, r'.Files i q ↔ r.Files i q ∧ fate i q = none)
    (hover : ∀ i q v, r.Files i q → fate i q = some v → r.requests.get i = some .pending →
      r'.requests.get i = some v)
    (hsettled : ∀ i q v, r.Files i q → fate i q = some v → v ≠ .pending)
    (hkept : ∀ i, (∀ q, r.Files i q → fate i q = none) → r'.requests.get i = r.requests.get i)
    (hnext : r'.nextRequestId = r.nextRequestId)
    (hclosed : r'.closedState = true → r.closedState = true ∨ ∀ i q, fate i q ≠ none) :
    Moves r r' none fate := by
  refine ⟨fun i stage hs => ?_, by simpa using hnext, fun hc => ⟨rfl, hclosed hc⟩⟩
  rw [ite_self]
  cases stage with
  | unissued =>
      exact ⟨(hkept i fun q hq => absurd hq (hs.2 q)).trans hs.1, fun q hq =>
        hs.2 q ((hfiles i q).mp hq).1⟩
  | waiting request =>
      have honly : ∀ q, r'.Files i q → q = request ∧ fate i request = none := fun q hq => by
        obtain ⟨hq, hnone⟩ := (hfiles i q).mp hq
        exact ⟨hs.2.2 q hq, hs.2.2 q hq ▸ hnone⟩
      simp only [Stage.next]
      split
      next outcome hv =>
        exact ⟨hover i request outcome hs.2.1 hv hs.1, hsettled i request outcome hs.2.1 hv, fun q hq => by
          simp [(honly q hq).2] at hv⟩
      next hv =>
        refine ⟨(hkept i fun q hq => ?_).trans hs.1, (hfiles i request).mpr ⟨hs.2.1, hv⟩, fun q hq =>
          (honly q hq).1⟩
        rw [hs.2.2 q hq]
        exact hv
  | ended outcome =>
      exact ⟨(hkept i fun q hq => absurd hq (hs.2.2 q)).trans hs.1, hs.2.1, fun q hq =>
        hs.2.2 q ((hfiles i q).mp hq).1⟩

/-- The part of a session object that is about requests. -/
def requestPart (r : Registry) : Registry :=
  { r with receives := .empty, sends := .empty, objects := .empty, nextObject := 0, creating := .empty }

theorem files_requestPart (r : Registry) (i : Nat) (q : Request) :
    r.requestPart.Files i q ↔ r.Files i q := by
  cases q <;> exact Iff.rfl

theorem at_requestPart (r : Registry) (i : Nat) (stage : Stage) :
    r.requestPart.At i stage ↔ r.At i stage := by
  cases stage <;> simp only [At, files_requestPart] <;> exact Iff.rfl

theorem moves_requestPart {issue : Option Request} {fate : Nat → Request → Option (Settled Result)} :
    Moves r.requestPart r'.requestPart issue fate ↔ Moves r r' issue fate := by
  constructor
  · intro hm
    refine ⟨fun i stage hs => ?_, hm.next, hm.closed⟩
    rw [← at_requestPart]
    exact hm.stages i stage ((at_requestPart r i stage).mpr hs)
  · intro hm
    refine ⟨fun i stage hs => ?_, hm.next, hm.closed⟩
    rw [at_requestPart]
    exact hm.stages i stage ((at_requestPart r i stage).mp hs)

/-- Sinks and objects do not matter. -/
theorem Moves.congr {r₁ r₁' : Registry} {issue : Option Request}
    {fate : Nat → Request → Option (Settled Result)} (hm : Moves r r' issue fate)
    (h : r₁.requestPart = r.requestPart) (h' : r₁'.requestPart = r'.requestPart) :
    Moves r₁ r₁' issue fate := by
  rw [← moves_requestPart, h, h', moves_requestPart]
  exact hm

theorem Moves.fate_congr {issue : Option Request} {fate fate' : Nat → Request → Option (Settled Result)}
    (hm : Moves r r' issue fate) (h : ∀ i q, fate' i q = fate i q) : Moves r r' issue fate' :=
  (funext fun i => funext fun q => h i q : fate' = fate) ▸ hm

theorem Moves.rest (h : r'.requestPart = r.requestPart) : Moves r r' none fun _ _ => none :=
  (Moves.same rfl (fun _ _ => Iff.rfl) rfl rfl).congr (r := r) rfl h

/-- Puts a request into the map of its kind. -/
def file (r : Registry) (i : Nat) : Request → Registry
  | .openStream => { r with opens := r.opens.insert i () }
  | .write streamId => { r with writes := r.writes.insert i streamId }
  | .datagram => { r with datagramAcks := r.datagramAcks.insert i () }
  | .stats => { r with statsRequests := r.statsRequests.insert i () }
  | .keyingMaterial => { r with keyingMaterialRequests := r.keyingMaterialRequests.insert i () }

/-- Takes a request out of the map of its kind. -/
def unfile (r : Registry) (i : Nat) : Request → Registry
  | .openStream => { r with opens := r.opens.erase i }
  | .write _ => { r with writes := r.writes.erase i }
  | .datagram => { r with datagramAcks := r.datagramAcks.erase i }
  | .stats => { r with statsRequests := r.statsRequests.erase i }
  | .keyingMaterial => { r with keyingMaterialRequests := r.keyingMaterialRequests.erase i }

theorem files_file {i j : Nat} {request q : Request} (hfree : ∀ q, ¬r.Files i q) :
    (r.file i request).Files j q ↔ r.Files j q ∨ j = i ∧ q = request := by
  by_cases hj : j = i
  · subst hj
    have hq := hfree q
    cases request <;> cases q <;> simp_all [file, Files, eq_comm]
  · cases request <;> cases q <;> simp [file, Files, Table.get_insert_ne hj, hj]

theorem files_unfile {i j : Nat} {request q : Request} (hs : r.At i (.waiting request)) :
    (r.unfile i request).Files j q ↔ r.Files j q ∧ j ≠ i := by
  by_cases hj : j = i
  · subst hj
    have hq := hs.2.2 q
    cases request <;> cases q <;> simp_all [unfile, Files, Table.get_erase]
  · cases request <;> cases q <;> simp [unfile, Files, Table.get_erase, hj]

theorem Moves.request (h : r.Ordered) (hopen : r.closedState = false) (request : Request) :
    Moves r
      { r.file r.nextRequestId request with
        nextRequestId := r.nextRequestId + 1
        requests := r.requests.insert r.nextRequestId .pending }
      (some request) fun _ _ => none := by
  refine Moves.issued h ?_ rfl (fun i q => ?_) rfl
  · cases request <;> exact hopen
  · rw [← files_file (h.unissued le_rfl).2]
    cases q <;> exact Iff.rfl

theorem Moves.answer (h : r.Ordered) {i : Nat} {request : Request} (hf : r.Files i request)
    {isFor : Request → Bool} (hfor : isFor request = true) {outcome : Settled Result}
    (hne : outcome ≠ .pending) {f : Settled Result → Settled Result} (hout : f .pending = outcome) :
    Moves r { r.unfile i request with requests := r.requests.modify i f } none
      fun j q => if i = j ∧ isFor q = true then some outcome else none := by
  have hs := h.waiting hf
  refine Moves.ended (fun j q => ?_) (fun j q v hq hv hp => ?_) (fun j q v _ hv => ?_) (fun j hj => ?_)
    ?_ fun hc => .inl ?_
  · have hsame : ({ r.unfile i request with requests := r.requests.modify i f } : Registry).Files j q ↔
        (r.unfile i request).Files j q := by cases q <;> exact Iff.rfl
    rw [hsame, files_unfile hs]
    refine and_congr_right fun hq => ?_
    by_cases hj : j = i
    · subst hj
      simp [hs.2.2 q hq, hfor]
    · simp [hj, Ne.symm hj]
  · split at hv
    next hj =>
      obtain rfl := Option.some.inj hv
      obtain rfl := hj.1
      simp [hp, hout]
    · cases hv
  · split at hv
    · exact Option.some.inj hv ▸ hne
    · cases hv
  · refine Table.get_modify_ne fun hji => ?_
    subst hji
    simpa [hfor] using hj request hf
  · cases request <;> rfl
  · cases request <;> exact hc

/-- Nobody waits for the outcomes. -/
theorem Moves.unanswered {fate : Nat → Request → Option (Settled Result)}
    (hnone : ∀ i q, r.Files i q → fate i q = none) : Moves r r none fate :=
  Moves.ended (fun i q => ⟨fun hq => ⟨hq, hnone i q hq⟩, And.left⟩)
    (fun i q v hq hv => by simp [hnone i q hq] at hv)
    (fun i q v hq hv => by simp [hnone i q hq] at hv) (fun _ _ => rfl) rfl .inl

/-- In a closed session no request waits for a fate. -/
theorem Moves.closed_any (h : r.Ordered) (hc : r.closedState = true)
    (hm : Moves r r' none fun _ _ => none) (fate : Nat → Request → Option (Settled Result)) :
    Moves r r' none fate := by
  refine ⟨fun i stage hs => ?_, hm.next, fun _ => ⟨rfl, .inl hc⟩⟩
  have hs' := hm.stages i stage hs
  cases stage with
  | unissued => exact hs'
  | waiting request => exact absurd hs.1 (h.ended hc i)
  | ended outcome => exact hs'

end Registry

/-! ## The session object -/

namespace SessionCore

variable {s : SessionCore}

/-- A step of the event loop, or a direct call of one of the methods that the
stream objects call. -/
inductive Step where
  | app (a : Act)
  | write (streamId : Nat) (chunk : Bytes)
  | resetStream (streamId code : Nat)
  | abort (message : String)

def step (s : SessionCore) : Step → SessionCore
  | .app a => s.act a
  | .write streamId chunk => s.write streamId chunk
  | .resetStream streamId code => s.resetStream streamId code
  | .abort message => s.abort message

/-- The promise a call returns. -/
inductive Promise where
  /-- The promise of a new request. -/
  | request (requestId : Nat) (request : Request)
  /-- A promise that is settled already. -/
  | settled (outcome : Settled Result)
  /-- A rejection with a `RangeError`. -/
  | rangeError (message : String)

/-- A request of a usable session, or the answer of a dead one. -/
def ask (s : SessionCore) (request : Request) (dead : Settled Result) : Promise :=
  if s.usable then .request s.nextRequestId request else .settled dead

/-- What a step returns, if it is one of the calls with a promise. -/
def returns (s : SessionCore) : Step → Option Promise
  | .app (.createStream _) => some (s.ask .openStream (.rejected deadError))
  | .app (.sinkWrite object _) =>
      (s.activeObject object .send).map fun o => s.ask (.write o.streamId) (.rejected deadError)
  | .write streamId _ => some (s.ask (.write streamId) (.rejected deadError))
  | .app (.sendDatagram _) => some (s.ask .datagram (.resolved (.sent false)))
  | .app .getStats => some (s.ask .stats (match s.failedState, s.lastStats with
      | false, some (counters, dropped) => .resolved (.stats counters dropped)
      | _, _ => .rejected deadError))
  | .app (.exportKeyingMaterial _ _ length) =>
      if length < 1 ∨ 4096 < length then
        some (.rangeError "outputLength must be an integer between 1 and 4096")
      else some (s.ask .keyingMaterial (.rejected deadError))
  | _ => none

/-- The request a step issues. -/
def issues (s : SessionCore) (a : Step) : Option Request :=
  match s.returns a with
  | some (.request _ request) => some request
  | _ => none

/-- The acknowledgement a step delivers. -/
def answers (s : SessionCore) : Step → Option Answer
  | .app (.dispatch ev) => ev.answer s.droppedIncomingDatagrams
  | _ => none

/-- The stream that a step resets, with the code: `resetStream`, or one of its
callers. -/
def resets (s : SessionCore) : Step → Option (Nat × Nat)
  | .resetStream streamId code => some (streamId, code)
  | .app (.sinkAbort object error) =>
      (s.activeObject object .send).map fun o => (o.streamId, error.streamErrorCode.getD 0)
  | .app (.dispatch (.stream streamId true)) =>
      if s.incomingCancelled true then some (streamId, 0) else none
  | _ => none

/-- The error a step ends the session with. -/
def ends (s : SessionCore) : Step → Option WebTransportError
  | .app (.failSetup message) | .app (.dispatch (.error message)) | .abort message =>
      some ⟨message, .session, none⟩
  | .app (.dispatch (.closed _ _)) => some ⟨"session closed", .session, none⟩
  | .app (.dispatch (.stream _ bidi)) =>
      if s.incomingCancelled bidi = false ∧ maxPendingIncomingStreams ≤ s.incoming bidi then
        some ⟨if bidi then "incoming stream queue limit exceeded (bidirectional)"
          else "incoming stream queue limit exceeded (unidirectional)", .session, none⟩
      else none
  | _ => none

/-- The outcome a step gives to a request that waits under `i`. -/
def fate (s : SessionCore) (a : Step) (i : Nat) (request : Request) : Option (Settled Result) :=
  match s.ends a, s.resets a, s.answers a with
  | some error, _, _ => some (request.ended error)
  | none, some (streamId, code), _ =>
      if request = .write streamId then
        some (.rejected ⟨"stream aborted", .stream, some (code % 2 ^ 32)⟩)
      else none
  | none, none, some answer =>
      if answer.requestId = i ∧ answer.isFor request = true then some answer.outcome else none
  | none, none, none => none

/-! ### What the methods do to the requests -/

open Registry (Moves Ordered)

@[simp] theorem requestPart_construct (s : SessionCore) (streamId : Nat) (half : Half) :
    (s.construct streamId half).requestPart = s.requestPart := by
  cases half <;> rfl

@[simp] theorem requestPart_modifyObject (s : SessionCore) (object : Nat)
    (f : StreamObject → StreamObject) : (s.modifyObject object f).requestPart = s.requestPart := rfl

@[simp] theorem requestPart_unregisterReceive (s : SessionCore) (streamId : Nat) :
    (s.unregisterReceive streamId).requestPart = s.requestPart := rfl

@[simp] theorem requestPart_unregisterSend (s : SessionCore) (streamId : Nat) :
    (s.unregisterSend streamId).requestPart = s.requestPart := rfl

@[simp] theorem requestPart_close (s : SessionCore) (code : Nat) (reason : String) :
    (s.close code reason).requestPart = s.requestPart := by
  unfold close
  split
  · rfl
  · rw [toRegistry_command]

@[simp] theorem requestPart_resume (s : SessionCore) (requestId : Nat) :
    (s.resume requestId).requestPart = s.requestPart := by
  unfold resume constructOwn
  split
  · split <;> simp only [requestPart_construct] <;> rfl
  · rfl
  · rfl

/-- What a sink does with stream data leaves the requests alone. -/
theorem requestPart_withSink (s : SessionCore) (sinks : Table Nat) (streamId : Nat)
    {f : Nat → StreamObject → SessionCore} (hf : ∀ i o, (f i o).requestPart = s.requestPart) :
    (s.withSink sinks streamId f).requestPart = s.requestPart := by
  unfold withSink
  split
  · rfl
  · split
    · rfl
    · exact hf _ _

theorem moves_createStream (h : s.Ordered) (bidi : Bool) (hu : s.usable = true) :
    Moves s.toRegistry (s.createStream bidi).toRegistry (some .openStream) fun _ _ => none := by
  refine (Moves.request h (open_of_usable hu) .openStream).congr rfl ?_
  rw [createStream, if_neg (by simp [hu])]
  simp [newRequest, Registry.requestPart, Registry.file]

theorem moves_write (h : s.Ordered) (streamId : Nat) (chunk : Bytes) (hu : s.usable = true) :
    Moves s.toRegistry (s.write streamId chunk).toRegistry (some (.write streamId)) fun _ _ => none := by
  refine (Moves.request h (open_of_usable hu) (.write streamId)).congr rfl ?_
  rw [write, if_neg (by simp [hu])]
  simp [newRequest, Registry.requestPart, Registry.file]

theorem moves_sendDatagram (h : s.Ordered) (chunk : Bytes) (hu : s.usable = true) :
    Moves s.toRegistry (s.sendDatagram chunk).toRegistry (some .datagram) fun _ _ => none := by
  refine (Moves.request h (open_of_usable hu) .datagram).congr rfl ?_
  rw [sendDatagram, if_neg (by simp [hu])]
  simp [newRequest, Registry.requestPart, Registry.file]

theorem moves_getStats (h : s.Ordered) (hu : s.usable = true) :
    Moves s.toRegistry s.getStats.toRegistry (some .stats) fun _ _ => none := by
  refine (Moves.request h (open_of_usable hu) .stats).congr rfl ?_
  rw [getStats, if_neg (by simp [hu])]
  simp [newRequest, Registry.requestPart, Registry.file]

theorem moves_exportKeyingMaterial (h : s.Ordered) (label context : Bytes) {length : Nat}
    (hlength : ¬(length < 1 ∨ 4096 < length)) (hu : s.usable = true) :
    Moves s.toRegistry (s.exportKeyingMaterial label context length).toRegistry
      (some .keyingMaterial) fun _ _ => none := by
  refine (Moves.request h (open_of_usable hu) .keyingMaterial).congr rfl ?_
  rw [exportKeyingMaterial, if_neg (by simp only [not_or] at hlength ⊢; exact ⟨hlength.1, hlength.2, by simp [hu]⟩)]
  simp [newRequest, Registry.requestPart, Registry.file]

/-- `resetStream` rejects the writes of its stream. -/
theorem moves_resetStream (s : SessionCore) (streamId code : Nat) :
    Moves s.toRegistry (s.resetStream streamId code).toRegistry none fun _ q =>
      if q = .write streamId then some (.rejected ⟨"stream aborted", .stream, some (code % 2 ^ 32)⟩)
      else none := by
  have hrequests : (s.resetStream streamId code).requests =
      s.requests.modifyIf (fun i => s.writes.get i == some streamId) fun p =>
        p.reject ⟨"stream aborted", .stream, some (code % 2 ^ 32)⟩ := by
    simp only [resetStream, toRegistry_command]
  have hwrites : ∀ i q, (s.resetStream streamId code).Files i q ↔
      s.Files i q ∧ q ≠ .write streamId := by
    intro i q
    cases q with
    | write other =>
        simp only [Registry.Files, resetStream, toRegistry_command, Table.get_filter]
        rw [Option.filter_eq_some_iff]
        simp
    | _ => simp [Registry.Files, resetStream]
  refine Moves.ended (fun i q => ?_) (fun i q v hq hv hp => ?_) (fun i q v _ hv => ?_)
    (fun i hi => ?_) (by simp [resetStream]) fun hc => .inl (by simpa [resetStream] using hc)
  · rw [hwrites]
    simp
  · split at hv
    next hw =>
      subst hw
      have hget : s.writes.get i = some streamId := hq
      rw [hrequests, Table.get_modifyIf, if_pos (by simp [hget]), hp, ← Option.some.inj hv]
      rfl
    · cases hv
  · split at hv
    · rw [← Option.some.inj hv]
      simp
    · cases hv
  · rw [hrequests, Table.get_modifyIf, if_neg]
    intro hw
    have hf : s.Files i (.write streamId) := by simpa [Registry.Files] using hw
    simpa using hi (.write streamId) hf

/-- The registry behind `finish`. -/
theorem finish_registry (hopen : s.closedState = false) (info : Option CloseInfo)
    (error : Option WebTransportError) :
    (s.finish info error).toRegistry =
      (({ s with closedState := true } : SessionCore).settleAll
        (error.getD ⟨"session closed", .session, none⟩)).toRegistry := by
  rw [finish, if_neg (by simp [hopen]), toRegistry_command]
  exact settleAll_congr (toRegistry_settleLifecycle _ info error) _

theorem settleAll_requests (s : SessionCore) (error : WebTransportError) {i : Nat} {request : Request}
    (hs : s.At i (.waiting request)) :
    (s.settleAll error).requests.get i = some (request.ended error) := by
  have hdatagram : s.datagramAcks.contains i = decide (request = .datagram) := by
    rw [Bool.eq_iff_iff, Registry.contains_datagramAcks, Registry.files_iff hs]
    simp [eq_comm]
  have hothers : (s.opens.contains i || s.writes.contains i || s.statsRequests.contains i ||
      s.keyingMaterialRequests.contains i) = decide (request ≠ .datagram) := by
    rw [Bool.eq_iff_iff]
    simp only [Bool.or_eq_true, Registry.contains_opens, Registry.contains_writes,
      Registry.contains_statsRequests, Registry.contains_keyingMaterialRequests, Registry.files_iff hs]
    cases request <;> simp
  simp only [settleAll, Table.get_modifyIf, hs.1, hdatagram, hothers]
  cases request <;> simp [Settled.reject, Settled.resolve, Request.ended]

theorem settleAll_kept (s : SessionCore) (error : WebTransportError) {i : Nat}
    (hfree : ∀ q, ¬s.Files i q) : (s.settleAll error).requests.get i = s.requests.get i := by
  have hdatagram : ¬s.datagramAcks.contains i = true := by
    rw [Registry.contains_datagramAcks]
    exact hfree _
  have hothers : ¬(s.opens.contains i || s.writes.contains i || s.statsRequests.contains i ||
      s.keyingMaterialRequests.contains i) = true := by
    simp only [Bool.or_eq_true, Registry.contains_opens, Registry.contains_writes,
      Registry.contains_statsRequests, Registry.contains_keyingMaterialRequests, hfree]
    simp
  simp only [settleAll, Table.get_modifyIf]
  rw [if_neg hdatagram, if_neg hothers]

/-- `finish` settles everything. -/
theorem moves_finish (h : s.Ordered) (hopen : s.closedState = false) (info : Option CloseInfo)
    (error : Option WebTransportError) :
    Moves s.toRegistry (s.finish info error).toRegistry none fun _ q =>
      some (q.ended (error.getD ⟨"session closed", .session, none⟩)) := by
  rw [finish_registry hopen]
  have hat : ∀ i stage, ({ s with closedState := true } : SessionCore).At i stage ↔ s.At i stage :=
    fun i stage => by cases stage <;> exact Iff.rfl
  refine Moves.ended (fun i q => ⟨fun hq => ?_, fun hq => by cases hq.2⟩) (fun i q v hq hv hp => ?_)
    (fun i q v _ hv => ?_) (fun i hi => ?_) rfl fun _ => .inr fun i q => by simp
  · cases q <;> cases hq
  · rw [← Option.some.inj hv]
    exact settleAll_requests _ _ ((hat i _).mpr (h.waiting hq))
  · rw [← Option.some.inj hv]
    cases q <;> simp [Request.ended]
  · refine settleAll_kept _ _ fun q hq => ?_
    have hq : s.Files i q := by cases q <;> exact hq
    simpa using hi q hq

/-! ### Every step -/

/-- A call of the application: a request of a usable session, nothing in a dead
one. -/
theorem moves_ask {a : Step} {r' : Registry} {request : Request} {dead : Settled Result}
    (hreturns : s.returns a = some (s.ask request dead))
    (hlive : s.usable = true → Moves s.toRegistry r' (some request) fun _ _ => none)
    (hdead : s.usable ≠ true → r' = s.toRegistry) :
    Moves s.toRegistry r' (s.issues a) fun _ _ => none := by
  rw [issues, hreturns, ask]
  by_cases hu : s.usable = true
  · simp only [hu, if_true]
    exact hlive hu
  · simp only [if_neg hu, hdead hu]
    exact Moves.rest rfl

theorem fate_ends {a : Step} {error : WebTransportError} (h : s.ends a = some error) (i : Nat)
    (q : Request) : s.fate a i q = some (q.ended error) := by
  rw [fate, h]

theorem fate_resets {a : Step} {streamId code : Nat} (h : s.ends a = none)
    (hr : s.resets a = some (streamId, code)) (i : Nat) (q : Request) :
    s.fate a i q = if q = .write streamId then
      some (.rejected ⟨"stream aborted", .stream, some (code % 2 ^ 32)⟩) else none := by
  rw [fate, h, hr]

theorem fate_answers {a : Step} {answer : Answer} (h : s.ends a = none) (hr : s.resets a = none)
    (ha : s.answers a = some answer) (i : Nat) (q : Request) :
    s.fate a i q = if answer.requestId = i ∧ answer.isFor q = true then some answer.outcome
      else none := by
  rw [fate, h, hr, ha]

theorem fate_none {a : Step} (h : s.ends a = none) (hr : s.resets a = none)
    (ha : s.answers a = none) (i : Nat) (q : Request) : s.fate a i q = none := by
  rw [fate, h, hr, ha]

theorem moves_abort (h : s.Ordered) (message : String) :
    Moves s.toRegistry (s.abort message).toRegistry none fun _ q =>
      some (q.ended ⟨message, .session, none⟩) := by
  unfold abort
  split
  next hc => exact Moves.closed_any h hc (Moves.rest rfl) _
  next hc =>
    have hopen : (s.close 0 message).closedState = false :=
      (congrArg Registry.closedState (requestPart_close s 0 message)).trans
        ((Bool.not_eq_true _).mp hc)
    have hclose : (s.close 0 message).Ordered := h.moves (Moves.rest (requestPart_close s 0 message))
    exact (moves_finish hclose hopen none _).congr (requestPart_close s 0 message).symm rfl

theorem moves_onIncoming (h : s.Ordered) (streamId : Nat) (bidi : Bool) :
    Moves s.toRegistry (s.onIncoming streamId bidi).toRegistry none
      (s.fate (.app (.dispatch (.stream streamId bidi)))) := by
  have hstop : (s.stopSending streamId 0).requestPart = s.requestPart := by
    rw [stopSending, toRegistry_command]
  unfold onIncoming
  split
  next hcancelled =>
    have hends : s.ends (.app (.dispatch (.stream streamId bidi))) = none := by
      simp [ends, hcancelled]
    cases bidi with
    | true =>
        exact ((moves_resetStream (s.stopSending streamId 0) streamId 0).congr hstop.symm rfl).fate_congr
          (fate_resets hends (by simp [resets, hcancelled]))
    | false => exact (Moves.rest hstop).fate_congr (fate_none hends rfl rfl)
  next hcancelled =>
    split
    next hfull =>
      refine (moves_abort h _).fate_congr (fate_ends ?_)
      simp [ends, hcancelled, hfull]
    next hfull =>
      have hends : s.ends (.app (.dispatch (.stream streamId bidi))) = none := by
        simp [ends, hfull]
      have hresets : s.resets (.app (.dispatch (.stream streamId bidi))) = none := by
        cases bidi <;> simp [resets, hcancelled]
      refine (Moves.rest ?_).fate_congr (fate_none hends hresets rfl)
      have hreceive := requestPart_construct s streamId .receive
      have hsend := requestPart_construct (s.construct streamId .receive) streamId .send
      cases bidi with
      | true => exact hsend.trans hreceive
      | false => exact hreceive

/-- An acknowledgement ends the request it is meant for, if that waits. -/
theorem moves_acknowledge (h : s.Ordered) {a : Step} {answer : Answer} {r' : Registry}
    (hends : s.ends a = none) (hresets : s.resets a = none) (ha : s.answers a = some answer)
    (hne : answer.outcome ≠ .pending)
    (hwaits : ∀ q, s.Files answer.requestId q → answer.isFor q = true →
      ∃ f : Settled Result → Settled Result, f .pending = answer.outcome ∧
        r' = { s.unfile answer.requestId q with requests := s.requests.modify answer.requestId f })
    (hunknown : (∀ q, s.Files answer.requestId q → answer.isFor q = false) → r' = s.toRegistry) :
    Moves s.toRegistry r' none (s.fate a) := by
  refine Moves.fate_congr (?_ : Moves s.toRegistry r' none fun i q =>
    if answer.requestId = i ∧ answer.isFor q = true then some answer.outcome else none)
    (fate_answers hends hresets ha)
  by_cases hw : ∃ q, s.Files answer.requestId q ∧ answer.isFor q = true
  · obtain ⟨q, hq, hfor⟩ := hw
    obtain ⟨f, hf, rfl⟩ := hwaits q hq hfor
    exact Moves.answer h hq hfor hne hf
  · have hnone : ∀ q, s.Files answer.requestId q → answer.isFor q = false := fun q hq =>
      (Bool.not_eq_true _).mp fun hfor => hw ⟨q, hq, hfor⟩
    rw [hunknown hnone]
    refine Moves.unanswered fun i q hq => if_neg ?_
    rintro ⟨rfl, hfor⟩
    simp [hnone q hq] at hfor

theorem moves_dispatch (h : s.Ordered) (ev : NativeEvent) :
    Moves s.toRegistry (s.dispatch ev).toRegistry none (s.fate (.app (.dispatch ev))) := by
  by_cases hc : s.closedState = true
  · rw [dispatch.eq_def, if_pos hc]
    exact Moves.closed_any h hc (Moves.rest rfl) _
  have hopen : s.closedState = false := (Bool.not_eq_true _).mp hc
  rw [dispatch.eq_def, if_neg hc]
  cases ev with
  | ready | serverReady | draining | datagram =>
      exact (Moves.rest rfl).fate_congr (fate_none rfl rfl rfl)
  | closed code reason => exact (moves_finish h hopen _ _).fate_congr (fate_ends rfl)
  | error message => exact (moves_finish h hopen _ _).fate_congr (fate_ends rfl)
  | stream streamId bidi => exact moves_onIncoming h streamId bidi
  | streamData streamId data =>
      refine (Moves.rest (requestPart_withSink s _ _ fun i o => ?_)).fate_congr (fate_none rfl rfl rfl)
      unfold onData
      simp only
      split
      · rw [setPaused, toRegistry_command]
        rfl
      · rfl
  | streamFin streamId =>
      refine (Moves.rest (requestPart_withSink s _ _ fun i o => ?_)).fate_congr (fate_none rfl rfl rfl)
      rfl
  | streamReset streamId code =>
      refine (Moves.rest (requestPart_withSink s _ _ fun i o => ?_)).fate_congr (fate_none rfl rfl rfl)
      rfl
  | streamStopSending streamId code =>
      refine (Moves.rest (requestPart_withSink s _ _ fun i o => ?_)).fate_congr (fate_none rfl rfl rfl)
      rfl
  | streamOpened requestId streamId =>
      refine moves_acknowledge h rfl rfl rfl (by simp) (fun q hq hfor => ?_) fun hnone => ?_
      · obtain rfl : q = .openStream := by simpa using hfor
        have hw : s.opens.contains requestId = true := Registry.contains_opens.mpr hq
        exact ⟨fun p => p.resolve (.stream streamId), rfl, by simp only [hw, if_true]; rfl⟩
      · have hw : ¬s.opens.contains requestId = true := fun hw => by
          simpa using hnone _ (Registry.contains_opens.mp hw)
        simp only [if_neg hw]
  | writeAck requestId =>
      refine moves_acknowledge h rfl rfl rfl (by simp) (fun q hq hfor => ?_) fun hnone => ?_
      · cases q with
        | write streamId =>
            have hw : s.writes.contains requestId = true := Registry.contains_writes.mpr ⟨streamId, hq⟩
            exact ⟨fun p => p.resolve .done, rfl, by simp only [hw, if_true]; rfl⟩
        | _ => cases hfor
      · have hw : ¬s.writes.contains requestId = true := fun hw => by
          obtain ⟨streamId, hq⟩ := Registry.contains_writes.mp hw
          cases hnone _ hq
        simp only [if_neg hw]
  | datagramAck requestId sent =>
      refine moves_acknowledge h rfl rfl rfl (by simp) (fun q hq hfor => ?_) fun hnone => ?_
      · obtain rfl : q = .datagram := by simpa using hfor
        have hw : s.datagramAcks.contains requestId = true := Registry.contains_datagramAcks.mpr hq
        exact ⟨fun p => p.resolve (.sent sent), rfl, by simp only [hw, if_true]; rfl⟩
      · have hw : ¬s.datagramAcks.contains requestId = true := fun hw => by
          simpa using hnone _ (Registry.contains_datagramAcks.mp hw)
        simp only [if_neg hw]
  | stats requestId counters =>
      refine moves_acknowledge h rfl rfl rfl (by simp) (fun q hq hfor => ?_) fun hnone => ?_
      · obtain rfl : q = .stats := by simpa using hfor
        have hw : s.statsRequests.contains requestId = true := Registry.contains_statsRequests.mpr hq
        exact ⟨fun p => p.resolve (.stats counters s.droppedIncomingDatagrams), rfl, by
          simp only [hw, if_true]; rfl⟩
      · have hw : ¬s.statsRequests.contains requestId = true := fun hw => by
          simpa using hnone _ (Registry.contains_statsRequests.mp hw)
        simp only [if_neg hw]
  | keyingMaterial requestId data =>
      have hwaits : ∀ q, s.Files requestId q → (q == .keyingMaterial) = true →
          q = .keyingMaterial ∧ s.keyingMaterialRequests.contains requestId = true := by
        intro q hq hfor
        obtain rfl : q = .keyingMaterial := by simpa using hfor
        exact ⟨rfl, Registry.contains_keyingMaterialRequests.mpr hq⟩
      have hunknown : (∀ q, s.Files requestId q → (q == .keyingMaterial) = false) →
          ¬s.keyingMaterialRequests.contains requestId = true := fun hnone hw => by
        simpa using hnone _ (Registry.contains_keyingMaterialRequests.mp hw)
      cases data with
      | some data =>
          refine moves_acknowledge h rfl rfl rfl (by simp) (fun q hq hfor => ?_) fun hnone => ?_
          · obtain ⟨rfl, hw⟩ := hwaits q hq hfor
            exact ⟨fun p => p.resolve (.keyingMaterial data), rfl, by simp only [hw, if_true]; rfl⟩
          · simp only [if_neg (hunknown hnone)]
      | none =>
          refine moves_acknowledge h rfl rfl rfl (by simp) (fun q hq hfor => ?_) fun hnone => ?_
          · obtain ⟨rfl, hw⟩ := hwaits q hq hfor
            exact ⟨fun p => p.reject ⟨"keying material export failed", .session, none⟩, rfl, by
              simp only [hw, if_true]; rfl⟩
          · simp only [if_neg (hunknown hnone)]

theorem moves_finishAny (h : s.Ordered) (info : Option CloseInfo) (error : Option WebTransportError) :
    Moves s.toRegistry (s.finish info error).toRegistry none fun _ q =>
      some (q.ended (error.getD ⟨"session closed", .session, none⟩)) := by
  by_cases hc : s.closedState = true
  · rw [finish, if_pos hc]
    exact Moves.closed_any h hc (Moves.rest rfl) _
  · exact moves_finish h ((Bool.not_eq_true _).mp hc) info error

theorem write_dead (hu : s.usable ≠ true) (streamId : Nat) (chunk : Bytes) :
    s.write streamId chunk = s := by
  rw [write, if_pos (by simpa using hu)]

/-- Every step moves the requests on, as `issues` and `fate` say. -/
theorem step_moves (h : s.Ordered) (a : Step) :
    Moves s.toRegistry (s.step a).toRegistry (s.issues a) (s.fate a) := by
  cases a with
  | write streamId chunk =>
      refine moves_ask rfl (moves_write h streamId chunk) fun hu => ?_
      rw [step, write_dead hu]
  | resetStream streamId code =>
      exact (moves_resetStream s streamId code).fate_congr (fate_resets rfl rfl)
  | abort message => exact (moves_abort h message).fate_congr (fate_ends rfl)
  | app a =>
      cases a with
      | attach | takeIncoming | cancelIncoming | recordDroppedIncomingDatagram =>
          exact (Moves.rest rfl).fate_congr (fate_none rfl rfl rfl)
      | failSetup message => exact (moves_finishAny h none _).fate_congr (fate_ends rfl)
      | dispatch ev => exact moves_dispatch h ev
      | createStream bidi =>
          refine moves_ask rfl (moves_createStream h bidi) fun hu => ?_
          rw [step, act, createStream, if_pos (by simpa using hu)]
      | resume requestId =>
          exact (Moves.rest (requestPart_resume s requestId)).fate_congr (fate_none rfl rfl rfl)
      | sinkWrite object chunk =>
          cases ho : s.activeObject object .send with
          | some o =>
              have hstep : s.step (.app (.sinkWrite object chunk)) = s.write o.streamId chunk := by
                simp only [step, act, sinkWrite, ho]
              have hreturns : s.returns (.app (.sinkWrite object chunk)) =
                  some (s.ask (.write o.streamId) (.rejected deadError)) := by
                simp only [returns, ho, Option.map_some]
              rw [hstep]
              refine moves_ask hreturns (moves_write h o.streamId chunk) fun hu => ?_
              rw [write_dead hu]
          | none =>
              have hstep : s.step (.app (.sinkWrite object chunk)) = s := by
                simp only [step, act, sinkWrite, ho]
              have hissues : s.issues (.app (.sinkWrite object chunk)) = none := by
                simp only [issues, returns, ho, Option.map_none]
              rw [hstep, hissues]
              exact (Moves.rest rfl).fate_congr (fate_none rfl rfl rfl)
      | sinkClose object =>
          refine (Moves.rest ?_).fate_congr (fate_none rfl rfl rfl)
          simp only [step, act, sinkClose]
          split
          · rw [requestPart_unregisterSend, requestPart_modifyObject, finStream, toRegistry_command]
          · rfl
      | sinkAbort object error =>
          cases ho : s.activeObject object .send with
          | some o =>
              have hstep : (s.step (.app (.sinkAbort object error))).requestPart =
                  (s.resetStream o.streamId (error.streamErrorCode.getD 0)).requestPart := by
                simp only [step, act, sinkAbort, ho, requestPart_unregisterSend,
                  requestPart_modifyObject]
              refine ((moves_resetStream s o.streamId _).congr rfl hstep).fate_congr
                (fate_resets rfl ?_)
              simp only [resets, ho, Option.map_some]
          | none =>
              have hstep : s.step (.app (.sinkAbort object error)) = s := by
                simp only [step, act, sinkAbort, ho]
              have hresets : s.resets (.app (.sinkAbort object error)) = none := by
                simp only [resets, ho, Option.map_none]
              rw [hstep]
              exact (Moves.rest rfl).fate_congr (fate_none rfl hresets rfl)
      | sourceCancel object code =>
          refine (Moves.rest ?_).fate_congr (fate_none rfl rfl rfl)
          simp only [step, act, sourceCancel]
          split
          · rw [requestPart_unregisterReceive, requestPart_modifyObject, stopSending, toRegistry_command]
          · rfl
      | sourceRead object =>
          refine (Moves.rest ?_).fate_congr (fate_none rfl rfl rfl)
          simp only [step, act, sourceRead]
          split
          · rw [setPaused, toRegistry_command, requestPart_modifyObject]
          · rfl
      | sendDatagram chunk =>
          refine moves_ask rfl (moves_sendDatagram h chunk) fun hu => ?_
          rw [step, act, sendDatagram, if_pos (by simpa using hu)]
      | getStats =>
          refine moves_ask rfl (moves_getStats h) fun hu => ?_
          rw [step, act, getStats, if_pos (by simpa using hu)]
      | exportKeyingMaterial label context length =>
          by_cases hlength : length < 1 ∨ 4096 < length
          · have hstep : s.step (.app (.exportKeyingMaterial label context length)) = s := by
              rw [step, act, exportKeyingMaterial, if_pos (by tauto)]
            have hissues : s.issues (.app (.exportKeyingMaterial label context length)) = none := by
              simp only [issues, returns, if_pos hlength]
            rw [hstep, hissues]
            exact (Moves.rest rfl).fate_congr (fate_none rfl rfl rfl)
          · have hreturns : s.returns (.app (.exportKeyingMaterial label context length)) =
                some (s.ask .keyingMaterial (.rejected deadError)) := by
              simp only [returns, if_neg hlength]
            refine moves_ask hreturns (moves_exportKeyingMaterial h label context hlength) fun hu => ?_
            rw [step, act, exportKeyingMaterial, if_pos]
            exact .inr (.inr (by simpa using hu))
      | close code reason =>
          refine (Moves.rest ?_).fate_congr (fate_none rfl rfl rfl)
          simp only [step, act, sessionClose]
          split
          · rfl
          · exact requestPart_close _ code reason
      | drain =>
          refine (Moves.rest ?_).fate_congr (fate_none rfl rfl rfl)
          simp only [step, act, drain, toRegistry_command]

theorem ordered_step (h : s.Ordered) (a : Step) : (s.step a).Ordered :=
  h.moves (step_moves h a)

/-! ## Settlement -/

theorem ask_request {q request : Request} {dead : Settled Result} {i : Nat}
    (h : s.ask q dead = .request i request) : i = s.nextRequestId ∧ request = q := by
  unfold ask at h
  split at h
  · cases h
    exact ⟨rfl, rfl⟩
  · cases h

theorem ask_settled {q : Request} {dead p : Settled Result} (hd : dead ≠ .pending)
    (h : s.ask q dead = .settled p) : p ≠ .pending := by
  unfold ask at h
  split at h
  · cases h
  · cases h
    exact hd

/-- Ids are given out in order. -/
theorem returns_request {a : Step} {i : Nat} {q : Request} (h : s.returns a = some (.request i q)) :
    i = s.nextRequestId ∧ s.issues a = some q := by
  refine ⟨?_, by rw [issues, h]⟩
  unfold returns at h
  split at h
  case h_2 =>
    obtain ⟨o, -, h⟩ := Option.map_eq_some_iff.mp h
    exact (ask_request h).1
  case h_6 =>
    split at h
    · cases h
    · exact (ask_request (Option.some.inj h)).1
  case h_7 => cases h
  all_goals exact (ask_request (Option.some.inj h)).1

/-- A promise that is not filed is settled. -/
theorem returns_settled {a : Step} {p : Settled Result} (h : s.returns a = some (.settled p)) :
    p ≠ .pending := by
  unfold returns at h
  split at h
  case h_2 =>
    obtain ⟨o, -, h⟩ := Option.map_eq_some_iff.mp h
    exact ask_settled (by simp) h
  case h_5 =>
    refine ask_settled ?_ (Option.some.inj h)
    split <;> simp
  case h_6 =>
    split at h
    · cases h
    · exact ask_settled (by simp) (Option.some.inj h)
  case h_7 => cases h
  all_goals exact ask_settled (by simp) (Option.some.inj h)

/-- An acknowledgement that no request waits for: its id is not issued, is settled,
or belongs to a request of another kind. -/
def Unknown (s : SessionCore) (answer : Answer) : Prop :=
  s.requests.get answer.requestId ≠ some .pending ∨
    ∀ q, s.Files answer.requestId q → answer.isFor q = false

/-- What a step does to the promises. -/
structure Settlement (s : SessionCore) (a : Step) : Prop where
  /-- A call returns the promise of a new request, which waits. -/
  issued : ∀ i q, s.returns a = some (.request i q) →
    s.requests.get i = none ∧ (s.step a).requests.get i = some .pending ∧ (s.step a).Files i q
  /-- Or one that is settled. -/
  refused : ∀ p, s.returns a = some (.settled p) → p ≠ .pending
  returned : ∀ i, s.requests.get i = none → (s.step a).requests.get i ≠ none →
    ∃ q, s.returns a = some (.request i q)
  /-- A settled promise stays as it is: nothing would settle it again. -/
  settled : ∀ i p, s.requests.get i = some p → p ≠ .pending →
    (∀ q, ¬s.Files i q) ∧ (s.step a).requests.get i = some p
  /-- A pending one waits in one map, until its own fate settles it. -/
  pending : ∀ i, s.requests.get i = some .pending → ∃ q, (∀ q', s.Files i q' ↔ q' = q) ∧
    match s.fate a i q with
    | none => (s.step a).requests.get i = some .pending ∧ (s.step a).Files i q
    | some p => p ≠ .pending ∧ (s.step a).requests.get i = some p ∧ ∀ q', ¬(s.step a).Files i q'
  /-- `resetStream` rejects the pending writes of its stream, and nothing else. -/
  reset : ∀ streamId code, a = .resetStream streamId code → ∀ i,
    s.requests.get i = some .pending → (s.step a).requests.get i =
      if s.writes.get i = some streamId then
        some (.rejected ⟨"stream aborted", .stream, some (code % 2 ^ 32)⟩)
      else some .pending
  /-- An acknowledgement that nobody waits for changes the cached statistics at
  most, and only those of a `stats` event do. -/
  unknown : ∀ ev answer, a = .app (.dispatch ev) →
    ev.answer s.droppedIncomingDatagrams = some answer → s.Unknown answer →
    ∃ cached, s.step a = { s with lastStats := cached } ∧
      ((∀ i counters, ev ≠ .stats i counters) → cached = s.lastStats)
  /-- Nothing is pending behind the end. -/
  ended : (s.step a).closedState = true → ∀ i, (s.step a).requests.get i ≠ some .pending

theorem unknown_ignored (h : s.Ordered) {ev : NativeEvent} {answer : Answer}
    (ha : ev.answer s.droppedIncomingDatagrams = some answer) (hunknown : s.Unknown answer) :
    ∃ cached, s.dispatch ev = { s with lastStats := cached } ∧
      ((∀ i counters, ev ≠ .stats i counters) → cached = s.lastStats) := by
  have hu : ∀ q, s.Files answer.requestId q → answer.isFor q = false := by
    rcases hunknown with hnot | hu
    · intro q hq
      exact absurd (h.waiting hq).1 hnot
    · exact hu
  by_cases hc : s.closedState = true
  · exact ⟨s.lastStats, by rw [dispatch.eq_def, if_pos hc], fun _ => rfl⟩
  rw [dispatch.eq_def, if_neg hc]
  cases ev with
  | streamOpened requestId streamId =>
      obtain rfl := Option.some.inj ha
      have hw : ¬s.opens.contains requestId = true := fun hw => by
        simpa using hu _ (Registry.contains_opens.mp hw)
      exact ⟨s.lastStats, by simp only [if_neg hw], fun _ => rfl⟩
  | writeAck requestId =>
      obtain rfl := Option.some.inj ha
      have hw : ¬s.writes.contains requestId = true := fun hw => by
        obtain ⟨streamId, hq⟩ := Registry.contains_writes.mp hw
        cases hu _ hq
      exact ⟨s.lastStats, by simp only [if_neg hw], fun _ => rfl⟩
  | datagramAck requestId sent =>
      obtain rfl := Option.some.inj ha
      have hw : ¬s.datagramAcks.contains requestId = true := fun hw => by
        simpa using hu _ (Registry.contains_datagramAcks.mp hw)
      exact ⟨s.lastStats, by simp only [if_neg hw], fun _ => rfl⟩
  | stats requestId counters =>
      obtain rfl := Option.some.inj ha
      have hw : ¬s.statsRequests.contains requestId = true := fun hw => by
        simpa using hu _ (Registry.contains_statsRequests.mp hw)
      exact ⟨some (counters, s.droppedIncomingDatagrams), by simp only [if_neg hw], fun hne =>
        absurd rfl (hne requestId counters)⟩
  | keyingMaterial requestId data =>
      have hw : ¬s.keyingMaterialRequests.contains requestId = true := fun hw => by
        have hq := Registry.contains_keyingMaterialRequests.mp hw
        cases data <;> obtain rfl := Option.some.inj ha <;> simpa using hu _ hq
      exact ⟨s.lastStats, by simp only [if_neg hw], fun _ => rfl⟩
  | _ => cases ha

theorem settlement_step (h : s.Ordered) (a : Step) : s.Settlement a := by
  have hmoves := step_moves h a
  refine ⟨fun i q hr => ?_, fun p => returns_settled, fun i hnone hsome => ?_, fun i p hp hne => ?_,
    fun i hp => ?_, ?_, ?_, (ordered_step h a).ended⟩
  · obtain ⟨rfl, hissues⟩ := returns_request hr
    have hfree := h.unissued (le_refl s.nextRequestId)
    have hs := hmoves.stages _ _ hfree
    rw [if_pos rfl, hissues] at hs
    exact ⟨hfree.1, hs.1, hs.2.1⟩
  · obtain ⟨stage, hs⟩ := h.staged i
    have hs' := hmoves.stages i stage hs
    cases stage with
    | unissued =>
        split at hs'
        next heq =>
          unfold issues at hs'
          split at hs'
          next j q hr =>
            obtain ⟨rfl, -⟩ := returns_request hr
            exact ⟨q, heq ▸ hr⟩
          · exact absurd hs'.1 hsome
        · exact absurd hs'.1 hsome
    | waiting q => simp [hs.1] at hnone
    | ended p => simp [hs.1] at hnone
  · obtain ⟨stage, hs⟩ := h.staged i
    have hs' := hmoves.stages i stage hs
    cases stage with
    | unissued => simp [hs.1] at hp
    | waiting q => exact absurd (Option.some.inj (hp.symm.trans hs.1)) hne
    | ended p' => exact ⟨hs.2.2, hs'.1.trans (hs.1.symm.trans hp)⟩
  · obtain ⟨stage, hs⟩ := h.staged i
    have hs' := hmoves.stages i stage hs
    cases stage with
    | unissued => simp [hs.1] at hp
    | ended p => exact absurd (Option.some.inj (hs.1.symm.trans hp)) hs.2.1
    | waiting q =>
        refine ⟨q, fun q' => Registry.files_iff hs, ?_⟩
        cases hf : s.fate a i q with
        | none =>
            simp only [Stage.next, hf] at hs'
            exact ⟨hs'.1, hs'.2.1⟩
        | some p =>
            simp only [Stage.next, hf] at hs'
            exact ⟨hs'.2.1, hs'.1, hs'.2.2⟩
  · rintro streamId code rfl i hp
    have hs : ∃ q, s.At i (.waiting q) := by
      obtain ⟨stage, hs⟩ := h.staged i
      cases stage with
      | unissued => simp [hs.1] at hp
      | ended p => exact absurd (Option.some.inj (hs.1.symm.trans hp)) hs.2.1
      | waiting q => exact ⟨q, hs⟩
    obtain ⟨q, hs⟩ := hs
    have hs' := hmoves.stages i _ hs
    have hwrite : s.writes.get i = some streamId ↔ q = .write streamId :=
      (Registry.files_iff hs : s.Files i (.write streamId) ↔ _).trans eq_comm
    have hfate : s.fate (.resetStream streamId code) i q = if q = .write streamId then
        some (.rejected ⟨"stream aborted", .stream, some (code % 2 ^ 32)⟩) else none :=
      fate_resets rfl rfl i q
    rw [Stage.next, hfate] at hs'
    by_cases hq : q = .write streamId
    · rw [if_pos (hwrite.mpr hq)]
      rw [if_pos hq] at hs'
      exact hs'.1
    · rw [if_neg (mt hwrite.mp hq)]
      rw [if_neg hq] at hs'
      exact hs'.1
  · rintro ev answer rfl ha hu
    exact unknown_ignored h ha hu

theorem ordered_run (steps : List Step) : (execute step {} steps).Ordered :=
  execute_invariant (I := fun s => s.Ordered) (fun _ a h _ => ordered_step h a)
    Registry.ordered_empty (along_true step steps _)

/-- Every promise is settled at most once, with its own outcome, and by the end of
the session. -/
theorem requests_settle (steps : List Step) :
    Along step Settlement {} steps ∧
      ∀ before later i p, steps = before ++ later →
        (execute step {} before).requests.get i = some p → p ≠ .pending →
        (execute step {} steps).requests.get i = some p := by
  refine ⟨?_, ?_⟩
  · exact along_imp (I := fun s => s.Ordered) (fun s a h _ => ⟨settlement_step h a, ordered_step h a⟩)
      Registry.ordered_empty (along_true step steps _)
  · rintro before later i p rfl hp hne
    rw [execute_append]
    exact (execute_invariant (I := fun s => s.Ordered ∧ s.requests.get i = some p)
      (fun s a h _ => ⟨ordered_step h.1 a, ((settlement_step h.1 a).settled i p h.2 hne).2⟩)
      ⟨ordered_run before, hp⟩ (along_true step later _)).2

/-- A `stats` event is cached also when nobody waits for it. -/
theorem not_unknown_ignored :
    ¬∀ (steps : List Step) (ev : NativeEvent) (answer : Answer),
      ev.answer (execute step {} steps).droppedIncomingDatagrams = some answer →
      (execute step {} steps).requests.get answer.requestId = none →
      execute step {} (steps ++ [.app (.dispatch ev)]) = execute step {} steps := by
  intro h
  have heq := h [.app .attach] (.stats 7 ⟨0, 0, 0, 0, 0, 0, 0, 0⟩) _ rfl rfl
  cases congrArg SessionCore.lastStats heq

end SessionCore

end RWebTransport.Node
