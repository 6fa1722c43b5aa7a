import RWebTransport.Node.Lifecycle

/-!
# The server object of the JavaScript side

`WebTransportServer` of `server.ts`: server events settle its promises, session
events are dispatched to the core of their session, and a fatal error or the end
of the server finishes every session that is left.
-/

namespace RWebTransport.Node

/-- `ServerNativeEvent`. -/
inductive ServerNativeEvent where
  | listening (port : Nat)
  | serverError (message : String)
  | serverClosed
  | session (id : Nat) (ev : NativeEvent)

/-- The unread sessions a server queues. -/
def maxPendingSessions : Nat := 128

/-- `WebTransportServer`, with the session cores it made. -/
structure WebTransportServer where
  /-- The cores, with the session each is for. -/
  cores : Table (Nat × SessionCore) := .empty
  nextCore : Nat := 0
  /-- `this.sessions`. -/
  sessions : Table Nat := .empty
  closeCalled : Bool := false
  incomingCancelled : Bool := false
  /-- `incomingController` was closed. -/
  incomingClosed : Bool := false
  /-- Sessions the application has not taken. -/
  queued : Nat := 0
  boundPort : Nat := 0
  ready : Settled Unit := .pending
  closed : Settled Unit := .pending
  /-- Sessions that were refused. -/
  refused : List Nat := []

namespace WebTransportServer

/-- `incomingController.desiredSize ?? 0` is not positive. -/
def queueFull (w : WebTransportServer) : Bool :=
  w.incomingClosed || decide (maxPendingSessions ≤ w.queued)

/-- Dispatches an event to a core. -/
def dispatchTo (w : WebTransportServer) (core : Nat) (ev : NativeEvent) : WebTransportServer :=
  { w with cores := w.cores.modify core fun c => (c.1, c.2.dispatch ev) }

/-- Dispatches an event to the core of a session, if there is one. -/
def dispatchSession (w : WebTransportServer) (id : Nat) (ev : NativeEvent) : WebTransportServer :=
  match w.sessions.get id with
  | none => w
  | some core => w.dispatchTo core ev

/-- The core of a new session, and its place in the queue. -/
def addSession (w : WebTransportServer) (id : Nat) : WebTransportServer :=
  { w with
    cores := w.cores.insert w.nextCore (id, ({} : SessionCore).attach)
    nextCore := w.nextCore + 1
    sessions := w.sessions.insert id w.nextCore
    queued := w.queued + 1 }

/-- The event a session is finished with. -/
def finalEvent : NativeEvent := .closed 0 []

/-- `finishAllSessions`. -/
def finishAllSessions (w : WebTransportServer) : WebTransportServer :=
  { (w.sessions.keys.foldl (fun w id => w.dispatchSession id finalEvent) w) with
    sessions := .empty }

/-- `onEvent`. -/
def onEvent (w : WebTransportServer) : ServerNativeEvent → WebTransportServer
  | .listening port => { w with boundPort := port, ready := w.ready.resolve () }
  | .serverError message =>
      let err : WebTransportError := ⟨message, .session, none⟩
      { { w with ready := w.ready.reject err, closed := w.closed.reject err }.finishAllSessions with
        incomingClosed := true }
  | .serverClosed =>
      { { w with closed := w.closed.resolve () }.finishAllSessions with incomingClosed := true }
  | .session id (.serverReady protocol) =>
      if w.closeCalled || w.incomingCancelled || w.queueFull then
        { w with refused := w.refused ++ [id] }
      else (w.addSession id).dispatchSession id (.serverReady protocol)
  | .session id ev => w.dispatchSession id ev

/-- `forget`, once the `closed` promise of a core is settled. -/
def forget (w : WebTransportServer) (core : Nat) : WebTransportServer :=
  match w.cores.get core with
  | none => w
  | some (id, c) => if c.closed = .pending then w else { w with sessions := w.sessions.erase id }

end WebTransportServer

/-! ## Runs -/

/-- Whether a step is the application's, or a continuation of it. -/
def Act.isApplication : Act → Bool
  | .attach | .failSetup _ | .dispatch _ => false
  | _ => true

/-- A step of the server object. -/
inductive ServerAct where
  | event (ev : ServerNativeEvent)
  | forget (core : Nat)
  | application (core : Nat) (a : { a : Act // a.isApplication = true })
  | takeSession
  | cancelIncoming
  | close

namespace WebTransportServer

def act (w : WebTransportServer) : ServerAct → WebTransportServer
  | .event ev => w.onEvent ev
  | .forget core => w.forget core
  | .application core a => { w with cores := w.cores.modify core fun c => (c.1, c.2.act a.val) }
  | .takeSession => { w with queued := w.queued - 1 }
  | .cancelIncoming => { w with incomingCancelled := true, queued := 0 }
  | .close => { w with closeCalled := true }

/-- A session that was established and has not ended. -/
def Live (w : WebTransportServer) (core : Nat) : Prop :=
  ∃ id c, w.cores.get core = some (id, c) ∧ c.readyState = true ∧ c.closedState = false

/-- The `closed` promise of a session was rejected. -/
def Rejected (w : WebTransportServer) (core : Nat) : Prop :=
  ∃ id c err, w.cores.get core = some (id, c) ∧ c.closed = .rejected err

end WebTransportServer

/-! ## The `closed` promise of a session -/

namespace SessionCore

variable {s : SessionCore}

@[simp] theorem command_closed (s : SessionCore) (c : Command) : (s.command c).closed = s.closed := by
  unfold command
  split <;> rfl

/-- The promise is pending while the session is open. -/
def ClosedPending (s : SessionCore) : Prop := s.closedState = false → s.closed = .pending

/-- Neither the flag nor the promise has changed. -/
def SameEnd (s s' : SessionCore) : Prop := s'.closedState = s.closedState ∧ s'.closed = s.closed

theorem SameEnd.refl (s : SessionCore) : SameEnd s s := ⟨rfl, rfl⟩

theorem sameEnd_command (s : SessionCore) (c : Command) : SameEnd s (s.command c) := by
  simp [SameEnd]

theorem sameEnd_resetStream (s : SessionCore) (streamId code : Nat) :
    SameEnd s (s.resetStream streamId code) := by
  simp [SameEnd, resetStream]

theorem sameEnd_construct (s : SessionCore) (id : Nat) (half : Half) :
    SameEnd s (s.construct id half) := by
  cases half <;> exact ⟨rfl, rfl⟩

theorem sameEnd_write (s : SessionCore) (streamId : Nat) (chunk : Bytes) :
    SameEnd s (s.write streamId chunk) := by
  unfold write
  split
  · exact .refl s
  · simp [SameEnd, newRequest]

/-- What the application does settles the promise of no session. -/
theorem sameEnd_application (s : SessionCore) {a : Act} (ha : a.isApplication = true) :
    SameEnd s (s.act a) := by
  cases a with
  | attach | failSetup | dispatch => cases ha
  | takeIncoming | cancelIncoming | recordDroppedIncomingDatagram => exact .refl s
  | createStream bidi =>
      simp only [act, createStream]
      split
      · exact .refl s
      · simp [SameEnd, newRequest]
  | resume requestId =>
      simp only [act, resume]
      split
      · simp only [constructOwn]
        split
        · have h1 := sameEnd_construct { s with creating := s.creating.erase requestId }
          exact ⟨((sameEnd_construct _ _ _).1.trans (h1 _ _).1), (sameEnd_construct _ _ _).2.trans (h1 _ _).2⟩
        · exact sameEnd_construct _ _ _
      · exact .refl s
      · exact .refl s
  | sinkWrite object chunk =>
      simp only [act, sinkWrite]
      split
      · exact sameEnd_write s _ _
      · exact .refl s
  | sinkClose object =>
      simp only [act, sinkClose]
      split
      · simp [SameEnd, unregisterSend, modifyObject, finStream]
      · exact .refl s
  | sinkAbort object error =>
      simp only [act, sinkAbort]
      split
      next o ho => exact sameEnd_resetStream s o.streamId (error.streamErrorCode.getD 0)
      · exact .refl s
  | sourceCancel object code =>
      simp only [act, sourceCancel]
      split
      · simp [SameEnd, unregisterReceive, modifyObject, stopSending]
      · exact .refl s
  | sourceRead object =>
      simp only [act, sourceRead]
      split
      · simp [SameEnd, setPaused, modifyObject]
      · exact .refl s
  | sendDatagram chunk =>
      simp only [act, sendDatagram]
      split
      · exact .refl s
      · simp [SameEnd, newRequest]
  | getStats =>
      simp only [act, getStats]
      split
      · exact .refl s
      · simp [SameEnd, newRequest]
  | exportKeyingMaterial label context length =>
      simp only [act, exportKeyingMaterial]
      split
      · exact .refl s
      · simp [SameEnd, newRequest]
  | close code reason =>
      simp only [act, sessionClose, close]
      split
      · exact .refl s
      · split
        · exact .refl s
        · simp [SameEnd]
  | drain => exact sameEnd_command s _

/-- A session that is over stays as it is. -/
theorem dispatch_of_closed (h : s.closedState = true) (ev : NativeEvent) : s.dispatch ev = s := by
  simp [dispatch, h]

/-- An event ends the session, or leaves the flag and the promise alone. -/
theorem dispatch_end (s : SessionCore) (ev : NativeEvent) :
    SameEnd s (s.dispatch ev) ∨ (s.dispatch ev).closedState = true := by
  have hsink : ∀ (sinks : Table Nat) streamId (f : Nat → StreamObject → SessionCore),
      (∀ i o, SameEnd s (f i o)) → SameEnd s (s.withSink sinks streamId f) := by
    intro sinks streamId f hf
    unfold withSink
    split
    · exact .refl s
    · split
      · exact .refl s
      · exact hf _ _
  unfold dispatch
  split
  · exact .inl (.refl s)
  · cases ev with
    | ready | serverReady | draining | datagram => exact .inl ⟨rfl, rfl⟩
    | closed | error => exact .inr (finish_closedState _ _ _)
    | stream streamId bidi =>
        simp only [onIncoming]
        split_ifs
        · exact .inl (by simp [SameEnd, resetStream, stopSending])
        · exact .inl (by simp [SameEnd, stopSending])
        · refine .inr ?_
          unfold abort
          split
          next h => exact h
          · exact finish_closedState _ _ _
        · refine .inr ?_
          unfold abort
          split
          next h => exact h
          · exact finish_closedState _ _ _
        · exact .inl ⟨rfl, rfl⟩
        · exact .inl ⟨rfl, rfl⟩
    | streamData streamId data =>
        refine .inl (hsink _ _ _ fun i o => ?_)
        unfold onData
        simp only
        split
        · simp [SameEnd, setPaused, modifyObject]
        · exact ⟨rfl, rfl⟩
    | streamFin | streamReset | streamStopSending => exact .inl (hsink _ _ _ fun i o => ⟨rfl, rfl⟩)
    | streamOpened | writeAck | datagramAck | stats | keyingMaterial =>
        simp only
        split <;> exact .inl ⟨rfl, rfl⟩

/-- The first settlement of the promise counts. -/
theorem dispatch_closed_of_ne (h : s.closed ≠ .pending) (hp : s.ClosedPending) (ev : NativeEvent) :
    (s.dispatch ev).closed = s.closed := by
  have hc : s.closedState = true := by
    by_contra hopen
    exact h (hp (by simpa using hopen))
  rw [dispatch_of_closed hc]

/-- The synthetic event ends an established session cleanly. -/
theorem dispatch_finalEvent (hready : s.readyState = true) (hopen : s.closedState = false)
    (hp : s.closed = .pending) :
    (s.dispatch WebTransportServer.finalEvent).closed = .resolved ⟨0, ""⟩ := by
  have htext : decodeText [] = "" := by decide
  simp [dispatch, WebTransportServer.finalEvent, hopen, finish, settleLifecycle, hready, hp,
    Settled.resolve, settleAll, htext]

end SessionCore

/-! ## A fatal error -/

namespace WebTransportServer

variable {w : WebTransportServer} {core : Nat}

/-- What the object keeps about its cores. -/
structure Sound (w : WebTransportServer) : Prop where
  pending : ∀ i p, w.cores.get i = some p → p.2.ClosedPending
  issued : ∀ i, w.cores.get i ≠ none → i < w.nextCore

/-- The promise of the session is pending or resolved, and if it is pending, no
event will reach the session. -/
def Unrejected (core : Nat) (w : WebTransportServer) : Prop :=
  core < w.nextCore ∧ ∃ p, w.cores.get core = some p ∧ p.2.ClosedPending ∧
    ((∃ info, p.2.closed = .resolved info) ∨
      p.2.closed = .pending ∧ ∀ id, w.sessions.get id ≠ some core)

theorem not_rejected (h : w.Unrejected core) : ¬w.Rejected core := by
  rintro ⟨id, c, err, hget, herr⟩
  obtain ⟨-, p, hp, -, ⟨info, hinfo⟩ | ⟨hpend, -⟩⟩ := h
  · rw [hget] at hp
    obtain rfl := Option.some.inj hp
    simp [herr] at hinfo
  · rw [hget] at hp
    obtain rfl := Option.some.inj hp
    simp [herr] at hpend

/-! ### Events of sessions -/

/-- A core that changes keeps its promise unless it ends. -/
theorem closedPending_of {s s' : SessionCore} (h : s.ClosedPending)
    (hs : SessionCore.SameEnd s s' ∨ s'.closedState = true) : s'.ClosedPending := by
  intro hopen
  rcases hs with ⟨h1, h2⟩ | h1
  · rw [h2]
    exact h (h1 ▸ hopen)
  · simp [h1] at hopen

theorem Sound.modify (h : w.Sound) (i : Nat) {f : SessionCore → SessionCore}
    (hf : ∀ s, SessionCore.SameEnd s (f s) ∨ (f s).closedState = true) :
    Sound { w with cores := w.cores.modify i fun c => (c.1, f c.2) } := by
  refine ⟨fun j p hp => ?_, fun j hj => h.issued j fun hnone => hj ?_⟩
  · simp only [Table.get_modify] at hp
    split at hp
    · obtain ⟨q, hq, rfl⟩ := Option.map_eq_some_iff.mp hp
      exact closedPending_of (h.pending j q hq) (hf q.2)
    · exact h.pending j p hp
  · simp only [Table.get_modify, hnone]
    split <;> rfl

theorem Sound.dispatchSession (h : w.Sound) (id : Nat) (ev : NativeEvent) :
    (w.dispatchSession id ev).Sound := by
  unfold WebTransportServer.dispatchSession
  split
  · exact h
  · exact h.modify _ fun s => s.dispatch_end ev

theorem Sound.addSession (h : w.Sound) (id : Nat) : (w.addSession id).Sound := by
  refine ⟨fun j p hp => ?_, fun j hj => ?_⟩
  · simp only [WebTransportServer.addSession, Table.get_insert] at hp
    split at hp
    · obtain rfl := Option.some.inj hp
      exact fun _ => rfl
    · exact h.pending j p hp
  · simp only [WebTransportServer.addSession, Table.get_insert] at hj ⊢
    split at hj
    next heq => omega
    · exact Nat.lt_succ_of_lt (h.issued j hj)

theorem Unrejected.modify (h : w.Unrejected core) (i : Nat) {f : SessionCore → SessionCore}
    (hf : ∀ p, i = core → w.cores.get core = some p → SessionCore.SameEnd p.2 (f p.2)) :
    Unrejected core { w with cores := w.cores.modify i fun c => (c.1, f c.2) } := by
  obtain ⟨hlt, p, hp, hpend, hend⟩ := h
  refine ⟨hlt, ?_⟩
  by_cases hi : i = core
  · subst hi
    have hsame := hf p rfl hp
    refine ⟨(p.1, f p.2), by simp [hp], closedPending_of hpend (.inl hsame), ?_⟩
    simp only [hsame.2]
    exact hend
  · exact ⟨p, by simp [Table.get_modify, Ne.symm hi, hp], hpend, hend⟩

theorem Unrejected.dispatchSession (h : w.Unrejected core) (id : Nat) (ev : NativeEvent) :
    (w.dispatchSession id ev).Unrejected core := by
  unfold WebTransportServer.dispatchSession
  split
  · exact h
  next i hi =>
    refine h.modify i (f := fun s => s.dispatch ev) fun p hic hp => ?_
    subst hic
    obtain ⟨-, q, hq, hpend, hend⟩ := h
    obtain rfl := Option.some.inj (hq.symm.trans hp)
    rcases hend with ⟨info, hinfo⟩ | ⟨-, hno⟩
    · -- the session is over
      have hc : q.2.closedState = true := by
        by_contra hopen
        simp [hpend (by simpa using hopen)] at hinfo
      rw [SessionCore.dispatch_of_closed hc]
      exact .refl _
    · exact absurd hi (hno id)

theorem Unrejected.addSession (h : w.Unrejected core) (id : Nat) :
    (w.addSession id).Unrejected core := by
  obtain ⟨hlt, p, hp, hpend, hend⟩ := h
  have hne : core ≠ w.nextCore := by omega
  refine ⟨Nat.lt_succ_of_lt hlt, p, by simp [WebTransportServer.addSession, Table.get_insert, hne, hp],
    hpend, hend.imp_right fun ⟨hpending, hno⟩ => ⟨hpending, fun id' => ?_⟩⟩
  simp only [WebTransportServer.addSession, Table.get_insert]
  split
  · simpa using Ne.symm hne
  · exact hno id'

/-- Sessions are taken away. -/
theorem Unrejected.forgotten (h : w.Unrejected core) {sessions : Table Nat}
    (hsub : ∀ id, sessions.get id = none ∨ sessions.get id = w.sessions.get id) :
    Unrejected core { w with sessions := sessions } := by
  obtain ⟨hlt, p, hp, hpend, hend⟩ := h
  refine ⟨hlt, p, hp, hpend, hend.imp_right fun ⟨hpending, hno⟩ => ⟨hpending, fun id => ?_⟩⟩
  rcases hsub id with hs | hs
  · simp [hs]
  · rw [hs]
    exact hno id

/-- What dispatching the final event to sessions preserves. -/
theorem finishAll_invariant {I : WebTransportServer → Prop} (w : WebTransportServer)
    (hI : ∀ w id, I w → I (w.dispatchSession id finalEvent)) (h : I w) :
    ∀ ids : List Nat, I (ids.foldl (fun w id => w.dispatchSession id finalEvent) w) := by
  intro ids
  induction ids generalizing w with
  | nil => exact h
  | cons id ids ih => exact ih _ (hI w id h)

/-! ### Steps -/

theorem Sound.onEvent (h : w.Sound) (ev : ServerNativeEvent) : (w.onEvent ev).Sound := by
  have hfinish : ∀ w : WebTransportServer, w.Sound → w.finishAllSessions.Sound := by
    intro w hw
    have hfold := finishAll_invariant w (I := Sound) (fun w id h => h.dispatchSession id _) hw w.sessions.keys
    exact ⟨hfold.pending, hfold.issued⟩
  cases ev with
  | listening port => exact ⟨h.pending, h.issued⟩
  | serverError message =>
      have hall := hfinish { w with
        ready := w.ready.reject ⟨message, .session, none⟩
        closed := w.closed.reject ⟨message, .session, none⟩ } ⟨h.pending, h.issued⟩
      exact ⟨hall.pending, hall.issued⟩
  | serverClosed =>
      have hall := hfinish { w with closed := w.closed.resolve () } ⟨h.pending, h.issued⟩
      exact ⟨hall.pending, hall.issued⟩
  | session id ev =>
      cases ev with
      | serverReady protocol =>
          simp only [WebTransportServer.onEvent]
          split
          · exact ⟨h.pending, h.issued⟩
          · exact (h.addSession id).dispatchSession id _
      | _ => exact h.dispatchSession id _

theorem Sound.act (h : w.Sound) (a : ServerAct) : (w.act a).Sound := by
  cases a with
  | event ev => exact h.onEvent ev
  | forget core =>
      simp only [WebTransportServer.act, WebTransportServer.forget]
      split
      · exact h
      · split
        · exact h
        · exact ⟨h.pending, h.issued⟩
  | application core a => exact h.modify core fun s => .inl (s.sameEnd_application a.property)
  | takeSession | cancelIncoming | close => exact ⟨h.pending, h.issued⟩

theorem Unrejected.onEvent (h : w.Unrejected core) (ev : ServerNativeEvent) :
    (w.onEvent ev).Unrejected core := by
  have hfinish : ∀ w : WebTransportServer, w.Unrejected core → w.finishAllSessions.Unrejected core := by
    intro w hw
    exact (finishAll_invariant w (I := Unrejected core) (fun w id h => h.dispatchSession id _) hw
      w.sessions.keys).forgotten fun _ => .inl rfl
  cases ev with
  | listening port => exact h
  | serverError message =>
      exact hfinish { w with
        ready := w.ready.reject ⟨message, .session, none⟩
        closed := w.closed.reject ⟨message, .session, none⟩ } h
  | serverClosed => exact hfinish { w with closed := w.closed.resolve () } h
  | session id ev =>
      cases ev with
      | serverReady protocol =>
          simp only [WebTransportServer.onEvent]
          split
          · exact h
          · exact (h.addSession id).dispatchSession id _
      | _ => exact h.dispatchSession id _

theorem Unrejected.act (h : w.Unrejected core) (a : ServerAct) : (w.act a).Unrejected core := by
  cases a with
  | event ev => exact h.onEvent ev
  | forget i =>
      simp only [WebTransportServer.act, WebTransportServer.forget]
      split
      · exact h
      · split
        · exact h
        · refine h.forgotten fun id => ?_
          rw [Table.get_erase]
          split
          · exact .inl rfl
          · exact .inr rfl
  | application i a =>
      exact h.modify i (f := fun s => s.act a.val) fun p _ _ => p.2.sameEnd_application a.property
  | takeSession | cancelIncoming | close => exact h

/-! ### The error -/

/-- The session is live, or was ended cleanly with code 0. -/
def LiveOrClean (core : Nat) (w : WebTransportServer) : Prop :=
  ∃ p, w.cores.get core = some p ∧
    (p.2.readyState = true ∧ p.2.closedState = false ∧ p.2.closed = .pending ∨
      p.2.closedState = true ∧ p.2.closed = .resolved ⟨0, ""⟩)

theorem LiveOrClean.dispatchSession (h : w.LiveOrClean core) (id : Nat) :
    (w.dispatchSession id finalEvent).LiveOrClean core := by
  unfold WebTransportServer.dispatchSession
  split
  · exact h
  next i hi =>
    obtain ⟨p, hp, hstate⟩ := h
    by_cases hic : i = core
    · subst hic
      refine ⟨(p.1, p.2.dispatch finalEvent), by simp [dispatchTo, hp], .inr ?_⟩
      rcases hstate with ⟨hready, hopen, hpend⟩ | ⟨hc, hclean⟩
      · refine ⟨?_, SessionCore.dispatch_finalEvent hready hopen hpend⟩
        simp only [SessionCore.dispatch, hopen, finalEvent, Bool.false_eq_true, if_false]
        exact SessionCore.finish_closedState _ _ _
      · rw [SessionCore.dispatch_of_closed hc]
        exact ⟨hc, hclean⟩
    · exact ⟨p, by simp [dispatchTo, Table.get_modify, Ne.symm hic, hp], hstate⟩

/-- A fatal error does not reject a live session. -/
theorem unrejected_serverError (h : w.Sound) (hlive : w.Live core) (message : String) :
    (w.onEvent (.serverError message)).Unrejected core := by
  obtain ⟨id, c, hget, hready, hopen⟩ := hlive
  have hpend := h.pending core _ hget hopen
  have hlt := h.issued core (by simp [hget])
  let w0 : WebTransportServer := { w with
    ready := w.ready.reject ⟨message, .session, none⟩
    closed := w.closed.reject ⟨message, .session, none⟩ }
  have hw0 : w0.LiveOrClean core := ⟨(id, c), hget, .inl ⟨hready, hopen, hpend⟩⟩
  have hfold := finishAll_invariant w0 (I := fun w' => w'.LiveOrClean core ∧ core < w'.nextCore)
    (fun w' id h => ⟨h.1.dispatchSession id, by
      unfold WebTransportServer.dispatchSession
      split <;> exact h.2⟩) ⟨hw0, hlt⟩ w0.sessions.keys
  obtain ⟨⟨p, hp, hstate⟩, hlt⟩ := hfold
  refine ⟨hlt, p, hp, ?_, ?_⟩
  · intro hopen'
    rcases hstate with ⟨-, -, hpend⟩ | ⟨hc, -⟩
    · exact hpend
    · simp [hc] at hopen'
  · rcases hstate with ⟨-, -, hpend⟩ | ⟨-, hclean⟩
    · exact .inr ⟨hpend, fun id => by simp [WebTransportServer.onEvent, finishAllSessions]⟩
    · exact .inl ⟨_, hclean⟩

/-- Behind a fatal error, whatever follows, every session that was live is
rejected only if there is none. -/
theorem serverError_rejects_iff (before after : List ServerAct) (message : String) :
    (∀ core, (execute act {} before).Live core →
        (execute act ((execute act {} before).onEvent (.serverError message)) after).Rejected core) ↔
      ∀ core, ¬(execute act {} before).Live core := by
  have hsound : (execute act {} before).Sound :=
    execute_invariant (P := fun _ _ => True) (I := Sound) (fun w a h _ => h.act a)
      ⟨by simp, by simp⟩ (along_true _ _ _)
  constructor
  · intro hall core hlive
    refine not_rejected ?_ (hall core hlive)
    exact execute_invariant (P := fun _ _ => True) (I := Unrejected core) (fun w a h _ => h.act a)
      (unrejected_serverError hsound hlive message) (along_true _ _ _)
  · intro hnone core hlive
    exact absurd hlive (hnone core)

/-- The server dies under an established session. -/
theorem serverError_resolves_clean :
    (execute act {} [.event (.session 1 (.serverReady none))]).Live 0 ∧
      ((execute act {} [.event (.session 1 (.serverReady none)),
        .event (.serverError "rwebtransport server panic: boom"), .event .serverClosed]).cores.get 0).map
        (fun p => p.2.closed) = some (.resolved ⟨0, ""⟩) :=
  ⟨⟨1, _, rfl, rfl, rfl⟩, by decide⟩

end WebTransportServer

end RWebTransport.Node
