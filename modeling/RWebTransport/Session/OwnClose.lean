import RWebTransport.Driver

/-!
# Who closes the connection

A session closes its connection as an application only behind its own end, or
for the application that asked for it.
-/

namespace RWebTransport

namespace Quic.Connection

theorem collectIf_localError (c : Connection) (id : Nat) (cond : Bool) :
    (c.collectIf id cond).localError = c.localError := by
  unfold collectIf
  split <;> rfl

theorem streamRecv_localError (c : Connection) (id cap : Nat) :
    (c.streamRecv id cap).2.localError = c.localError := by
  have hspec := streamRecv_spec c id cap
  generalize (c.streamRecv id cap).1 = res at hspec
  generalize (c.streamRecv id cap).2 = c' at hspec
  cases hspec with
  | none => rfl
  | reset cond | read cond => exact collectIf_localError _ _ _

theorem getOrCreate_localError {c c1 : Connection} {id : Nat} (h : c.getOrCreate id = .ok c1) :
    c1.localError = c.localError := by
  unfold getOrCreate at h
  split at h
  · rw [← Except.ok.inj h]
  · cases h
  · split_ifs at h
    rw [← Except.ok.inj h]
    rfl

theorem streamSend_localError (c : Connection) (id : Nat) (bytes : Bytes) (fin : Bool) :
    (c.streamSend id bytes fin).2.localError = c.localError := by
  unfold streamSend
  split
  · rfl
  · split
    · rfl
    next c1 hc1 =>
      have hc1 := getOrCreate_localError hc1
      simp only
      split
      · exact (collectIf_localError _ _ _).trans hc1
      · split_ifs
        · exact hc1
        · split
          · exact hc1
          · split_ifs <;> exact hc1

theorem streamShutdownRead_localError (c : Connection) (id err : Nat) :
    (c.streamShutdownRead id err).localError = c.localError := by
  unfold streamShutdownRead
  split <;> rfl

theorem streamShutdownWrite_localError (c : Connection) (id err : Nat) :
    (c.streamShutdownWrite id err).localError = c.localError := by
  unfold streamShutdownWrite
  split <;> rfl

theorem dgramSend_localError (c : Connection) (data : Bytes) :
    (c.dgramSend data).2.localError = c.localError := by
  unfold dgramSend
  split <;> rfl

theorem dgramRecv_localError (c : Connection) : c.dgramRecv.2.localError = c.localError := by
  unfold dgramRecv
  split <;> rfl

theorem forPeer_localError {c c1 : Connection} {id : Nat} {s : QStream}
    (h : c.forPeer id = some (c1, s)) : c1.localError = c.localError := by
  unfold forPeer at h
  split at h
  · rw [← (Prod.mk.inj (Option.some.inj h)).1]
  · cases h
  · split_ifs at h
    rw [← (Prod.mk.inj (Option.some.inj h)).1]
    rfl

/-- Only a violation of the protocol makes the network close a connection, and
not as an application. -/
theorem net_localError (c : Connection) (event : NetEvent) :
    (c.net event).localError = c.localError ∨
      ∃ err, (c.net event).localError = some err ∧ err.isApp = false := by
  cases event with
  | data id bytes | fin id | reset id code finalSize =>
      refine .inl ?_
      simp only [net]
      split
      · rfl
      · split
        · rfl
        next h =>
          have hpeer := forPeer_localError h
          split_ifs <;> exact hpeer
  | stopSending id code =>
      refine .inl ?_
      simp only [net]
      split
      · rfl
      · split
        · rfl
        next h =>
          have hpeer := forPeer_localError h
          exact hpeer
  | serialize id n => simp only [net]; split <;> exact .inl rfl
  | ack id =>
      refine .inl ?_
      simp only [net]
      split
      · exact collectIf_localError _ _ _
      · rfl
  | maxStreamData id limit => simp only [net]; split <;> exact .inl rfl
  | failure code =>
      simp only [net, close]
      split_ifs
      · exact .inl rfl
      · exact .inr ⟨_, rfl, rfl⟩
      · exact .inr ⟨_, rfl, rfl⟩
  | _ => exact .inl rfl

end Quic.Connection

namespace Endpoint

/-- An application close of the connection has its reason in the session. -/
structure OwnClose (e : Endpoint) : Prop where
  latched : e.terminalError.isSome = true → e.closed = true
  wanted : e.wantQuicClose.isSome = true → e.closeReq.isSome = true
  issued : ∀ err, e.conn.localError = some err → err.isApp = true →
    e.closed = true ∨ e.closeReq.isSome = true

/-- Nothing about closing the connection has changed. -/
structure Leaves (e e' : Endpoint) : Prop where
  terminalError : e'.terminalError = e.terminalError
  wantQuicClose : e'.wantQuicClose = e.wantQuicClose
  closeReq : e'.closeReq = e.closeReq
  localError : e'.conn.localError = e.conn.localError
  closed : e.closed = true → e'.closed = true

namespace Leaves

theorem refl (e : Endpoint) : Leaves e e := ⟨rfl, rfl, rfl, rfl, fun h => h⟩

theorem trans {a b c : Endpoint} (hab : Leaves a b) (hbc : Leaves b c) : Leaves a c where
  terminalError := hbc.terminalError.trans hab.terminalError
  wantQuicClose := hbc.wantQuicClose.trans hab.wantQuicClose
  closeReq := hbc.closeReq.trans hab.closeReq
  localError := hbc.localError.trans hab.localError
  closed h := hbc.closed (hab.closed h)

theorem conn (e : Endpoint) {c : Quic.Connection} (h : c.localError = e.conn.localError) :
    Leaves e { e with conn := c } := ⟨rfl, rfl, rfl, h, id⟩

theorem markClosed (e : Endpoint) (code : Nat) (reason : Bytes) (remote : Bool) :
    Leaves e (e.markClosed code reason remote) := by
  refine ⟨?_, ?_, ?_, ?_, fun _ => markClosed_closed e code reason remote⟩
  all_goals
    unfold Endpoint.markClosed
    split <;> rfl

theorem killRecv (e : Endpoint) (id : Nat) : Leaves e (e.killRecv id) :=
  ⟨rfl, rfl, rfl, Quic.Connection.streamShutdownRead_localError _ _ _, fun h => h⟩

theorem reconcileSendFinalSize (e : Endpoint) (id : Nat) : Leaves e (e.reconcileSendFinalSize id) := by
  rcases reconcileSendFinalSize_sending e id with h | h
  · rw [h]
    exact refl e
  · unfold Endpoint.reconcileSendFinalSize
    split
    · simp only
      split_ifs
      · exact ⟨rfl, rfl, rfl, rfl, fun h => h⟩
      · exact refl e
    · exact refl e

theorem sendStep (id : Nat) (e : Endpoint) : Leaves e (sendStep id e).1 := by
  unfold Endpoint.sendStep
  split
  · exact refl e
  · split
    · exact refl e
    next front rest _ =>
      simp only
      split
      · exact refl e
      next st _ _ _ _ =>
        have hconn := Quic.Connection.streamSend_localError e.conn id
          ((front.data.drop front.off).take (e.sendAmount st front)) false
        split
        all_goals
          next heq =>
            rw [heq] at hconn
            exact ⟨rfl, rfl, rfl, hconn, fun h => h⟩

theorem sendFin (e : Endpoint) (id : Nat) : Leaves e (e.sendFin id) := by
  unfold Endpoint.sendFin
  split
  · exact refl e
  · split
    · have hconn := Quic.Connection.streamSend_localError e.conn id [] true
      split
      all_goals
        next heq =>
          rw [heq] at hconn
          exact ⟨rfl, rfl, rfl, hconn, fun h => h⟩
    · exact refl e

theorem flushStream (e : Endpoint) (id : Nat) : Leaves e (e.flushStream id) := by
  unfold Endpoint.flushStream
  refine (reconcileSendFinalSize e id).trans (.trans ?_ (sendFin _ id))
  exact iterate_rel (I := fun _ => True) refl .trans (fun s _ => ⟨sendStep id s, trivial⟩) _ trivial

theorem queueSessionCapsule (e : Endpoint) (ty value : Nat) : Leaves e (e.queueSessionCapsule ty value) :=
  ⟨rfl, rfl, rfl, rfl, fun h => h⟩

theorem raiseDataLimit (e : Endpoint) (limit : Nat) : Leaves e (e.raiseDataLimit limit) :=
  ⟨rfl, rfl, rfl, rfl, fun h => h⟩

theorem raiseStreamsLimit (e : Endpoint) (bidi : Bool) (limit : Nat) :
    Leaves e (e.raiseStreamsLimit bidi limit) := ⟨rfl, rfl, rfl, rfl, fun h => h⟩

theorem replenish (e : Endpoint) : Leaves e e.replenish := by
  have hstreams : ∀ (s : Endpoint) bidi, Leaves s (s.replenishStreams bidi) := by
    intro s bidi
    unfold replenishStreams
    simp only
    split_ifs
    · exact raiseStreamsLimit s bidi _
    · exact refl s
    · exact refl s
  have hdata : Leaves e e.replenishData := by
    unfold replenishData
    simp only
    split_ifs
    · exact raiseDataLimit e _
    · exact refl e
    · exact refl e
  unfold Endpoint.replenish
  split_ifs
  · exact (hdata.trans (hstreams _ false)).trans (hstreams _ true)
  · exact refl e

theorem signalFlowControlBlocked (e : Endpoint) : Leaves e e.signalFlowControlBlocked := by
  have hstreams : ∀ (s : Endpoint) bidi, Leaves s (s.signalStreamsBlocked bidi) := by
    intro s bidi
    unfold signalStreamsBlocked
    simp only
    split_ifs <;> exact ⟨rfl, rfl, rfl, rfl, fun h => h⟩
  have hdata : Leaves e e.signalDataBlocked := by
    unfold signalDataBlocked
    split_ifs <;> exact ⟨rfl, rfl, rfl, rfl, fun h => h⟩
  unfold Endpoint.signalFlowControlBlocked
  split_ifs
  · exact refl e
  · exact (hdata.trans (hstreams _ true)).trans (hstreams _ false)

theorem onDatagrams (e : Endpoint) : Leaves e e.onDatagrams := by
  unfold Endpoint.onDatagrams
  refine iterate_rel (I := fun _ => True) refl .trans (fun s _ => ⟨?_, trivial⟩) _ trivial
  have hconn := Quic.Connection.dgramRecv_localError s.conn
  unfold datagramStep
  split
  next c heq =>
    rw [heq] at hconn
    exact conn s hconn
  next data c heq =>
    rw [heq] at hconn
    simp only
    split
    · exact conn s hconn
    · split_ifs <;> exact ⟨rfl, rfl, rfl, hconn, fun h => h⟩

theorem releasePendingOpens (e : Endpoint) : Leaves e e.releasePendingOpens :=
  releasePendingOpens_invariant (I := Leaves e) (fun _ _ h => h.trans ⟨rfl, rfl, rfl, rfl, fun h => h⟩)
    (fun _ bidi _ _ _ _ h => h.trans (by cases bidi <;> exact ⟨rfl, rfl, rfl, rfl, fun h => h⟩)) (refl e)

end Leaves

theorem OwnClose.leaves {e e' : Endpoint} (h : e.OwnClose) (hs : Leaves e e') : e'.OwnClose where
  latched ht := hs.closed (h.latched (hs.terminalError ▸ ht))
  wanted hw := hs.closeReq ▸ h.wanted (hs.wantQuicClose ▸ hw)
  issued err herr happ := by
    rw [hs.localError] at herr
    rw [hs.closeReq]
    exact (h.issued err herr happ).imp_left hs.closed

/-- A close with a reason. -/
theorem OwnClose.closeConn {e : Endpoint} (h : e.OwnClose)
    (hreason : e.closed = true ∨ e.closeReq.isSome = true) (code : Nat) (reason : Bytes) :
    (e.closeConn code reason).OwnClose :=
  ⟨h.latched, h.wanted, fun _ _ _ => hreason⟩

variable [H3.Codec]

theorem Effect.ownClose {r : Nat} {e e' : Endpoint} (h : Effect r e e') (ho : e.OwnClose) :
    e'.OwnClose := by
  cases h with
  | fail message => exact ho.leaves (.trans (b := e.emit (.error message)) ⟨rfl, rfl, rfl, rfl, fun h => h⟩
      (.markClosed _ _ _ _))
  | finish => exact ho.leaves (.markClosed _ _ _ _)
  | killFail message =>
      exact ho.leaves ((Leaves.killRecv e r).trans (.trans (b := (e.killRecv r).emit (.error message))
        ⟨rfl, rfl, rfl, rfl, fun h => h⟩ (.markClosed _ _ _ _)))
  | resetFail message =>
      exact ho.leaves (.trans (b := (e.setRecvDead r).emit (.error message))
        ⟨rfl, rfl, rfl, rfl, fun h => h⟩ (.markClosed _ _ _ _))
  | resetClose =>
      exact ho.leaves (.trans (b := e.setRecvDead r) ⟨rfl, rfl, rfl, rfl, fun h => h⟩
        (.markClosed _ _ _ _))
  | kill => exact ho.leaves (.killRecv e r)
  | terminal t hc => exact ⟨fun _ => hc, ho.wanted, ho.issued⟩
  | closeConn code reason hc => exact ho.closeConn (.inl hc) code reason
  | credit => unfold setCreditLimit; split_ifs <;> exact ho.leaves ⟨rfl, rfl, rfl, rfl, fun h => h⟩
  | @reject id block frame messages status =>
      rw [refuse_eq]
      refine ho.leaves (.trans ?_ (.markClosed _ _ _ _))
      cases frame <;> exact ⟨rfl, rfl, rfl, rfl, fun h => h⟩
  | @refuse id s frame messages status =>
      rw [refuse_eq]
      refine ho.leaves (.trans ?_ (.markClosed _ _ _ _))
      cases frame <;> exact ⟨rfl, rfl, rfl, rfl, fun h => h⟩
  | discard =>
      exact ho.leaves ⟨rfl, rfl, rfl, Quic.Connection.streamShutdownRead_localError _ _ _, fun h => h⟩
  | _ => exact ho.leaves ⟨rfl, rfl, rfl, rfl, fun h => h⟩

theorem OwnClose.step {e : Endpoint} (h : e.OwnClose) (hl : e.Layout) {s : Step}
    (hs : e.StepAdmissible s) : (e.step s).OwnClose := by
  cases s with
  | onEstablished =>
      refine h.leaves ?_
      show Leaves e e.onEstablished
      unfold onEstablished
      split_ifs
      · exact .refl e
      · simp only
        split_ifs <;> exact ⟨rfl, rfl, rfl, rfl, fun h => h⟩
  | touch id =>
      refine h.leaves ?_
      show Leaves e (e.touch id)
      unfold touch
      split_ifs <;> exact ⟨rfl, rfl, rfl, rfl, fun h => h⟩
  | read id backpressured =>
      rcases readStep_effects (hl.readable hs) hl.wellFormed (hl.alive_of_readable hs id)
        backpressured with heq | ⟨cap, heff⟩
      · simpa [Endpoint.step, heq] using h
      · exact heff.invariant (fun _ _ => Effect.ownClose)
          (h.leaves (.conn e (Quic.Connection.streamRecv_localError _ _ _)))
  | onDatagrams => exact h.leaves (.onDatagrams e)
  | sendDatagram data requestId =>
      exact h.leaves ⟨rfl, rfl, rfl, Quic.Connection.dgramSend_localError _ _, fun h => h⟩
  | openStream bidi requestId =>
      exact h.leaves (.trans (b := { e with pendingOpens := e.pendingOpens ++ [(bidi, requestId)] })
        ⟨rfl, rfl, rfl, rfl, fun h => h⟩ (.releasePendingOpens _))
  | streamWrite id data requestId =>
      refine h.leaves ?_
      show Leaves e (e.streamWrite id data requestId)
      unfold streamWrite
      simp only
      split_ifs <;> exact ⟨rfl, rfl, rfl, rfl, fun h => h⟩
  | streamFin | setPaused | commitSent | prune => exact h.leaves ⟨rfl, rfl, rfl, rfl, fun h => h⟩
  | streamReset id code =>
      refine h.leaves ?_
      show Leaves e (e.streamReset id code)
      unfold streamReset
      split_ifs
      · simp only
        generalize hc : e.conn.streamShutdownWrite id (H3.webtransportCodeToHttpCode code) = c
        have hconn := hc ▸ Quic.Connection.streamShutdownWrite_localError e.conn id
          (H3.webtransportCodeToHttpCode code)
        have hlog : Leaves e (e.log (.streamReset id)) := ⟨rfl, rfl, rfl, rfl, fun h => h⟩
        refine ((hlog.trans (.conn (e.log (.streamReset id)) hconn)).trans (.reconcileSendFinalSize _ id)).trans ?_
        unfold dropQueue
        split <;> exact ⟨rfl, rfl, rfl, rfl, fun h => h⟩
      · exact .refl e
  | streamStopSending id code =>
      refine h.leaves ?_
      show Leaves e (e.streamStopSending id code)
      unfold streamStopSending
      split_ifs
      · exact ⟨rfl, rfl, rfl, Quic.Connection.streamShutdownRead_localError _ _ _, fun h => h⟩
      · exact .refl e
  | close code reason =>
      show (e.close code reason).OwnClose
      unfold close
      split_ifs
      · exact ⟨h.latched, fun _ => rfl, fun _ _ _ => .inr rfl⟩
      · exact h
  | sendDrain =>
      refine h.leaves ?_
      show Leaves e e.sendDrain
      unfold sendDrain
      split_ifs <;> exact ⟨rfl, rfl, rfl, rfl, fun h => h⟩
  | takeTerminalError =>
      show e.takeTerminalError.OwnClose
      unfold takeTerminalError
      split
      next code message ht =>
        exact OwnClose.closeConn (e := { e with terminalError := none })
          ⟨fun h => (by cases h), h.wanted, h.issued⟩ (.inl (h.latched (by simp [ht]))) _ _
      · exact h
  | grantCredit =>
      refine h.leaves ?_
      show Leaves e e.grantCredit
      unfold grantCredit
      split_ifs <;> exact ⟨rfl, rfl, rfl, rfl, fun h => h⟩
  | replenish => exact h.leaves (.replenish e)
  | queueClose =>
      show e.queueClose.OwnClose
      unfold queueClose
      split
      · exact h
      next req hreq =>
        have hsome : e.closeReq.isSome = true := by simp [hreq]
        simp only
        split_ifs
        · exact h
        all_goals exact ⟨h.latched, fun _ => rfl, fun _ _ _ => .inr rfl⟩
  | releasePendingOpens => exact h.leaves (.releasePendingOpens e)
  | flushStream id => exact h.leaves (.flushStream e id)
  | signalFlowControlBlocked => exact h.leaves (.signalFlowControlBlocked e)
  | gracefulClose =>
      have harm : e.armQuicClose.OwnClose := by
        unfold armQuicClose
        split
        next req hwant hreq =>
          split_ifs
          · exact ⟨h.latched, fun _ => by simp [hreq], h.issued⟩
          · exact h
        · exact h
      show e.gracefulClose.OwnClose
      unfold gracefulClose
      simp only
      split_ifs with hissued hwant hdeferred
      · exact h
      · have hreason := harm.wanted hwant
        exact OwnClose.closeConn (e := { e.armQuicClose with wantQuicClose := none, quicCloseIssued := true })
          ⟨harm.latched, fun h => (by cases h), harm.issued⟩ (.inr hreason) _ _
      · exact ⟨harm.latched, harm.wanted, harm.issued⟩
      · exact harm
  | markClosed => exact h.leaves (.markClosed _ _ _ _)
  | network event =>
      refine ⟨h.latched, h.wanted, fun err herr happ => ?_⟩
      rcases Quic.Connection.net_localError e.conn event with heq | ⟨err', heq, hfalse⟩
      · exact h.issued err (heq ▸ herr) happ
      · obtain rfl := Option.some.inj (heq.symm.trans herr)
        simp [hfalse] at happ

theorem OwnClose.call {e : Endpoint} (h : e.Layout ∧ e.OwnClose) {c : Call} (hc : e.Admissible c) :
    (e.call c).Layout ∧ (e.call c).OwnClose :=
  call_invariant (P := fun _ _ => True) (I := fun e => e.Layout ∧ e.OwnClose)
    (fun _ _ hI hs _ => ⟨hI.1.step hs, hI.2.step hI.1 hs⟩) h (meets_true hc)

end Endpoint

end RWebTransport
