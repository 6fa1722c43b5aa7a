import RWebTransport.Session.Change

/-!
# What both drivers do

The end of a connection (`closure_info` of `driver.rs` and of `server.rs`, and
the branch around it), as far as the client's and the server's loop agree.
-/

namespace RWebTransport

/-- What a closed `quiche::Connection` answers besides its local error. -/
structure Closure where
  peerError : Option Quic.ConnectionError
  timedOut : Bool
deriving DecidableEq, Repr

/-- A number as `{:#x}` prints it. -/
def hex (n : Nat) : String := "0x" ++ String.ofList (Nat.toDigits 16 n)

/-- `closure_info`: code, reason, `remote`, and the message of an abnormal end. -/
def closureInfo (c : Quic.Connection) (how : Closure) : Nat × Bytes × Bool × Option String :=
  match how.peerError with
  | some err =>
      if err.isApp then (err.errorCode % 2 ^ 32, err.reason, true, none)
      else (0, [], true, some s!"connection terminated by peer transport error {hex err.errorCode}")
  | none =>
      match c.localError with
      | some err =>
          if err.isApp then (err.errorCode % 2 ^ 32, err.reason, false, none)
          else (0, [], false, some s!"connection closed by transport error {hex err.errorCode}")
      | none =>
          if how.timedOut then (0, [], false, some "connection timed out")
          else (0, [], true, some "connection closed abnormally")

namespace Endpoint

/-- `Ev::Error`, if there is a message. -/
def emitError (e : Endpoint) : Option String → Endpoint
  | some message => e.emit (.error message)
  | none => e

/-- The terminal branch of the loops: a session on a closed connection ends. -/
def endSession (e : Endpoint) (how : Closure) : Endpoint :=
  if e.closed then e
  else match e.localCloseInfo with
    | some (code, reason) => e.markClosed code reason false
    | none =>
        let (code, reason, remote, err) := closureInfo e.conn how
        (e.emitError err).markClosed code reason remote

/-- What holds of the session as a whole survives its end. -/
theorem Whole.endSession [H3.Codec] {I : Endpoint → Prop} (h : Whole I) {e : Endpoint}
    (he : e.Layout ∧ I e) (how : Closure) : (e.endSession how).Layout ∧ I (e.endSession how) := by
  unfold Endpoint.endSession
  split
  · exact he
  next hopen =>
    split
    · exact h.markClosed _ _ _ he
    · simp only
      cases (closureInfo e.conn how).2.2.2 with
      | none => exact h.markClosed _ _ _ he
      | some message =>
          exact h.effects (.fail (r := connectId) e message _ _ _ (by simpa using hopen)) he

end Endpoint

end RWebTransport
