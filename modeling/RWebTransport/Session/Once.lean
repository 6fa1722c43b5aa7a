import RWebTransport.Session.Handshake

/-!
# A session ends once

What a session tells is only ever added to, and it tells its end when it ends:
a session that is closed has emitted one Closed, an open one none.
-/

namespace RWebTransport.Endpoint

/-- What was told since, with a Closed exactly where the session has ended. -/
def Tells (e e' : Endpoint) : Prop :=
  ∃ l, e'.ev = e.ev ++ l ∧ l.countP Ev.isClosed + e.closed.toNat = e'.closed.toNat

namespace Tells

theorem trans {a b c : Endpoint} (hab : Tells a b) (hbc : Tells b c) : Tells a c := by
  obtain ⟨l, hl, hlc⟩ := hab
  obtain ⟨m, hm, hmc⟩ := hbc
  refine ⟨l ++ m, by rw [hm, hl, List.append_assoc], ?_⟩
  rw [List.countP_append]
  omega

/-- The session did not end. -/
theorem calm {e e' : Endpoint} (hclosed : e'.closed = e.closed) {l : List Ev}
    (hev : e'.ev = e.ev ++ l) (hevs : ∀ v ∈ l, v.isClosed = false) : Tells e e' := by
  have hnone : l.countP Ev.isClosed = 0 :=
    List.countP_eq_zero.mpr fun v hv => by simp [hevs v hv]
  exact ⟨l, hev, by rw [hnone, hclosed, Nat.zero_add]⟩

theorem of_eq {e e' : Endpoint} (hclosed : e'.closed = e.closed) (hev : e'.ev = e.ev) :
    Tells e e' :=
  calm hclosed (l := []) (by simp [hev]) (by simp)

theorem refl (e : Endpoint) : Tells e e := of_eq rfl rfl

theorem emit (e : Endpoint) {v : Ev} (hv : v.isClosed = false) : Tells e (e.emit v) :=
  calm rfl rfl (by simpa using hv)

theorem markClosed (e : Endpoint) (code : Nat) (reason : Bytes) (remote : Bool) :
    Tells e (e.markClosed code reason remote) := by
  cases hc : e.closed with
  | true =>
      have heq : e.markClosed code reason remote = e := by simp [Endpoint.markClosed, hc]
      rw [heq]
      exact refl e
  | false =>
      refine ⟨_, markClosed_ev hc code reason remote, ?_⟩
      rw [markClosed_closed, hc]
      rfl

theorem of_quiet {e e' : Endpoint} (h : Quiet e e') : Tells e e' := by
  obtain ⟨l, hl, hlq⟩ := h.ev
  refine calm h.closed hl fun v hv => ?_
  have hq := hlq v hv
  cases v <;> first | rfl | cases hq

theorem refuse (e : Endpoint) (id : Nat) (frame : Option Bytes) (messages : List String)
    (status : Nat) : Tells e (e.refuse id frame messages status) := by
  rw [refuse_eq]
  obtain ⟨-, -, hclosed, -, -, -, -, hev, -⟩ := refusing_session e id frame messages status
  exact (calm hclosed hev (by simp [Ev.isClosed])).trans (markClosed _ _ _ _)

end Tells

variable [H3.Codec]

theorem Effect.tells {r : Nat} {e e' : Endpoint} (h : Effect r e e') : Tells e e' := by
  cases h with
  | fail message => exact (Tells.emit e rfl).trans (.markClosed _ _ _ _)
  | finish => exact .markClosed _ _ _ _
  | killFail message =>
      have hkill : Tells e (e.killRecv r) := .of_eq rfl rfl
      exact (hkill.trans (.emit _ rfl)).trans (.markClosed _ _ _ _)
  | resetFail message =>
      have hdead : Tells e (e.setRecvDead r) := .of_eq rfl rfl
      exact (hdead.trans (.emit _ rfl)).trans (.markClosed _ _ _ _)
  | resetClose =>
      have hdead : Tells e (e.setRecvDead r) := .of_eq rfl rfl
      exact hdead.trans (.markClosed _ _ _ _)
  | credit =>
      unfold setCreditLimit
      split_ifs <;> exact .of_eq rfl rfl
  | @reject id block =>
      have htake : Tells e (e.takeHeaders id block) := .of_eq rfl rfl
      exact htake.trans (.refuse _ _ _ _ _)
  | refuse => exact .refuse _ _ _ _ _
  | draining | unrequested | undecoded | ready | accept | unanswered | incoming | data | finished
  | reset => exact .calm (l := [_]) rfl rfl (by simp [Ev.isClosed])
  | _ => exact .of_eq rfl rfl

theorem tells_whole (e₀ : Endpoint) : Whole (Tells e₀) where
  effect heff _ h := h.trans heff.tells
  quiet hq h := h.trans (.of_quiet hq)
  setup e h := by
    rcases onEstablished_spec e with heq | ⟨-, -, -, -, hclosed, -, -, -, hev, -, -⟩
    · rwa [heq]
    · exact h.trans (.of_eq hclosed hev)
  meet e _ _ h := h.trans (.of_eq rfl rfl)
  close e code reason remote h := h.trans (.markClosed e code reason remote)

/-- What a run tells. -/
theorem run_tells {e : Endpoint} (hl : e.Layout) {calls : List Call}
    (hrun : Along call Admissible e calls) :
    (execute call e calls).Layout ∧ Tells e (execute call e calls) :=
  (tells_whole e).run ⟨hl, .refl e⟩ hrun

end RWebTransport.Endpoint
