import RWebTransport.Session.CleanClose
import RWebTransport.Session.Frames
import RWebTransport.Session.Once
import RWebTransport.Session.Pruning

/-!
# Critical streams

The peer's control stream and its two QPACK streams: each is there once, none of
them ends while the session is open, and SETTINGS come first on the control
stream and only there.  What the peer has said with a stream is what was read of
it so far (`RecvBuf.got`), however it was cut into chunks.  While the session is
open none of these bytes breaks a rule; when they do, the session has ended, and
an error was reported before it did.

There is one way around the error.  A server holds the CONNECT stream back until
the peer's SETTINGS.  When they arrive, a CLOSE_WEBTRANSPORT_SESSION capsule that
was held back ends the session in order, and what follows the SETTINGS in the
same chunk is not looked at.
-/

namespace RWebTransport.Endpoint

open Quic (isLocal isBidi)
open Quic.Connection (streamSend_spec)

/-- A unidirectional stream of the peer. -/
def PeerUni (isServer : Bool) (id : Nat) : Prop := isLocal id isServer = false ∧ isBidi id = false

instance (isServer : Bool) (id : Nat) : Decidable (PeerUni isServer id) :=
  inferInstanceAs (Decidable (_ ∧ _))

theorem PeerUni.ne_connectId {isServer : Bool} {id : Nat} (h : PeerUni isServer id) :
    id ≠ connectId := by
  rintro rfl
  simp [PeerUni, isBidi, connectId] at h

/-- The parsers of a stream are where they were. -/
structure SameParse (st st' : Stream) : Prop where
  role : st'.role = st.role
  classBuf : st'.classBuf = st.classBuf
  frames : st'.frames = st.frames
  headersDone : st'.headersDone = st.headersDone

theorem SameParse.refl (st : Stream) : SameParse st st := ⟨rfl, rfl, rfl, rfl⟩

/-! ## Steps that hear nothing -/

/-- Nothing was read off a unidirectional stream of the peer. -/
structure Unheard (e e' : Endpoint) : Prop where
  cfg : e'.cfg = e.cfg
  got : ∀ i, (e'.conn.streams i).recv.got = (e.conn.streams i).recv.got
  ended : ∀ i, (e'.conn.streams i).recv.ended = (e.conn.streams i).recv.ended
  kept : ∀ i st', PeerUni e.cfg.isServer i → e'.streams.get i = some st' →
    ∃ st, e.streams.get i = some st ∧ SameParse st st'
  gone : ∀ i, PeerUni e.cfg.isServer i → e'.streams.get i = none → e.streams.get i = none
  wellFormed : e.conn.WellFormed → e'.conn.WellFormed
  exhausted : e.conn.WellFormed → ∀ i, (e.conn.streams i).Exhausted → (e'.conn.streams i).Exhausted

namespace Unheard

theorem trans {a b c : Endpoint} (hab : Unheard a b) (hbc : Unheard b c) : Unheard a c where
  cfg := hbc.cfg.trans hab.cfg
  got i := (hbc.got i).trans (hab.got i)
  ended i := (hbc.ended i).trans (hab.ended i)
  kept i st'' hi hg := by
    obtain ⟨st', hst', hs'⟩ := hbc.kept i st'' (hab.cfg ▸ hi) hg
    obtain ⟨st, hst, hs⟩ := hab.kept i st' hi hst'
    exact ⟨st, hst, hs'.role.trans hs.role, hs'.classBuf.trans hs.classBuf,
      hs'.frames.trans hs.frames, hs'.headersDone.trans hs.headersDone⟩
  gone i hi hg := hab.gone i hi (hbc.gone i (hab.cfg ▸ hi) hg)
  wellFormed h := hbc.wellFormed (hab.wellFormed h)
  exhausted h i hx := hbc.exhausted (hab.wellFormed h) i (hab.exhausted h i hx)

/-- The entries are the same. -/
theorem of_get {e e' : Endpoint} (hcfg : e'.cfg = e.cfg)
    (hconn : e'.conn.streams = e.conn.streams)
    (hget : ∀ i, PeerUni e.cfg.isServer i → e'.streams.get i = e.streams.get i) : Unheard e e' :=
  ⟨hcfg, fun i => by rw [hconn], fun i => by rw [hconn],
    fun i st' hi hg => ⟨st', by rw [← hget i hi, hg], .refl st'⟩, fun i hi hg => by rwa [← hget i hi],
    fun h i => hconn ▸ h i, fun _ i hx => hconn ▸ hx⟩

theorem refl (e : Endpoint) : Unheard e e := of_get rfl rfl fun _ _ => rfl

theorem of_aside {e e' : Endpoint} (h : Aside e e') : Unheard e e' :=
  of_get h.cfg h.conn fun i hi => h.get i hi.ne_connectId

/-- The connection changes, but nothing is read. -/
theorem conn (e : Endpoint) {c : Quic.Connection}
    (hrecv : ∀ i, (c.streams i).recv.got = (e.conn.streams i).recv.got ∧
      (c.streams i).recv.ended = (e.conn.streams i).recv.ended)
    (hwf : e.conn.WellFormed → c.WellFormed)
    (hx : e.conn.WellFormed → ∀ i, (e.conn.streams i).Exhausted → (c.streams i).Exhausted) :
    Unheard e { e with conn := c } :=
  ⟨rfl, fun i => (hrecv i).1, fun i => (hrecv i).2, fun _ st' _ hg => ⟨st', hg, .refl st'⟩,
    fun _ _ hg => hg, hwf, hx⟩

/-- One entry changes aside from its parsers. -/
theorem modify (e : Endpoint) (id : Nat) {f : Stream → Stream} (hf : ∀ st, SameParse st (f st)) :
    Unheard e (e.modifyStream id f) := by
  refine ⟨rfl, fun _ => rfl, fun _ => rfl, fun i st' _ hg => ?_, fun i _ hg => ?_, fun h => h,
    fun _ _ hx => hx⟩
  · simp only [modifyStream, Table.get_modify] at hg
    split at hg
    next hi =>
      subst hi
      obtain ⟨st, hst, rfl⟩ := Option.map_eq_some_iff.mp hg
      exact ⟨st, hst, hf st⟩
    · exact ⟨st', hg, .refl st'⟩
  · simp only [modifyStream, Table.get_modify] at hg
    split at hg
    next hi =>
      subst hi
      simpa using hg
    · exact hg

theorem modified {e e' : Endpoint} {id : Nat} {f : Stream → Stream} (hcfg : e'.cfg = e.cfg)
    (hconn : e'.conn = e.conn) (hstreams : e'.streams = e.streams.modify id f)
    (hf : ∀ st, SameParse st (f st)) : Unheard e e' := by
  refine (modify e id hf).trans (of_get hcfg (by rw [hconn]; rfl) fun i _ => ?_)
  rw [hstreams]
  rfl

/-- A stream that is not the peer's is added. -/
theorem insert (e : Endpoint) {id : Nat} (hid : ¬PeerUni e.cfg.isServer id) (st : Stream) :
    Unheard e (e.insertStream id st) :=
  of_get rfl rfl fun _ hi => Table.get_insert_ne fun heq => hid (heq ▸ hi)

theorem onEstablished (e : Endpoint) : Unheard e e.onEstablished := by
  have hlocal : ∀ {s : Endpoint} {id : Nat} (bytes : Bytes), Unheard e s →
      id ∈ controlIds e.cfg.isServer → Unheard e (s.insertLocal id bytes) := by
    intro s id bytes hs hid
    refine hs.trans (insert s (fun hp => ?_) _)
    rw [hs.cfg] at hp
    simp [(controlIds_local hid).1, PeerUni] at hp
  unfold Endpoint.onEstablished
  split
  · exact refl e
  · have h1 : Unheard e { e with setupSent := true } := of_get rfl rfl fun _ _ => rfl
    have h2 := hlocal H3.controlStreamPrefix h1
      (by simp [controlIds] : controlId e.cfg.isServer ∈ controlIds e.cfg.isServer)
    have h3 := hlocal (H3.putVarint H3.qpackEncoderStreamType) h2
      (by simp [controlIds] : qpackEncId e.cfg.isServer ∈ controlIds e.cfg.isServer)
    have h4 := hlocal (H3.putVarint H3.qpackDecoderStreamType) h3
      (by simp [controlIds] : qpackDecId e.cfg.isServer ∈ controlIds e.cfg.isServer)
    simp only
    split
    · exact h4
    · exact h4.trans (of_get rfl rfl fun _ _ => rfl)

theorem allocateStream {e : Endpoint} (hl : e.Layout) (bidi : Bool) (requestId : Nat) :
    Unheard e (e.allocateStream bidi requestId) := by
  have hid : ¬PeerUni e.cfg.isServer (e.nextId bidi) := by
    obtain ⟨k, hk⟩ := hl.next bidi
    rw [hk]
    simp [PeerUni, isLocal_ownId]
  have hne : ∀ i, PeerUni e.cfg.isServer i → i ≠ e.nextId bidi := fun i hi heq => hid (heq ▸ hi)
  cases bidi with
  | false =>
      exact of_get rfl rfl fun i hi => Table.get_insert_ne (t := e.streams) (hne i hi)
  | true =>
      exact of_get rfl rfl fun i hi => Table.get_insert_ne (t := e.streams) (hne i hi)

theorem releasePendingOpens {e : Endpoint} (hl : e.Layout) : Unheard e e.releasePendingOpens := by
  have hkept : e.releasePendingOpens.Layout ∧ Unheard e e.releasePendingOpens := by
    refine releasePendingOpens_invariant (I := fun s => s.Layout ∧ Unheard e s)
      (fun s l hs => ⟨?_, ?_⟩) (fun s bidi requestId _ _ _ hs => ⟨?_, ?_⟩) ⟨hl, refl e⟩
    · exact hs.1.same (.session rfl rfl rfl rfl rfl rfl rfl rfl rfl)
    · exact hs.2.trans (of_get rfl rfl fun _ _ => rfl)
    · exact hs.1.allocateStream bidi requestId
    · exact hs.2.trans (allocateStream hs.1 bidi requestId)
  exact hkept.2

theorem flushStream {e : Endpoint} (hl : e.Layout) (id : Nat) : Unheard e (e.flushStream id) := by
  have hkept : (e.flushStream id).conn.WellFormed ∧ Unheard e (e.flushStream id) := by
    refine flushStream_invariant (I := fun s => s.conn.WellFormed ∧ Unheard e s)
      (fun s s' hs h => ?_) ⟨hl.wellFormed, refl e⟩
    have hrecv : ∀ {bytes fin r c}, Quic.Connection.Send s.conn id bytes fin r c →
        Unheard s { s with conn := c } := by
      intro bytes fin r c hsend
      have hsame := hsend.recv fun i => (h.1 i).absent
      exact conn s (fun i => by rw [hsame]; exact ⟨rfl, rfl⟩) hsend.wellFormed
        fun hwf i hx => hsend.exhausted hwf hx
    cases hs with
    | returned =>
        exact ⟨h.1, h.2.trans (modified rfl rfl rfl fun _ => ⟨rfl, rfl, rfl, rfl⟩)⟩
    | refused _ hsend => exact ⟨hsend.wellFormed h.1, h.2.trans (hrecv hsend)⟩
    | sent _ _ _ hsend | stopped _ _ hsend | fin _ _ _ _ hsend =>
        exact ⟨hsend.wellFormed h.1, (h.2.trans (hrecv hsend)).trans
          (modified rfl rfl rfl fun _ => ⟨rfl, rfl, rfl, rfl⟩)⟩
  exact hkept.2

theorem reconcileSendFinalSize (e : Endpoint) (id : Nat) :
    Unheard e (e.reconcileSendFinalSize id) := by
  unfold Endpoint.reconcileSendFinalSize
  split
  next finalSize st hfinal hst =>
    simp only
    split
    · exact modified rfl rfl rfl fun _ => ⟨rfl, rfl, rfl, rfl⟩
    · exact refl e
  · exact refl e

theorem dropQueue (e : Endpoint) (id : Nat) : Unheard e (e.dropQueue id) := by
  unfold Endpoint.dropQueue
  split
  · exact refl e
  · exact modified rfl rfl rfl fun _ => ⟨rfl, rfl, rfl, rfl⟩

theorem shutdownWrite (e : Endpoint) (id err : Nat) :
    Unheard e { e with conn := e.conn.streamShutdownWrite id err } := by
  have hrecv := Quic.Connection.streamShutdownWrite_recv e.conn id err
  exact conn e (fun i => by rw [hrecv]; exact ⟨rfl, rfl⟩)
    (fun hwf => Quic.Connection.wellFormed_shutdownWrite hwf _)
    fun _ _ hx => Quic.Connection.exhausted_shutdownWrite hx _

theorem streamReset (e : Endpoint) (id code : Nat) : Unheard e (e.streamReset id code) := by
  unfold Endpoint.streamReset
  split
  · simp only
    have hlog : Unheard e (e.log (.streamReset id)) := of_get rfl rfl fun _ _ => rfl
    have hshut := hlog.trans (shutdownWrite (e.log (.streamReset id)) id
      (H3.webtransportCodeToHttpCode code))
    exact ((hshut.trans (reconcileSendFinalSize _ id)).trans (dropQueue _ id)).trans
      (modify _ id fun _ => ⟨rfl, rfl, rfl, rfl⟩)
  · exact refl e

/-- Shutting a stream down reads nothing. -/
theorem shutdownRead (e : Endpoint) (id err : Nat) : Unheard e (e.shutdownRead id err) := by
  have hrecv : ∀ i, ((e.conn.streamShutdownRead id err).streams i).recv.got =
      (e.conn.streams i).recv.got ∧ ((e.conn.streamShutdownRead id err).streams i).recv.ended =
      (e.conn.streams i).recv.ended := by
    intro i
    rcases Quic.Connection.streamShutdownRead_streams e.conn id err i with hs | ⟨rfl, -, -, hs⟩
    · rw [hs]
      exact ⟨rfl, rfl⟩
    · rw [hs]
      simp only [Quic.RecvBuf.shutdown]
      split
      · exact ⟨rfl, rfl⟩
      · split <;> exact ⟨rfl, rfl⟩
  exact conn e hrecv (fun hwf => Quic.Connection.wellFormed_shutdownRead hwf _)
    fun _ _ hx => Quic.Connection.exhausted_shutdownRead hx _

theorem streamStopSending (e : Endpoint) (id code : Nat) :
    Unheard e (e.streamStopSending id code) := by
  unfold Endpoint.streamStopSending
  split
  · exact (shutdownRead e id _).trans (modify _ id fun _ => ⟨rfl, rfl, rfl, rfl⟩)
  · exact refl e

theorem network {e : Endpoint} (hl : e.Layout) (event : Quic.NetEvent) :
    Unheard e { e with conn := e.conn.net event } := by
  have hrecv : ∀ i, ((e.conn.net event).streams i).recv.got = (e.conn.streams i).recv.got ∧
      ((e.conn.net event).streams i).recv.ended = (e.conn.streams i).recv.ended := by
    intro i
    have hstream : ∀ {s s' : Quic.QStream}, Quic.Connection.NetStream s s' →
        s'.recv.got = s.recv.got ∧ s'.recv.ended = s.recv.ended := by
      intro s s' h
      cases h <;> exact ⟨rfl, rfl⟩
    have hspec := Quic.Connection.net_spec e.conn event i
    generalize (e.conn.net event).streams i = s at hspec
    cases hspec with
    | same => exact ⟨rfl, rfl⟩
    | live _ hn => exact hstream hn
    | created habs =>
        rw [(hl.wellFormed i).absent habs]
        exact ⟨rfl, rfl⟩
    | first habs _ hn =>
        rw [(hl.wellFormed i).absent habs]
        exact ⟨(hstream hn).1.trans rfl, (hstream hn).2.trans rfl⟩
  exact conn e hrecv (fun hwf => Quic.Connection.wellFormed_net hwf event)
    fun hwf _ hx => Quic.Connection.exhausted_net hwf hx event

end Unheard

variable [H3.Codec]

/-- The steps that hear of the peer, or drop an entry. -/
def Step.hears : Step → Bool
  | .touch _ | .read _ _ | .prune | .markClosed _ _ _ => true
  | _ => false

theorem step_unheard {e : Endpoint} (hl : e.Layout) {s : Step} (hs : Step.hears s = false) :
    Unheard e (e.step s) := by
  cases s with
  | touch | read | prune | markClosed => cases hs
  | onEstablished => exact .onEstablished e
  | onDatagrams => exact .of_aside (.onDatagrams e)
  | sendDatagram data requestId => exact .of_aside (.sendDatagram e data requestId)
  | openStream bidi requestId =>
      have h0 : Unheard e { e with pendingOpens := e.pendingOpens ++ [(bidi, requestId)] } :=
        .of_get rfl rfl fun _ _ => rfl
      exact h0.trans (.releasePendingOpens (hl.same (.session rfl rfl rfl rfl rfl rfl rfl rfl rfl)))
  | streamWrite id data requestId =>
      show Unheard e (e.streamWrite id data requestId)
      unfold streamWrite
      simp only
      split
      · exact .modified rfl rfl rfl fun _ => ⟨rfl, rfl, rfl, rfl⟩
      · exact .of_get rfl rfl fun _ _ => rfl
  | streamFin id | setPaused id => exact .modify e id fun _ => ⟨rfl, rfl, rfl, rfl⟩
  | streamReset id code => exact .streamReset e id code
  | streamStopSending id code => exact .streamStopSending e id code
  | close code reason => exact .of_aside (.close e code reason)
  | sendDrain => exact .of_aside (.sendDrain e)
  | takeTerminalError => exact .of_aside (.takeTerminalError e)
  | grantCredit => exact .of_aside (.grantCredit e)
  | replenish => exact .of_aside (.replenish e)
  | queueClose => exact .of_aside (.queueClose e)
  | releasePendingOpens => exact .releasePendingOpens hl
  | flushStream id => exact .flushStream hl id
  | commitSent => exact .of_get rfl rfl fun _ _ => rfl
  | signalFlowControlBlocked => exact .of_aside (.signalFlowControlBlocked e)
  | gracefulClose => exact .of_aside (.gracefulClose e)
  | network event => exact .network hl event

/-! ## What an effect leaves alone -/

section

variable {r : Nat} {e e' : Endpoint}

/-- While the session is open, an effect of reading touches the stream it reads
and the CONNECT stream alone. -/
theorem Effect.elsewhere (h : Effect r e e') (hl : e.Layout) (hopen : e'.closed = false) {i : Nat}
    (hr : i ≠ r) (hi : i ≠ connectId) : e'.streams.get i = e.streams.get i := by
  have hconnect : ∀ {id : Nat}, e.roleOf id = some .connect → i ≠ id := by
    rintro id hrole rfl
    exact hi (hl.roles _ _ hrole)
  have htake : ∀ {id : Nat} (block : Bytes), e.roleOf id = some .connect →
      (e.takeHeaders id block).streams.get i = e.streams.get i := by
    intro id block hrole
    rw [takeHeaders_get]
    cases e.streams.get i <;> simp [hconnect hrole]
  cases h with
  | fail | finish | killFail | resetFail | resetClose | reject | refuse =>
      simp [refuse_eq, markClosed_closed] at hopen
  | frames f hid =>
      refine Table.get_modify_ne ?_
      rcases hid with rfl | rfl
      · exact hr
      · exact hi
  | classBuf | controlDone | kill | settings | classify | discard | charge | finished | reset
  | recvDead => exact Table.get_modify_ne hr
  | resolve => exact (Table.get_modify_ne hr).trans (Table.get_modify_ne hr)
  | credit => rw [setCreditLimit_streams]
  | connect => exact Table.get_insert_ne hi
  | headers block hrole => exact htake block hrole
  | undecoded _ _ hrole => exact htake _ hrole
  | ready _ _ _ hrole => exact htake _ hrole
  | unanswered _ _ hrole => exact htake _ hrole
  | accept frame _ _ hrole => exact (Table.get_modify_ne (hconnect hrole)).trans (htake _ hrole)
  | forget => exact (Table.get_erase _ _ _).trans (if_neg hr)
  | _ => rfl

theorem Effects.opened (h : Effects r e e') (hopen : e'.closed = false) : e.closed = false := by
  cases hc : e.closed with
  | false => rfl
  | true => exact absurd (h.closed hc) (by simp [hopen])

theorem Effects.elsewhere (h : Effects r e e') (hl : e.Layout) (hopen : e'.closed = false) {i : Nat}
    (hr : i ≠ r) (hi : i ≠ connectId) : e'.streams.get i = e.streams.get i := by
  induction h with
  | refl => rfl
  | tail hpre hstep ih =>
      have hb := Effects.invariant (fun _ _ hs => hs.layout) hpre hl
      have hopen' := Effects.opened (.single hstep) hopen
      exact (hstep.elsewhere hb hopen hr hi).trans (ih hopen')

/-- An effect reads nothing. -/
theorem Effect.recv (h : Effect r e e') (i : Nat) :
    (e'.conn.streams i).recv.got = (e.conn.streams i).recv.got ∧
      (e'.conn.streams i).recv.ended = (e.conn.streams i).recv.ended := by
  rcases h.conn with hs | ⟨hs, -⟩
  · rw [hs]
    exact ⟨rfl, rfl⟩
  · rw [hs]
    have hshut := Unheard.shutdownRead e r 0
    exact ⟨hshut.got i, hshut.ended i⟩

theorem Effects.recv (h : Effects r e e') (i : Nat) :
    (e'.conn.streams i).recv.got = (e.conn.streams i).recv.got ∧
      (e'.conn.streams i).recv.ended = (e.conn.streams i).recv.ended :=
  h.rel (R := fun e e' => (e'.conn.streams i).recv.got = (e.conn.streams i).recv.got ∧
      (e'.conn.streams i).recv.ended = (e.conn.streams i).recv.ended) (fun _ => ⟨rfl, rfl⟩)
    (fun hab hbc => ⟨hbc.1.trans hab.1, hbc.2.trans hab.2⟩) fun _ _ hs => hs.recv i

/-! ## Roles -/

omit [H3.Codec] in
theorem roleOf_insertConnect (e : Endpoint) (st : Stream) {i : Nat} (hi : i ≠ connectId) :
    (e.insertStream connectId st).roleOf i = e.roleOf i :=
  congrArg (Option.map Stream.role) (Table.get_insert_ne hi)

/-- Only a stream that is classified gets a new role, and a role of which there is
one is given only if no other stream has it. -/
theorem Effect.roles (h : Effect r e e') : (∀ i, i ≠ connectId → e'.roleOf i = e.roleOf i) ∨
    (∀ i, i ≠ r → e'.roleOf i = e.roleOf i) ∧ ∀ encoder,
      e'.roleOf r = some (.peerQpack encoder) → e.duplicateRole r (.peerQpack encoder) = false := by
  have hsame : Same e e' → ∀ i, i ≠ connectId → e'.roleOf i = e.roleOf i := fun hs i _ => hs.roleOf i
  cases h with
  | connect frame => exact .inl fun i hi => roleOf_insertConnect _ _ hi
  | @classify role hrole halive hnew =>
      refine .inr ⟨fun i hi => roleOf_classify_ne role hi, fun encoder hr => ?_⟩
      rw [roleOf_classify (by simp [hrole]), Option.some.injEq] at hr
      subst hr
      rcases hnew with hnew | ⟨-, hdup⟩
      · cases hnew
      · exact hdup
  | discard hp =>
      refine .inr ⟨fun i hi => roleOf_classify_ne (e := e.shutdownRead r 0) .ignored hi,
        fun encoder hr => ?_⟩
      have hsome : ((e.shutdownRead r 0).roleOf r).isSome = true := by
        rcases hp with hp | hp <;> exact isSome_of_roleOf hp
      rw [roleOf_classify hsome] at hr
      cases hr
  | @resolve bidi header hrole =>
      have hmod := Same.modifyStream (e.classify r (.wtData bidi)) r
        (f := fun st => { st with recvPrefix := header }) fun _ => ⟨rfl, rfl, fun h => h⟩
      refine .inr ⟨fun i hi => (hmod.roleOf i).trans (roleOf_classify_ne _ hi), fun encoder hr => ?_⟩
      rw [hmod.roleOf, roleOf_classify (isSome_of_roleOf hrole)] at hr
      cases hr
  | forget =>
      refine .inr ⟨fun i hi => ?_, fun encoder hr => ?_⟩
      · exact congrArg (Option.map Stream.role) ((Table.get_erase _ _ _).trans (if_neg hi))
      · simp [Endpoint.roleOf, removeStream, Table.get_erase] at hr
  | frames | classBuf => exact .inl (hsame (.modifyStream e _ fun _ => ⟨rfl, rfl, fun h => h⟩))
  | controlDone => exact .inl (hsame (.setHeadersDone e _))
  | settings => exact .inl fun i _ => (Same.setHeadersDone e r).roleOf i
  | headers => exact .inl (hsame (.takeHeaders e _ _))
  | undecoded | unanswered => exact .inl (hsame ((Same.takeHeaders e _ _).trans (.emit _ rfl)))
  | fail => exact .inl (hsame ((Same.emit e rfl).trans (.markClosed _ _ _ _)))
  | finish => exact .inl (hsame (.markClosed e _ _ _))
  | kill hc => exact .inl (hsame (.killRecv e _ hc))
  | killFail message code reason remote hc => exact .inl (hsame (.killFail e _ message hc _ _ _))
  | credit => exact .inl (hsame (.setCreditLimit e _ _))
  | ready => exact .inl (hsame ((Same.takeHeaders e _ _).trans (.becomeReady _ rfl)))
  | accept =>
      exact .inl (hsame ((Same.takeHeaders e _ _).trans
        ((Same.respond _ _ _ _).trans (.becomeReady _ rfl))))
  | reject => exact .inl (hsame ((Same.takeHeaders e _ _).trans (.refuse _ _ _ _ _)))
  | refuse => exact .inl (hsame (.refuse e _ _ _ _))
  | charge =>
      exact .inl (hsame (.modify r (by intro st; exact ⟨rfl, rfl, fun h => h⟩) rfl rfl rfl rfl rfl rfl
        rfl rfl (List.append_nil _).symm (by simp)))
  | finished | reset | recvDead => exact .inl fun i _ => Same.roleOf_setRecvDead e r i
  | resetFail message code reason remote hc =>
      exact .inl (hsame ((Same.emit e rfl).trans (.closing (e := e.emit (.error message))
        (a := (e.setRecvDead r).emit (.error message)) hc _ _ _ rfl rfl rfl rfl rfl
        (Same.roleOf_setRecvDead e r) (.modify _ _ fun _ h => h) rfl rfl)))
  | resetClose code reason remote hc =>
      exact .inl (hsame (.closing (e := e) (a := e.setRecvDead r) hc _ _ _ rfl rfl rfl rfl rfl
        (Same.roleOf_setRecvDead e r) (.modify _ _ fun _ h => h) rfl rfl))
  | _ => exact .inl fun _ _ => rfl

/-- There is one QPACK stream of a kind. -/
def OneQpack (e : Endpoint) : Prop := ∀ encoder i j, e.roleOf i = some (.peerQpack encoder) →
  e.roleOf j = some (.peerQpack encoder) → i = j

theorem Effect.oneQpack (h : Effect r e e') (hl : e.Layout) (hq : e.OneQpack) : e'.OneQpack := by
  intro encoder i j hi hj
  have hne : ∀ {k}, e'.roleOf k = some (.peerQpack encoder) → k ≠ connectId := by
    rintro k hk rfl
    simpa [RoleFits, isBidi, connectId] using (h.layout hl).roles _ _ hk
  rcases h.roles with hroles | ⟨hroles, hnew⟩
  · exact hq encoder i j (hroles i (hne hi) ▸ hi) (hroles j (hne hj) ▸ hj)
  · -- what has the role besides the stream that is classified would have been a duplicate
    have hother : ∀ k, k ≠ r → e'.roleOf r = some (.peerQpack encoder) →
        e'.roleOf k ≠ some (.peerQpack encoder) := by
      intro k hk hr hkr
      rw [hroles k hk] at hkr
      have hdup := hnew encoder hr
      simp only [duplicateRole, ← Bool.not_eq_true, Table.any_eq_true] at hdup
      cases hst : e.streams.get k with
      | none => simp [Endpoint.roleOf, hst] at hkr
      | some st => exact hdup ⟨k, st, hst, by simp [hk, role_of_roleOf hst hkr]⟩
    by_cases hir : i = r
    · subst hir
      by_cases hji : j = i
      · exact hji.symm
      · exact absurd hj (hother j hji hi)
    · by_cases hjr : j = r
      · subst hjr
        exact absurd hi (hother i hir hj)
      · exact hq encoder i j (hroles i hir ▸ hi) (hroles j hjr ▸ hj)

/-! ## SETTINGS -/

/-- SETTINGS are taken off the control stream. -/
theorem Effect.peerSettings (h : Effect r e e') :
    e'.peerSettings = e.peerSettings ∨ e.roleOf r = some .peerControl := by
  cases h with
  | settings _ hrole => exact .inr hrole
  | fail | finish | killFail | resetFail | resetClose =>
      exact .inl (markClosed_flags _ _ _ _).2.2.2.1
  | reject | refuse =>
      obtain ⟨-, -, -, -, -, -, hsettings, -⟩ := refusing_session _ _ _ _ _
      exact .inl ((markClosed_flags _ _ _ _).2.2.2.1.trans hsettings)
  | credit =>
      unfold setCreditLimit
      split_ifs <;> exact .inl rfl
  | _ => exact .inl rfl

/-- If SETTINGS were taken, the stream that was read is the control stream. -/
theorem Effects.peerSettings (h : Effects r e e') (hr : r ≠ connectId) :
    e'.peerSettings = e.peerSettings ∨ e'.roleOf r = some .peerControl := by
  induction h with
  | refl => exact .inl rfl
  | tail _ hstep ih =>
      rcases ih with hsame | hrole
      · rcases hstep.peerSettings with hs | hrole
        · exact .inl (hs.trans hsame)
        · exact .inr (hstep.roleOf hrole (by simp) fun heq => absurd heq hr)
      · exact .inr (hstep.roleOf hrole (by simp) fun heq => absurd heq hr)

/-- A stream that cannot be the control stream brings none. -/
theorem Effects.peerSettings_same (h : Effects r e e') (hl : e.Layout)
    (hr : ¬PeerUni e.cfg.isServer r) : e'.peerSettings = e.peerSettings := by
  induction h with
  | refl => rfl
  | tail hpre hstep ih =>
      have hb := Effects.invariant (fun _ _ hs => hs.layout) hpre hl
      rcases hstep.peerSettings with hs | hrole
      · exact hs.trans ih
      · have hfits := hb.roles _ _ hrole
        rw [Effects.cfg hpre] at hfits
        exact absurd hfits hr

/-- What accepted SETTINGS release does not concern the control stream. -/
theorem released_effects {s : H3.PeerSettings} (hl : e.Layout) (he : e.closed = false)
    (hs : e.peerSettings = some s) : Effects connectId e
      (if (e.releaseConnect s).cfg.isServer ∧ (e.releaseConnect s).streams.contains connectId then
        (e.releaseConnect s).parseServerConnectFrames connectId else e.releaseConnect s) := by
  have hrelease : Effects connectId e (e.releaseConnect s) := releaseConnect_effects he hs
  split
  next hserver =>
    have hsame : e.releaseConnect s = e := by
      have hp : e.connectPending = false := hl.idle (by rw [← hrelease.cfg]; exact hserver.1)
      simp [releaseConnect, hp]
    rw [hsame] at hserver ⊢
    obtain ⟨st, hst⟩ := Option.isSome_iff_exists.mp hserver.2
    exact parseServerConnectFrames_effects (.inl rfl) hserver.1
      (by simp [Endpoint.roleOf, hst, hl.connectRole st hst]) he
  · exact hrelease

/-- The bytes of a control stream, behind its type, begin with these SETTINGS. -/
def FirstSettings (rest : Bytes) (s : H3.PeerSettings) : Prop :=
  ∃ payload more, frameHead rest = .frame H3.frameSettings payload more ∧
    H3.parseSettings payload = .ok s

/-- What accepted SETTINGS leave of the control stream. -/
theorem applySettings_spec {s : H3.PeerSettings} (hl : e.Layout) (he : e.closed = false)
    (hrole : e.roleOf r = some .peerControl) {st : Stream} (hst : e.streams.get r = some st) :
    (((e.setHeadersDone r).applySettings s).peerSettings = some s) ∧
      (((e.setHeadersDone r).applySettings s).closed = false →
        ((e.setHeadersDone r).applySettings s).streams.get r = some { st with headersDone := true }) := by
  have hl1 : ((e.setHeadersDone r).seedLimits s).Layout := hl.settings hrole s
  have hfits : PeerUni e.cfg.isServer r := hl.roles _ _ hrole
  have heff : Effects connectId ((e.setHeadersDone r).seedLimits s)
      ((e.setHeadersDone r).applySettings s) := released_effects hl1 he rfl
  have hconnect : ¬PeerUni ((e.setHeadersDone r).seedLimits s).cfg.isServer connectId :=
    fun h => h.ne_connectId rfl
  refine ⟨heff.peerSettings_same hl1 hconnect, fun hopen => ?_⟩
  rw [heff.elsewhere hl1 hopen hfits.ne_connectId hfits.ne_connectId]
  simp [seedLimits, setHeadersDone, modifyStream, hst]

/-! ## The control stream -/

/-- What one frame does to a session that stays open. -/
theorem handleControlFrame_spec (hl : e.Layout) (he : e.closed = false)
    (hrole : e.roleOf r = some .peerControl) {st : Stream} (hst : e.streams.get r = some st)
    (ty : Nat) (payload : Bytes) :
    let e1 := e.handleControlFrame r (!st.headersDone) ty payload
    (e1.peerSettings = e.peerSettings ∨ st.headersDone = false ∧ ty = H3.frameSettings ∧
      ∃ s, H3.parseSettings payload = .ok s ∧ e1.peerSettings = some s) ∧
    (e1.closed = false → forbiddenControl (!st.headersDone) ty = false ∧
      e1.streams.get r = some { st with headersDone := true }) := by
  have herror : ∀ (s : Endpoint) (code : Nat) (message : String), s.peerSettings = e.peerSettings →
      (s.protocolError code message).peerSettings = e.peerSettings := by
    intro s code message hs
    unfold protocolError
    split
    · exact hs
    · exact (markClosed_flags _ _ _ _).2.2.2.1.trans hs
  have hclosed : ∀ (s : Endpoint) (code : Nat) (message : String),
      (s.protocolError code message).closed ≠ false := by simp [protocolError_closed]
  simp only
  unfold handleControlFrame
  split_ifs with hfirst hsettings hrepeat hbad hgoaway
  · exact ⟨.inl (herror e _ _ rfl), fun h => absurd h (hclosed _ _ _)⟩
  · exact ⟨.inl (herror e _ _ rfl), fun h => absurd h (hclosed _ _ _)⟩
  · have hdone : st.headersDone = false := by simpa using hrepeat
    subst hsettings
    simp only
    split
    next s hs =>
      obtain ⟨hseed, hentry⟩ := applySettings_spec (s := s) hl he hrole hst
      exact ⟨.inr ⟨hdone, trivial, s, hs, hseed⟩, fun h =>
        ⟨by simp [forbiddenControl, hdone], hentry h⟩⟩
    · exact ⟨.inl (herror (e.setHeadersDone r) _ _ rfl), fun h => absurd h (hclosed _ _ _)⟩
  · exact ⟨.inl (herror e _ _ rfl), fun h => absurd h (hclosed _ _ _)⟩
  · have hdone : st.headersDone = true := by
      by_contra hd
      exact hfirst ⟨by simpa using hd, hsettings⟩
    refine ⟨.inl rfl, fun _ => ⟨?_, ?_⟩⟩
    · simp only [not_or] at hbad
      simp [forbiddenControl, hdone, hsettings, hbad]
    · rw [← hdone]
      exact hst
  · have hdone : st.headersDone = true := by
      by_contra hd
      exact hfirst ⟨by simpa using hd, hsettings⟩
    refine ⟨.inl rfl, fun _ => ⟨?_, ?_⟩⟩
    · simp only [not_or] at hbad
      simp [forbiddenControl, hdone, hsettings, hbad]
    · rw [← hdone]
      exact hst

omit [H3.Codec] in
/-- What the parser of a stream takes next. -/
theorem nextFrame_parses {st : Stream} (hst : e.streams.get r = some st)
    (hok : st.frames.error = false) :
    match e.nextFrame r with
    | (none, e1) => ∃ frames, e1.streams.get r = some { st with frames := frames } ∧
        (frames.error = true ∨ frames = st.frames ∧ frameHead st.frames.buf.data = .incomplete)
    | (some (ty, payload), e1) => ∃ frames, e1.streams.get r = some { st with frames := frames } ∧
        frames.error = false ∧
        frameHead st.frames.buf.data = .frame ty payload.data frames.buf.data := by
  have hspec := FrameParser.nextFrame_spec e.heap hok
  unfold Endpoint.nextFrame
  simp only [hst]
  cases hnext : st.frames.nextFrame e.heap with
  | mk frame rest =>
      obtain ⟨frames, h⟩ := rest
      rw [hnext] at hspec
      have hget : (e.streams.modify r fun st => { st with frames := frames }).get r =
          some { st with frames := frames } := by simp [hst]
      cases frame with
      | none => exact ⟨frames, hget, hspec⟩
      | some frame =>
          obtain ⟨ty, payload⟩ := frame
          exact ⟨frames, hget, hspec⟩

/-- What holds throughout the parsing of the control stream, of which `rest` was
read behind its type. -/
structure Parsing (r : Nat) (rest : Bytes) (before : Option H3.PeerSettings) (e : Endpoint) :
    Prop where
  layout : e.Layout
  control : ControlStream r e
  settings : e.peerSettings = before ∨ ∃ s, e.peerSettings = some s ∧ FirstSettings rest s
  entry : e.closed = false → ∃ st, e.streams.get r = some st ∧
    (st.frames.error = false → Follows rest (!st.headersDone) st.frames.buf.data)

/-- The parser has found all there is. -/
def Drained (e : Endpoint) (r : Nat) (rest : Bytes) : Prop :=
  ∃ st, e.streams.get r = some st ∧ (st.frames.error = true ∨
    Follows rest (!st.headersDone) st.frames.buf.data ∧
      frameHead st.frames.buf.data = .incomplete)

theorem controlStep_parsing {rest : Bytes} {before : Option H3.PeerSettings}
    (h : Parsing r rest before e) : Parsing r rest before (controlStep r e).1 ∧
      ((controlStep r e).1.closed = false →
        if (controlStep r e).2 then (controlStep r e).1.framesLength r < e.framesLength r
        else (controlStep r e).1.Drained r rest) := by
  have heff := controlStep_effects h.control
  have hlayout := heff.invariant (fun _ _ hs => hs.layout) h.layout
  have hcontrol := h.control.effects heff
  unfold controlStep at heff hlayout hcontrol ⊢
  cases hclosed : e.closed with
  | true =>
      simp only [hclosed, if_true] at heff hlayout hcontrol ⊢
      exact ⟨h, fun hopen => by simp at hopen⟩
  | false =>
      obtain ⟨st, hst, hfollows⟩ := h.entry hclosed
      simp only [hclosed, Bool.false_eq_true, if_false] at heff hlayout hcontrol ⊢
      have hsession := nextFrame_session e r
      cases herr : st.frames.error with
      | true =>
          -- the parser takes nothing any more
          have hnone : e.nextFrame r = (none, { e with
              streams := e.streams.modify r fun s => { s with frames := st.frames } }) := by
            simp [Endpoint.nextFrame, hst, FrameParser.nextFrame, herr]
          rw [hnone] at hlayout hcontrol ⊢
          have hget : (e.streams.modify r fun s => { s with frames := st.frames }).get r =
              some st := by simp [hst]
          exact ⟨⟨hlayout, hcontrol, h.settings, fun _ => ⟨st, hget, hfollows⟩⟩,
            fun _ => ⟨st, hget, .inl herr⟩⟩
      | false =>
          have hparse := nextFrame_parses hst herr
          have hold := hfollows herr
          cases hnext : e.nextFrame r with
          | mk frame e1 =>
              rw [hnext] at hparse hsession hlayout hcontrol heff
              cases frame with
              | none =>
                  obtain ⟨frames, hget, hframes⟩ := hparse
                  refine ⟨⟨hlayout, hcontrol, hsession.2.1 ▸ h.settings, fun _ => ⟨_, hget, ?_⟩⟩,
                    fun _ => ⟨_, hget, ?_⟩⟩
                  · intro hok
                    rcases hframes with hbad | ⟨rfl, -⟩
                    · simp [hbad] at hok
                    · exact hold
                  · exact hframes.imp_right fun ⟨heq, hhead⟩ => by
                      subst heq
                      exact ⟨hold, hhead⟩
              | some frame =>
                  obtain ⟨ty, payload⟩ := frame
                  obtain ⟨frames, hget, hok, hhead⟩ := hparse
                  have hpre : Effects r e e1 := by
                    have hnexteff := nextFrame_effects e (r := r) (.inl rfl)
                    rwa [hnext] at hnexteff
                  have hlog : Effects r e (e1.log (.controlFrame ty)) :=
                    hpre.tail (.log e1 rfl)
                  have hl1 := hlog.invariant (fun _ _ hs => hs.layout) h.layout
                  have hopen1 : (e1.log (.controlFrame ty)).closed = false :=
                    hsession.2.2.1.trans hclosed
                  have hfirst : e.headersDone r = st.headersDone := by
                    simp [Endpoint.headersDone, hst]
                  obtain ⟨hsettings, hentry⟩ := handleControlFrame_spec hl1 hopen1
                    (h.control.effects hlog).role hget ty payload.data
                  simp only [hfirst] at hlayout hcontrol ⊢
                  refine ⟨⟨hlayout, hcontrol, ?_, fun hopen => ?_⟩, fun hopen => ?_⟩
                  · rcases hsettings with hsame | ⟨hdone, rfl, s, hs, hseed⟩
                    · have hsame := hsame.trans hsession.2.1
                      exact hsame ▸ h.settings
                    · refine .inr ⟨s, hseed, payload.data, frames.buf.data, ?_, hs⟩
                      have hnew : st.headersDone = false := hdone
                      rw [← hold.untouched (by rw [hnew]; rfl)]
                      exact hhead
                  · obtain ⟨hallowed, hget'⟩ := hentry hopen
                    exact ⟨_, hget', fun _ => hold.take hhead hallowed⟩
                  · obtain ⟨-, hget'⟩ := hentry hopen
                    have hlen := frameHead_length hhead
                    have hget' : (((e1.log (.controlFrame ty)).handleControlFrame r
                        (!st.headersDone) ty payload.data).dropBuffer payload).streams.get r =
                        some { { st with frames := frames } with headersDone := true } := hget'
                    rw [if_pos trivial, framesLength, framesLength, hst, hget']
                    exact hlen

/-- A closed session takes no further frame. -/
theorem iterate_controlStep_closed (hc : e.closed = true) :
    ∀ n, iterate (controlStep r) n e = e
  | 0 => rfl
  | n + 1 => by
      have hstop : controlStep r e = (e, false) := by
        unfold controlStep
        rw [if_pos hc]
      rw [iterate, hstop]
      rfl

theorem iterate_controlStep {rest : Bytes} {before : Option H3.PeerSettings} :
    ∀ (n : Nat) {e : Endpoint}, Parsing r rest before e → e.framesLength r < n →
      Parsing r rest before (iterate (controlStep r) n e) ∧
        ((iterate (controlStep r) n e).closed = false →
          (iterate (controlStep r) n e).Drained r rest)
  | 0, e, _, hlt => absurd hlt (Nat.not_lt_zero _)
  | n + 1, e, h, hlt => by
      obtain ⟨hstep, hdone⟩ := controlStep_parsing h
      rw [iterate]
      cases hgo : (controlStep r e).2 with
      | false =>
          rw [if_neg (by simp)]
          refine ⟨hstep, fun hopen => ?_⟩
          have hd := hdone hopen
          rwa [hgo, if_neg (by simp)] at hd
      | true =>
          rw [if_pos rfl]
          cases hc : (controlStep r e).1.closed with
          | false =>
              have hd := hdone hc
              rw [hgo, if_pos rfl] at hd
              exact iterate_controlStep n hstep (by omega)
          | true =>
              rw [iterate_controlStep_closed hc]
              exact ⟨hstep, fun hopen => by simp [hc] at hopen⟩

/-- A chunk of the control stream reaches its parser, or memory for it was refused. -/
theorem pushFrames_parses (hl : e.Layout) (hc : ControlStream r e) {rest : Bytes} {st : Stream}
    (hst : e.streams.get r = some st) (hok : st.frames.error = false)
    (hfollows : Follows rest (!st.headersDone) st.frames.buf.data) (chunk : Bytes) :
    Parsing r (rest ++ chunk) e.peerSettings (e.pushFrames r chunk) := by
  have heff : Effects r e (e.pushFrames r chunk) := pushFrames_effects e chunk
  have hget : ∀ frames : FrameParser, (e.streams.modify r fun st => { st with frames := frames }).get r =
      some { st with frames := frames } := fun frames => by simp [hst]
  refine ⟨heff.invariant (fun _ _ hs => hs.layout) hl, hc.effects heff, .inl ?_, fun _ => ?_⟩
  · unfold pushFrames
    rw [hst]
  · unfold pushFrames FrameParser.push
    simp only [hst, hok, Bool.false_eq_true, if_false]
    cases hx : st.frames.buf.extendFromSlice e.heap chunk with
    | mk buf h =>
        cases buf with
        | none => exact ⟨_, hget _, fun hbad => (by cases hbad)⟩
        | some buf =>
            refine ⟨_, hget _, fun _ => ?_⟩
            show Follows (rest ++ chunk) (!st.headersDone) buf.data
            rw [ParserBuffer.extendFromSlice_data hx]
            exact hfollows.push chunk

/-- What was read of the control stream while the session stays open. -/
structure OnControl (got : Bytes) (st : Stream) : Prop where
  role : st.role = .peerControl
  parser : st.frames.error = false
  behind : ∃ n, H3.readVarint got = some (H3.h3ControlStreamType, n) ∧
    Follows (got.drop n) (!st.headersDone) st.frames.buf.data
  drained : frameHead st.frames.buf.data = .incomplete

/-- The bytes of a unidirectional stream are a control stream that begins with
these SETTINGS. -/
def SaysSettings (got : Bytes) (s : H3.PeerSettings) : Prop :=
  ∃ n, H3.readVarint got = some (H3.h3ControlStreamType, n) ∧ FirstSettings (got.drop n) s

theorem recvControl_spec (hl : e.Layout) (hc : ControlStream r e) {got chunk : Bytes} {n : Nat}
    (hn : H3.readVarint got = some (H3.h3ControlStreamType, n)) {st : Stream}
    (hst : e.streams.get r = some st) (hok : st.frames.error = false) {rest : Bytes}
    (hfollows : Follows rest (!st.headersDone) st.frames.buf.data)
    (hgot : got.drop n = rest ++ chunk) (fin : Bool) :
    ((e.recvControl r chunk fin).peerSettings = e.peerSettings ∨
      ∃ s, (e.recvControl r chunk fin).peerSettings = some s ∧ SaysSettings got s) ∧
    ((e.recvControl r chunk fin).closed = false → fin = false ∧
      ∃ st', (e.recvControl r chunk fin).streams.get r = some st' ∧ OnControl got st') := by
  have hpush := pushFrames_parses hl hc hst hok hfollows chunk
  obtain ⟨hparsing, hdrained⟩ :=
    iterate_controlStep ((e.pushFrames r chunk).framesLength r + 1) hpush (Nat.lt_succ_self _)
  have hkept : ∀ (s : Endpoint) (code : Nat) (message : String),
      (s.protocolError code message).peerSettings = s.peerSettings := by
    intro s code message
    unfold protocolError
    split
    · rfl
    · exact (markClosed_flags _ _ _ _).2.2.2.1
  unfold recvControl
  simp only
  change Parsing r (rest ++ chunk) e.peerSettings ((e.pushFrames r chunk).parseControlFrames r)
    at hparsing
  change ((e.pushFrames r chunk).parseControlFrames r).closed = false →
    ((e.pushFrames r chunk).parseControlFrames r).Drained r (rest ++ chunk) at hdrained
  generalize (e.pushFrames r chunk).parseControlFrames r = e1 at hparsing hdrained ⊢
  have hfin : (if fin ∧ !e1.closed then
      e1.protocolError 0x104 "peer closed the HTTP/3 control stream" else e1).peerSettings =
        e1.peerSettings ∧
      ((if fin ∧ !e1.closed then
        e1.protocolError 0x104 "peer closed the HTTP/3 control stream" else e1).closed = false →
        fin = false ∧ (if fin ∧ !e1.closed then
          e1.protocolError 0x104 "peer closed the HTTP/3 control stream" else e1) = e1) := by
    split
    · exact ⟨hkept _ _ _, fun hopen => by simp [protocolError_closed] at hopen⟩
    next hno =>
      refine ⟨rfl, fun hopen => ⟨?_, rfl⟩⟩
      cases fin with
      | false => rfl
      | true => exact absurd ⟨rfl, by simp [hopen]⟩ hno
  generalize (if fin ∧ !e1.closed then
      e1.protocolError 0x104 "peer closed the HTTP/3 control stream" else e1) = e2 at hfin ⊢
  have hsettings : e2.peerSettings = e.peerSettings ∨
      ∃ s, e2.peerSettings = some s ∧ SaysSettings got s := by
    rw [hfin.1]
    refine hparsing.settings.imp_right fun ⟨s, hs, hfirst⟩ => ⟨s, hs, n, hn, ?_⟩
    rw [hgot]
    exact hfirst
  split
  · refine ⟨?_, fun hopen => ?_⟩
    · split
      · exact hsettings
      · have hsame : ∀ (s : Endpoint), s.peerSettings = e2.peerSettings →
            ((s.markClosed 0 [] true).closeConn 0 (H3.ascii "h3 control error")).peerSettings =
              e2.peerSettings := fun s hs => (markClosed_flags _ _ _ _).2.2.2.1.trans hs
        rw [hsame]
        · exact hsettings
        · rfl
    · split at hopen
      next hclosed => simp [hclosed] at hopen
      · simp [closeConn, markClosed_closed] at hopen
  next hclean =>
    refine ⟨hsettings, fun hopen => ?_⟩
    obtain ⟨hf, heq⟩ := hfin.2 hopen
    subst heq
    obtain ⟨st', hst', hend⟩ := hdrained hopen
    have hrole := role_of_roleOf hst' hparsing.control.role
    have hnoerr : st'.frames.error = false := by
      by_contra hbad
      exact hclean (by simp [frameError, hst', hbad])
    rcases hend with hbad | ⟨hfollow, hhead⟩
    · simp [hnoerr] at hbad
    · exact ⟨hf, st', hst', hrole, hnoerr, ⟨n, hn, hgot ▸ hfollow⟩, hhead⟩

/-! ## What was read of a stream -/

/-- The types of which the peer has one stream. -/
def isCriticalType (ty : Nat) : Bool :=
  ty == H3.h3ControlStreamType || ty == H3.qpackEncoderStreamType || ty == H3.qpackDecoderStreamType

def qpackType (encoder : Bool) : Nat :=
  if encoder then H3.qpackEncoderStreamType else H3.qpackDecoderStreamType

/-- The bytes do not begin a critical stream. -/
def Uncritical (got : Bytes) : Prop :=
  ∀ ty n, H3.readVarint got = some (ty, n) → isCriticalType ty = false

/-- What was read of a stream fits what the session takes it for. -/
inductive Fits (got : Bytes) (ended : Bool) (st : Stream) : Prop
  | pending : st.role = .pendingUni → st.classBuf.data = got → st.frames.error = false →
      st.frames.buf.data = [] → st.headersDone = false → Uncritical got → Fits got ended st
  | control : ended = false → OnControl got st → Fits got ended st
  | qpack (encoder : Bool) (n : Nat) : st.role = .peerQpack encoder → ended = false →
      H3.readVarint got = some (qpackType encoder, n) → Fits got ended st
  | other (ty n : Nat) : st.role ≠ .pendingUni → st.role ≠ .peerControl →
      (∀ encoder, st.role ≠ .peerQpack encoder) → H3.readVarint got = some (ty, n) →
      isCriticalType ty = false → Fits got ended st

/-- A stream without an entry is new, or over. -/
def Understood (e : Endpoint) (i : Nat) : Prop :=
  match e.streams.get i with
  | none => Uncritical (e.conn.streams i).recv.got ∧
      ((e.conn.streams i).recv.got = [] ∨ (e.conn.streams i).Exhausted)
  | some st => Fits (e.conn.streams i).recv.got (e.conn.streams i).recv.ended st

omit [H3.Codec] in
theorem Understood.entry {i : Nat} {st : Stream} (hst : e.streams.get i = some st)
    (h : Fits (e.conn.streams i).recv.got (e.conn.streams i).recv.ended st) : e.Understood i := by
  unfold Understood
  rw [hst]
  exact h

omit [H3.Codec] in
theorem Understood.bare {i : Nat} (hnone : e.streams.get i = none)
    (h : Uncritical (e.conn.streams i).recv.got)
    (hover : (e.conn.streams i).recv.got = [] ∨ (e.conn.streams i).Exhausted) : e.Understood i := by
  unfold Understood
  rw [hnone]
  exact ⟨h, hover⟩

omit [H3.Codec] in
/-- What is known of a stream that was classified as none of the critical ones. -/
theorem Understood.other {i : Nat} {role : Role} (hrole : e.roleOf i = some role)
    (hpending : role ≠ .pendingUni) (hcontrol : role ≠ .peerControl)
    (hqpack : ∀ encoder, role ≠ .peerQpack encoder) {ty n : Nat}
    (hgot : H3.readVarint (e.conn.streams i).recv.got = some (ty, n))
    (hty : isCriticalType ty = false) : e.Understood i := by
  obtain ⟨st, hst, rfl⟩ := Option.map_eq_some_iff.mp hrole
  exact .entry hst (.other ty n hpending hcontrol hqpack hgot hty)

omit [H3.Codec] in
/-- The bytes of a stream that waits for its type, with one chunk more. -/
theorem pushClass_spec {st : Stream} (hst : e.streams.get r = some st) (chunk : Bytes) :
    match e.pushClass r chunk with
    | (e1, none) => e1.peerSettings = e.peerSettings ∧ e1.closed = true
    | (e1, some buf) => buf = st.classBuf.data ++ chunk ∧ e1.peerSettings = e.peerSettings ∧
        e1.conn = e.conn ∧ e1.closed = e.closed ∧ ∃ b, b.data = buf ∧
          e1.streams.get r = some { st with classBuf := b } := by
  unfold pushClass
  simp only [hst]
  cases hx : st.classBuf.extendFromSlice e.heap chunk with
  | mk buf h =>
      cases buf with
      | none =>
          exact ⟨parserLimitExceeded_peerSettings _, parserLimitExceeded_closed _⟩
      | some buf =>
          exact ⟨ParserBuffer.extendFromSlice_data hx, rfl, rfl, rfl, buf, rfl, by simp [hst]⟩

/-- What a step of reading a stream of the peer establishes. -/
structure Hears (r : Nat) (got : Bytes) (e e' : Endpoint) : Prop where
  settings : e'.peerSettings = e.peerSettings ∨
    ∃ s, e'.peerSettings = some s ∧ SaysSettings got s
  known : e'.closed = false → e'.Understood r

/-- The connection behind effects that keep the session open and the stream alone. -/
theorem Effects.known_got (h : Effects r e e') {got : Bytes} {ended : Bool}
    (hgot : (e.conn.streams r).recv.got = got) (hended : (e.conn.streams r).recv.ended = ended) :
    (e'.conn.streams r).recv.got = got ∧ (e'.conn.streams r).recv.ended = ended :=
  ⟨(h.recv r).1.trans hgot, (h.recv r).2.trans hended⟩

omit [H3.Codec] in
theorem roleOf_protocolError (e : Endpoint) (code : Nat) (message : String) (i : Nat) :
    (e.protocolError code message).roleOf i = e.roleOf i := by
  unfold protocolError
  split
  · rfl
  · exact ((Same.emit e rfl).trans (.markClosed _ _ _ _)).roleOf i

theorem resolvePendingUni_hears (hl : e.Layout) (he : e.closed = false)
    (hr : PeerUni e.cfg.isServer r) (halive : e.Alive r) {st : Stream}
    (hst : e.streams.get r = some st) (hrole : st.role = .pendingUni) {got chunk : Bytes} {fin : Bool}
    (hbuf : st.classBuf.data = got) (hparser : st.frames.error = false)
    (hframes : st.frames.buf.data = []) (hfirst : st.headersDone = false)
    (hgot : (e.conn.streams r).recv.got = got ++ chunk) (hended : (e.conn.streams r).recv.ended = fin)
    (hfin : fin = true → (e.conn.streams r).Exhausted) :
    Hears r (got ++ chunk) e (e.resolvePendingUni r chunk fin) := by
  have hpending : e.roleOf r = some .pendingUni := by simp [Endpoint.roleOf, hst, hrole]
  have heff := resolvePendingUni_effects hpending hl.idle hl.connectRole hr.1 he halive chunk hfin
  obtain ⟨hgot', hended'⟩ := heff.known_got hgot hended
  have hsettings : (e.resolvePendingUni r chunk fin).roleOf r ≠ some .peerControl →
      (e.resolvePendingUni r chunk fin).peerSettings = e.peerSettings ∨
        ∃ s, (e.resolvePendingUni r chunk fin).peerSettings = some s ∧ SaysSettings (got ++ chunk) s :=
    fun hno => .inl ((heff.peerSettings hr.ne_connectId).resolve_right hno)
  have hpush := pushClass_spec hst chunk
  have hpusheff : Effects r e (e.pushClass r chunk).1 := pushClass_effects (.inl hpending) chunk
  rw [hbuf] at hpush
  unfold resolvePendingUni at heff hgot' hended' hsettings ⊢
  cases hx : e.pushClass r chunk with
  | mk e1 buf =>
      rw [hx] at hpush heff hgot' hended' hsettings hpusheff
      cases buf with
      | none => exact ⟨.inl hpush.1, fun hopen => by simp [hpush.2] at hopen⟩
      | some buf =>
          obtain ⟨rfl, hs1, hconn, hopen1, b, hb, hget⟩ := hpush
          have hl1 : e1.Layout := hpusheff.invariant (fun _ _ hs => hs.layout) hl
          have hrole1 : e1.roleOf r = some .pendingUni := by simp [Endpoint.roleOf, hget, hrole]
          have hsome : (e1.roleOf r).isSome = true := by simp [hrole1]
          -- a stream that still waits is pending, or it has ended and is forgotten
          have hwaits : Uncritical (got ++ chunk) → (e1.forgetIf r fin).closed = false →
              ((e1.forgetIf r fin).conn.streams r).recv.got = got ++ chunk →
              (e1.forgetIf r fin).Understood r := by
            intro hun hopen hg
            cases fin with
            | true =>
                refine .bare (by simp [forgetIf, removeStream, Table.get_erase]) (hg ▸ hun) (.inr ?_)
                show (e1.conn.streams r).Exhausted
                rw [hconn]
                exact hfin rfl
            | false =>
                exact .entry hget (.pending hrole (hb.trans hg.symm) hparser hframes hfirst (hg ▸ hun))
          have hforget : (e1.forgetIf r fin).roleOf r ≠ some .peerControl := by
            cases fin with
            | true => simp [forgetIf, removeStream, Endpoint.roleOf, Table.get_erase]
            | false => simp [forgetIf, hrole1]
          have herror : ∀ (code : Nat) (message : String),
              (e1.protocolError code message).roleOf r ≠ some .peerControl := by
            intro code message
            rw [roleOf_protocolError, hrole1]
            simp
          simp only at heff hgot' hended' hsettings ⊢
          cases hty : H3.readVarint (got ++ chunk) with
          | none =>
              simp only [hty] at heff hgot' hended' hsettings ⊢
              exact ⟨hsettings hforget, fun hopen =>
                hwaits (fun ty n h => by simp [hty] at h) hopen hgot'⟩
          | some t =>
              obtain ⟨ty, n⟩ := t
              simp only [hty] at heff hgot' hended' hsettings ⊢
              have hlen := (H3.readVarint_len hty).2
              split_ifs at heff hgot' hended' hsettings ⊢ with hcontrol hdup hqpack hdup hend hwt
              · exact ⟨hsettings (herror _ _), fun hopen => by simp [protocolError_closed] at hopen⟩
              · -- the control stream starts with what is behind its type
                subst hcontrol
                have hclass : Effect r e1 (e1.classify r .peerControl) :=
                  .classify e1 hrole1 (fun st1 h1 => by
                    obtain rfl := Option.some.inj (hget.symm.trans h1)
                    exact halive st hst) (.inr ⟨.inl rfl, by simpa using hdup⟩)
                have hl2 := hclass.layout hl1
                have hget2 : (e1.classify r .peerControl).streams.get r =
                    some { st with role := .peerControl, classBuf := .new b.memory } := by
                  simp [classify, hget]
                have hcontrol2 : ControlStream r (e1.classify r .peerControl) :=
                  ⟨roleOf_classify hsome, hl2.idle, hl2.connectRole⟩
                have hfollows : Follows [] (!st.headersDone) st.frames.buf.data := by
                  rw [hfirst, hframes]
                  exact .start []
                obtain ⟨hset, hkept⟩ := recvControl_spec hl2 hcontrol2 hty hget2 hparser hfollows
                  (List.nil_append _).symm fin
                have hs2 : (e1.classify r .peerControl).peerSettings = e.peerSettings := hs1
                rw [hs2] at hset
                refine ⟨hset, fun hopen => ?_⟩
                obtain ⟨hf, st', hst', hon⟩ := hkept hopen
                exact .entry hst' (.control (hended'.trans hf) (hgot'.symm ▸ hon))
              · exact ⟨hsettings (herror _ _), fun hopen => by simp [protocolError_closed] at hopen⟩
              · refine ⟨hsettings ?_, fun hopen => by simp [protocolError_closed] at hopen⟩
                rw [roleOf_protocolError, roleOf_classify hsome]
                simp
              · have hf : fin = false := by simpa using hend
                have hrole2 : (e1.classify r (.peerQpack (ty == H3.qpackEncoderStreamType))).roleOf r =
                    some (.peerQpack (ty == H3.qpackEncoderStreamType)) := roleOf_classify hsome
                refine ⟨hsettings (by rw [hrole2]; simp), fun hopen => ?_⟩
                obtain ⟨st', hst', hr'⟩ := Option.map_eq_some_iff.mp hrole2
                refine .entry hst' (.qpack _ n hr' (hended'.trans hf) ?_)
                rw [hgot', hty]
                rcases hqpack with rfl | rfl <;> rfl
              · have hun : isCriticalType ty = false := by
                  subst hwt
                  rfl
                cases hsession : H3.readVarint ((got ++ chunk).drop n) with
                | none =>
                    simp only [hsession] at heff hgot' hended' hsettings ⊢
                    refine ⟨hsettings hforget, fun hopen => hwaits (fun ty' n' h => ?_) hopen hgot'⟩
                    rw [hty] at h
                    cases h
                    exact hun
                | some q =>
                    obtain ⟨session, n2⟩ := q
                    simp only [hsession] at heff hgot' hended' hsettings ⊢
                    split_ifs at heff hgot' hended' hsettings ⊢ with hforeign
                    · have hrole2 : ((e1.shutdownRead r 0).classify r .ignored).roleOf r =
                          some .ignored := roleOf_classify (e := e1.shutdownRead r 0) hsome
                      exact ⟨hsettings (by rw [hrole2]; simp), fun hopen =>
                        .other hrole2 (by simp) (by simp) (by simp) (hgot'.symm ▸ hty) hun⟩
                    · have hrole2 := surfaceStream_roleOf hsome hr.ne_connectId false (got ++ chunk)
                        (n + n2) fin
                      exact ⟨hsettings (by rw [hrole2]; simp), fun hopen =>
                        .other hrole2 (by simp) (by simp) (by simp) (hgot'.symm ▸ hty) hun⟩
              · have hrole2 : (e1.classify r .ignored).roleOf r = some .ignored := roleOf_classify hsome
                refine ⟨hsettings (by rw [hrole2]; simp), fun hopen =>
                  .other hrole2 (by simp) (by simp) (by simp) (hgot'.symm ▸ hty) ?_⟩
                simp only [not_or] at hqpack
                simp [isCriticalType, hcontrol, hqpack]

/-- One chunk of a unidirectional stream of the peer. -/
theorem processRecv_hears (hl : e.Layout) (he : e.closed = false) (hr : PeerUni e.cfg.isServer r)
    (halive : e.Pending r → e.Alive r) {st : Stream} (hst : e.streams.get r = some st)
    {got chunk : Bytes} {fin : Bool} (hfits : Fits got false st)
    (hgot : (e.conn.streams r).recv.got = got ++ chunk) (hended : (e.conn.streams r).recv.ended = fin)
    (hfin : fin = true → (e.conn.streams r).Exhausted)
    (hread : fin = true → (e.conn.streams r).FinRead) :
    Hears r (got ++ chunk) e (e.processRecv r chunk fin) := by
  have heff := processRecv_effects (hl.readable he) halive chunk hfin hread
  obtain ⟨hgot', hended'⟩ := heff.known_got hgot hended
  have hrole : e.roleOf r = some st.role := by simp [Endpoint.roleOf, hst]
  cases hfits with
  | pending hp hbuf hparser hframes hfirst =>
      have heq : e.processRecv r chunk fin = e.resolvePendingUni r chunk fin := by
        unfold processRecv
        rw [hst, Option.map_some, hp]
      rw [heq]
      exact resolvePendingUni_hears hl he hr (halive (.inl (hp ▸ hrole))) hst hp hbuf hparser hframes
        hfirst hgot hended hfin
  | control _ hon =>
      obtain ⟨n, hn, hfollows⟩ := hon.behind
      have heq : e.processRecv r chunk fin = e.recvControl r chunk fin := by
        unfold processRecv
        rw [hst, Option.map_some, hon.role]
      rw [heq] at hgot' hended' ⊢
      obtain ⟨hset, hkept⟩ := recvControl_spec hl ⟨hon.role ▸ hrole, hl.idle, hl.connectRole⟩
        (H3.readVarint_append hn chunk) hst hon.parser hfollows
        (List.drop_append_of_le_length (H3.readVarint_len hn).2) fin
      refine ⟨hset, fun hopen => ?_⟩
      obtain ⟨hf, st', hst', hon'⟩ := hkept hopen
      exact .entry hst' (.control (hended'.trans hf) (hgot'.symm ▸ hon'))
  | qpack encoder n hq _ hn =>
      have heq : e.processRecv r chunk fin =
          if fin then e.protocolError 0x104 "peer closed a critical QPACK stream" else e := by
        unfold processRecv
        rw [hst, Option.map_some, hq]
      rw [heq]
      cases fin with
      | true =>
          refine ⟨.inl ?_, fun hopen => by simp [protocolError_closed] at hopen⟩
          have hprotocol := protocolError_effects (r := connectId) e 0x104
            "peer closed a critical QPACK stream"
          exact hprotocol.peerSettings_same hl fun h => h.ne_connectId rfl
      | false =>
          exact ⟨.inl rfl, fun _ => .entry hst (.qpack encoder n hq hended
            (hgot ▸ H3.readVarint_append hn chunk))⟩
  | other ty n hp hc hq hn hty =>
      have hbidi : st.role ≠ .pendingBidi := by
        intro hb
        have hfits := hl.roles _ _ hrole
        rw [hb] at hfits
        simp [RoleFits, hr.2] at hfits
      have hrole' := heff.roleOf hrole ⟨hp, hbidi⟩ fun heq => absurd heq hr.ne_connectId
      refine ⟨.inl ((heff.peerSettings hr.ne_connectId).resolve_right ?_), fun _ =>
        .other hrole' hp hc hq (hgot'.symm ▸ H3.readVarint_append hn chunk) hty⟩
      rw [hrole']
      exact fun heq => hc (Option.some.inj heq)

/-- A RESET of a unidirectional stream of the peer. -/
theorem recvReset_hears (hl : e.Layout) (he : e.closed = false) (hr : PeerUni e.cfg.isServer r)
    {st : Stream} (hst : e.streams.get r = some st) {got : Bytes} (hfits : Fits got false st)
    (hgot : (e.conn.streams r).recv.got = got) (hx : (e.conn.streams r).Exhausted)
    (hread : (e.conn.streams r).ResetRead) (code : Nat) (finalSize : Option Nat) :
    Hears r got e (e.recvReset r code finalSize) := by
  have heff := recvReset_effects he hx hread code finalSize
  obtain ⟨hgot', -⟩ := heff.known_got hgot rfl
  have hrole : e.roleOf r = some st.role := by simp [Endpoint.roleOf, hst]
  have hcritical : st.role = .peerControl ∨ (∃ encoder, st.role = .peerQpack encoder) →
      Hears r got e (e.recvReset r code finalSize) := by
    intro hc
    have hdata : st.role.isWtData = false := by
      rcases hc with hc | ⟨encoder, hc⟩ <;> rw [hc] <;> rfl
    have heq : e.recvReset r code finalSize =
        (e.setRecvDead r).protocolError 0x104 "peer reset a critical HTTP/3 stream" := by
      have hsurface : e.surfaceReset r code =
          (e.setRecvDead r).protocolError 0x104 "peer reset a critical HTTP/3 stream" := by
        unfold surfaceReset
        rcases hc with hc | ⟨encoder, hc⟩ <;> rw [hst, Option.map_some, hc]
      unfold recvReset
      cases finalSize with
      | none => exact hsurface
      | some size =>
          simp only [hst, hdata, Bool.false_eq_true, if_false]
          exact hsurface
    rw [heq]
    refine ⟨.inl ?_, fun hopen => by simp [protocolError_closed] at hopen⟩
    unfold protocolError
    split
    · rfl
    · exact (markClosed_flags _ _ _ _).2.2.2.1
  cases hfits with
  | control _ hon => exact hcritical (.inl hon.role)
  | qpack encoder n hq => exact hcritical (.inr ⟨encoder, hq⟩)
  | pending hp hbuf hparser hframes hfirst hun =>
      have heq : e.recvReset r code finalSize = e.setRecvDead r := by
        have hsurface : e.surfaceReset r code = e.setRecvDead r := by
          unfold surfaceReset
          rw [hst, Option.map_some, hp]
        have hdata : st.role.isWtData = false := by
          rw [hp]
          rfl
        unfold recvReset
        cases finalSize with
        | none => exact hsurface
        | some size =>
            simp only [hst, hdata, Bool.false_eq_true, if_false]
            exact hsurface
      rw [heq]
      have hget : (e.setRecvDead r).streams.get r = some { st with recvDead := true } := by
        simp [setRecvDead, modifyStream, hst]
      exact ⟨.inl rfl, fun _ => .entry hget
        (.pending hp (hbuf.trans hgot.symm) hparser hframes hfirst (hgot ▸ hun))⟩
  | other ty n hp hc hq hn hty =>
      have hbidi : st.role ≠ .pendingBidi := by
        intro hb
        have hfits := hl.roles _ _ hrole
        rw [hb] at hfits
        simp [RoleFits, hr.2] at hfits
      have hrole' := heff.roleOf hrole ⟨hp, hbidi⟩ fun heq => absurd heq hr.ne_connectId
      refine ⟨.inl ((heff.peerSettings hr.ne_connectId).resolve_right ?_), fun _ =>
        .other hrole' hp hc hq (hgot'.symm ▸ hn) hty⟩
      rw [hrole']
      exact fun heq => hc (Option.some.inj heq)

/-! ## Steps -/

section

variable {c c' : Quic.Connection} {id cap : Nat}

omit [H3.Codec] in
theorem not_ended_of_readable (hwf : c.WellFormed) (hr : c.readable id = true) :
    (c.streams id).recv.ended = false := by
  by_contra hended
  have hno := (hwf id).recv.not_ready (.inr (by simpa using hended))
  simp [Quic.Connection.readable, hno] at hr

omit [H3.Codec] in
/-- What `stream_recv` hands over. -/
theorem recv_heard {chunk : Bytes} {fin : Bool}
    (h : Quic.Connection.Recv c id cap (.ok (chunk, fin)) c') (hwf : c.WellFormed) :
    (c.streams id).recv.ended = false ∧
      (c'.streams id).recv.got = (c.streams id).recv.got ++ chunk ∧
      (c'.streams id).recv.ended = fin := by
  generalize hres : (Except.ok (chunk, fin) : Except Quic.Error (Bytes × Bool)) = res at h
  cases h with
  | none => cases hres
  | reset => cases hres
  | read cond _ hr =>
      cases hres
      have hended := not_ended_of_readable hwf hr
      rw [Quic.Connection.collectIf_recv]
      simp [Quic.RecvBuf.emit, hended, Quic.RecvBuf.isFin]

omit [H3.Codec] in
theorem recv_reset {code : Nat}
    (h : Quic.Connection.Recv c id cap (.error (.streamReset code)) c') (hwf : c.WellFormed) :
    (c.streams id).recv.ended = false ∧
      (c'.streams id).recv.got = (c.streams id).recv.got := by
  generalize hres : (Except.error (.streamReset code) : Except Quic.Error (Bytes × Bool)) = res at h
  cases h with
  | none hne =>
      cases hres
      exact absurd rfl (hne code)
  | reset cond _ hr =>
      rw [Quic.Connection.collectIf_recv]
      simp [not_ended_of_readable hwf hr]
  | read => cases hres

omit [H3.Codec] in
theorem recv_nothing {err : Quic.Error} (h : Quic.Connection.Recv c id cap (.error err) c')
    (hne : ∀ code, err ≠ .streamReset code) : c' = c := by
  generalize hres : (Except.error err : Except Quic.Error (Bytes × Bool)) = res at h
  cases h with
  | none => rfl
  | @reset code =>
      cases hres
      exact absurd rfl (hne code)
  | read => cases hres

end

/-- Every unidirectional stream of the peer is what the session takes it for. -/
def Sound (e : Endpoint) : Prop := e.closed = false → ∀ i, PeerUni e.cfg.isServer i → e.Understood i

/-- The peer's SETTINGS are the first frame of its control stream. -/
def Sourced (e : Endpoint) : Prop := ∀ s, e.peerSettings = some s →
  ∃ id, PeerUni e.cfg.isServer id ∧ SaysSettings (e.conn.streams id).recv.got s

omit [H3.Codec] in
theorem SaysSettings.append {got : Bytes} {s : H3.PeerSettings} (h : SaysSettings got s)
    (more : Bytes) : SaysSettings (got ++ more) s := by
  obtain ⟨n, hn, payload, rest, hhead, hs⟩ := h
  refine ⟨n, H3.readVarint_append hn more, payload, rest ++ more, ?_, hs⟩
  rw [List.drop_append_of_le_length (H3.readVarint_len hn).2]
  exact (frameHead_append more).2 _ _ _ hhead

omit [H3.Codec] in
/-- The entry of a stream that nothing was read of, and its connection. -/
theorem Understood.congr {i : Nat} (h : e.Understood i) (hget : e'.streams.get i = e.streams.get i)
    (hconn : e'.conn.streams i = e.conn.streams i) : e'.Understood i := by
  unfold Understood at h ⊢
  rw [hget, hconn]
  exact h

/-- Effects change no stream of the connection but the one that is read. -/
theorem Effects.conn_ne (h : Effects r e e') {i : Nat} (hi : i ≠ r) :
    e'.conn.streams i = e.conn.streams i := by
  induction h with
  | refl => rfl
  | tail _ hstep ih =>
      rename_i b c _
      have hone : c.conn.streams i = b.conn.streams i := by
        rcases hstep.conn with hs | ⟨hs, -⟩
        · rw [hs]
        · rcases Quic.Connection.streamShutdownRead_streams b.conn r 0 i with hk | ⟨hir, -⟩
          · rw [hs, hk]
          · exact absurd hir hi
      exact hone.trans ih

/-- One pass of `on_readable`. -/
theorem readStep_sound (hl : e.Layout) (he : e.closed = false) (hsound : e.Sound)
    (hsourced : e.Sourced) (id : Nat) (backpressured : Bool) :
    (readStep id backpressured e).1.Sound ∧ (readStep id backpressured e).1.Sourced := by
  have halive := hl.alive_of_readable he id
  have hspec := Quic.Connection.streamRecv_spec e.conn id
  have hlayout : ∀ cap, Layout { e with conn := (e.conn.streamRecv id cap).2 } := fun cap =>
    hl.same (.conn e (hspec cap).isServer (hspec cap).wellFormed (hspec cap).phase
      fun hwf _ => (hspec cap).exhausted hwf)
  -- what a pass that hears of the stream leaves
  have hpass : ∀ {cap : Nat} {e' : Endpoint},
      Effects id { e with conn := (e.conn.streamRecv id cap).2 } e' →
      (PeerUni e.cfg.isServer id → ∃ more,
        ((e.conn.streamRecv id cap).2.streams id).recv.got = (e.conn.streams id).recv.got ++ more ∧
        Hears id ((e.conn.streams id).recv.got ++ more)
          { e with conn := (e.conn.streamRecv id cap).2 } e') →
      e'.Sound ∧ e'.Sourced := by
    intro cap e' heff hhears
    have hcfg : e'.cfg = e.cfg := heff.cfg
    have hne : ∀ i, i ≠ id → e'.conn.streams i = e.conn.streams i := fun i hi =>
      (heff.conn_ne hi).trans ((hspec cap).ne hi)
    constructor
    · intro hopen i hi
      rw [hcfg] at hi
      by_cases heq : i = id
      · subst heq
        obtain ⟨more, -, hhear⟩ := hhears hi
        exact hhear.known hopen
      · exact (hsound he i hi).congr
          (heff.elsewhere (hlayout cap) hopen heq hi.ne_connectId) (hne i heq)
    · intro s hs
      have hold : e.peerSettings = some s →
          ∃ i, PeerUni e'.cfg.isServer i ∧ SaysSettings (e'.conn.streams i).recv.got s := by
        intro hs
        obtain ⟨i, hi, hsays⟩ := hsourced s hs
        refine ⟨i, hcfg ▸ hi, ?_⟩
        by_cases heq : i = id
        · subst heq
          obtain ⟨more, hmore, -⟩ := hhears hi
          rw [(heff.recv i).1]
          exact hmore.symm ▸ hsays.append more
        · rw [hne i heq]
          exact hsays
      by_cases hpeer : PeerUni e.cfg.isServer id
      · obtain ⟨more, hmore, hhear⟩ := hhears hpeer
        rcases hhear.settings with hsame | ⟨s', hs', hsays⟩
        · exact hold (hsame.symm.trans hs)
        · obtain rfl := Option.some.inj (hs.symm.trans hs')
          refine ⟨id, hcfg ▸ hpeer, ?_⟩
          rw [(heff.recv id).1]
          exact hmore.symm ▸ hsays
      · exact hold ((heff.peerSettings_same (hlayout cap) hpeer).symm.trans hs)
  unfold readStep
  cases hst : e.streams.get id with
  | none => exact ⟨hsound, hsourced⟩
  | some st =>
      simp only
      split
      · exact ⟨hsound, hsourced⟩
      · specialize hspec (readLen st backpressured)
        have hl0 := hlayout (readLen st backpressured)
        have hknown : PeerUni e.cfg.isServer id →
            Fits (e.conn.streams id).recv.got (e.conn.streams id).recv.ended st := by
          intro hpeer
          have hk := hsound he id hpeer
          unfold Understood at hk
          rwa [hst] at hk
        have hpass := @hpass (readLen st backpressured)
        cases hrecv : e.conn.streamRecv id (readLen st backpressured) with
        | mk res c =>
            rw [hrecv] at hspec hl0 hpass
            cases res with
            | ok res =>
                obtain ⟨chunk, fin⟩ := res
                obtain ⟨hended, hgot, hfin⟩ := recv_heard hspec hl.wellFormed
                have hx : fin = true → (c.streams id).Exhausted := fun hf =>
                  Quic.Connection.Recv.exhausted_of_fin (hf ▸ hspec) hl.wellFormed
                have hread : fin = true → (c.streams id).FinRead := fun hf =>
                  Quic.Connection.Recv.finRead (hf ▸ hspec)
                have hreadable : Readable { e with conn := c } := hl0.readable he
                refine hpass (processRecv_effects hreadable (halive hspec.readable) chunk hx hread)
                  fun hpeer => ⟨chunk, hgot, ?_⟩
                exact processRecv_hears hl0 he hpeer (halive hspec.readable) hst
                  (hended ▸ hknown hpeer) hgot hfin hx hread
            | error err =>
                cases err with
                | streamReset code =>
                    obtain ⟨hended, hgot⟩ := recv_reset hspec hl.wellFormed
                    have hx : (c.streams id).Exhausted := hspec.exhausted_of_reset hl.wellFormed
                    refine hpass (recvReset_effects (e := { e with conn := c }) he hx hspec.resetRead
                      code _) fun hpeer => ⟨[], by rw [hgot, List.append_nil], ?_⟩
                    rw [List.append_nil]
                    exact recvReset_hears hl0 he hpeer hst (hended ▸ hknown hpeer) hgot hx
                      hspec.resetRead code _
                | _ =>
                    obtain rfl := recv_nothing hspec (by simp)
                    exact ⟨hsound, hsourced⟩

/-- What holds of a session throughout a run. -/
structure Disciplined (e : Endpoint) : Prop where
  layout : e.Layout
  oneQpack : e.OneQpack
  sound : e.Sound
  sourced : e.Sourced

omit [H3.Codec] in
theorem OneQpack.of_roles (h : e.OneQpack) (hroles : ∀ i encoder,
    e'.roleOf i = some (.peerQpack encoder) → e.roleOf i = some (.peerQpack encoder)) :
    e'.OneQpack := fun encoder i j hi hj => h encoder i j (hroles i encoder hi) (hroles j encoder hj)

omit [H3.Codec] in
theorem Unheard.oneQpack (h : Unheard e e') (hl' : e'.Layout) (hq : e.OneQpack) : e'.OneQpack := by
  refine hq.of_roles fun i encoder hr => ?_
  have hfits : PeerUni e'.cfg.isServer i := hl'.roles i _ hr
  obtain ⟨st', hst', hr'⟩ := Option.map_eq_some_iff.mp hr
  obtain ⟨st, hst, hsame⟩ := h.kept i st' (h.cfg ▸ hfits) hst'
  rw [Endpoint.roleOf, hst, Option.map_some, ← hsame.role, hr']

omit [H3.Codec] in
theorem SameParse.fits {st st' : Stream} (h : SameParse st st') {got : Bytes} {ended : Bool}
    (hf : Fits got ended st) : Fits got ended st' := by
  have hrole := h.role
  cases hf with
  | pending hp hbuf hparser hframes hfirst hun =>
      exact .pending (hrole.trans hp) (h.classBuf ▸ hbuf) (h.frames ▸ hparser) (h.frames ▸ hframes)
        (h.headersDone ▸ hfirst) hun
  | control hended hon =>
      refine .control hended ⟨hrole.trans hon.role, h.frames ▸ hon.parser, ?_, h.frames ▸ hon.drained⟩
      rw [h.headersDone, h.frames]
      exact hon.behind
  | qpack encoder n hq hended hn => exact .qpack encoder n (hrole.trans hq) hended hn
  | other ty n hp hc hq hn hty =>
      exact .other ty n (hrole ▸ hp) (hrole ▸ hc) (fun encoder => hrole ▸ hq encoder) hn hty

omit [H3.Codec] in
theorem Unheard.sound (h : Unheard e e') (hl : e.Layout) (hopen : e'.closed = false → e.closed = false)
    (hs : e.Sound) : e'.Sound := by
  intro hc i hi
  rw [h.cfg] at hi
  have hk := hs (hopen hc) i hi
  unfold Understood at hk
  cases hst' : e'.streams.get i with
  | none =>
      rw [h.gone i hi hst'] at hk
      refine .bare hst' (h.got i ▸ hk.1) (hk.2.imp (fun hnil => ?_) (h.exhausted hl.wellFormed i))
      rw [h.got, hnil]
  | some st' =>
      obtain ⟨st, hst, hsame⟩ := h.kept i st' hi hst'
      rw [hst] at hk
      refine .entry hst' ?_
      rw [h.got, h.ended]
      exact hsame.fits hk

omit [H3.Codec] in
theorem Unheard.sourced (h : Unheard e e') (hset : e'.peerSettings = e.peerSettings)
    (hs : e.Sourced) : e'.Sourced := by
  intro s hs'
  obtain ⟨i, hi, hsays⟩ := hs s (hset ▸ hs')
  exact ⟨i, h.cfg ▸ hi, h.got i ▸ hsays⟩

omit [H3.Codec] in
theorem classifyNew_peerUni {isServer : Bool} {id : Nat} (h : PeerUni isServer id) :
    classifyNew id isServer = .pendingUni := by
  obtain ⟨hlocal, huni⟩ := h
  unfold isLocal at hlocal
  unfold isBidi at huni
  cases isServer with
  | true =>
      have hmod : id % 4 = 2 := by
        simp at hlocal huni
        omega
      simp [classifyNew, hmod]
  | false =>
      have hmod : id % 4 = 3 := by
        simp at hlocal huni
        omega
      simp [classifyNew, hmod]

omit [H3.Codec] in
theorem Disciplined.touch (h : e.Disciplined) (he : e.closed = false) {id : Nat}
    (hr : e.conn.readable id = true) : (e.touch id).Disciplined := by
  refine ⟨h.layout.touch he hr, ?_, ?_, ?_⟩
  all_goals unfold Endpoint.touch
  · split
    · exact h.oneQpack
    · refine h.oneQpack.of_roles fun i encoder hq => ?_
      simp only [Endpoint.roleOf, insertStream, Table.get_insert] at hq
      split at hq
      · simp only [Option.map_some, Option.some.injEq, Stream.new, classifyNew] at hq
        split_ifs at hq
      · exact hq
  · split
    · exact h.sound
    next hnew =>
      intro hc i hi
      by_cases heq : i = id
      · subst heq
        have hnone : e.streams.get i = none := by simpa [Table.contains] using hnew
        have hk := h.sound he i hi
        unfold Understood at hk
        rw [hnone] at hk
        have hnil : (e.conn.streams i).recv.got = [] := hk.2.resolve_right fun hx => by
          simp [Quic.Connection.not_readable_of_exhausted (h.layout.wellFormed i) hx] at hr
        have hget : (e.insertStream i (.new (classifyNew i e.cfg.isServer) e.parserMemory)).streams.get i =
            some (.new .pendingUni e.parserMemory) := by
          have hi : PeerUni e.cfg.isServer i := hi
          rw [classifyNew_peerUni hi]
          simp [insertStream]
        exact .entry hget (.pending rfl hnil.symm rfl rfl rfl hk.1)
      · exact (h.sound he i hi).congr (Table.get_insert_ne heq) rfl
  · split
    · exact h.sourced
    · exact h.sourced

omit [H3.Codec] in
theorem Disciplined.prune (h : e.Disciplined) : e.prune.Disciplined := by
  have hget : ∀ i st, e.prune.streams.get i = some st → e.streams.get i = some st := by
    intro i st hst
    simp only [Endpoint.prune, Table.get_filter, Option.filter_eq_some_iff] at hst
    exact hst.1
  refine ⟨h.layout.prune, ?_, ?_, h.sourced⟩
  · refine h.oneQpack.of_roles fun i encoder hq => ?_
    obtain ⟨st, hst, hr⟩ := Option.map_eq_some_iff.mp hq
    rw [Endpoint.roleOf, hget i st hst, Option.map_some, hr]
  · intro hc i hi
    have hc : e.closed = false := hc
    have hi : PeerUni e.cfg.isServer i := hi
    have hk := h.sound hc i hi
    cases hst' : e.prune.streams.get i with
    | some st => exact hk.congr (hst'.trans (hget i st hst').symm) rfl
    | none =>
        cases hst : e.streams.get i with
        | none => exact hk.congr (hst'.trans hst.symm) rfl
        | some st =>
            -- what is dropped is not read on, which no critical stream survives
            have hdropped : retains e.cfg.isServer i st = false := by
              by_contra hkeep
              have hkeep : retains e.cfg.isServer i st = true := by simpa using hkeep
              simp [Endpoint.prune, hst, Option.filter, hkeep] at hst'
            have hdead := recvDead_of_dropped hi.1 hdropped
            have hx := (h.layout.ended i st hi.1 hst hdead).resolve_left (by simp [hc])
            have hnot : ¬e.Critical i := fun hcritical =>
              absurd (h.layout.critical i st hi.1 hcritical hst hdead) (by simp [hc])
            unfold Understood at hk
            rw [hst] at hk
            refine .bare hst' ?_ (.inr hx)
            cases hk with
            | pending _ _ _ _ _ hun => exact hun
            | control _ hon =>
                exact absurd (.inl (by simp [Endpoint.roleOf, hst, hon.role])) hnot
            | qpack encoder n hq =>
                exact absurd (.inr (.inl ⟨encoder, by simp [Endpoint.roleOf, hst, hq]⟩)) hnot
            | other ty n _ _ _ hn hty =>
                intro ty' n' h'
                have heq : some (ty, n) = some (ty', n') := hn.symm.trans h'
                cases heq
                exact hty

/-- A step that hears nothing neither ends the session nor takes SETTINGS. -/
theorem step_kept (hl : e.Layout) {s : Step} (hhears : Step.hears s = false) :
    (e.step s).closed = e.closed ∧ (e.step s).peerSettings = e.peerSettings := by
  cases hloud : Step.isLoud s with
  | false =>
      have hq := step_quiet hl hloud
      exact ⟨hq.closed, hq.peerSettings⟩
  | true =>
      cases s with
      | onEstablished =>
          show e.onEstablished.closed = e.closed ∧ e.onEstablished.peerSettings = e.peerSettings
          rcases onEstablished_spec e with heq | ⟨-, -, -, -, hclosed, -, hsettings, -⟩
          · rw [heq]
            exact ⟨rfl, rfl⟩
          · exact ⟨hclosed, hsettings⟩
      | touch | read | markClosed => cases hhears
      | _ => cases hloud

theorem Disciplined.step (h : e.Disciplined) {s : Step} (hs : e.StepAdmissible s) :
    (e.step s).Disciplined := by
  have hl' := h.layout.step hs
  cases hhears : Step.hears s with
  | false =>
      have hun := step_unheard h.layout hhears
      have hkept := step_kept h.layout hhears
      exact ⟨hl', hun.oneQpack hl' h.oneQpack,
        hun.sound h.layout (fun hc => hkept.1 ▸ hc) h.sound, hun.sourced hkept.2 h.sourced⟩
  | true =>
      cases s with
      | touch id => exact h.touch hs.1 hs.2
      | prune => exact h.prune
      | markClosed code reason remote =>
          refine ⟨hl', h.oneQpack.of_roles fun i encoder hq => ?_, fun hopen => ?_, fun s hset => ?_⟩
          · rwa [← (Same.markClosed e code reason remote).roleOf i]
          · have hopen : (e.markClosed code reason remote).closed = false := hopen
            simp [markClosed_closed] at hopen
          · have hset : (e.markClosed code reason remote).peerSettings = some s := hset
            rw [(markClosed_flags e code reason remote).2.2.2.1] at hset
            obtain ⟨i, hi, hsays⟩ := h.sourced s hset
            refine ⟨i, ?_, ?_⟩
            · show PeerUni (e.markClosed code reason remote).cfg.isServer i
              rwa [markClosed_cfg]
            · show SaysSettings ((e.markClosed code reason remote).conn.streams i).recv.got s
              rwa [markClosed_conn]
      | read id backpressured =>
          obtain ⟨hsound, hsourced⟩ := readStep_sound h.layout hs h.sound h.sourced id backpressured
          refine ⟨hl', ?_, hsound, hsourced⟩
          show (readStep id backpressured e).1.OneQpack
          rcases readStep_effects (h.layout.readable hs) h.layout.wellFormed
            (h.layout.alive_of_readable hs id) backpressured with heq | ⟨cap, heff⟩
          · rw [heq]
            exact h.oneQpack
          · have hspec := Quic.Connection.streamRecv_spec e.conn id cap
            have hl0 : Layout { e with conn := (e.conn.streamRecv id cap).2 } :=
              h.layout.same (.conn e hspec.isServer hspec.wellFormed hspec.phase fun hwf _ =>
                hspec.exhausted hwf)
            exact (heff.invariant (I := fun e => e.Layout ∧ e.OneQpack)
              (fun _ _ hs hI => ⟨hs.layout hI.1, hs.oneQpack hI.1 hI.2⟩) ⟨hl0, h.oneQpack⟩).2
      | _ => cases hhears

end

end RWebTransport.Endpoint
