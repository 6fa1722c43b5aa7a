import RWebTransport.Session.Feeding

/-!
# The parser budget suffices

`Fed` is what an admissible peer makes of a session in any run: nothing was refused, and
the buffers are of bounded size.  A server that waits for SETTINGS keeps whatever arrives
on the CONNECT stream, which no bound on frames limits.
-/

namespace RWebTransport.Endpoint

open Heap (Charged Rooted Roomy Exact)

/-! ## Steps that read nothing -/

section

variable {base : List ParserMemory} {m ctl j n : Nat} {e e' : Endpoint}

theorem Quota.onEstablished (h : Quota base m ctl j n e) (hroot : Rooted base) :
    Quota base m ctl j n e.onEstablished := by
  have hlocal : ∀ {e : Endpoint} (id : Nat) (bytes : Bytes), Quota base m ctl j n e →
      Quota base m ctl j n (e.insertLocal id bytes) := fun id bytes h =>
    h.insertStream hroot id (h.ledger.memory ▸ Stream.attached_withPrefix _ _ _) rfl rfl
  unfold Endpoint.onEstablished
  split
  · exact h
  · have hset : Quota base m ctl j n { e with setupSent := true } :=
      h.same (.of_eq rfl rfl rfl rfl rfl) fun _ hv => .inl hv
    have hall := hlocal (qpackDecId e.cfg.isServer) (H3.putVarint H3.qpackDecoderStreamType)
      (hlocal (qpackEncId e.cfg.isServer) (H3.putVarint H3.qpackEncoderStreamType)
        (hlocal (controlId e.cfg.isServer) H3.controlStreamPrefix hset))
    simp only
    split
    · exact hall
    · exact hall.same (.of_eq rfl rfl rfl rfl rfl) fun _ hv => .inl hv

theorem Quota.touch (h : Quota base m ctl j n e) (hroot : Rooted base) (id : Nat) :
    Quota base m ctl j n (e.touch id) := by
  unfold Endpoint.touch
  split
  · exact h
  · exact h.insertStream hroot id (h.ledger.memory ▸ Stream.attached_new _ _) rfl rfl

theorem Quota.allocateStream (h : Quota base m ctl j n e) (hroot : Rooted base) (bidi : Bool)
    (requestId : Nat) : Quota base m ctl j n (e.allocateStream bidi requestId) := by
  have hnext : Quota base m ctl j n (if bidi then { e with nextBidi := e.nextBidi + 4 }
      else { e with nextUni := e.nextUni + 4 }) := by
    split <;> exact h.same (.of_eq rfl rfl rfl rfl rfl) fun _ hv => .inl hv
  have hput : Quota base m ctl j n (Endpoint.insertStream _ (e.nextId bidi)
      (.withPrefix (.wtData bidi) (streamSignal bidi) e.parserMemory)) := hnext.insertStream hroot _
    (h.ledger.memory ▸ Stream.attached_withPrefix _ _ _) rfl rfl
  exact hput.mild (h.ledger.allocateStream bidi requestId hroot) (.emit _ (by simp [limitExceeded]))

theorem Quota.releasePendingOpens (h : Quota base m ctl j n e) (hroot : Rooted base) :
    Quota base m ctl j n e.releasePendingOpens :=
  releasePendingOpens_invariant
    (fun _ _ h => h.same (.of_eq rfl rfl rfl rfl rfl) fun _ hv => .inl hv)
    (fun _ bidi requestId _ _ _ h => h.allocateStream hroot bidi requestId) h

theorem Quota.prune (h : Quota base m ctl j n e) (hroot : Rooted base) :
    Quota base m ctl j n e.prune := by
  have hget : ∀ {i : Nat} {st : Stream}, e.prune.streams.get i = some st → e.streams.get i = some st :=
    fun hst => (Option.filter_eq_some_iff.mp (by simpa [Endpoint.prune] using hst)).1
  refine ⟨h.ledger.prune hroot, ⟨h.unrefused.quiet, fun i st hst => h.unrefused.parsers i st (hget hst)⟩,
    fun hopen => ?_⟩
  have hs := h.sized hopen
  refine ⟨?_, hs.capsule, fun st hst => hs.connect st (hget hst), fun st hst => hs.control st (hget hst),
    fun i st hi hi' hst => hs.others i st hi hi' (hget hst)⟩
  refine List.foldlRecOn (motive := Exact) e.streams.keys _ hs.allocator fun heap hx id _ => ?_
  split
  · split
    · exact hx
    · exact hx.stream _
  · exact hx

/-! ## Runs -/

/-- While a server waits for the SETTINGS of its peer it keeps what arrives on the CONNECT
stream, of which it then expects less. -/
def level (e : Endpoint) : Nat := if e.cfg.isServer && e.peerSettings.isNone then 20 else 21

theorem level_le (e : Endpoint) : e.level ≤ 21 := by
  unfold level
  split <;> decide

theorem level_eq (hcfg : e'.cfg = e.cfg) (hset : e'.peerSettings = e.peerSettings) :
    e'.level = e.level := by
  unfold level
  rw [hcfg, hset]

/-- What was read of a stream. -/
def heard (e : Endpoint) (id : Nat) : Bytes := (e.conn.streams id).recv.got

variable [H3.Codec]

/-- What an admissible peer makes of a session. -/
structure Fed (base : List ParserMemory) (m ctl : Nat) (e : Endpoint) : Prop where
  disciplined : e.Disciplined
  gated : e.Gated
  quota : Quota base m ctl e.level 0 e
  light : e.closed = false → e.Light (e.heard connectId)
  drains : e.closed = false → e.Drains
  tracked : e.closed = false → ∀ st, e.streams.get ctl = some st → Tracked (e.heard ctl) st

/-- The steps a session takes for such a peer. -/
def Attends (ctl : Nat) (e : Endpoint) : Step → Prop
  | .touch id | .read id _ => id = connectId ∨ id = ctl ∨ Quic.isLocal id e.cfg.isServer = true
  | _ => True

/-- What was read of such a peer. -/
structure Modest (ctl : Nat) (e : Endpoint) : Prop where
  connect : ¬Heavy [] (e.heard connectId)
  control : ∀ n, H3.readVarint (e.heard ctl) = some (H3.h3ControlStreamType, n) →
    ¬Oversized ((e.heard ctl).drop n)
  early : e.cfg.isServer = true → e.peerSettings = none → (e.heard connectId).length ≤ maxControlFrame

/-- Before the request of a client was queued there is nothing to parse. -/
theorem Gated.unparsed (h : e.Gated) (hclient : e.cfg.isServer = false)
    (hpending : e.connectPending = true) : e.frameBytes connectId = [] := by
  have hnone : e.streams.get connectId = none := by
    by_contra hsome
    have hdone : e.connectDone ≠ none := by simpa [connectDone] using hsome
    rw [(h.queued (h.entry hclient hdone)).2.1] at hpending
    cases hpending
  simp [frameBytes, hnone]

theorem Fed.sitting (h : Fed base m ctl e) (hopen : e.closed = false) :
    Sitting (e.heard connectId) e :=
  ⟨h.light hopen, h.drains hopen, h.gated.unparsed⟩

/-- Nothing was read, and no buffer that matters has changed. -/
structure Rests (ctl : Nat) (e e' : Endpoint) : Prop where
  cfg : e'.cfg = e.cfg
  settings : e'.peerSettings = e.peerSettings
  opened : e'.closed = false → e.closed = false
  capsule : e'.closed = false → e'.capsuleBuf = e.capsuleBuf
  bytes : e'.closed = false → e'.frameBytes connectId = e.frameBytes connectId
  heard : ∀ i, e'.heard i = e.heard i
  control : e'.closed = false → ∀ st', e'.streams.get ctl = some st' → (∃ st,
    e.streams.get ctl = some st ∧ st'.role = st.role ∧ st'.buffers = st.buffers) ∨
    st' = .new .pendingUni e.parserMemory

theorem Fed.rests (h : Fed base m ctl e) (hr : Rests ctl e e') (hd : e'.Disciplined) (hg : e'.Gated)
    (hq : Quota base m ctl e.level 0 e') : Fed base m ctl e' where
  disciplined := hd
  gated := hg
  quota := by
    rw [level_eq hr.cfg hr.settings]
    exact hq
  light hopen := by
    have hl := h.light (hr.opened hopen)
    rw [hr.heard]
    refine ⟨hr.capsule hopen ▸ hl.capsule, hr.bytes hopen ▸ hl.short, ?_⟩
    rw [hr.capsule hopen, hr.bytes hopen]
    exact hl.heavy
  drains hopen := by
    unfold Drains
    rw [hr.bytes hopen, hr.cfg, hr.settings]
    exact h.drains (hr.opened hopen)
  tracked hopen st' hst' := by
    rw [hr.heard]
    rcases hr.control hopen st' hst' with ⟨st, hst, hrole, hbuffers⟩ | rfl
    · exact (h.tracked (hr.opened hopen) st hst).congr hrole hbuffers
    · exact ⟨fun _ => ⟨rfl, Nat.zero_le _⟩, fun hbad => absurd rfl hbad, fun hbad => by cases hbad⟩

omit [H3.Codec] in
/-- What the entries of the table are after a step that hears nothing. -/
theorem Rests.unheard (h : Unheard e e') (hctl : PeerUni e.cfg.isServer ctl)
    (hset : e'.peerSettings = e.peerSettings) (hclosed : e'.closed = e.closed)
    (hcapsule : e'.capsuleBuf = e.capsuleBuf)
    (hbytes : e'.frameBytes connectId = e.frameBytes connectId) : Rests ctl e e' where
  cfg := h.cfg
  settings := hset
  opened hopen := hclosed ▸ hopen
  capsule _ := hcapsule
  bytes _ := hbytes
  heard := h.got
  control _ st' hst' := by
    obtain ⟨st, hst, hsame⟩ := h.kept ctl st' hctl hst'
    exact .inl ⟨st, hst, hsame.role, by rw [Stream.buffers, Stream.buffers, hsame.frames, hsame.classBuf]⟩

omit [H3.Codec] in
theorem frameBytes_insert (e : Endpoint) (id i : Nat) (st : Stream) (hst : st.frames.buf.data = [])
    (hnone : i = id → e.frameBytes i = []) : (e.insertStream id st).frameBytes i = e.frameBytes i := by
  by_cases hi : i = id
  · rw [hnone hi, hi]
    simp [frameBytes, Endpoint.insertStream, hst]
  · simp only [frameBytes, Endpoint.insertStream, Table.get_insert_ne hi]

omit [H3.Codec] in
theorem Kept.onEstablished (e : Endpoint) : e.onEstablished.capsuleBuf = e.capsuleBuf ∧
    e.onEstablished.frameBytes connectId = e.frameBytes connectId := by
  have hlocal : ∀ {s : Endpoint} {id : Nat} (bytes : Bytes), id ∈ controlIds e.cfg.isServer →
      (s.insertLocal id bytes).frameBytes connectId = s.frameBytes connectId := fun bytes hid =>
    frameBytes_insert _ _ _ _ rfl fun heq => absurd heq.symm (controlIds_ne_connectId hid)
  unfold Endpoint.onEstablished
  split
  · exact ⟨rfl, rfl⟩
  · have hall := ((hlocal (s := (({ e with setupSent := true } : Endpoint).insertLocal
        (controlId e.cfg.isServer) H3.controlStreamPrefix).insertLocal (qpackEncId e.cfg.isServer)
        (H3.putVarint H3.qpackEncoderStreamType)) (H3.putVarint H3.qpackDecoderStreamType)
        (by simp [controlIds] : qpackDecId e.cfg.isServer ∈ controlIds e.cfg.isServer)).trans
      (hlocal (H3.putVarint H3.qpackEncoderStreamType)
        (by simp [controlIds] : qpackEncId e.cfg.isServer ∈ controlIds e.cfg.isServer))).trans
      (hlocal (s := { e with setupSent := true }) H3.controlStreamPrefix
        (by simp [controlIds] : controlId e.cfg.isServer ∈ controlIds e.cfg.isServer))
    simp only
    split
    · exact ⟨rfl, hall⟩
    · exact ⟨rfl, hall⟩

omit [H3.Codec] in
theorem Kept.releasePendingOpens (hl : e.Layout) :
    e.releasePendingOpens.capsuleBuf = e.capsuleBuf ∧
      e.releasePendingOpens.frameBytes connectId = e.frameBytes connectId := by
  refine (releasePendingOpens_invariant (I := fun s => s.Layout ∧ s.capsuleBuf = e.capsuleBuf ∧
    s.frameBytes connectId = e.frameBytes connectId) (fun s l h => ⟨?_, h.2⟩)
    (fun s bidi requestId _ _ _ h => ⟨h.1.allocateStream bidi requestId, ?_, ?_⟩) ⟨hl, rfl, rfl⟩).2
  · exact h.1.same (.session rfl rfl rfl rfl rfl rfl rfl rfl rfl)
  · cases bidi <;> exact h.2.1
  · have hne : connectId ≠ s.nextId bidi := by
      obtain ⟨k, hk⟩ := h.1.next bidi
      exact hk ▸ (ownId_ne_connectId _ _ _).symm
    have hput := frameBytes_insert (if bidi then { s with nextBidi := s.nextBidi + 4 }
      else { s with nextUni := s.nextUni + 4 }) (s.nextId bidi) connectId
      (.withPrefix (.wtData bidi) (streamSignal bidi) s.parserMemory) rfl fun heq => absurd heq hne
    refine hput.trans (Eq.trans ?_ h.2.2)
    cases bidi <;> rfl

/-- A step that reads nothing. -/
theorem Fed.quiet (h : Fed base m ctl e) (hroot : Rooted base) (hctl : PeerUni e.cfg.isServer ctl)
    {s : Step} (hs : e.StepAdmissible s) (hread : ∀ id backpressured, s ≠ .read id backpressured) :
    Fed base m ctl (e.step s) := by
  have hl := h.disciplined.layout
  have hquota : Quota base m ctl e.level 0 (e.step s) := by
    cases hallocates : Step.allocates s with
    | false =>
        have hquiet : Quiet e (e.step s) := step_quiet hl (by cases s <;> first | rfl | cases hallocates)
        obtain ⟨l, hev, hquiet⟩ := hquiet.ev
        refine h.quota.same (step_sameMemory e hallocates) fun v hv => ?_
        rw [hev] at hv
        refine (List.mem_append.mp hv).imp_right fun hnew heq => ?_
        have hbad := hquiet v hnew
        rw [heq] at hbad
        cases hbad
    | true =>
        cases s with
        | onEstablished => exact h.quota.onEstablished hroot
        | touch id => exact h.quota.touch hroot id
        | read id backpressured => exact absurd rfl (hread id backpressured)
        | openStream bidi requestId =>
            exact Quota.releasePendingOpens
              (h.quota.same (.of_eq rfl rfl rfl rfl rfl) fun _ hv => .inl hv) hroot
        | releasePendingOpens => exact h.quota.releasePendingOpens hroot
        | prune => exact h.quota.prune hroot
        | markClosed code reason remote =>
            exact h.quota.mild (h.quota.ledger.markClosed _ _ _ hroot) (.markClosed _ _ _ _)
        | _ => cases hallocates
  refine h.rests ?_ (h.disciplined.step hs) (gated_whole.step hl hs h.gated) hquota
  cases hhears : Step.hears s with
  | false =>
      obtain ⟨hclosed, hset⟩ := step_kept hl hhears
      have hkept : (e.step s).capsuleBuf = e.capsuleBuf ∧
          (e.step s).frameBytes connectId = e.frameBytes connectId := by
        cases hallocates : Step.allocates s with
        | false =>
            have hsame := step_sameMemory e hallocates
            exact ⟨hsame.capsule, hsame.frameBytes connectId⟩
        | true =>
            cases s with
            | onEstablished => exact Kept.onEstablished e
            | openStream bidi requestId =>
                exact Kept.releasePendingOpens (e := { e with
                  pendingOpens := e.pendingOpens ++ [(bidi, requestId)] })
                  (hl.same (.session rfl rfl rfl rfl rfl rfl rfl rfl rfl))
            | releasePendingOpens => exact Kept.releasePendingOpens hl
            | touch | read | prune | markClosed => cases hhears
            | _ => cases hallocates
      exact .unheard (step_unheard hl hhears) hctl hset hclosed hkept.1 hkept.2
  | true =>
      cases s with
      | read id backpressured => exact absurd rfl (hread id backpressured)
      | prune =>
          refine ⟨rfl, rfl, fun hopen => hopen, fun _ => rfl, fun _ => ?_, fun _ => rfl,
            fun _ st hst => .inl ⟨st, ?_, rfl, rfl⟩⟩
          · show e.prune.frameBytes connectId = _
            unfold frameBytes Endpoint.prune
            simp only [Table.get_filter]
            cases e.streams.get connectId with
            | none => rfl
            | some st0 =>
                have hkeep : retains e.cfg.isServer connectId st0 = true := by simp [retains]
                simp [Option.filter, hkeep]
          · exact (Option.filter_eq_some_iff.mp hst).1
      | markClosed code reason remote =>
          have hclosed : (e.step (.markClosed code reason remote)).closed ≠ false := by
            show (e.markClosed code reason remote).closed ≠ false
            simp [markClosed_closed]
          refine ⟨markClosed_cfg _ _ _ _, (markClosed_flags e code reason remote).2.2.2.1,
            fun hopen => absurd hopen hclosed, fun hopen => absurd hopen hclosed,
            fun hopen => absurd hopen hclosed, fun i => ?_, fun hopen => absurd hopen hclosed⟩
          show ((e.markClosed code reason remote).conn.streams i).recv.got = _
          rw [markClosed_conn]
          rfl
      | touch id =>
          show Rests ctl e (e.touch id)
          unfold Endpoint.touch
          split
          · exact ⟨rfl, rfl, fun hopen => hopen, fun _ => rfl, fun _ => rfl, fun _ => rfl,
              fun _ st hst => .inl ⟨st, hst, rfl, rfl⟩⟩
          next hnew =>
            have hnone : e.streams.get id = none := by simpa [Table.contains] using hnew
            refine ⟨rfl, rfl, fun hopen => hopen, fun _ => rfl, fun _ => ?_, fun _ => rfl,
              fun _ st hst => ?_⟩
            · exact frameBytes_insert _ _ _ _ rfl fun heq => by simp [heq, frameBytes, hnone]
            · simp only [Endpoint.insertStream, Table.get_insert] at hst
              split at hst
              next heq =>
                subst heq
                rw [classifyNew_peerUni hctl] at hst
                exact .inr (Option.some.inj hst).symm
              · exact .inl ⟨st, hst, rfl, rfl⟩
      | _ => cases hhears

omit [H3.Codec] in
/-- The buffers of a session that ended are empty. -/
theorem Quota.over {i : Nat} (h : Quota base m ctl j n e) (hclosed : e.closed = true) :
    Quota base m ctl i n e :=
  ⟨h.ledger, h.unrefused, fun hopen => absurd (hclosed.symm.trans hopen) (by simp)⟩

/-- A pass that leaves the two streams of the peer as they are. -/
theorem Fed.mild (h : Fed base m ctl e) (hd : e'.Disciplined) (hg : e'.Gated)
    (hl : Ledger base m 0 e') (hm : Mild e e')
    (hheard : ∀ i, i = connectId ∨ i = ctl → e'.heard i = e.heard i)
    (hrole : e'.closed = false → e'.roleOf ctl = e.roleOf ctl) : Fed base m ctl e' where
  disciplined := hd
  gated := hg
  quota := by
    have hq := h.quota.mild hl hm
    cases hc : e'.closed with
    | true => exact hq.over hc
    | false =>
        rw [level_eq (hm.calm hc).cfg (hm.calm hc).settings]
        exact hq
  light hopen := by
    have hsame := hm.same hopen
    rw [hheard _ (.inl rfl)]
    exact (h.light (hsame.closed ▸ hopen)).same hsame
  drains hopen := by
    have hcalm := hm.calm hopen
    unfold Drains
    rw [hcalm.toSameMemory.frameBytes, hcalm.cfg, hcalm.settings]
    exact h.drains (hcalm.closed ▸ hopen)
  tracked hopen st' hst' := by
    have hsame := hm.same hopen
    have hb := hsame.buffers ctl
    rw [hst', Option.map_some] at hb
    obtain ⟨st, hst, hbuffers⟩ := Option.map_eq_some_iff.mp hb.symm
    have hroles := hrole hopen
    simp only [Endpoint.roleOf, hst, hst', Option.map_some, Option.some.injEq] at hroles
    rw [hheard _ (.inr rfl)]
    exact (h.tracked (hsame.closed ▸ hopen) st hst).congr hroles hbuffers.symm

omit [H3.Codec] in
theorem recv_length {c c' : Quic.Connection} {id cap : Nat} {chunk : Bytes} {fin : Bool}
    (h : Quic.Connection.Recv c id cap (.ok (chunk, fin)) c') : chunk.length ≤ cap := by
  generalize hres : (Except.ok (chunk, fin) : Except Quic.Error (Bytes × Bool)) = res at h
  cases h with
  | none | reset => cases hres
  | read =>
      obtain ⟨rfl, -⟩ := Prod.mk.inj (Except.ok.inj hres)
      exact List.length_take_le _ _

/-- What a pass comes upon: nothing, a chunk of at most 16 KiB, or a RESET. -/
theorem readStep_cases (e : Endpoint) (id : Nat) (backpressured : Bool) :
    (readStep id backpressured e).1 = e ∨ ∃ st cap c, e.streams.get id = some st ∧ cap ≤ 16 * 1024 ∧
      ((∃ chunk fin, Quic.Connection.Recv e.conn id cap (.ok (chunk, fin)) c ∧
        (readStep id backpressured e).1 = ({ e with conn := c } : Endpoint).processRecv id chunk fin) ∨
      ∃ code size, Quic.Connection.Recv e.conn id cap (.error (.streamReset code)) c ∧
        (readStep id backpressured e).1 = ({ e with conn := c } : Endpoint).recvReset id code size) := by
  unfold Endpoint.readStep
  cases hst : e.streams.get id with
  | none => exact .inl rfl
  | some st =>
      simp only
      split
      · exact .inl rfl
      · have hspec := Quic.Connection.streamRecv_spec e.conn id (readLen st backpressured)
        have hcap : readLen st backpressured ≤ 16 * 1024 := by
          unfold readLen
          split <;> decide
        cases hrecv : e.conn.streamRecv id (readLen st backpressured) with
        | mk res c =>
            rw [hrecv] at hspec
            cases res with
            | ok res => exact .inr ⟨st, _, c, rfl, hcap, .inl ⟨res.1, res.2, hspec, rfl⟩⟩
            | error err =>
                cases err with
                | streamReset code => exact .inr ⟨st, _, c, rfl, hcap, .inr ⟨code, _, hspec, rfl⟩⟩
                | _ =>
                    obtain rfl := recv_nothing hspec (by simp)
                    exact .inl rfl

/-- A pass of `on_readable` over the CONNECT stream. -/
theorem Fed.recvConnect (h : Fed base m ctl e) (hroomy : Roomy base m (2 ^ 23))
    (hctl : PeerUni e.cfg.isServer ctl) (hopen : e.closed = false) {st : Stream}
    (hst : e.streams.get connectId = some st) {cap : Nat} {c : Quic.Connection} (hcap : cap ≤ 16 * 1024)
    {chunk : Bytes} {fin : Bool} (hspec : Quic.Connection.Recv e.conn connectId cap (.ok (chunk, fin)) c)
    (hd : (({ e with conn := c } : Endpoint).processRecv connectId chunk fin).Disciplined)
    (hg : (({ e with conn := c } : Endpoint).processRecv connectId chunk fin).Gated)
    (heff : Effects connectId { e with conn := c }
      (({ e with conn := c } : Endpoint).processRecv connectId chunk fin))
    (hl0 : Layout { e with conn := c })
    (hm : Modest ctl (({ e with conn := c } : Endpoint).processRecv connectId chunk fin)) :
    Fed base m ctl (({ e with conn := c } : Endpoint).processRecv connectId chunk fin) := by
  have hl := h.disciplined.layout
  obtain ⟨-, hgot, -⟩ := recv_heard hspec hl.wellFormed
  have hlen := recv_length hspec
  have hne : ctl ≠ connectId := hctl.ne_connectId
  have heq : ({ e with conn := c } : Endpoint).processRecv connectId chunk fin =
      ({ e with conn := c } : Endpoint).recvConnect connectId chunk fin := by
    unfold Endpoint.processRecv
    simp only [hst, Option.map_some, hl.connectRole st hst]
  have hheard : (({ e with conn := c } : Endpoint).processRecv connectId chunk fin).heard connectId =
      e.heard connectId ++ chunk := ((heff.recv connectId).1).trans hgot
  have hcfg : (({ e with conn := c } : Endpoint).processRecv connectId chunk fin).cfg = e.cfg := heff.cfg
  have hset : (({ e with conn := c } : Endpoint).processRecv connectId chunk fin).peerSettings =
      e.peerSettings := heff.peerSettings_same hl0 fun hbad => hbad.ne_connectId rfl
  have hlight := h.light hopen
  have hbytes : (e.frameBytes connectId).length + chunk.length ≤ 2 ^ e.level := by
    have hmax : maxControlFrame = 2 ^ 20 := rfl
    cases hwaits : e.cfg.isServer && e.peerSettings.isNone with
    | true =>
        simp only [Bool.and_eq_true, Option.isNone_iff_eq_none] at hwaits
        have hearly := hm.early (hcfg ▸ hwaits.1) (hset.trans hwaits.2)
        rw [hheard, List.length_append] at hearly
        have hshort := hlight.short
        rw [level, if_pos (by simp [hwaits])]
        omega
    | false =>
        rw [level, hwaits, if_neg (by simp)]
        rcases h.drains hopen with hhead | hbad
        · have hhead := length_of_incomplete hhead
          omega
        · simp [hbad] at hwaits
  have hq0 : Quota base m ctl e.level 0 { e with conn := c } :=
    h.quota.same (.of_eq rfl rfl rfl rfl rfl) fun _ hv => .inl hv
  obtain ⟨hq, hafter⟩ := hq0.recvConnect hroomy hne (level_le e)
    (hlight.same (.of_eq rfl rfl rfl rfl rfl)) (hheard ▸ hm.connect) hopen hst hbytes fin
  rw [← heq] at hq hafter
  refine ⟨hd, hg, ?_, fun hc => ?_, fun hc => (hafter hc).2, fun hc st' hst' => ?_⟩
  · rw [level_eq hcfg hset]
    exact hq
  · rw [hheard]
    exact (hafter hc).1
  · have hentry := heff.elsewhere hl0 hc hne hne
    have hother : (({ e with conn := c } : Endpoint).processRecv connectId chunk fin).heard ctl =
        e.heard ctl := by
      refine ((heff.recv ctl).1).trans ?_
      show (c.streams ctl).recv.got = _
      rw [hspec.ne hne]
      rfl
    rw [hother]
    exact h.tracked hopen st' (hentry.symm.trans hst')

/-- A pass of `on_readable` over the unidirectional stream of the peer. -/
theorem Fed.recvControl (h : Fed base m ctl e) (hroomy : Roomy base m (2 ^ 23))
    (hctl : PeerUni e.cfg.isServer ctl) (hopen : e.closed = false) {st : Stream}
    (hst : e.streams.get ctl = some st) {cap : Nat} {c : Quic.Connection} (hcap : cap ≤ 16 * 1024)
    {chunk : Bytes} {fin : Bool} (hspec : Quic.Connection.Recv e.conn ctl cap (.ok (chunk, fin)) c)
    (hd : (({ e with conn := c } : Endpoint).processRecv ctl chunk fin).Disciplined)
    (hg : (({ e with conn := c } : Endpoint).processRecv ctl chunk fin).Gated)
    (hx : fin = true → (c.streams ctl).Exhausted) (hread : fin = true → (c.streams ctl).FinRead)
    (hl0 : Layout { e with conn := c })
    (hm : Modest ctl (({ e with conn := c } : Endpoint).processRecv ctl chunk fin)) :
    Fed base m ctl (({ e with conn := c } : Endpoint).processRecv ctl chunk fin) := by
  have hl := h.disciplined.layout
  obtain ⟨hended, hgot, hfin⟩ := recv_heard hspec hl.wellFormed
  have hlen := recv_length hspec
  have hne : ctl ≠ connectId := hctl.ne_connectId
  have halive := hl.alive_of_readable hopen ctl hspec.readable
  have heff := processRecv_effects (hl0.readable hopen) halive chunk hx hread
  have hfits : Fits (e.heard ctl) false st := by
    have hk := h.disciplined.sound hopen ctl hctl
    unfold Understood at hk
    rw [hst] at hk
    exact hended ▸ hk
  have hhears := processRecv_hears hl0 hopen hctl halive hst hfits hgot hfin hx hread
  have hheard : (({ e with conn := c } : Endpoint).processRecv ctl chunk fin).heard ctl =
      e.heard ctl ++ chunk := ((heff.recv ctl).1).trans hgot
  have hconnect : (({ e with conn := c } : Endpoint).processRecv ctl chunk fin).heard connectId =
      e.heard connectId := by
    refine ((heff.recv connectId).1).trans ?_
    show (c.streams connectId).recv.got = _
    rw [hspec.ne hne.symm]
    rfl
  have hcfg : (({ e with conn := c } : Endpoint).processRecv ctl chunk fin).cfg = e.cfg := heff.cfg
  have hq0 : Quota base m ctl e.level 0 { e with conn := c } :=
    h.quota.same (.of_eq rfl rfl rfl rfl rfl) fun _ hv => .inl hv
  have hout := Outcome.processRecv hq0 hroomy hctl (level_le e)
    ((h.sitting hopen).congr rfl rfl rfl rfl rfl) (hconnect ▸ hm.connect) hl0 hopen halive hst
    (h.tracked hopen st hst) hfits (by omega) hx hread
    (fun hserver hnone => by
      have hwaits : (e.cfg.isServer && e.peerSettings.isNone) = true := by
        have hserver : e.cfg.isServer = true := hserver
        have hnone : e.peerSettings = none := hnone
        simp [hserver, hnone]
      simp [level, hwaits])
    (hheard ▸ hm.control)
  have hlevel : e.level ≤ (({ e with conn := c } : Endpoint).processRecv ctl chunk fin).level := by
    unfold level
    rw [hcfg]
    rcases hhears.settings with hsame | ⟨s, hs, -⟩
    · rw [hsame]
    · simp only [hs, Option.isNone_some, Bool.and_false, Bool.false_eq_true, if_false]
      split <;> decide
  refine ⟨hd, hg, hout.quota.mono hlevel, fun hc => ?_, fun hc => (hout.sitting hc).drains, fun hc => ?_⟩
  · rw [hconnect]
    exact (hout.sitting hc).light
  · rw [hheard]
    exact hout.tracked hc

/-- A pass of `on_readable`. -/
theorem Fed.read (h : Fed base m ctl e) (hroomy : Roomy base m (2 ^ 23))
    (hctl : PeerUni e.cfg.isServer ctl) (hopen : e.closed = false) {id : Nat} {backpressured : Bool}
    (ha : e.Attends ctl (.read id backpressured)) (hm : Modest ctl (readStep id backpressured e).1) :
    Fed base m ctl (readStep id backpressured e).1 := by
  have hl := h.disciplined.layout
  have hd : (readStep id backpressured e).1.Disciplined :=
    h.disciplined.step (s := .read id backpressured) hopen
  have hg : (readStep id backpressured e).1.Gated :=
    gated_whole.step hl (s := .read id backpressured) hopen h.gated
  have hledger := h.quota.ledger.readStep hopen id backpressured hroomy.rooted
  have hne : ctl ≠ connectId := hctl.ne_connectId
  rcases readStep_cases e id backpressured with heq |
    ⟨st, cap, c, hst, hcap, ⟨chunk, fin, hspec, heq⟩ | ⟨code, size, hspec, heq⟩⟩
  · rw [heq]
    exact h
  all_goals
    rw [heq] at hd hg hledger hm ⊢
    have hl0 : Layout { e with conn := c } := hl.same (.conn e hspec.isServer hspec.wellFormed hspec.phase
      fun hwf _ => hspec.exhausted hwf)
    have hconn : Mild e { e with conn := c } :=
      .of_same (.of_eq rfl rfl rfl rfl rfl) ⟨rfl, rfl, rfl⟩ fun _ hv => .inl hv
  · have hx : fin = true → (c.streams id).Exhausted := fun hf =>
      Quic.Connection.Recv.exhausted_of_fin (hf ▸ hspec) hl.wellFormed
    have hread : fin = true → (c.streams id).FinRead := fun hf =>
      Quic.Connection.Recv.finRead (hf ▸ hspec)
    have heff := processRecv_effects (hl0.readable hopen) (hl.alive_of_readable hopen id hspec.readable)
      chunk hx hread
    by_cases hconnect : id = connectId
    · subst hconnect
      exact h.recvConnect hroomy hctl hopen hst hcap hspec hd hg heff hl0 hm
    by_cases hpeer : id = ctl
    · subst hpeer
      exact h.recvControl hroomy hctl hopen hst hcap hspec hd hg hx hread hl0 hm
    · have hlocal : Quic.isLocal id e.cfg.isServer = true :=
        (ha.resolve_left hconnect).resolve_left hpeer
      have hfits := hl.roles id st.role (by simp [Endpoint.roleOf, hst])
      have hmild : Mild { e with conn := c }
          (({ e with conn := c } : Endpoint).processRecv id chunk fin) := by
        unfold Endpoint.processRecv
        simp only [hst, Option.map_some]
        cases hr : st.role with
        | localControlPlane => exact .refl _
        | connect =>
            rw [hr] at hfits
            exact absurd hfits hconnect
        | peerControl | peerQpack encoder | pendingUni | pendingBidi =>
            rw [hr] at hfits
            exact absurd (hlocal.symm.trans hfits.1) (by simp)
        | wtData bidi => exact .recvData _ id chunk fin
        | ignored =>
            simp only
            split
            · exact .modify _ id fun _ => rfl
            · exact .refl _
      refine h.mild hd hg hledger (hconn.trans hmild) (fun i hi => ?_) fun hc => ?_
      · have hi : i ≠ id := by
          rcases hi with rfl | rfl
          · exact fun heq => hconnect heq.symm
          · exact fun heq => hpeer heq.symm
        refine ((heff.recv i).1).trans ?_
        show (c.streams i).recv.got = _
        rw [hspec.ne hi]
        rfl
      · unfold Endpoint.roleOf
        rw [heff.elsewhere hl0 hc (fun heq => hpeer heq.symm) hne]
  · have heff := recvReset_effects (e := { e with conn := c }) hopen
      (hspec.exhausted_of_reset hl.wellFormed) hspec.resetRead code size
    obtain ⟨-, hgot⟩ := recv_reset hspec hl.wellFormed
    refine h.mild hd hg hledger (hconn.trans (.recvReset _ _ _ _)) (fun i _ => ?_) fun _ =>
      roleOf_recvReset _ _ _ _ _
    refine ((heff.recv i).1).trans ?_
    show (c.streams i).recv.got = (e.conn.streams i).recv.got
    by_cases hi : i = id
    · rw [hi, hgot]
    · rw [hspec.ne hi]

/-- Every step keeps what an admissible peer makes of a session. -/
theorem Fed.step (h : Fed base m ctl e) (hroomy : Roomy base m (2 ^ 23))
    (hctl : PeerUni e.cfg.isServer ctl) {s : Step} (hs : e.StepAdmissible s) (ha : e.Attends ctl s)
    (hm : Modest ctl (e.step s)) : Fed base m ctl (e.step s) := by
  cases s with
  | read id backpressured => exact h.read hroomy hctl hs ha hm
  | _ => exact h.quiet hroomy.rooted hctl hs (by simp)

end

/-! ## A server without SETTINGS -/

section

variable [H3.Codec] {base : List ParserMemory} {m : Nat} {e e' : Endpoint}

/-- A server that waits for SETTINGS keeps what arrives on the CONNECT stream. -/
structure Hoards (base : List ParserMemory) (m : Nat) (bytes : Bytes) (e : Endpoint) : Prop where
  ledger : Ledger base m 0 e
  exact : e.heap.Exact
  opened : e.closed = false
  server : e.cfg.isServer = true
  waits : e.peerSettings = none
  live : (e.conn.streams connectId).phase = .live
  clean : (e.conn.streams connectId).recv.error = none ∧ (e.conn.streams connectId).recv.finOff = none ∧
    (e.conn.streams connectId).recv.marker = false
  entry : ∃ st, e.streams.get connectId = some st ∧ st.role = .connect ∧ st.frames.error = false ∧
    st.frames.buf.data ++ (e.conn.streams connectId).recv.data = bytes ∧
    st.frames.buf.data.length ≤ maxSessionParserMemory ∧ st.frames.buf.capacity ≤ maxSessionParserMemory

omit [H3.Codec] in
/-- A read of such a stream. -/
theorem recv_more {c : Quic.Connection} (hlive : (c.streams connectId).phase = .live)
    (hclean : (c.streams connectId).recv.error = none ∧ (c.streams connectId).recv.finOff = none ∧
      (c.streams connectId).recv.marker = false) (cap : Nat) :
    if (c.streams connectId).recv.data = [] then c.streamRecv connectId cap = (.error .done, c)
    else ∃ c', c.streamRecv connectId cap = (.ok ((c.streams connectId).recv.data.take cap, false), c') ∧
      (c'.streams connectId).phase = .live ∧ (c'.streams connectId).recv.error = none ∧
      (c'.streams connectId).recv.finOff = none ∧ (c'.streams connectId).recv.marker = false ∧
      (c'.streams connectId).recv.data = (c.streams connectId).recv.data.drop cap := by
  obtain ⟨herror, hfin, hmarker⟩ := hclean
  have hcan : c.canRecv connectId = true := rfl
  unfold Quic.Connection.streamRecv
  simp only [hcan, hlive, Bool.not_true, Bool.false_eq_true, if_false]
  split
  next hnil => simp [Quic.RecvBuf.ready, hnil, hmarker]
  next hsome =>
    have hready : (c.streams connectId).recv.ready = true := by simp [Quic.RecvBuf.ready, hsome]
    have hopen : ((c.streams connectId).recv.emit cap).isFin = false := by
      simp [Quic.RecvBuf.isFin, Quic.RecvBuf.emit, hfin]
    have hcomplete : (c.set connectId ⟨.live, (c.streams connectId).recv.emit cap,
        (c.streams connectId).send⟩).isComplete connectId = false := by
      simp only [Quic.Connection.isComplete, Quic.Connection.streams_set, if_true,
        Quic.QStream.isComplete, Quic.isBidi, connectId]
      exact Bool.and_eq_false_imp.mpr fun hbad => absurd (hopen.symm.trans hbad) (by simp)
    simp only [hready, herror, Bool.not_true, Bool.false_eq_true, if_false, hopen, hcomplete]
    refine ⟨_, rfl, ?_⟩
    simp [Quic.Connection.collectIf, Quic.RecvBuf.emit, herror, hfin]

omit [H3.Codec] in
/-- A parser that latched an error is reported before the session ends. -/
theorem frameError_killed {id : Nat} (h : e.frameError id = true) (v : Ev) (reason : Bytes) :
    ((((e.killRecv id).emit v).markClosed 0 [] true).closeConn 0 reason).frameError id = true := by
  have hkilled : ((e.killRecv id).emit v).frameError id = true := by
    unfold Endpoint.frameError at h ⊢
    show ((e.streams.modify id Stream.dead).get id).any _ = true
    rw [Table.get_modify, if_pos rfl]
    cases hst : e.streams.get id with
    | none => simp [hst] at h
    | some st =>
        rw [hst] at h
        exact h
  show (((e.killRecv id).emit v).markClosed 0 [] true).frameError id = true
  unfold Endpoint.markClosed
  split
  · exact hkilled
  · unfold Endpoint.frameError at hkilled ⊢
    simp only [Table.get_map]
    cases hst : ((e.killRecv id).emit v).streams.get id with
    | none => simp [hst] at hkilled
    | some st =>
        rw [hst] at hkilled
        exact hkilled

/-- Before SETTINGS a server does nothing with a chunk but keep it. -/
theorem recvConnect_waits (hopen : e.closed = false) (hserver : e.cfg.isServer = true)
    (hwaits : e.peerSettings = none) (id : Nat) (chunk : Bytes) :
    e.recvConnect id chunk false =
      if (e.pushFrames id chunk).frameError id then
        ((((e.pushFrames id chunk).killRecv id).emit (.error "malformed HTTP/3 CONNECT stream")).markClosed
          0 [] true).closeConn 0 (H3.ascii "h3 connect error")
      else e.pushFrames id chunk := by
  obtain ⟨hclosed, -, hcfg, hset, -⟩ := pushFrames_kept e id chunk
  have hparse : (e.pushFrames id chunk).parseServerConnectFrames id = e.pushFrames id chunk := by
    unfold Endpoint.parseServerConnectFrames
    rw [hset, hwaits]
  unfold Endpoint.recvConnect
  simp only [hcfg, hserver, if_true, hparse, hclosed, hopen, Bool.not_false, and_true, false_and,
    Bool.false_eq_true, if_false]

/-- A pass over that stream: what was read is kept, or memory was refused. -/
theorem Hoards.pass {bytes : Bytes} (h : Hoards base m bytes e) (hroot : Rooted base)
    {node : ParserMemory} (hnode : base[m]? = some node) (hlimit : node.limit = maxSessionParserMemory) :
    ¬(readStep connectId false e).1.Unrefused ∧ (readStep connectId false e).2 = false ∨
      Hoards base m bytes (readStep connectId false e).1 ∧
        ((readStep connectId false e).2 = true →
          ((readStep connectId false e).1.conn.streams connectId).recv.data.length <
            (e.conn.streams connectId).recv.data.length) ∧
        ((readStep connectId false e).2 = false →
          ((readStep connectId false e).1.conn.streams connectId).recv.data = []) := by
  obtain ⟨st, hst, hrole, hok, hbytes, hlen, hcap⟩ := h.entry
  have hledger := h.ledger.readStep h.opened connectId false hroot
  have hrecv := recv_more h.live h.clean (16 * 1024)
  unfold Endpoint.readStep at hledger ⊢
  have hread : readLen st false = 16 * 1024 := rfl
  simp only [hst, Bool.false_and, Bool.false_eq_true, if_false, hread] at hledger ⊢
  split at hrecv
  next hnil =>
    rw [hrecv] at hledger ⊢
    exact .inr ⟨⟨hledger, h.exact, h.opened, h.server, h.waits, h.live, h.clean,
      ⟨st, hst, hrole, hok, hbytes, hlen, hcap⟩⟩, fun hbad => (by cases hbad), fun _ => hnil⟩
  next hsome =>
    obtain ⟨c', hc', hlive', herror', hfin', hmarker', hdata'⟩ := hrecv
    rw [hc'] at hledger ⊢
    simp only at hledger ⊢
    have hstep : ({ e with conn := c' } : Endpoint).processRecv connectId
        ((e.conn.streams connectId).recv.data.take (16 * 1024)) false =
        ({ e with conn := c' } : Endpoint).recvConnect connectId
          ((e.conn.streams connectId).recv.data.take (16 * 1024)) false := by
      unfold Endpoint.processRecv
      simp only [hst, Option.map_some, hrole]
    rw [hstep, recvConnect_waits (e := { e with conn := c' }) h.opened h.server h.waits] at hledger ⊢
    have hmemory := (h.ledger.streams connectId st hst).frames
    split at hledger
    next herror =>
      rw [if_pos herror]
      refine .inl ⟨fun hun => ?_, ?_⟩
      · exact absurd ((frameError_killed herror _ _).symm.trans (hun.frameError connectId)) (by simp)
      · have hclosed := markClosed_closed ((({ e with conn := c' } : Endpoint).pushFrames connectId
          ((e.conn.streams connectId).recv.data.take (16 * 1024))).killRecv connectId |>.emit
            (.error "malformed HTTP/3 CONNECT stream")) 0 [] true
        simp [Endpoint.closeConn, hclosed]
    next hfine =>
      rw [if_neg hfine]
      refine .inr ?_
      unfold Endpoint.pushFrames FrameParser.push at hfine hledger ⊢
      simp only [hst, hok, Bool.false_eq_true, if_false] at hfine hledger ⊢
      cases hx : st.frames.buf.extendFromSlice e.heap
          ((e.conn.streams connectId).recv.data.take (16 * 1024)) with
      | mk res heap =>
          rw [hx] at hfine hledger
          cases res with
          | none => exact absurd (by simp [Endpoint.frameError, hst]) hfine
          | some buf =>
              obtain ⟨hlen', hcap', hexact'⟩ := ParserBuffer.extend_bounded hroot h.ledger.charged hmemory
                hnode hlimit hcap hx h.exact
              have hdata := ParserBuffer.extendFromSlice_data hx
              simp only at hledger ⊢
              refine ⟨⟨hledger, hexact', h.opened, h.server, h.waits, hlive', ⟨herror', hfin', hmarker'⟩,
                ⟨{ st with frames := { st.frames with buf := buf } }, by simp [hst, hok], hrole, hok, ?_, hlen',
                  hcap'⟩⟩, fun _ => ?_, fun hgo => ?_⟩
              · show buf.data ++ (c'.streams connectId).recv.data = bytes
                rw [hdata, hdata', List.append_assoc, List.take_append_drop, hbytes]
              · show (c'.streams connectId).recv.data.length < _
                have hpos := List.length_pos_iff.mpr hsome
                rw [hdata', List.length_drop]
                omega
              · refine absurd hgo ?_
                have hne : (e.conn.streams connectId).recv.data.take (16 * 1024) ≠ [] := by
                  simp [hsome]
                simp [h.opened, hne]

/-- Once everything was read, more than the budget cannot be held. -/
theorem Hoards.refused {bytes : Bytes} (hroot : Rooted base) {node : ParserMemory}
    (hnode : base[m]? = some node) (hlimit : node.limit = maxSessionParserMemory)
    (hmuch : maxSessionParserMemory < bytes.length) : ∀ {n : Nat} {e : Endpoint},
    Hoards base m bytes e → (e.conn.streams connectId).recv.data.length < n →
      ¬(iterate (readStep connectId false) n e).Unrefused
  | 0, _, _, hlt => absurd hlt (Nat.not_lt_zero _)
  | n + 1, e, h, hlt => by
      rw [iterate]
      rcases h.pass hroot hnode hlimit with ⟨hrefused, hstop⟩ | ⟨hnext, hless, hdone⟩
      · rwa [if_neg (by simp [hstop])]
      · split
        next hgo =>
          have hless := hless hgo
          exact hnext.refused hroot hnode hlimit hmuch (by omega)
        next hstop =>
          obtain ⟨st, -, -, -, hbytes, hlen, -⟩ := hnext.entry
          rw [hdone (by simpa using hstop), List.append_nil] at hbytes
          rw [hbytes] at hlen
          omega

/-! ## Every admissible run -/

omit [H3.Codec] in
theorem Quota.fresh (hstart : Start e) (hexact : e.heap.Exact) (ctl j : Nat) :
    Quota e.heap.nodes e.parserMemory ctl j 0 e := by
  have hfresh : e.capsuleBuf = .new e.parserMemory ∧ e.streams = .empty ∧ e.ev = [] := by
    cases hstart <;> exact ⟨rfl, rfl, rfl⟩
  obtain ⟨hcapsule, hstreams, hev⟩ := hfresh
  refine ⟨(Ledger.fresh hcapsule hstreams).1, ⟨by simp [hev], fun id st hst => ?_⟩, fun _ =>
    ⟨hexact, .inl (by rw [hcapsule]; rfl), fun st hst => ?_, fun st hst => ?_, fun id st _ _ hst => ?_⟩⟩
  all_goals
    rw [hstreams] at hst
    cases hst

theorem Fed.fresh (hstart : Start e) (hexact : e.heap.Exact) (ctl : Nat) :
    Fed e.heap.nodes e.parserMemory ctl e := by
  have hfresh : e.capsuleBuf = .new e.parserMemory ∧ e.streams = .empty ∧
      ∀ id, e.heard id = [] := by
    cases hstart with
    | client authority path origin extraHeaders protocols conn heap hconn =>
        exact ⟨rfl, rfl, fun id => by
          show (conn.streams id).recv.got = []
          rw [hconn.2.1]⟩
    | server remote supportedProtocols allowedOrigins responseHeaders parent conn heap hconn =>
        exact ⟨rfl, rfl, fun id => by
          show (conn.streams id).recv.got = []
          rw [hconn.2.1]⟩
  obtain ⟨hcapsule, hstreams, hheard⟩ := hfresh
  have hbytes : e.frameBytes connectId = [] := by
    rw [frameBytes, hstreams]
    rfl
  refine ⟨hstart.disciplined, hstart.gated, .fresh hstart hexact ctl _, fun _ => ⟨?_, ?_, fun more hm => ?_⟩,
    fun _ => .inl ?_, fun _ st hst => ?_⟩
  · rw [hcapsule]
    exact Nat.zero_le _
  · rw [hbytes]
    exact Nat.zero_le _
  · rw [hcapsule, hbytes] at hm
    rwa [hheard]
  · rw [hbytes]
    rfl
  · rw [hstreams] at hst
    cases hst

/-- What a session is asked to do for an admissible peer. -/
def Feeds (ctl : Nat) (e : Endpoint) (s : Step) : Prop := e.Attends ctl s ∧ Modest ctl (e.step s)

/-- No buffer was refused memory, and what the buffers hold fits the budget. -/
def Within (e : Endpoint) : Prop := e.Unrefused ∧ e.charge ≤ maxSessionParserMemory

theorem Fed.within {ctl : Nat} (h : Fed base m ctl e) (hctl : ctl ≠ connectId) : e.Within := by
  refine ⟨h.quota.unrefused, ?_⟩
  cases hc : e.closed with
  | true =>
      rw [h.quota.ledger.closed hc]
      exact Nat.zero_le _
  | false =>
      have hle := (h.quota.sized hc).charge_le hctl
      have hpow : 2 ^ e.level ≤ 2 ^ 21 := Nat.pow_le_pow_right (by decide) (level_le e)
      have hmax : maxSessionParserMemory = 2 ^ 23 := by decide
      have hsum : (2 : Nat) ^ 23 = 2 ^ 22 + 2 ^ 21 + 2 ^ 21 := by decide
      omega

/-- The budget of a session suffices for every admissible peer, whatever the division of
what it sends into reads and DATA frames. -/
theorem parser_budget_suffices (hstart : Start e) (hexact : e.heap.Exact)
    (hroomy : Roomy e.heap.nodes e.parserMemory maxSessionParserMemory) {ctl : Nat}
    (hctl : PeerUni e.cfg.isServer ctl) {calls : List Call}
    (hrun : Along call (Meets (Feeds ctl)) e calls) :
    Along call (fun e c => Along step (fun s x => (s.step x).Within) e (e.steps c)) e calls := by
  have hmax : maxSessionParserMemory = 2 ^ 23 := by decide
  have hstep : ∀ s x, Fed e.heap.nodes e.parserMemory ctl s ∧ s.cfg = e.cfg →
      s.StepAdmissible x ∧ Feeds ctl s x →
      (s.step x).Within ∧ Fed e.heap.nodes e.parserMemory ctl (s.step x) ∧ (s.step x).cfg = e.cfg := by
    rintro s x ⟨hfed, hcfg⟩ ⟨hs, hattends, hmodest⟩
    have hctl : PeerUni s.cfg.isServer ctl := hcfg ▸ hctl
    have hnext := hfed.step (hmax ▸ hroomy) hctl hs hattends hmodest
    exact ⟨hnext.within hctl.ne_connectId, hnext, (cfg_whole e).step hfed.disciplined.layout hs hcfg⟩
  refine along_imp (I := fun s => Fed e.heap.nodes e.parserMemory ctl s ∧ s.cfg = e.cfg)
    (fun s c hs hc => ?_) ⟨.fresh hstart hexact ctl, rfl⟩ hrun
  have hsteps := along_and (steps_admissible hc.1) hc.2
  refine ⟨along_imp hstep hs hsteps, ?_⟩
  rw [call_eq]
  exact execute_invariant (fun s x hs hx => (hstep s x hs hx).2) hs hsteps

end

theorem not_longCapsule_nil : ¬LongCapsule [] := by
  intro h
  cases h with
  | here hty => cases hty
  | later hty => cases hty

theorem not_heavy_nil : ¬Heavy [] [] := by
  intro h
  cases h with
  | capsule hlong => exact not_longCapsule_nil hlong
  | oversized hb | data hb | other hb => cases hb

/-- Nothing but a request and SETTINGS was read. -/
def Plain (e : Endpoint) : Prop :=
  (e.heard connectId = [] ∨ e.heard connectId = sampleRequest) ∧
    (e.heard 2 = [] ∨ e.heard 2 = sampleControl)

instance (e : Endpoint) : Decidable e.Plain := inferInstanceAs (Decidable (_ ∧ _))

instance (ctl : Nat) (e : Endpoint) : (s : Step) → Decidable (e.Attends ctl s)
  | .touch id | .read id _ => inferInstanceAs (Decidable (id = connectId ∨ id = ctl ∨ _ = true))
  | .onEstablished | .onDatagrams | .sendDatagram _ _ | .openStream _ _ | .streamWrite _ _ _
  | .streamFin _ | .streamReset _ _ | .streamStopSending _ _ | .setPaused _ _ | .close _ _ | .sendDrain
  | .takeTerminalError | .grantCredit | .replenish | .queueClose | .releasePendingOpens | .flushStream _
  | .commitSent | .signalFlowControlBlocked | .prune | .gracefulClose | .markClosed _ _ _ | .network _ =>
      .isTrue trivial

/-- A step of such a run. -/
def PlainStep [H3.Codec] (e : Endpoint) (s : Step) : Prop := e.Attends 2 s ∧ (e.step s).Plain

instance [H3.Codec] (e : Endpoint) (s : Step) : Decidable (e.PlainStep s) :=
  inferInstanceAs (Decidable (_ ∧ _))

instance [H3.Codec] (e : Endpoint) (c : Call) : Decidable (e.Meets PlainStep c) :=
  inferInstanceAs (Decidable (_ ∧ _))

theorem Plain.modest (h : e.Plain) : Modest 2 e := by
  obtain ⟨hconnect, hcontrol⟩ := h
  have hrequest : ∃ payload, frameHead sampleRequest = .frame H3.frameHeaders payload [] :=
    ⟨sampleRequest.drop 2, by decide +kernel⟩
  obtain ⟨payload, hrequest⟩ := hrequest
  have hsettings : frameHead (sampleControl.drop 1) = .frame H3.frameSettings sampleSettings [] := by
    decide +kernel
  refine ⟨?_, fun n hn => ?_, fun _ _ => ?_⟩
  · rcases hconnect with hnil | hone
    · rw [hnil]
      exact not_heavy_nil
    · rw [hone]
      intro hheavy
      cases hheavy with
      | capsule hlong => exact not_longCapsule_nil hlong
      | oversized hb => cases hb.symm.trans hrequest
      | data hb => cases hb.symm.trans hrequest
      | other hb hty hrest =>
          cases hb.symm.trans hrequest
          exact not_heavy_nil hrest
  · rcases hcontrol with hnil | hone
    · rw [hnil] at hn
      cases hn
    · rw [hone] at hn ⊢
      have hkind : H3.readVarint sampleControl = some (H3.h3ControlStreamType, 1) := by decide +kernel
      cases hn.symm.trans hkind
      intro hover
      cases hover with
      | here hb => cases hb.symm.trans hsettings
      | later hb hrest =>
          cases hb.symm.trans hsettings
          cases hrest with
          | here hb | later hb => cases hb
  · rcases hconnect with hnil | hone
    · rw [hnil]
      exact Nat.zero_le _
    · rw [hone]
      decide +kernel

theorem serverHandshake_plain :
    letI := H3.Codec.plain
    Along call (Meets PlainStep) sampleServer serverHandshake := by decide +kernel

theorem sampleServer_roomy :
    Roomy sampleServer.heap.nodes sampleServer.parserMemory maxSessionParserMemory := by
  refine ⟨?_, by decide, ?_⟩
  · intro i node p hi hp
    have hnodes : sampleServer.heap.nodes = [⟨2 ^ 26, 0, none⟩, ⟨maxSessionParserMemory, 0, some 0⟩] := rfl
    rw [hnodes] at hi
    match i, hi with
    | 0, hi =>
        cases hi
        cases hp
    | 1, hi =>
        cases hi
        cases hp
        decide
  · have hpath : Heap.path sampleServer.heap.nodes sampleServer.parserMemory = [1, 0] := by decide
    rw [hpath]
    intro j hj node hnode
    rcases List.mem_pair.mp hj with rfl | rfl <;> cases hnode <;> decide

theorem parser_budget_suffices_sample :
    letI := H3.Codec.plain
    Along call (fun e c => Along step (fun s x => (s.step x).Within) e (e.steps c)) sampleServer
      serverHandshake := by
  let _ := H3.Codec.plain
  exact parser_budget_suffices sampleServer_start (fun _ _ => rfl) sampleServer_roomy
    (show PeerUni sampleServer.cfg.isServer 2 by decide) (along_imp (I := fun _ => True) (fun e c _ hc => ⟨⟨hc.1, along_imp (I := fun _ => True)
      (fun s x _ hx => ⟨⟨hx.1, hx.2.modest⟩, trivial⟩) trivial hc.2⟩, trivial⟩) trivial serverHandshake_plain)

/-- Nine frames with the same payload. -/
def flood (payload : Bytes) : List (Nat × Bytes) := List.replicate 9 (0x21, payload)

theorem flood_length (payload : Bytes) :
    9 * payload.length ≤ ((flood payload).flatMap fun f => H3.frame f.1 f.2).length := by
  have hone : payload.length ≤ (H3.frame 0x21 payload).length := by
    unfold H3.frame
    simp only [List.length_append]
    omega
  unfold flood
  rw [List.length_flatMap, List.map_replicate, List.sum_replicate, nsmul_eq_mul]
  exact Nat.mul_le_mul_left 9 hone

theorem flood_exceeds {payload : Bytes} (h : payload.length = maxControlFrame) :
    maxSessionParserMemory < ((flood payload).flatMap fun f => H3.frame f.1 f.2).length := by
  have hlen := flood_length payload
  have hless : maxSessionParserMemory < 9 * maxControlFrame := by decide
  rw [h] at hlen
  exact hless.trans_le hlen

/-- The CONNECT stream of a server brings them before the control stream its SETTINGS. -/
def floodedRun (payload : Bytes) : List Call :=
  [.network (.data connectId ((flood payload).flatMap fun f => H3.frame f.1 f.2)),
    .onReadable connectId false]

theorem flooded_hoards [H3.Codec] (bytes : Bytes) : Hoards sampleServer.heap.nodes sampleServer.parserMemory bytes
    ((sampleServer.call (.network (.data connectId bytes))).touch connectId) := by
  have hroot := sampleServer_roomy.rooted
  have hledger := ((Ledger.fresh (e := sampleServer) rfl rfl).1.call
    (.network (.data connectId bytes)) hroot).touch connectId hroot
  exact ⟨hledger, fun _ _ => rfl, rfl, rfl, rfl, rfl, ⟨rfl, rfl, rfl⟩,
    ⟨.new .connect sampleServer.parserMemory, rfl, rfl, rfl, rfl, Nat.zero_le _, Nat.zero_le _⟩⟩

/-- What a server cannot keep until SETTINGS arrive is refused. -/
theorem hoard_refused [H3.Codec] {bytes : Bytes} (hmuch : maxSessionParserMemory < bytes.length) :
    Along call Admissible sampleServer [.network (.data connectId bytes), .onReadable connectId false] ∧
      ¬(execute call sampleServer [.network (.data connectId bytes),
        .onReadable connectId false]).Unrefused := by
  refine ⟨⟨trivial, ?_, trivial⟩, ?_⟩
  · have hne : bytes ≠ [] := by
      rintro rfl
      exact Nat.not_lt_zero _ hmuch
    show (!bytes.isEmpty || false) = true
    simp [hne]
  · exact (flooded_hoards bytes).refused sampleServer_roomy.rooted
      (show sampleServer.heap.nodes[sampleServer.parserMemory]? =
        some ⟨maxSessionParserMemory, 0, some 0⟩ from rfl) rfl hmuch (Nat.lt_succ_self _)

/-- Frames of the greatest length that is admitted, and yet memory is refused. -/
theorem budget_exceeded_before_settings :
    letI := H3.Codec.plain
    let payload : Bytes := List.replicate maxControlFrame 0
    Start sampleServer ∧ sampleServer.heap.Exact ∧
      Roomy sampleServer.heap.nodes sampleServer.parserMemory maxSessionParserMemory ∧
      (∀ f ∈ flood payload, f.2.length ≤ maxControlFrame) ∧
      Along call Admissible sampleServer (floodedRun payload) ∧
      ¬(execute call sampleServer (floodedRun payload)).Unrefused := by
  let _ := H3.Codec.plain
  intro payload
  have hlen : payload.length = maxControlFrame := List.length_replicate
  refine ⟨sampleServer_start, fun _ _ => rfl, sampleServer_roomy, fun f hf => ?_,
    hoard_refused (flood_exceeds hlen)⟩
  obtain ⟨-, rfl⟩ := List.mem_replicate.mp hf
  exact hlen.le

end RWebTransport.Endpoint
