import RWebTransport.Session.Quota

/-!
# Feeding a session

What a session reads of its peer's control stream and of the CONNECT stream keeps the
bounds of `Quota`, whatever the division into reads.
-/

namespace RWebTransport.Endpoint

open Heap (Charged Rooted Roomy Exact)

section

variable [H3.Codec] {base : List ParserMemory} {m ctl j n : Nat} {e e' : Endpoint}

omit [H3.Codec] in
theorem Unrefused.frameError (h : e.Unrefused) (id : Nat) : e.frameError id = false := by
  unfold Endpoint.frameError
  cases hst : e.streams.get id with
  | none => rfl
  | some st => exact h.parsers id st hst

omit [H3.Codec] in
theorem pushFrames_kept (e : Endpoint) (id : Nat) (chunk : Bytes) :
    (e.pushFrames id chunk).closed = e.closed ∧ (e.pushFrames id chunk).capsuleBuf = e.capsuleBuf ∧
      (e.pushFrames id chunk).cfg = e.cfg ∧ (e.pushFrames id chunk).peerSettings = e.peerSettings ∧
      (e.pushFrames id chunk).connectPending = e.connectPending := by
  unfold Endpoint.pushFrames
  cases e.streams.get id <;> exact ⟨rfl, rfl, rfl, rfl, rfl⟩

omit [H3.Codec] in
theorem pushFrames_elsewhere (e : Endpoint) {id i : Nat} (hi : i ≠ id) (chunk : Bytes) :
    (e.pushFrames id chunk).streams.get i = e.streams.get i := by
  unfold Endpoint.pushFrames
  split
  · rfl
  · exact Table.get_modify_ne hi

omit [H3.Codec] in
theorem pushFrames_entry {id : Nat} {st : Stream} (hst : e.streams.get id = some st) (chunk : Bytes) :
    ∃ p, (e.pushFrames id chunk).streams.get id = some { st with frames := p } := by
  unfold Endpoint.pushFrames
  exact ⟨(st.frames.push e.heap chunk).1, by simp [hst]⟩

/-- What is known of the one unidirectional stream of the peer, of which `got` was read. -/
structure Tracked (got : Bytes) (st : Stream) : Prop where
  pending : st.role = .pendingUni → st.frames.buf.capacity = 0 ∧ st.classBuf.data.length ≤ 15
  resolved : st.role ≠ .pendingUni → st.classBuf.capacity = 0
  control : st.role = .peerControl → ∃ n, H3.readVarint got = some (H3.h3ControlStreamType, n) ∧
    ∀ more, Oversized (st.frames.buf.data ++ more) → Oversized (got.drop n ++ more)

omit [H3.Codec] in
theorem frameBytes_of_get {id : Nat} {st : Stream} (hst : e.streams.get id = some st) :
    e.frameBytes id = st.frames.buf.data := by
  simp [frameBytes, hst]

/-- A chunk of the control stream. -/
theorem Quota.recvControl {rest got chunk : Bytes} {k : Nat} (h : Quota base m ctl j 0 e)
    (hroomy : Roomy base m (2 ^ 23)) (hctl : ctl ≠ connectId) (hj : j ≤ 21)
    (hsit : Sitting rest e) (hrest : ¬Heavy [] rest) (hl : e.Layout) (hc : ControlStream ctl e)
    (hopen : e.closed = false) {st : Stream} (hst : e.streams.get ctl = some st)
    (hbare : st.classBuf.capacity = 0) (hlen : st.frames.buf.data.length + chunk.length ≤ 2 ^ 21)
    (hfirst : e.cfg.isServer = true → st.headersDone = false → j ≤ 20)
    (hk : H3.readVarint got = some (H3.h3ControlStreamType, k)) {restT : Bytes}
    (hgot : got.drop k = restT ++ chunk)
    (hfollows : Follows restT (!st.headersDone) st.frames.buf.data)
    (htrail : ∀ more, Oversized (st.frames.buf.data ++ more) → Oversized (restT ++ more))
    (hfine : ¬Oversized (got.drop k)) (fin : Bool) :
    Quota base m ctl j 0 (e.recvControl ctl chunk fin) ∧
      ((e.recvControl ctl chunk fin).closed = false → Sitting rest (e.recvControl ctl chunk fin) ∧
        ∀ st', (e.recvControl ctl chunk fin).streams.get ctl = some st' → Tracked got st') := by
  obtain ⟨hpushed, hbytes⟩ := h.pushFrames hroomy hctl hopen hj hst chunk
    (.inr ⟨rfl, hbare, hlen⟩)
  have hkept := pushFrames_kept e ctl chunk
  obtain ⟨p, hentry⟩ := pushFrames_entry hst chunk
  have hok := h.unrefused.parsers ctl st hst
  have hparsing := pushFrames_parses hl hc hst hok hfollows chunk
  have hstart : Steering base m ctl j rest (restT ++ chunk) e.peerSettings (e.pushFrames ctl chunk) := by
    refine ⟨hpushed, hparsing, fun _ => hsit.congr hkept.2.1 ?_ hkept.2.2.1 hkept.2.2.2.1 hkept.2.2.2.2,
      fun _ hserver hd => ?_, fun _ st' hst' => ?_, fun _ more hm => ?_⟩
    · unfold frameBytes
      rw [pushFrames_elsewhere e hctl.symm]
    · refine hfirst (hkept.2.2.1 ▸ hserver) ?_
      simpa [Endpoint.headersDone, hentry] using hd
    · obtain rfl := Option.some.inj (hentry.symm.trans hst')
      exact hbare
    · rw [hbytes, frameBytes_of_get hst, List.append_assoc] at hm
      rw [List.append_assoc]
      exact htrail _ hm
  obtain ⟨hparsed, -⟩ := hstart.loop hroomy hctl hj hrest (hgot ▸ hfine)
  unfold Endpoint.recvControl
  simp only
  generalize (e.pushFrames ctl chunk).parseControlFrames ctl = e1 at hparsed
  have hended : Quota base m ctl j 0 (if fin ∧ !e1.closed then
      e1.protocolError 0x104 "peer closed the HTTP/3 control stream" else e1) ∧
      ((if fin ∧ !e1.closed then e1.protocolError 0x104 "peer closed the HTTP/3 control stream"
        else e1).closed = false → (if fin ∧ !e1.closed then
          e1.protocolError 0x104 "peer closed the HTTP/3 control stream" else e1) = e1) := by
    split
    · exact ⟨hparsed.quota.mild (hparsed.quota.ledger.protocolError _ _ hroomy.rooted)
        (.protocolError _ _ (by decide)), fun hbad => absurd hbad (by simp [protocolError_closed])⟩
    · exact ⟨hparsed.quota, fun _ => rfl⟩
  generalize (if fin ∧ !e1.closed then
      e1.protocolError 0x104 "peer closed the HTTP/3 control stream" else e1) = e2 at hended ⊢
  rw [if_neg (by simp [hended.1.unrefused.frameError ctl])]
  refine ⟨hended.1, fun hc2 => ?_⟩
  obtain rfl := hended.2 hc2
  refine ⟨hparsed.sitting hc2, fun st' hst' => ?_⟩
  have hrole := role_of_roleOf hst' hparsed.parsing.control.role
  refine ⟨fun hbad => absurd (hrole.symm.trans hbad) (by simp), fun _ => hparsed.bare hc2 st' hst',
    fun _ => ⟨k, hk, fun more hm => ?_⟩⟩
  rw [hgot]
  exact hparsed.trail hc2 more (by rw [frameBytes_of_get hst']; exact hm)

/-- A chunk of the CONNECT stream. -/
theorem Quota.recvConnect {rest chunk : Bytes} (h : Quota base m ctl j 0 e)
    (hroomy : Roomy base m (2 ^ 23)) (hctl : ctl ≠ connectId) (hj : j ≤ 21)
    (hlight : e.Light rest) (hrest : ¬Heavy [] (rest ++ chunk)) (hopen : e.closed = false) {st : Stream}
    (hst : e.streams.get connectId = some st)
    (hlen : (e.frameBytes connectId).length + chunk.length ≤ 2 ^ j) (fin : Bool) :
    Quota base m ctl j 0 (e.recvConnect connectId chunk fin) ∧
      ((e.recvConnect connectId chunk fin).closed = false →
        (e.recvConnect connectId chunk fin).Light (rest ++ chunk) ∧
        (e.recvConnect connectId chunk fin).Drains) := by
  have hbuf := frameBytes_of_get hst
  obtain ⟨hpushed, hbytes⟩ := h.pushFrames hroomy hctl hopen hj hst chunk
    (.inl ⟨rfl, hbuf ▸ hlen⟩)
  have hkept := pushFrames_kept e connectId chunk
  have hn : 0 + 2 ^ j ≤ 2 ^ 21 := by
    have hpow : 2 ^ j ≤ 2 ^ 21 := Nat.pow_le_pow_right (by decide) hj
    omega
  have htaking : Taking base m ctl j 0 (rest ++ chunk) (e.pushFrames connectId chunk) := by
    refine ⟨hpushed, fun _ => ⟨hkept.2.1 ▸ hlight.capsule, ?_, fun more hm => ?_⟩⟩
    · rw [hbytes, List.length_append, List.length_append]
      exact Nat.add_le_add_right hlight.short _
    · rw [hbytes, hkept.2.1, List.append_assoc] at hm
      rw [List.append_assoc]
      exact hlight.heavy _ hm
  unfold Endpoint.recvConnect
  have hparsed : Taking base m ctl j 0 (rest ++ chunk) (if (e.pushFrames connectId chunk).cfg.isServer then
      (e.pushFrames connectId chunk).parseServerConnectFrames connectId
    else (e.pushFrames connectId chunk).parseConnectFrames connectId) ∧
    ((if (e.pushFrames connectId chunk).cfg.isServer then
      (e.pushFrames connectId chunk).parseServerConnectFrames connectId
    else (e.pushFrames connectId chunk).parseConnectFrames connectId).closed = false →
      Drains (if (e.pushFrames connectId chunk).cfg.isServer then
      (e.pushFrames connectId chunk).parseServerConnectFrames connectId
    else (e.pushFrames connectId chunk).parseConnectFrames connectId)) := by
    split
    next hserver => exact htaking.parseServerConnectFrames hroomy hctl hn hrest hserver
    · exact htaking.parseConnectFrames hroomy hctl hn hrest
  simp only
  generalize (if (e.pushFrames connectId chunk).cfg.isServer then
      (e.pushFrames connectId chunk).parseServerConnectFrames connectId
    else (e.pushFrames connectId chunk).parseConnectFrames connectId) = e2 at hparsed ⊢
  rw [if_neg (show ¬(e2.frameError connectId ∧ !e2.closed) by
    simp [hparsed.1.quota.unrefused.frameError connectId])]
  split
  · have hlog : Quota base m ctl j 0 (e2.log (.connectFin (e2.framesLength connectId)
        e2.capsuleBuf.data.length)) := hparsed.1.quota.mild (hparsed.1.quota.ledger.log _) (.log e2 _)
    split
    · exact ⟨hlog.mild (hlog.ledger.protocolError _ _ hroomy.rooted) (.protocolError _ _ (by decide)),
        fun hbad => absurd hbad (by simp [protocolError_closed])⟩
    · exact ⟨hlog.mild (hlog.ledger.markClosed _ _ _ hroomy.rooted) (.markClosed _ _ _ _),
        fun hbad => absurd hbad (by simp [markClosed_closed])⟩
  · exact ⟨hparsed.1.quota, fun hc => ⟨hparsed.1.light hc, hparsed.2 hc⟩⟩

end

/-! ## Classifying -/

section

variable [H3.Codec] {base : List ParserMemory} {m ctl j n : Nat} {e e' : Endpoint}

omit [H3.Codec] in
/-- A chunk of a stream that waits for its type. -/
theorem Quota.pushClass (h : Quota base m ctl j 0 e) (hroomy : Roomy base m (2 ^ 23))
    (hctl : ctl ≠ connectId) (hopen : e.closed = false) (hj : j ≤ 21) {st : Stream}
    (hst : e.streams.get ctl = some st) (hframes : st.frames.buf.capacity = 0) (chunk : Bytes)
    (hlen : st.classBuf.data.length + chunk.length ≤ 2 ^ 15) :
    ∃ b, (e.pushClass ctl chunk).2 = some (st.classBuf.data ++ chunk) ∧
      b.data = st.classBuf.data ++ chunk ∧ Quota base m ctl j 0 (e.pushClass ctl chunk).1 ∧
      (e.pushClass ctl chunk).1.streams.get ctl = some { st with classBuf := b } ∧
      (∀ i, i ≠ ctl → (e.pushClass ctl chunk).1.streams.get i = e.streams.get i) ∧
      (e.pushClass ctl chunk).1.capsuleBuf = e.capsuleBuf ∧ (e.pushClass ctl chunk).1.cfg = e.cfg ∧
      (e.pushClass ctl chunk).1.peerSettings = e.peerSettings ∧
      (e.pushClass ctl chunk).1.connectPending = e.connectPending ∧
      (e.pushClass ctl chunk).1.closed = e.closed := by
  have hs := h.sized hopen
  have hledger := h.ledger.pushClass hopen ctl chunk hroomy.rooted
  have hmemory := (h.ledger.streams ctl st hst).classBuf
  have htotal := charge_eq_parts hs hctl
  have hcapsule := hs.capsule.le
  have hconnect := hs.part_connect
  have hpowj : 2 ^ j ≤ 2 ^ 21 := Nat.pow_le_pow_right (by decide) hj
  obtain ⟨-, hrounded, -⟩ := hs.control st hst
  have hpart : e.part ctl = st.classBuf.capacity := by simp [part, hst, Stream.charge, hframes]
  have hc := h.ledger.charged
  rw [← hmemory] at hc
  obtain ⟨b, heap, hx, hdata, hcap, hexact⟩ := ParserBuffer.extend_fits (b := st.classBuf)
    (k := e.charge - st.classBuf.capacity) chunk
    (show Roomy base st.classBuf.memory (2 ^ 23) from hmemory ▸ hroomy) hs.allocator (by convert hc using 1; omega) hrounded (by decide) hlen fun a ha hlt => by
      have hhalf := hrounded.grows hlt
      have hpow : 2 ^ a ≤ 2 ^ 15 := Nat.pow_le_pow_right (by decide) ha
      omega
  have hself : (e.streams.modify ctl fun s => { s with classBuf := b }).get ctl =
      some { st with classBuf := b } := by simp [hst]
  have hother : ∀ i, i ≠ ctl → (e.streams.modify ctl fun s => { s with classBuf := b }).get i =
      e.streams.get i := fun i hi => Table.get_modify_ne hi
  unfold Endpoint.pushClass at hledger ⊢
  simp only [hst, hx] at hledger ⊢
  refine ⟨b, congrArg some hdata, hdata, ⟨hledger, ⟨h.unrefused.quiet, fun a st' hst' => ?_⟩, fun _ =>
    ⟨hexact, hs.capsule, fun st' hst' => ?_, fun st' hst' => ?_, fun i st' hi hi' hst' => ?_⟩⟩, hself,
    hother, trivial, trivial, trivial, trivial, trivial⟩
  · by_cases ha : a = ctl
    · rw [ha] at hst'
      obtain rfl := Option.some.inj (hself.symm.trans hst')
      exact h.unrefused.parsers ctl st hst
    · exact h.unrefused.parsers a st' ((hother a ha).symm.trans hst')
  · exact hs.connect st' ((hother _ hctl.symm).symm.trans hst')
  · obtain rfl := Option.some.inj (hself.symm.trans hst')
    exact ⟨.inl hframes, hcap, .inl hframes⟩
  · exact hs.others i st' hi hi' ((hother i hi').symm.trans hst')

omit [H3.Codec] in
/-- The type of the stream is known. -/
theorem Quota.classify (h : Quota base m ctl j n e) (hroot : Rooted base) (hctl : ctl ≠ connectId)
    {st : Stream} (hst : e.streams.get ctl = some st) (role : Role) :
    Quota base m ctl j n (e.classify ctl role) := by
  have hself : (e.classify ctl role).streams.get ctl =
      some { st with role := role, classBuf := .new st.classBuf.memory } := by
    simp [Endpoint.classify, hst]
  have hother : ∀ i, i ≠ ctl → (e.classify ctl role).streams.get i = e.streams.get i :=
    fun i hi => Table.get_modify_ne hi
  refine ⟨h.ledger.classify ctl role hroot, ⟨h.unrefused.quiet, fun a st' hst' => ?_⟩, fun hopen => ?_⟩
  · by_cases ha : a = ctl
    · rw [ha] at hst'
      obtain rfl := Option.some.inj (hself.symm.trans hst')
      exact h.unrefused.parsers ctl st hst
    · exact h.unrefused.parsers a st' ((hother a ha).symm.trans hst')
  · have hs := h.sized hopen
    refine ⟨?_, hs.capsule, fun st' hst' => ?_, fun st' hst' => ?_, fun i st' hi hi' hst' => ?_⟩
    · have hheap : (e.classify ctl role).heap =
          e.heap.release st.classBuf.memory st.classBuf.capacity := by
        simp [Endpoint.classify, hst]
      rw [hheap]
      exact hs.allocator.release _ _
    · exact hs.connect st' ((hother _ hctl.symm).symm.trans hst')
    · obtain rfl := Option.some.inj (hself.symm.trans hst')
      exact ⟨(hs.control st hst).1, .inl rfl, .inr rfl⟩
    · exact hs.others i st' hi hi' ((hother i hi').symm.trans hst')

omit [H3.Codec] in
theorem Quota.removeStream (h : Quota base m ctl j n e) (hroot : Rooted base) (id : Nat) :
    Quota base m ctl j n (e.removeStream id) := by
  have hget : ∀ i st, (e.removeStream id).streams.get i = some st → e.streams.get i = some st := by
    intro i st hst
    simp only [Endpoint.removeStream, Table.get_erase] at hst
    split at hst
    · cases hst
    · exact hst
  refine ⟨h.ledger.removeStream id hroot, ⟨h.unrefused.quiet, fun i st hst =>
    h.unrefused.parsers i st (hget i st hst)⟩, fun hopen => ?_⟩
  have hs := h.sized hopen
  refine ⟨?_, hs.capsule, fun st hst => hs.connect st (hget _ st hst), fun st hst =>
    hs.control st (hget _ st hst), fun i st hi hi' hst => hs.others i st hi hi' (hget i st hst)⟩
  unfold Endpoint.removeStream
  simp only
  split
  next old _ => exact hs.allocator.stream old
  · exact hs.allocator

/-- What the session is left with when a stream of the peer, of which `got` was read, is dealt with. -/
structure Outcome (base : List ParserMemory) (m ctl j : Nat) (rest got : Bytes) (e : Endpoint) : Prop where
  quota : Quota base m ctl j 0 e
  sitting : e.closed = false → Sitting rest e
  tracked : e.closed = false → ∀ st, e.streams.get ctl = some st → Tracked got st

omit [H3.Codec] in
theorem Outcome.of_mild {rest got : Bytes} (h : Quota base m ctl j 0 e) (hsit : Sitting rest e)
    (hl : Ledger base m 0 e') (hm : Mild e e') (htracked : e'.closed = false →
      ∀ st, e'.streams.get ctl = some st → Tracked got st) : Outcome base m ctl j rest got e' where
  quota := h.mild hl hm
  sitting hopen := by
    have hcalm := hm.calm hopen
    exact hsit.congr hcalm.capsule (hcalm.toSameMemory.frameBytes connectId) hcalm.cfg hcalm.settings
      hcalm.pending
  tracked := htracked

omit [H3.Codec] in
theorem Outcome.of_protocolError {rest got : Bytes} (h : Quota base m ctl j 0 e) (hroot : Rooted base)
    (code : Nat) {message : String} (hm : Ev.error message ≠ limitExceeded) :
    Outcome base m ctl j rest got (e.protocolError code message) where
  quota := h.mild (h.ledger.protocolError _ _ hroot) (.protocolError _ _ hm)
  sitting hopen := absurd hopen (by simp [protocolError_closed])
  tracked hopen := absurd hopen (by simp [protocolError_closed])

omit [H3.Codec] in
/-- A stream that is neither pending nor the control stream takes no memory. -/
theorem Tracked.of_bare {got : Bytes} {st : Stream} (hpending : st.role ≠ .pendingUni)
    (hcontrol : st.role ≠ .peerControl) (hcap : st.classBuf.capacity = 0) : Tracked got st :=
  ⟨fun hbad => absurd hbad hpending, fun _ => hcap, fun hbad => absurd hbad hcontrol⟩

end

section

variable [H3.Codec] {base : List ParserMemory} {m ctl j n : Nat} {e e' : Endpoint}

omit [H3.Codec] in
theorem classify_entry {st : Stream} (hst : e.streams.get ctl = some st) (role : Role) :
    (e.classify ctl role).streams.get ctl =
      some { st with role := role, classBuf := .new st.classBuf.memory } := by
  simp [Endpoint.classify, hst]

omit [H3.Codec] in
theorem Sitting.classify {rest : Bytes} (h : Sitting rest e) (hctl : ctl ≠ connectId) (role : Role) :
    Sitting rest (e.classify ctl role) := by
  refine h.congr rfl ?_ rfl rfl rfl
  unfold frameBytes Endpoint.classify
  simp only [Table.get_modify_ne hctl.symm]

omit [H3.Codec] in
/-- A stream that is classified as none that has frames. -/
theorem Outcome.classify {rest got : Bytes} (h : Quota base m ctl j 0 e) (hroot : Rooted base)
    (hctl : ctl ≠ connectId) (hsit : Sitting rest e) {st : Stream} (hst : e.streams.get ctl = some st)
    {role : Role} (hpending : role ≠ .pendingUni) (hcontrol : role ≠ .peerControl) :
    Outcome base m ctl j rest got (e.classify ctl role) where
  quota := h.classify hroot hctl hst role
  sitting _ := hsit.classify hctl role
  tracked _ st' hst' := by
    obtain rfl := Option.some.inj ((classify_entry hst role).symm.trans hst')
    exact .of_bare hpending hcontrol rfl

omit [H3.Codec] in
/-- A stream that still waits for its type. -/
theorem Outcome.forgetIf {rest got : Bytes} (h : Quota base m ctl j 0 e) (hroot : Rooted base)
    (hctl : ctl ≠ connectId) (hsit : Sitting rest e) {st : Stream} (hst : e.streams.get ctl = some st)
    (hrole : st.role = .pendingUni) (hframes : st.frames.buf.capacity = 0)
    (hshort : st.classBuf.data.length ≤ 15) (fin : Bool) :
    Outcome base m ctl j rest got (e.forgetIf ctl fin) := by
  unfold Endpoint.forgetIf
  split
  · refine ⟨h.removeStream hroot ctl, fun _ => hsit.congr rfl ?_ rfl rfl rfl, fun _ st' hst' => ?_⟩
    · unfold frameBytes Endpoint.removeStream
      simp only [Table.get_erase, if_neg hctl.symm]
    · simp [Endpoint.removeStream, Table.get_erase] at hst'
  · refine ⟨h, fun _ => hsit, fun _ st' hst' => ?_⟩
    obtain rfl := Option.some.inj (hst.symm.trans hst')
    exact ⟨fun _ => ⟨hframes, hshort⟩, fun hbad => absurd hrole hbad,
      fun hbad => absurd (hrole.symm.trans hbad) (by simp)⟩

/-- A data stream is surfaced. -/
theorem Outcome.surfaceStream {rest got : Bytes} (h : Quota base m ctl j 0 e) (hroot : Rooted base)
    (hctl : ctl ≠ connectId) (hsit : Sitting rest e) {st : Stream} (hst : e.streams.get ctl = some st)
    (bidi : Bool) (buf : Bytes) (header : Nat) (fin : Bool) :
    Outcome base m ctl j rest got (e.surfaceStream ctl bidi buf header fin) := by
  have hledger := h.ledger.surfaceStream ctl bidi buf header fin hroot
  have hmild : Mild (e.classify ctl (.wtData bidi)) (e.surfaceStream ctl bidi buf header fin) := by
    have hprefix := Mild.modify (e.classify ctl (.wtData bidi)) ctl
      (f := fun st => { st with recvPrefix := header }) fun _ => rfl
    have hcounted := hprefix.trans (Mild.accountIncoming _ bidi)
    unfold Endpoint.surfaceStream
    simp only
    split
    next e2 hx => rwa [hx] at hcounted
    next e2 hx =>
      rw [hx] at hcounted
      have hreceived := hcounted.trans (Mild.accountReceive _ ctl (buf.drop header).length)
      split
      next e3 hy => rwa [hy] at hreceived
      next e3 hy =>
        rw [hy] at hreceived
        exact (hreceived.trans (.emit _ (by simp [limitExceeded]))).trans (.surfaceData _ _ _ _)
  refine .of_mild (h.classify hroot hctl hst _) (hsit.classify hctl _) hledger hmild fun hopen st' hst' => ?_
  have hrole := surfaceStream_roleOf (e := e) (r := ctl) (by simp [Endpoint.roleOf, hst]) hctl bidi buf
    header fin
  have hrole' := role_of_roleOf hst' hrole
  have hb := (hmild.same hopen).buffers ctl
  rw [hst', classify_entry hst, Option.map_some, Option.map_some, Option.some.injEq] at hb
  have hclass : st'.classBuf = .new st.classBuf.memory := (Prod.mk.inj hb).2
  exact .of_bare (by simp [hrole']) (by simp [hrole']) (by rw [hclass]; rfl)

/-- A chunk of a stream that waits for its type. -/
theorem Outcome.resolvePendingUni {rest got chunk : Bytes} {fin : Bool} (h : Quota base m ctl j 0 e)
    (hroomy : Roomy base m (2 ^ 23)) (hctl : ctl ≠ connectId) (hj : j ≤ 21) (hsit : Sitting rest e)
    (hrest : ¬Heavy [] rest) (hl : e.Layout) (hopen : e.closed = false) (halive : e.Alive ctl)
    {st : Stream} (hst : e.streams.get ctl = some st) (hrole : st.role = .pendingUni)
    (htracked : Tracked got st) (hbuf : st.classBuf.data = got) (hframes : st.frames.buf.data = [])
    (hdone : st.headersDone = false) (hchunk : chunk.length ≤ 16 * 1024)
    (hfirst : e.cfg.isServer = true → e.peerSettings = none → j ≤ 20)
    (hfine : ∀ k, H3.readVarint (got ++ chunk) = some (H3.h3ControlStreamType, k) →
      ¬Oversized ((got ++ chunk).drop k)) :
    Outcome base m ctl j rest (got ++ chunk) (e.resolvePendingUni ctl chunk fin) := by
  obtain ⟨hcap, hshort⟩ := htracked.pending hrole
  obtain ⟨b, hsome, hdata, hquota, hget, hother, hcapsule, hcfg, hset, hpending, hclosed⟩ :=
    h.pushClass hroomy hctl hopen hj hst hcap chunk (by omega)
  have hroot := hroomy.rooted
  have hpend : e.roleOf ctl = some .pendingUni := by simp [Endpoint.roleOf, hst, hrole]
  have hl1 : (e.pushClass ctl chunk).1.Layout :=
    (pushClass_effects (.inl hpend) chunk).invariant (fun _ _ hs => hs.layout) hl
  unfold Endpoint.resolvePendingUni
  generalize e.pushClass ctl chunk = r at hsome hquota hget hother hcapsule hcfg hset hpending hclosed hl1 ⊢
  obtain ⟨e1, buf⟩ := r
  rw [hbuf] at hsome hdata
  obtain rfl : buf = some (got ++ chunk) := hsome
  simp only at hquota hget hother hcapsule hcfg hset hpending hclosed hl1 ⊢
  have hopen1 : e1.closed = false := hclosed.trans hopen
  have hrole1 : e1.roleOf ctl = some .pendingUni := by simp [Endpoint.roleOf, hget, hrole]
  have hsit1 : Sitting rest e1 := by
    refine hsit.congr hcapsule ?_ hcfg hset hpending
    unfold frameBytes
    rw [hother _ hctl.symm]
  have hwaits : (got ++ chunk).length ≤ 15 →
      Outcome base m ctl j rest (got ++ chunk) (e1.forgetIf ctl fin) := fun hlen =>
    .forgetIf hquota hroot hctl hsit1 hget hrole hcap (hdata ▸ hlen) fin
  cases hty : H3.readVarint (got ++ chunk) with
  | none =>
      have hlt := H3.readVarint_none hty
      exact hwaits (by omega)
  | some t =>
      obtain ⟨ty, k⟩ := t
      simp only
      split
      next hcontrol =>
        subst hcontrol
        split
        · exact .of_protocolError hquota hroot _ (by decide)
        next hdup =>
          -- no SETTINGS were taken: they would be those of another control stream
          have hnone : e.peerSettings = none := by
            by_contra hsome
            have hsome : e.peerSettings.isSome = true := Option.isSome_iff_ne_none.mpr hsome
            rcases hl.settled hsome with hbad | ⟨i, hi, -⟩
            · simp [hopen] at hbad
            · have hne : i ≠ ctl := fun heq => by simp [heq, hpend] at hi
              obtain ⟨st0, hst0, hr0⟩ := Option.map_eq_some_iff.mp hi
              refine hdup (Table.any_eq_true.mpr ⟨i, st0, (hother i hne).trans hst0, ?_⟩)
              simp [hne, hr0]
          have hclass : Effect ctl e1 (e1.classify ctl .peerControl) :=
            .classify e1 hrole1 (fun st1 h1 => by
              obtain rfl := Option.some.inj (hget.symm.trans h1)
              exact halive st hst) (.inr ⟨.inl rfl, by simpa using hdup⟩)
          have hl2 := hclass.layout hl1
          have hget2 := classify_entry hget .peerControl
          have hcontrol2 : ControlStream ctl (e1.classify ctl .peerControl) :=
            ⟨roleOf_classify (by simp [hrole1]), hl2.idle, hl2.connectRole⟩
          have hlen : ((got ++ chunk).drop k).length ≤ 15 + 16 * 1024 := by
            rw [List.length_drop, List.length_append]
            rw [hbuf] at hshort
            omega
          obtain ⟨hq, hafter⟩ := (hquota.classify hroot hctl hget .peerControl).recvControl
            hroomy hctl hj (hsit1.classify hctl _) hrest hl2 hcontrol2 hopen1 hget2 rfl
            (by show st.frames.buf.data.length + _ ≤ _; rw [hframes]; simp only [List.length_nil]; omega)
            (fun hserver _ => hfirst (hcfg ▸ hserver) hnone) hty (List.nil_append _).symm
            (by show Follows [] (!st.headersDone) st.frames.buf.data; rw [hdone, hframes]; exact .start [])
            (fun more hm => by
              have hm : Oversized (st.frames.buf.data ++ more) := hm
              rwa [hframes] at hm) (hfine k hty) fin
          exact ⟨hq, fun hc => (hafter hc).1, fun hc => (hafter hc).2⟩
      · split
        · split
          · exact .of_protocolError hquota hroot _ (by decide)
          · split
            · exact .of_protocolError (hquota.classify hroot hctl hget _) hroot _ (by decide)
            · exact .classify hquota hroot hctl hsit1 hget (by simp) (by simp)
        · split
          · cases hsession : H3.readVarint ((got ++ chunk).drop k) with
            | none =>
                have hlt := H3.readVarint_none hsession
                have hk := H3.readVarint_le hty
                rw [List.length_drop] at hlt
                exact hwaits (by omega)
            | some q =>
                obtain ⟨session, k2⟩ := q
                simp only
                split
                · have hshut := Mild.shutdownRead e1 ctl 0
                  exact .classify (hquota.mild (hquota.ledger.shutdownRead ctl 0) hshut) hroot hctl
                    (hsit1.congr rfl rfl rfl rfl rfl) hget (by simp) (by simp)
                · exact .surfaceStream hquota hroot hctl hsit1 hget _ _ _ _
          · exact .classify hquota hroot hctl hsit1 hget (by simp) (by simp)

end

section

variable [H3.Codec] {base : List ParserMemory} {m ctl j : Nat} {e e' : Endpoint}

omit [H3.Codec] in
/-- A stream that was classified takes no memory while it is read on, the control stream apart. -/
theorem Outcome.quiet {rest got got' : Bytes} (h : Quota base m ctl j 0 e) (hsit : Sitting rest e)
    {st : Stream} (hst : e.streams.get ctl = some st) (htracked : Tracked got st)
    (hpending : st.role ≠ .pendingUni) (hcontrol : st.role ≠ .peerControl)
    (hl : Ledger base m 0 e') (hm : Mild e e') (hrole : e'.closed = false → ∀ st',
      e'.streams.get ctl = some st' → st'.role = st.role) : Outcome base m ctl j rest got' e' := by
  refine .of_mild h hsit hl hm fun hopen st' hst' => ?_
  have hb := (hm.same hopen).buffers ctl
  rw [hst', hst, Option.map_some, Option.map_some, Option.some.injEq] at hb
  have hclass : st'.classBuf = st.classBuf := (Prod.mk.inj hb).2
  have hsame := hrole hopen st' hst'
  exact .of_bare (hsame ▸ hpending) (hsame ▸ hcontrol) (hclass ▸ htracked.resolved hpending)

/-- A chunk of the one unidirectional stream of the peer. -/
theorem Outcome.processRecv {rest got chunk : Bytes} {fin : Bool} (h : Quota base m ctl j 0 e)
    (hroomy : Roomy base m (2 ^ 23)) (hctl : PeerUni e.cfg.isServer ctl) (hj : j ≤ 21)
    (hsit : Sitting rest e) (hrest : ¬Heavy [] rest) (hl : e.Layout) (hopen : e.closed = false)
    (halive : e.Pending ctl → e.Alive ctl) {st : Stream} (hst : e.streams.get ctl = some st)
    (htracked : Tracked got st) (hfits : Fits got false st) (hchunk : chunk.length ≤ 16 * 1024)
    (hx : fin = true → (e.conn.streams ctl).Exhausted) (hread : fin = true → (e.conn.streams ctl).FinRead)
    (hfirst : e.cfg.isServer = true → e.peerSettings = none → j ≤ 20)
    (hfine : ∀ k, H3.readVarint (got ++ chunk) = some (H3.h3ControlStreamType, k) →
      ¬Oversized ((got ++ chunk).drop k)) :
    Outcome base m ctl j rest (got ++ chunk) (e.processRecv ctl chunk fin) := by
  have hne : ctl ≠ connectId := hctl.ne_connectId
  have hrole : e.roleOf ctl = some st.role := by simp [Endpoint.roleOf, hst]
  have hroot := hroomy.rooted
  have hledger := h.ledger.processRecv hopen ctl chunk fin hroot
  have heff := processRecv_effects (hl.readable hopen) halive chunk hx hread
  cases hfits with
  | pending hp hbuf _ hframes hdone _ =>
      have heq : e.processRecv ctl chunk fin = e.resolvePendingUni ctl chunk fin := by
        unfold Endpoint.processRecv
        rw [hst, Option.map_some, hp]
      rw [heq]
      exact .resolvePendingUni h hroomy hne hj hsit hrest hl hopen (halive (.inl (hp ▸ hrole))) hst hp
        htracked hbuf hframes hdone hchunk hfirst hfine
  | control _ hon =>
      have heq : e.processRecv ctl chunk fin = e.recvControl ctl chunk fin := by
        unfold Endpoint.processRecv
        rw [hst, Option.map_some, hon.role]
      obtain ⟨n, hn, hfollows⟩ := hon.behind
      obtain ⟨n', hn', htrail⟩ := htracked.control hon.role
      obtain rfl : n' = n := by
        have hsame := hn'.symm.trans hn
        simpa using hsame
      have hlen := length_of_incomplete hon.drained
      have hk := H3.readVarint_append hn chunk
      have hcontrol : ControlStream ctl e := ⟨hon.role ▸ hrole, hl.idle, hl.connectRole⟩
      -- while the first frame is awaited no SETTINGS were taken
      have hlevel : e.cfg.isServer = true → st.headersDone = false → j ≤ 20 := by
        intro hserver hdone
        refine hfirst hserver ?_
        by_contra hsome
        rcases hl.settled (Option.isSome_iff_ne_none.mpr hsome) with hbad | ⟨i, hi, hd⟩
        · simp [hopen] at hbad
        · rw [hl.control i ctl hi hcontrol.role, Endpoint.headersDone, hst, Option.any_some, hdone] at hd
          cases hd
      obtain ⟨hq, hafter⟩ := h.recvControl hroomy hne hj hsit hrest hl hcontrol hopen hst
        (htracked.resolved (by simp [hon.role])) (by have hmax : maxControlFrame = 2 ^ 20 := rfl; omega)
        hlevel hk (List.drop_append_of_le_length (H3.readVarint_len hn).2) hfollows htrail
        (hfine n' hk) fin
      rw [heq]
      exact ⟨hq, fun hc => (hafter hc).1, fun hc => (hafter hc).2⟩
  | qpack encoder n hq =>
      have hmild : Mild e (e.processRecv ctl chunk fin) := by
        unfold Endpoint.processRecv
        simp only [hst, Option.map_some, hq]
        split
        · exact .protocolError _ _ (by decide)
        · exact .refl e
      refine .quiet h hsit hst htracked (by simp [hq]) (by simp [hq]) hledger hmild fun _ st' hst' => ?_
      exact role_of_roleOf hst' (heff.roleOf hrole (by simp [hq]) fun heq => absurd heq hne)
  | other ty n hp hc hq =>
      have hfitsRole := hl.roles _ _ hrole
      have hmild : Mild e (e.processRecv ctl chunk fin) := by
        unfold Endpoint.processRecv
        simp only [hst, Option.map_some]
        cases hr : st.role with
        | localControlPlane => exact .refl e
        | connect =>
            rw [hr] at hfitsRole
            exact absurd hfitsRole hne
        | peerControl => exact absurd hr hc
        | peerQpack encoder => exact absurd hr (hq encoder)
        | pendingUni => exact absurd hr hp
        | pendingBidi =>
            rw [hr] at hfitsRole
            exact absurd (hctl.2.symm.trans hfitsRole.2.1) (by simp)
        | wtData bidi => exact .recvData e ctl chunk fin
        | ignored =>
            simp only
            split
            · exact .modify e ctl fun _ => rfl
            · exact .refl e
      have hbidi : st.role ≠ .pendingBidi := by
        intro hb
        rw [hb] at hfitsRole
        exact absurd (hctl.2.symm.trans hfitsRole.2.1) (by simp)
      refine .quiet h hsit hst htracked hp hc hledger hmild fun _ st' hst' => ?_
      exact role_of_roleOf hst' (heff.roleOf hrole ⟨hp, hbidi⟩ fun heq => absurd heq hne)

omit [H3.Codec] in
theorem roleOf_surfaceReset (e : Endpoint) (id code i : Nat) :
    (e.surfaceReset id code).roleOf i = e.roleOf i := by
  have hdead := Same.roleOf_setRecvDead e id i
  unfold Endpoint.surfaceReset
  simp only
  split
  · exact hdead
  · exact (roleOf_protocolError _ _ _ i).trans hdead
  · exact (roleOf_protocolError _ _ _ i).trans hdead
  · split
    · exact hdead
    · refine ((Same.markClosed _ _ _ _).roleOf i).trans ?_
      split <;> exact hdead
  · exact hdead

omit [H3.Codec] in
theorem roleOf_recvReset (e : Endpoint) (id code : Nat) (finalSize : Option Nat) (i : Nat) :
    (e.recvReset id code finalSize).roleOf i = e.roleOf i := by
  have hcharged : ∀ amount, (e.accountReceive id amount).1.roleOf i = e.roleOf i := by
    intro amount
    have hcharge := roleOf_chargeStream e id amount i
    unfold Endpoint.accountReceive
    simp only
    split
    · unfold Endpoint.flowError
      split
      · exact hcharge
      · exact ((Same.markClosed _ _ _ _).roleOf i).trans hcharge
    · exact hcharge
  unfold Endpoint.recvReset
  split
  next size st _ =>
    split
    · have hreceived := hcharged (size - st.recvPrefix - st.recvPayload)
      split
      next e1 hx => rwa [hx] at hreceived
      next e1 hx =>
        rw [hx] at hreceived
        exact (roleOf_surfaceReset _ _ _ i).trans hreceived
    · exact roleOf_surfaceReset _ _ _ i
  · exact roleOf_surfaceReset _ _ _ i

omit [H3.Codec] in
theorem Tracked.congr {got : Bytes} {st st' : Stream} (h : Tracked got st) (hrole : st'.role = st.role)
    (hbuffers : st'.buffers = st.buffers) : Tracked got st' := by
  obtain ⟨hframes, hclass⟩ : st'.frames = st.frames ∧ st'.classBuf = st.classBuf := Prod.mk.inj hbuffers
  exact ⟨hrole ▸ hframes ▸ hclass ▸ h.pending, hrole ▸ hclass ▸ h.resolved, hrole ▸ hframes ▸ h.control⟩

omit [H3.Codec] in
/-- A RESET of that stream. -/
theorem Outcome.recvReset {rest got : Bytes} (h : Quota base m ctl j 0 e) (hroot : Rooted base)
    (hsit : Sitting rest e) {st : Stream} (hst : e.streams.get ctl = some st) (htracked : Tracked got st)
    (code : Nat) (finalSize : Option Nat) :
    Outcome base m ctl j rest got (e.recvReset ctl code finalSize) := by
  have hmild := Mild.recvReset e ctl code finalSize
  refine .of_mild h hsit (h.ledger.recvReset _ _ _ hroot) hmild fun hc st' hst' => ?_
  have hb := (hmild.same hc).buffers ctl
  rw [hst', hst, Option.map_some, Option.map_some, Option.some.injEq] at hb
  refine htracked.congr (role_of_roleOf hst' ?_) hb
  rw [roleOf_recvReset, Endpoint.roleOf, hst, Option.map_some]

end

end RWebTransport.Endpoint
