import RWebTransport.Session.Stranding
import RWebTransport.Session.Signals

/-!
# Spending session credit

The session credit that is spent is, between calls, the payload that quiche
accepted on all streams less what was returned for resets.  While a flush is
under way what it sends is counted apart, and a stream it comes to has nothing
in that count yet: what is returned for it was spent by an earlier flush.

The peer's SETTINGS bring the first limit.  What was sent in front of them is
not held back, and is within the limit only if they grant that much.
-/

namespace RWebTransport

/-! ## Payload -/

namespace Trace

/-- The payload that quiche accepted. -/
def accepts : Trace → Option (Nat × Nat)
  | .accepted id n => some (id, n)
  | _ => none

/-- The credit that was returned. -/
def returns : Trace → Option (Nat × Nat)
  | .returned id n => some (id, n)
  | _ => none

/-- The bytes that the application wrote. -/
def offers : Trace → Option (Nat × Nat)
  | .written id data _ => some (id, data.length)
  | _ => none

/-- The record is about payload. -/
def isPayload (t : Trace) : Bool := t.accepts.isSome || t.returns.isSome || t.offers.isSome

end Trace

/-- What one stream has in a list of amounts. -/
def amountOf (l : List (Nat × Nat)) (id : Nat) : Nat :=
  (l.map fun p => if p.1 = id then p.2 else 0).sum

theorem amountOf_append (l m : List (Nat × Nat)) (id : Nat) :
    amountOf (l ++ m) id = amountOf l id + amountOf m id := by simp [amountOf]

theorem amountOf_single (id n i : Nat) : amountOf [(id, n)] i = if i = id then n else 0 := by
  simp [amountOf, eq_comm]

theorem sum_single {ids : List Nat} (h : ids.Nodup) (id n : Nat) :
    (ids.map fun i => if i = id then n else 0).sum = if id ∈ ids then n else 0 := by
  induction ids with
  | nil => rfl
  | cons i ids ih =>
      obtain ⟨hi, hids⟩ := List.nodup_cons.mp h
      rw [List.map_cons, List.sum_cons, ih hids]
      by_cases heq : i = id
      · subst heq
        simp [hi]
      · simp [heq, Ne.symm heq]

/-- The amounts of all streams together. -/
theorem sum_amountOf {ids : List Nat} (h : ids.Nodup) {l : List (Nat × Nat)}
    (hl : ∀ id, id ∉ ids → amountOf l id = 0) : (ids.map (amountOf l)).sum = (l.map Prod.snd).sum := by
  induction l with
  | nil =>
      rw [show amountOf [] = fun _ => 0 from rfl]
      simp
  | cons p l ih =>
      have hcons : ∀ i, amountOf (p :: l) i = (if i = p.1 then p.2 else 0) + amountOf l i :=
        fun i => by simp [amountOf, eq_comm]
      have hsplit : (ids.map (amountOf (p :: l))).sum =
          (ids.map fun i => if i = p.1 then p.2 else 0).sum + (ids.map (amountOf l)).sum := by
        rw [← List.sum_map_add]
        exact congrArg _ (List.map_congr_left fun i _ => hcons i)
      rw [hsplit, sum_single h, ih fun id hid => by have := hl id hid; rw [hcons] at this; omega,
        List.map_cons, List.sum_cons]
      split
      · rfl
      next hmem =>
        have hzero := hl p.1 hmem
        rw [hcons, if_pos rfl] at hzero
        omega

/-- The queued bytes of the application. -/
def Stream.waitingPayload (st : Stream) : Nat :=
  (st.out.map fun c => if c.requestId.isSome then c.data.length - c.off else 0).sum

namespace Endpoint

open Quic (QStream)
open Quic.Connection (Send)

def accepted (e : Endpoint) : List (Nat × Nat) := e.history.filterMap Trace.accepts

def returned (e : Endpoint) : List (Nat × Nat) := e.history.filterMap Trace.returns

/-- The bytes that the application wrote on the stream. -/
def offeredOf (e : Endpoint) (id : Nat) : Nat := amountOf (e.history.filterMap Trace.offers) id

/-- The bytes of the application that are queued on the stream. -/
def waitingOn (e : Endpoint) (id : Nat) : Nat :=
  ((e.streams.get id).map Stream.waitingPayload).getD 0

/-- The payload of the stream that quiche accepted, less what was returned. -/
def spentOn (e : Endpoint) (id : Nat) : Nat := amountOf e.accepted id - amountOf e.returned id

/-! ## The property -/

/-- The session credit that is spent is the payload of the data streams that
quiche accepted, less what was returned, and within the peer's limit. -/
structure Frugal (e : Endpoint) : Prop where
  counted : ∀ ids : List Nat, ids.Nodup → (∀ id, e.Surfaced id → id ∈ ids) →
    e.fcDataSent + (ids.map (amountOf e.returned)).sum = (ids.map (amountOf e.accepted)).sum
  capped : e.usesSessionFlowControl = true → e.fcDataSent ≤ e.fcMaxDataRemote
  /-- Nothing but bytes of the application is counted. -/
  payload : ∀ id, amountOf e.accepted id ≤ e.offeredOf id
  taken : ∀ id, amountOf e.accepted id ≤ (e.conn.streams id).send.data.length

/-- What a step must not do: no refund is more than what is spent, and no limit
of the peer is lowered. -/
structure Thrifty [H3.Codec] (e : Endpoint) (s : Step) : Prop where
  refund : ∀ id, s = .flushStream id ∨ (∃ code, s = .streamReset id code) →
    ∀ st, e.streams.get id = some st → st.sendPayload ≤ e.fcDataSent
  limits : e.usesSessionFlowControl = true → ∀ k, e.limit k ≤ (e.step s).limit k

/-- The SETTINGS of the peer grant what was sent in front of them. -/
def KeepsCredit [H3.Codec] (e : Endpoint) (s : Step) : Prop :=
  e.peerSettings = none → ∀ settings, (e.step s).peerSettings = some settings →
    0 < settings.wtMaxSessions → e.fcDataSent ≤ settings.wtInitialMaxData

/-! ## The count -/

/-- What is spent, while a flush is under way. -/
structure Spent (e : Endpoint) : Prop where
  total : e.fcDataSent + e.wtSent + (e.returned.map Prod.snd).sum = (e.accepted.map Prod.snd).sum
  within : ∀ id, amountOf e.returned id ≤ amountOf e.accepted id
  /-- All streams together have spent no more. -/
  cover : ∀ ids : List Nat, ids.Nodup → (ids.map e.spentOn).sum ≤ e.fcDataSent + e.wtSent
  entry : ∀ id st, e.streams.get id = some st → st.sendPayload ≤ e.spentOn id
  offered : ∀ id, amountOf e.accepted id + e.waitingOn id ≤ e.offeredOf id
  taken : ∀ id, amountOf e.accepted id ≤ (e.conn.streams id).send.data.length

/-- Quiche accepted `n` bytes of payload on the stream `id`. -/
structure Pays (id n : Nat) (e e' : Endpoint) : Prop where
  sent : e'.fcDataSent = e.fcDataSent ∧ e'.wtSent = e.wtSent + n
  accepted : ∀ i, amountOf e'.accepted i = amountOf e.accepted i + if i = id then n else 0
  returned : e'.returned = e.returned
  total : (e'.accepted.map Prod.snd).sum = (e.accepted.map Prod.snd).sum + n
  /-- What is no longer queued was accepted, and what was queued was written. -/
  offered : ∀ i, e'.waitingOn i + (if i = id then n else 0) + e.offeredOf i ≤
    e.waitingOn i + e'.offeredOf i
  data : ∀ i, (e.conn.streams i).send.data.length + (if i = id then n else 0) ≤
    (e'.conn.streams i).send.data.length
  entry : ∀ i st', e'.streams.get i = some st' → st'.sendPayload = 0 ∨
    ∃ st, e.streams.get i = some st ∧ st'.sendPayload ≤ st.sendPayload + if i = id then n else 0

theorem Pays.spentOn {id n : Nat} {e e' : Endpoint} (h : Pays id n e e') (hs : e.Spent) (i : Nat) :
    e'.spentOn i = e.spentOn i + if i = id then n else 0 := by
  have hw := hs.within i
  unfold Endpoint.spentOn
  rw [h.accepted, h.returned]
  split <;> omega

theorem Pays.spent {id n : Nat} {e e' : Endpoint} (h : Pays id n e e') (hs : e.Spent) : e'.Spent where
  total := by
    have ht := hs.total
    rw [h.returned, h.total, h.sent.1, h.sent.2]
    omega
  within i := by
    have hw := hs.within i
    rw [h.returned, h.accepted]
    omega
  cover ids hids := by
    have hc := hs.cover ids hids
    have hsum : (ids.map e'.spentOn).sum =
        (ids.map e.spentOn).sum + (ids.map fun i => if i = id then n else 0).sum := by
      rw [← List.sum_map_add]
      exact congrArg _ (List.map_congr_left fun i _ => h.spentOn hs i)
    rw [hsum, sum_single hids, h.sent.1, h.sent.2]
    split <;> omega
  entry i st' hg := by
    rw [h.spentOn hs]
    rcases h.entry i st' hg with hzero | ⟨st, hst, hpaid⟩
    · omega
    · have := hs.entry i st hst
      omega
  offered i := by
    have ho := hs.offered i
    have hw := h.offered i
    rw [h.accepted]
    omega
  taken i := by
    have ht := hs.taken i
    have hd := h.data i
    rw [h.accepted]
    omega

/-- Nothing was paid. -/
abbrev Unpaid (e e' : Endpoint) : Prop := Pays 0 0 e e'

theorem waitingOn_congr {e e' : Endpoint} {i : Nat} (h : e'.streams.get i = e.streams.get i) :
    e'.waitingOn i = e.waitingOn i := by rw [waitingOn, h]; rfl

/-- Credit was returned for the stream `id`, of what was spent on it. -/
theorem Spent.refund {e : Endpoint} (hs : e.Spent) {id n : Nat} {st : Stream}
    (hst : e.streams.get id = some st) (hn : n ≤ st.sendPayload)
    (hle : st.sendPayload - n ≤ e.fcDataSent) : Spent { e with
      fcDataSent := e.fcDataSent - (st.sendPayload - n)
      streams := e.streams.modify id fun st => { st with sendPayload := n }
      history := e.history ++ [.returned id (st.sendPayload - n)] } := by
  generalize hk : st.sendPayload - n = k at hle ⊢
  have hentry := hs.entry id st hst
  generalize he' : ({ e with
      fcDataSent := e.fcDataSent - k
      streams := e.streams.modify id fun st => { st with sendPayload := n }
      history := e.history ++ [.returned id k] } : Endpoint) = e'
  have hsent : e'.fcDataSent = e.fcDataSent - k ∧ e'.wtSent = e.wtSent := by
    rw [← he']
    exact ⟨rfl, rfl⟩
  have haccepted : e'.accepted = e.accepted := by
    rw [← he']
    simp [Endpoint.accepted, Trace.accepts]
  have hreturned : e'.returned = e.returned ++ [(id, k)] := by
    rw [← he']
    simp [Endpoint.returned, Trace.returns]
  have hoffered : ∀ i, e'.offeredOf i = e.offeredOf i := by
    rw [← he']
    simp [offeredOf, List.filterMap_cons, Trace.offers]
  have hof : ∀ i, amountOf e'.returned i = amountOf e.returned i + if i = id then k else 0 := by
    intro i
    rw [hreturned, amountOf_append, amountOf_single]
  have hspent : ∀ i, e.spentOn i = e'.spentOn i + if i = id then k else 0 := by
    intro i
    have hw := hs.within i
    unfold spentOn at hentry ⊢
    rw [haccepted, hof]
    by_cases hi : i = id
    · subst hi
      simp only [if_pos]
      omega
    · simp [hi]
  have hsum : ∀ ids : List Nat, (ids.map e.spentOn).sum =
      (ids.map e'.spentOn).sum + (ids.map fun i => if i = id then k else 0).sum := by
    intro ids
    rw [← List.sum_map_add]
    exact congrArg _ (List.map_congr_left fun i _ => hspent i)
  refine ⟨?_, fun i => ?_, fun ids hids => ?_, fun i st' hg => ?_, fun i => ?_, fun i => ?_⟩
  · have ht := hs.total
    rw [hreturned, haccepted, hsent.1, hsent.2, List.map_append, List.sum_append]
    simp only [List.map_cons, List.map_nil, List.sum_cons, List.sum_nil]
    omega
  · have hw := hs.within i
    have hi := hspent i
    unfold spentOn at hi
    rw [haccepted, hof] at hi ⊢
    split at hi
    · subst i
      simp_all
      omega
    · simp_all
  · rw [hsent.1, hsent.2]
    have hall := hsum ids
    rw [sum_single hids] at hall
    by_cases hid : id ∈ ids
    · have hc := hs.cover ids hids
      rw [if_pos hid] at hall
      omega
    · have hc := hs.cover (id :: ids) (List.nodup_cons.mpr ⟨hid, hids⟩)
      rw [List.map_cons, List.sum_cons] at hc
      rw [if_neg hid] at hall
      omega
  · have hi := hspent i
    rw [← he'] at hg
    simp only [Table.get_modify] at hg
    split at hg
    next heq =>
      subst heq
      obtain ⟨st0, -, rfl⟩ := Option.map_eq_some_iff.mp hg
      rw [if_pos rfl] at hi
      show n ≤ _
      omega
    next hne =>
      rw [if_neg hne] at hi
      have := hs.entry i st' hg
      omega
  · have ho := hs.offered i
    have hw : e'.waitingOn i = e.waitingOn i := by
      rw [← he']
      unfold waitingOn
      simp only [Table.get_modify]
      split
      · cases e.streams.get i <;> rfl
      · rfl
    rw [haccepted, hoffered, hw]
    exact ho
  · rw [haccepted, ← he']
    exact hs.taken i

namespace Unpaid

theorem trans {a b c : Endpoint} (hab : Unpaid a b) (hbc : Unpaid b c) : Unpaid a c where
  sent := ⟨hbc.sent.1.trans hab.sent.1, hbc.sent.2.trans hab.sent.2⟩
  accepted i := by simp only [hbc.accepted, hab.accepted, ite_self, Nat.add_zero]
  returned := hbc.returned.trans hab.returned
  total := by rw [hbc.total, hab.total]
  offered i := by
    have h1 := hab.offered i
    have h2 := hbc.offered i
    rw [ite_self] at h1 h2 ⊢
    omega
  data i := by
    have h1 := hab.data i
    have h2 := hbc.data i
    rw [ite_self] at h1 h2 ⊢
    omega
  entry i st'' hg := by
    rcases hbc.entry i st'' hg with hzero | ⟨st', hst', hpaid'⟩
    · exact .inl hzero
    · rcases hab.entry i st' hst' with hzero | ⟨st, hst, hpaid⟩
      · rw [ite_self] at hpaid'
        exact .inl (by omega)
      · rw [ite_self] at hpaid hpaid' ⊢
        exact .inr ⟨st, hst, by omega⟩

/-- Nothing was said about payload, and the queues hold no more. -/
theorem of_entries {e e' : Endpoint} (hsent : e'.fcDataSent = e.fcDataSent ∧ e'.wtSent = e.wtSent)
    {m : List Trace} (hhistory : e'.history = e.history ++ m) (hm : ∀ t ∈ m, t.isPayload = false)
    (hdata : ∀ i, (e'.conn.streams i).send.data = (e.conn.streams i).send.data)
    (hentry : ∀ i st', e'.streams.get i = some st' → st'.sendPayload = 0 ∧ st'.waitingPayload = 0 ∨
      ∃ st, e.streams.get i = some st ∧ st'.sendPayload ≤ st.sendPayload ∧
        st'.waitingPayload ≤ st.waitingPayload) : Unpaid e e' := by
  have hnone : m.filterMap Trace.accepts = [] ∧ m.filterMap Trace.returns = [] ∧
      m.filterMap Trace.offers = [] := by
    refine ⟨?_, ?_, ?_⟩ <;> refine List.filterMap_eq_nil_iff.mpr fun t ht => ?_ <;>
      have hp := hm t ht <;> simp [Trace.isPayload] at hp
    · exact hp.1.1
    · exact hp.1.2
    · exact hp.2
  have haccepted : e'.accepted = e.accepted := by
    rw [Endpoint.accepted, hhistory, List.filterMap_append, hnone.1, List.append_nil]
    rfl
  refine ⟨by simpa using hsent, fun i => by rw [haccepted, ite_self, Nat.add_zero], ?_,
    by rw [haccepted, Nat.add_zero], fun i => ?_, fun i => by rw [hdata, ite_self]; omega,
    fun i st' hg => ?_⟩
  · rw [Endpoint.returned, hhistory, List.filterMap_append, hnone.2.1, List.append_nil]
    rfl
  · have hoffered : e'.offeredOf i = e.offeredOf i := by
      rw [offeredOf, hhistory, List.filterMap_append, hnone.2.2, List.append_nil]
      rfl
    have hwaiting : e'.waitingOn i ≤ e.waitingOn i := by
      unfold waitingOn
      cases hg : e'.streams.get i with
      | none => exact Nat.zero_le _
      | some st' =>
          rcases hentry i st' hg with ⟨-, hzero⟩ | ⟨st, hst, -, hwaiting⟩
          · simp [hzero]
          · simpa [hst] using hwaiting
    rw [hoffered, ite_self]
    omega
  · rw [ite_self]
    rcases hentry i st' hg with ⟨hzero, -⟩ | ⟨st, hst, hpaid, -⟩
    · exact .inl hzero
    · exact .inr ⟨st, hst, hpaid⟩

theorem of_eq {e e' : Endpoint} (hsent : e'.fcDataSent = e.fcDataSent ∧ e'.wtSent = e.wtSent)
    (hhistory : e'.history = e.history) (hconn : e'.conn.streams = e.conn.streams)
    (hstreams : e'.streams = e.streams) : Unpaid e e' :=
  of_entries hsent (m := []) (by simp [hhistory]) (by simp) (fun i => by rw [hconn])
    fun i st' hg => .inr ⟨st', hstreams ▸ hg, le_refl _, le_refl _⟩

theorem refl (e : Endpoint) : Unpaid e e := of_eq ⟨rfl, rfl⟩ rfl rfl rfl

theorem conn (e : Endpoint) {c : Quic.Connection}
    (h : ∀ i, (c.streams i).send.data = (e.conn.streams i).send.data) : Unpaid e { e with conn := c } :=
  of_entries ⟨rfl, rfl⟩ (m := []) (List.append_nil _).symm (by simp) h
    fun i st' hg => .inr ⟨st', hg, le_refl _, le_refl _⟩

theorem log (e : Endpoint) {t : Trace} (h : t.isPayload = false) : Unpaid e (e.log t) :=
  of_entries ⟨rfl, rfl⟩ (m := [t]) rfl (by simpa using h) (fun _ => rfl)
    fun i st' hg => .inr ⟨st', hg, le_refl _, le_refl _⟩

theorem emit (e : Endpoint) (v : Ev) : Unpaid e (e.emit v) := of_eq ⟨rfl, rfl⟩ rfl rfl rfl

theorem modify (e : Endpoint) (id : Nat) {f : Stream → Stream}
    (hf : ∀ st, (f st).sendPayload ≤ st.sendPayload ∧ (f st).waitingPayload ≤ st.waitingPayload) :
    Unpaid e (e.modifyStream id f) := by
  refine of_entries ⟨rfl, rfl⟩ (m := []) (List.append_nil _).symm (by simp) (fun _ => rfl)
    fun i st' hg => ?_
  simp only [modifyStream, Table.get_modify] at hg
  split at hg
  next hi =>
    obtain ⟨st, hst, rfl⟩ := Option.map_eq_some_iff.mp hg
    exact .inr ⟨st, hi ▸ hst, hf st⟩
  · exact .inr ⟨st', hg, le_refl _, le_refl _⟩

theorem insert (e : Endpoint) (id : Nat) {st : Stream} (hpaid : st.sendPayload = 0)
    (hwaiting : st.waitingPayload = 0) : Unpaid e (e.insertStream id st) := by
  refine of_entries ⟨rfl, rfl⟩ (m := []) (List.append_nil _).symm (by simp) (fun _ => rfl)
    fun i st' hg => ?_
  simp only [insertStream, Table.get_insert] at hg
  split at hg
  · obtain rfl := Option.some.inj hg
    exact .inl ⟨hpaid, hwaiting⟩
  · exact .inr ⟨st', hg, le_refl _, le_refl _⟩

end Unpaid

/-! ## Steps that pay nothing -/

/-- Bytes of our own are no payload. -/
theorem waitingPayload_own (st : Stream) {st' : Stream} {more : List OutChunk} (hout : st'.out = st.out ++ more)
    (hown : ∀ c ∈ more, c.requestId = none) : st'.waitingPayload = st.waitingPayload := by
  have hzero : (more.map fun c => if c.requestId.isSome then c.data.length - c.off else 0).sum = 0 := by
    refine List.sum_eq_zero fun n hn => ?_
    obtain ⟨c, hc, rfl⟩ := List.mem_map.mp hn
    simp [hown c hc]
  simp [Stream.waitingPayload, hout, hzero]

theorem waitingPayload_withPrefix (role : Role) (bytes : Bytes) (memory : Nat) :
    (Stream.withPrefix role bytes memory).waitingPayload = 0 ∧
      (Stream.withPrefix role bytes memory).sendPayload = 0 := by
  unfold Stream.withPrefix
  cases bytes with
  | nil => exact ⟨rfl, rfl⟩
  | cons b bytes => exact ⟨rfl, rfl⟩

theorem Queued.paid {st st' : Stream} (h : Queued st st') :
    st'.sendPayload = st.sendPayload ∧ st'.waitingPayload = st.waitingPayload := by
  induction h with
  | refl => exact ⟨rfl, rfl⟩
  | @push st' body _ ih =>
      exact ⟨ih.1, (waitingPayload_own st' rfl (by simp)).trans ih.2⟩
  | @finish st' body _ ih =>
      exact ⟨ih.1, (waitingPayload_own st' rfl (by simp)).trans ih.2⟩

theorem Trace.isPayload_of_quiet {t : Trace} (h : t.isQuiet = false) : t.isPayload = false := by
  cases t with
  | written | accepted | returned => cases h
  | _ => rfl

namespace Unpaid

variable {e : Endpoint}

theorem of_aside {e' : Endpoint} (h : Aside e e') : Unpaid e e' := by
  obtain ⟨m, hm, hclose⟩ := h.history
  refine of_entries h.sent hm (fun t ht => by rw [hclose t ht]; rfl) (fun i => by rw [h.conn])
    fun i st' hg => ?_
  by_cases hi : i = connectId
  · subst hi
    obtain ⟨st, hst, hq⟩ := h.connect st' hg
    exact .inr ⟨st, hst, hq.paid.1.le, hq.paid.2.le⟩
  · rw [h.get i hi] at hg
    exact .inr ⟨st', hg, le_refl _, le_refl _⟩

theorem onEstablished (e : Endpoint) : Unpaid e e.onEstablished := by
  have hlocal : ∀ (s : Endpoint) (id : Nat) (bytes : Bytes), Unpaid s (s.insertLocal id bytes) :=
    fun s id bytes => insert s id (waitingPayload_withPrefix _ _ _).2 (waitingPayload_withPrefix _ _ _).1
  unfold Endpoint.onEstablished
  split_ifs
  · exact refl e
  · have h1 : Unpaid e { e with setupSent := true } := of_eq ⟨rfl, rfl⟩ rfl rfl rfl
    have h4 := ((h1.trans (hlocal _ (controlId e.cfg.isServer) H3.controlStreamPrefix)).trans
      (hlocal _ (qpackEncId e.cfg.isServer) (H3.putVarint H3.qpackEncoderStreamType))).trans
      (hlocal _ (qpackDecId e.cfg.isServer) (H3.putVarint H3.qpackDecoderStreamType))
    simp only
    split_ifs
    · exact h4
    · exact h4.trans (of_eq ⟨rfl, rfl⟩ rfl rfl rfl)

theorem touch (e : Endpoint) (id : Nat) : Unpaid e (e.touch id) := by
  unfold Endpoint.touch
  split_ifs
  · exact refl e
  · exact insert e id rfl rfl

theorem allocateStream (e : Endpoint) (bidi : Bool) (requestId : Nat) :
    Unpaid e (e.allocateStream bidi requestId) := by
  have hinsert : ∀ s : Endpoint, Unpaid s ((s.insertStream (e.nextId bidi)
      (.withPrefix (.wtData bidi) (streamSignal bidi) s.parserMemory)).emit
      (.streamOpened requestId (e.nextId bidi))) :=
    fun s => (insert s _ (waitingPayload_withPrefix _ _ _).2 (waitingPayload_withPrefix _ _ _).1).trans
      (emit _ _)
  cases bidi with
  | false =>
      have hnext : Unpaid e { e with nextUni := e.nextUni + 4 } := of_eq ⟨rfl, rfl⟩ rfl rfl rfl
      exact hnext.trans (hinsert _)
  | true =>
      have hnext : Unpaid e { e with nextBidi := e.nextBidi + 4 } := of_eq ⟨rfl, rfl⟩ rfl rfl rfl
      exact hnext.trans (hinsert _)

theorem releasePendingOpens (e : Endpoint) : Unpaid e e.releasePendingOpens :=
  releasePendingOpens_invariant (I := Unpaid e)
    (fun _ _ h => h.trans (of_eq ⟨rfl, rfl⟩ rfl rfl rfl))
    (fun s bidi requestId _ _ _ h => h.trans (allocateStream s bidi requestId)) (refl e)

theorem dropQueue (e : Endpoint) (id : Nat) : Unpaid e (e.dropQueue id) := by
  unfold Endpoint.dropQueue
  split
  · exact refl e
  · refine of_entries ⟨rfl, rfl⟩ rfl (fun t ht => ?_) (fun _ => rfl) fun i st' hg => ?_
    · obtain ⟨r, -, rfl⟩ := List.mem_map.mp ht
      rfl
    · simp only [Table.get_modify] at hg
      split at hg
      next hi =>
        obtain ⟨st, hst, rfl⟩ := Option.map_eq_some_iff.mp hg
        exact .inr ⟨st, hi ▸ hst, le_refl _, Nat.zero_le _⟩
      · exact .inr ⟨st', hg, le_refl _, le_refl _⟩

theorem streamStopSending (e : Endpoint) (id code : Nat) :
    Unpaid e (e.streamStopSending id code) := by
  unfold Endpoint.streamStopSending
  split_ifs
  · have hconn : Unpaid e (e.shutdownRead id (H3.webtransportCodeToHttpCode code)) :=
      conn e fun i => by rw [Quic.Connection.streamShutdownRead_send]
    exact hconn.trans (modify _ id fun _ => ⟨le_refl _, le_refl _⟩)
  · exact refl e

theorem markClosed (e : Endpoint) (code : Nat) (reason : Bytes) (remote : Bool) :
    Unpaid e (e.markClosed code reason remote) := by
  cases hc : e.closed with
  | true =>
      rw [Endpoint.markClosed, if_pos hc]
      exact refl e
  | false =>
      refine of_entries ?_ (m := []) (by simp [(markClosed_flags e code reason remote).2.2.2.2])
        (by simp) (fun i => by rw [markClosed_conn]) fun i st' hg => ?_
      · simp [Endpoint.markClosed, hc]
      · rw [markClosed_streams hc, Table.get_map] at hg
        obtain ⟨st, hst, rfl⟩ := Option.map_eq_some_iff.mp hg
        exact .inr ⟨st, hst, le_refl _, le_refl _⟩

theorem prune (e : Endpoint) : Unpaid e e.prune := by
  refine of_entries ⟨rfl, rfl⟩ (m := []) (List.append_nil _).symm (by simp) (fun _ => rfl)
    fun i st' hg => ?_
  simp only [Endpoint.prune, Table.get_filter, Option.filter_eq_some_iff] at hg
  exact .inr ⟨st', hg.1, le_refl _, le_refl _⟩

end Unpaid

section

variable [H3.Codec] {r : Nat} {e e' : Endpoint}

omit [H3.Codec] in
theorem markClosed_sent (e : Endpoint) (code : Nat) (reason : Bytes) (remote : Bool) :
    (e.markClosed code reason remote).fcDataSent = e.fcDataSent ∧
      (e.markClosed code reason remote).wtSent = e.wtSent := by
  unfold Endpoint.markClosed
  split <;> exact ⟨rfl, rfl⟩

theorem Effect.sent (h : Effect r e e') : e'.fcDataSent = e.fcDataSent ∧ e'.wtSent = e.wtSent := by
  cases h with
  | fail | finish | killFail | resetFail | resetClose => exact markClosed_sent _ _ _ _
  | reject frame | refuse frame =>
      rw [refuse_eq]
      cases frame <;> exact markClosed_sent _ _ _ _
  | credit =>
      unfold setCreditLimit
      split_ifs <;> exact ⟨rfl, rfl⟩
  | _ => exact ⟨rfl, rfl⟩

omit [H3.Codec] in
theorem EntryEffect.paid {st st' : Stream} (h : EntryEffect st st') :
    st'.sendPayload = st.sendPayload ∧ st'.waitingPayload = st.waitingPayload := by
  obtain ⟨more, hout, hown⟩ := h.out
  refine ⟨?_, waitingPayload_own st hout fun c hc => (hown c hc).2⟩
  cases h <;> rfl

/-- Reading pays nothing. -/
theorem Effect.unpaid (h : Effect r e e') : Unpaid e e' := by
  have hentry : ∀ i st', e'.streams.get i = some st' →
      st'.sendPayload = 0 ∧ st'.waitingPayload = 0 ∨ ∃ st, e.streams.get i = some st ∧
        st'.sendPayload ≤ st.sendPayload ∧ st'.waitingPayload ≤ st.waitingPayload := by
    intro i st' hg
    rcases h.entry hg with ⟨st, hst, heff⟩ | ⟨-, -, -, -, frame, rfl⟩
    · exact .inr ⟨st, hst, heff.paid.1.le, heff.paid.2.le⟩
    · exact .inl ⟨(waitingPayload_withPrefix _ _ _).2, (waitingPayload_withPrefix _ _ _).1⟩
  rcases h.silent with ⟨-, m, hhistory, hquiet⟩ | ⟨rfl, -⟩
  · exact .of_entries h.sent hhistory (fun t ht => Trace.isPayload_of_quiet (hquiet t ht))
      (fun i => by rw [h.send]) hentry
  · exact .emit e _

theorem Effects.unpaid (h : Effects r e e') : Unpaid e e' :=
  h.rel (R := Unpaid) .refl .trans fun _ _ heff => heff.unpaid

omit [H3.Codec] in
/-- What is queued by a write was written. -/
theorem Unpaid.streamWrite (e : Endpoint) (id : Nat) (data : Bytes) (requestId : Nat) :
    Unpaid e (e.streamWrite id data requestId) := by
  have hoffered : ∀ i, amountOf ((e.history ++ [Trace.written id data requestId]).filterMap Trace.offers) i =
      e.offeredOf i + if i = id then data.length else 0 := by
    intro i
    rw [List.filterMap_append, amountOf_append, ← amountOf_single]
    rfl
  have haccepted : (e.history ++ [Trace.written id data requestId]).filterMap Trace.accepts =
      e.accepted := by
    rw [List.filterMap_append]
    exact List.append_nil _
  have hreturned : (e.history ++ [Trace.written id data requestId]).filterMap Trace.returns =
      e.returned := by
    rw [List.filterMap_append]
    exact List.append_nil _
  have hwrite : ∀ e' : Endpoint, (e'.fcDataSent = e.fcDataSent ∧ e'.wtSent = e.wtSent) →
      e'.history = e.history ++ [.written id data requestId] → e'.conn = e.conn →
      (∀ i, e'.waitingOn i ≤ e.waitingOn i + if i = id then data.length else 0) →
      (∀ i st', e'.streams.get i = some st' →
        ∃ st, e.streams.get i = some st ∧ st'.sendPayload = st.sendPayload) → Unpaid e e' := by
    intro e' hsent hhistory hconn hwaiting hentry
    have hacc : e'.accepted = e.accepted := by rw [Endpoint.accepted, hhistory, haccepted]
    refine ⟨by simpa using hsent, fun i => by rw [hacc, ite_self, Nat.add_zero],
      by rw [Endpoint.returned, hhistory, hreturned], by rw [hacc, Nat.add_zero], fun i => ?_,
      fun i => by rw [hconn, ite_self]; exact le_refl _, fun i st' hg => ?_⟩
    · have hw := hwaiting i
      have ho : e'.offeredOf i = e.offeredOf i + if i = id then data.length else 0 := by
        rw [offeredOf, hhistory]
        exact hoffered i
      rw [ho, ite_self]
      omega
    · obtain ⟨st, hst, hpaid⟩ := hentry i st' hg
      exact .inr ⟨st, hst, by rw [ite_self]; exact hpaid.le⟩
  unfold Endpoint.streamWrite
  simp only
  split
  · refine hwrite _ ⟨rfl, rfl⟩ rfl rfl (fun i => ?_) fun i st' hg => ?_
    · unfold waitingOn
      simp only [modifyStream, Endpoint.log, Table.get_modify]
      split
      · cases e.streams.get i with
        | none => exact Nat.zero_le _
        | some st => simp [Stream.waitingPayload, Stream.push]
      · exact Nat.le_add_right _ _
    · simp only [modifyStream, Endpoint.log, Table.get_modify] at hg
      split at hg
      next hi =>
        obtain ⟨st, hst, rfl⟩ := Option.map_eq_some_iff.mp hg
        exact ⟨st, hi ▸ hst, rfl⟩
      · exact ⟨st', hg, rfl⟩
  · refine (hwrite (e.log (.written id data requestId)) ⟨rfl, rfl⟩ rfl rfl
      (fun i => Nat.le_add_right _ _) fun i st' hg => ⟨st', hg, rfl⟩).trans ?_
    exact (Unpaid.log _ rfl).trans (.emit _ _)

end

/-! ## The send loop -/

section

variable {e e' : Endpoint} {id : Nat}

theorem Unpaid.send {bytes : Bytes} {fin : Bool} {res : Except Quic.Error Nat} {c : Quic.Connection}
    (habs : ∀ i, (e.conn.streams i).phase = .absent → e.conn.streams i = {})
    (hs : Send e.conn id bytes fin res c) (h : bytes = [] ∨ ∃ err, res = .error err) :
    Unpaid e { e with conn := c } := by
  refine .conn e fun i => ?_
  rcases hs.data habs i with ⟨hdata, -⟩ | ⟨-, n, hn, hdata⟩
  · exact hdata
  · rcases h with rfl | ⟨err, herr⟩
    · simpa using hdata
    · cases herr.symm.trans hn

theorem isPayload_acks (id : Nat) (out : List OutChunk) :
    ∀ t ∈ out.flatMap (ackTrace id), t.isPayload = false := by
  intro t ht
  obtain ⟨c, -, hc⟩ := List.mem_flatMap.mp ht
  obtain ⟨r, rfl⟩ := mem_ackTrace hc
  rfl

/-- A pass of the send loop that takes bytes off the first chunk. -/
theorem Pays.advance (habs : ∀ i, (e.conn.streams i).phase = .absent → e.conn.streams i = {})
    {st : Stream} {front : OutChunk} {rest : List OutChunk} {n amount : Nat} {c : Quic.Connection}
    (hst : e.streams.get id = some st) (hout : st.out = front :: rest)
    (hs : Send e.conn id ((front.data.drop front.off).take amount) false (.ok n) c) :
    Pays id (if isPayload st front then n else 0) e
      (({ e with conn := c } : Endpoint).advance id front rest (isPayload st front) n) := by
  have hle : n ≤ ((front.data.drop front.off).take amount).length := by
    cases hs with
    | sent txCap _ _ _ hacc => exact hacc.le
  rw [List.length_take, List.length_drop] at hle
  have hdata := sent_data habs hs
  have hlen : (c.streams id).send.data.length = (e.conn.streams id).send.data.length + n := by
    rw [hdata, List.length_append, List.length_take, List.length_drop]
    omega
  generalize hm : (if isPayload st front then n else 0) = m
  have hmn : m ≤ n := by
    rw [← hm]
    split <;> omega
  generalize he' : ({ e with conn := c } : Endpoint).advance id front rest (isPayload st front) n = e'
  have hhistory : e'.history = e.history ++ ((if isPayload st front then [.accepted id n] else []) ++
      if decide (front.data.length ≤ front.off + n) then ackTrace id front else []) := by
    rw [← he']
    rfl
  have hacks : ∀ t ∈ (if decide (front.data.length ≤ front.off + n) then ackTrace id front else []),
      t.isPayload = false := by
    intro t ht
    split at ht
    · obtain ⟨r, rfl⟩ := mem_ackTrace ht
      rfl
    · cases ht
  have hnone : ∀ {f : Trace → Option (Nat × Nat)}, (∀ t, t.isPayload = false → f t = none) →
      (if decide (front.data.length ≤ front.off + n) then ackTrace id front else []).filterMap f = [] :=
    fun hf => List.filterMap_eq_nil_iff.mpr fun t ht => hf t (hacks t ht)
  have hfields : ∀ t : Trace, t.isPayload = false →
      t.accepts = none ∧ t.returns = none ∧ t.offers = none := by
    intro t ht
    simpa [Trace.isPayload, and_assoc] using ht
  have haccepted : e'.accepted = e.accepted ++ if isPayload st front then [(id, n)] else [] := by
    rw [Endpoint.accepted, hhistory, List.filterMap_append, List.filterMap_append,
      hnone fun t ht => (hfields t ht).1, List.append_nil]
    split <;> rfl
  have hreturned : e'.returned = e.returned := by
    rw [Endpoint.returned, hhistory, List.filterMap_append, List.filterMap_append,
      hnone fun t ht => (hfields t ht).2.1, List.append_nil]
    split <;> exact List.append_nil _
  have hoffered : ∀ i, e'.offeredOf i = e.offeredOf i := by
    intro i
    rw [offeredOf, hhistory, List.filterMap_append, List.filterMap_append,
      hnone fun t ht => (hfields t ht).2.2, List.append_nil]
    split <;> exact congrArg (amountOf · i) (List.append_nil _)
  have hconn : e'.conn = c := by
    rw [← he']
    rfl
  have hget : e'.streams.get id = some { st with
      sendPayload := if isPayload st front then st.sendPayload + n else st.sendPayload
      out := if decide (front.data.length ≤ front.off + n) then rest
        else { front with off := front.off + n } :: rest } := by
    rw [← he']
    simp only [Endpoint.advance, Table.get_modify_self, hst, Option.map_some]
  have hne : ∀ i, i ≠ id → e'.streams.get i = e.streams.get i := fun i hi => by
    rw [← he']
    exact Table.get_modify_ne hi
  refine ⟨?_, fun i => ?_, hreturned, ?_, fun i => ?_, fun i => ?_, fun i st' hg => ?_⟩
  · rw [← he', ← hm]
    refine ⟨rfl, ?_⟩
    simp only [Endpoint.advance]
    split <;> rfl
  · rw [haccepted, amountOf_append, ← hm]
    split
    · rw [amountOf_single]
    · rw [ite_self]
      rfl
  · rw [haccepted, ← hm]
    split <;> simp
  · rw [hoffered]
    by_cases hi : i = id
    · subst hi
      have hfront : (if front.requestId.isSome then front.data.length - (front.off + n) else 0) + m ≤
          if front.requestId.isSome then front.data.length - front.off else 0 := by
        rw [← hm]
        cases hreq : front.requestId.isSome with
        | false => simp [Endpoint.isPayload, hreq]
        | true =>
            simp only [Endpoint.isPayload, hreq, if_true]
            split <;> omega
      have hwaiting : e'.waitingOn i + m ≤ e.waitingOn i := by
        unfold waitingOn Stream.waitingPayload
        rw [hget, hst, Option.map_some, Option.map_some, Option.getD_some, Option.getD_some, hout]
        cases hdone : decide (front.data.length ≤ front.off + n) with
        | true =>
            have hzero : front.data.length - (front.off + n) = 0 := by
              have := of_decide_eq_true hdone
              omega
            simp only [if_true, List.map_cons, List.sum_cons]
            rw [hzero, ite_self] at hfront
            omega
        | false =>
            simp only [Bool.false_eq_true, if_false, List.map_cons, List.sum_cons]
            omega
      rw [if_pos rfl]
      omega
    · rw [if_neg hi, waitingOn_congr (hne i hi)]
      omega
  · rw [hconn]
    by_cases hi : i = id
    · subst hi
      rw [if_pos rfl, hlen]
      omega
    · rw [if_neg hi, hs.ne hi]
      omega
  · by_cases hi : i = id
    · subst hi
      obtain rfl := Option.some.inj (hget.symm.trans hg)
      refine .inr ⟨st, hst, ?_⟩
      rw [if_pos rfl, ← hm]
      simp only
      split <;> omega
    · rw [hne i hi] at hg
      exact .inr ⟨st', hg, Nat.le_add_right _ _⟩

/-- What quiche accepted of the payload is no more than the peer's limit grants. -/
def Capped (e : Endpoint) : Prop :=
  e.usesSessionFlowControl = true → e.fcDataSent + e.wtSent ≤ e.fcMaxDataRemote

/-- The peer's limit may be raised. -/
theorem Capped.raised (h : e.Capped) (hu : Unpaid e e') (hsettings : e'.peerSettings = e.peerSettings)
    (hlimit : e.fcMaxDataRemote ≤ e'.fcMaxDataRemote) : e'.Capped := by
  intro huses
  have hcap := h (by rwa [WtSession.usesSessionFlowControl, ← hsettings])
  rw [hu.sent.1, hu.sent.2]
  omega

theorem Capped.unpaid (h : e.Capped) (hu : Unpaid e e') (hflow : e'.flow = e.flow) : e'.Capped := by
  obtain ⟨-, hrest⟩ := Prod.mk.inj hflow
  obtain ⟨hlimits, hsettings⟩ := Prod.mk.inj hrest
  exact h.raised hu hsettings (congrFun hlimits .data).ge

theorem Pays.of_unpaid (id : Nat) (h : Unpaid e e') : Pays id 0 e e' where
  sent := h.sent
  accepted i := by simpa using h.accepted i
  returned := h.returned
  total := h.total
  offered i := by simpa using h.offered i
  data i := by simpa using h.data i
  entry i st' hg := by simpa using h.entry i st' hg

/-- A pass of the send loop pays for what is accepted, within the limit. -/
theorem sendStep_pays (hwf : e.conn.WellFormed) (id : Nat) :
    (∃ n, Pays id n e (sendStep id e).1) ∧ (e.Capped → (sendStep id e).1.Capped) ∧
      (sendStep id e).1.conn.WellFormed := by
  have habs : ∀ i, (e.conn.streams i).phase = .absent → e.conn.streams i = {} :=
    fun i => (hwf i).absent
  have hsame : (∃ n, Pays id n e e) ∧ (e.Capped → e.Capped) ∧ e.conn.WellFormed :=
    ⟨⟨0, .of_unpaid id (.refl e)⟩, fun h => h, hwf⟩
  unfold sendStep
  split
  · exact hsame
  next st hst =>
    split
    · exact hsame
    next front rest hout =>
      simp only
      split
      · exact hsame
      next hamount =>
        have hspec := Quic.Connection.streamSend_spec e.conn id
          ((front.data.drop front.off).take (e.sendAmount st front)) false
        split
        next n c heq =>
          rw [heq] at hspec
          refine ⟨⟨_, .advance habs hst hout hspec⟩, fun hcap huses => ?_, hspec.wellFormed hwf⟩
          have hle : n ≤ e.sendAmount st front := by
            cases hspec with
            | sent txCap _ _ _ hacc =>
                have := hacc.le
                rw [List.length_take] at this
                omega
          have hcap : e.fcDataSent + e.wtSent ≤ e.fcMaxDataRemote := hcap huses
          have huses : e.usesSessionFlowControl = true := huses
          show e.fcDataSent + (if isPayload st front then e.wtSent + n else e.wtSent) ≤
            e.fcMaxDataRemote
          unfold sendAmount at hle
          cases hpayload : Endpoint.isPayload st front with
          | true =>
              simp only [huses, hpayload, Bool.and_self, if_true] at hle ⊢
              omega
          | false => simpa using hcap
        next code c heq =>
          rw [heq] at hspec
          have hstop : Unpaid e (({ e with conn := c } : Endpoint).surfaceStop id code st.out) := by
            refine (Unpaid.send habs hspec (.inr ⟨_, rfl⟩)).trans ?_
            refine .of_entries ⟨rfl, rfl⟩ rfl (isPayload_acks id st.out) (fun _ => rfl)
              fun i st' hg => ?_
            simp only [surfaceStop, Table.get_modify] at hg
            split at hg
            next hi =>
              obtain ⟨st0, hst0, rfl⟩ := Option.map_eq_some_iff.mp hg
              exact .inr ⟨st0, hi ▸ hst0, le_refl _, Nat.zero_le _⟩
            · exact .inr ⟨st', hg, le_refl _, le_refl _⟩
          exact ⟨⟨0, .of_unpaid id hstop⟩, fun h => h, hspec.wellFormed hwf⟩
        next err c hne heq =>
          rw [heq] at hspec
          exact ⟨⟨0, .of_unpaid id (.send habs hspec (.inr ⟨_, rfl⟩))⟩, fun h => h, hspec.wellFormed hwf⟩

theorem sendFin_unpaid (hwf : e.conn.WellFormed) (id : Nat) :
    Unpaid e (e.sendFin id) ∧ (e.Capped → (e.sendFin id).Capped) := by
  have habs : ∀ i, (e.conn.streams i).phase = .absent → e.conn.streams i = {} :=
    fun i => (hwf i).absent
  unfold sendFin
  split
  · exact ⟨.refl e, fun h => h⟩
  · split
    · have hspec := Quic.Connection.streamSend_spec e.conn id [] true
      split
      next n c heq =>
        rw [heq] at hspec
        have hmodify : Unpaid { e with conn := c } (({ e with conn := c } : Endpoint).modifyStream id
            fun st => { st with finSent := true }) := .modify _ id fun _ => ⟨le_refl _, le_refl _⟩
        exact ⟨(Unpaid.send habs hspec (.inl rfl)).trans hmodify, fun h => h⟩
      next err c heq =>
        rw [heq] at hspec
        exact ⟨.send habs hspec (.inl rfl), fun h => h⟩
    · exact ⟨.refl e, fun h => h⟩

/-- What the flush under way has sent, it sent on the streams it has visited. -/
def SentOn (visited : List Nat) (e : Endpoint) : Prop := e.wtSent ≤ (visited.map e.spentOn).sum

theorem SentOn.pays {n : Nat} {visited : List Nat} (h : SentOn visited e) (hs : e.Spent)
    (hp : Pays id n e e') (hnodup : visited.Nodup) (hid : id ∈ visited) : SentOn visited e' := by
  unfold SentOn at h ⊢
  have hsum : (visited.map e'.spentOn).sum =
      (visited.map e.spentOn).sum + (visited.map fun i => if i = id then n else 0).sum := by
    rw [← List.sum_map_add]
    exact congrArg _ (List.map_congr_left fun i _ => hp.spentOn hs i)
  rw [hsum, sum_single hnodup, if_pos hid, hp.sent.2]
  omega

/-- A stream that the flush has not come to has spent what it has before. -/
theorem Spent.solvent (hs : e.Spent) {visited : List Nat} (h : SentOn visited e)
    (hnodup : visited.Nodup) (hid : id ∉ visited) {st : Stream} (hst : e.streams.get id = some st) :
    st.sendPayload ≤ e.fcDataSent := by
  have hc := hs.cover (id :: visited) (List.nodup_cons.mpr ⟨hid, hnodup⟩)
  have hentry := hs.entry id st hst
  unfold SentOn at h
  rw [List.map_cons, List.sum_cons] at hc
  omega

/-- What `reconcile_send_final_size` returns was spent by an earlier flush. -/
theorem Spent.reconcile (hs : e.Spent) (id : Nat)
    (hsolvent : ∀ st, e.streams.get id = some st → st.sendPayload ≤ e.fcDataSent) :
    (e.reconcileSendFinalSize id).Spent ∧ (e.Capped → (e.reconcileSendFinalSize id).Capped) ∧
      (e.reconcileSendFinalSize id).wtSent = e.wtSent ∧
      ∀ i, i ≠ id → (e.reconcileSendFinalSize id).spentOn i = e.spentOn i := by
  unfold reconcileSendFinalSize
  split
  next finalSize st hfinal hst =>
    simp only
    split
    next hlt =>
      have hle := hsolvent st hst
      refine ⟨hs.refund hst hlt.2.le (by omega), fun hcap huses => ?_, rfl, fun i hi => ?_⟩
      · have hcap : e.fcDataSent + e.wtSent ≤ e.fcMaxDataRemote := hcap huses
        show e.fcDataSent - _ + e.wtSent ≤ e.fcMaxDataRemote
        omega
      · have hnone : ∀ k, ([.returned id k] : List Trace).filterMap Trace.accepts = [] := fun _ => rfl
        have hone : ∀ k, ([.returned id k] : List Trace).filterMap Trace.returns = [(id, k)] :=
          fun _ => rfl
        unfold spentOn Endpoint.accepted Endpoint.returned
        simp only [List.filterMap_append, amountOf_append, hnone, hone, amountOf_single, if_neg hi,
          Nat.add_zero]
        rfl
    · exact ⟨hs, fun h => h, rfl, fun _ _ => rfl⟩
  · exact ⟨hs, fun h => h, rfl, fun _ _ => rfl⟩

/-- What a flush keeps on its way: what it has sent was sent on the streams it
has visited. -/
structure Flushing (visited : List Nat) (e : Endpoint) : Prop where
  wellFormed : e.conn.WellFormed
  spent : e.Spent
  sentOn : SentOn visited e
  capped : e.Capped

theorem Flushing.pays {n : Nat} {visited : List Nat} (h : Flushing visited e) (hp : Pays id n e e')
    (hnodup : visited.Nodup) (hid : id ∈ visited) (hwf : e'.conn.WellFormed)
    (hcap : e.Capped → e'.Capped) : Flushing visited e' :=
  ⟨hwf, hp.spent h.spent, h.sentOn.pays h.spent hp hnodup hid, hcap h.capped⟩

/-- A flush that comes to a stream for the first time. -/
theorem Flushing.flushStream {visited : List Nat} (h : Flushing visited e) (hnodup : visited.Nodup)
    (hid : id ∉ visited) : Flushing (id :: visited) (e.flushStream id) := by
  have hnodup' : (id :: visited).Nodup := List.nodup_cons.mpr ⟨hid, hnodup⟩
  obtain ⟨hspent, hcapped, hwt, hother⟩ :=
    h.spent.reconcile id fun st hst => h.spent.solvent h.sentOn hnodup hid hst
  have h1 : Flushing (id :: visited) (e.reconcileSendFinalSize id) := by
    refine ⟨by rw [reconcileSendFinalSize_conn]; exact h.wellFormed, hspent, ?_, hcapped h.capped⟩
    have hsame : visited.map (e.reconcileSendFinalSize id).spentOn = visited.map e.spentOn :=
      List.map_congr_left fun i hi => hother i fun heq => hid (heq ▸ hi)
    have hsent := h.sentOn
    unfold SentOn at hsent ⊢
    rw [hwt, List.map_cons, List.sum_cons, hsame]
    omega
  have hstep : ∀ s, Flushing (id :: visited) s → Flushing (id :: visited) (sendStep id s).1 := by
    intro s hs
    obtain ⟨⟨n, hpays⟩, hcap, hwf⟩ := sendStep_pays hs.wellFormed id
    exact hs.pays hpays hnodup' List.mem_cons_self hwf hcap
  unfold Endpoint.flushStream
  simp only
  have h2 := iterate_invariant hstep ((e.reconcileSendFinalSize id).queueLength id + 1) h1
  obtain ⟨hunpaid, hcap⟩ := sendFin_unpaid h2.wellFormed id
  refine h2.pays (.of_unpaid id hunpaid) hnodup' List.mem_cons_self ?_ hcap
  rcases sendFin_sending _ id with heq | hs
  · rw [heq]
    exact h2.wellFormed
  · exact hs.wellFormed h2.wellFormed

/-- A reset between calls, when all that is spent was spent by earlier flushes. -/
theorem Spent.streamReset (hs : e.Spent) (hwt : e.wtSent = 0) (hcap : e.Capped) (id code : Nat) :
    (e.streamReset id code).Spent ∧ (e.streamReset id code).wtSent = 0 ∧
      (e.streamReset id code).Capped := by
  unfold Endpoint.streamReset
  split
  · simp only
    have hlog : Unpaid e { e.log (.streamReset id) with
        conn := e.conn.streamShutdownWrite id (H3.webtransportCodeToHttpCode code) } :=
      (Unpaid.log e rfl).trans
        (.conn _ fun i => Quic.Connection.streamShutdownWrite_data e.conn id _ i)
    have hflow : ({ e.log (.streamReset id) with
        conn := e.conn.streamShutdownWrite id (H3.webtransportCodeToHttpCode code) } : Endpoint).flow =
        e.flow := rfl
    generalize ({ e.log (.streamReset id) with
      conn := e.conn.streamShutdownWrite id (H3.webtransportCodeToHttpCode code) } : Endpoint) = e1
      at hlog hflow ⊢
    have hs1 := hlog.spent hs
    have hwt1 : e1.wtSent = 0 := hlog.sent.2.trans hwt
    have hnothing : SentOn [] e1 := by
      unfold SentOn
      rw [hwt1]
      exact Nat.zero_le _
    obtain ⟨hs2, hcap2, hwt2, -⟩ := hs1.reconcile id fun st hst =>
      hs1.solvent hnothing .nil List.not_mem_nil hst
    generalize e1.reconcileSendFinalSize id = e2 at hs2 hcap2 hwt2 ⊢
    have hdrop : Unpaid e2 ((e2.dropQueue id).modifyStream id fun st => { st with finSent := true }) :=
      (Unpaid.dropQueue e2 id).trans (.modify _ id fun _ => ⟨le_refl _, le_refl _⟩)
    exact ⟨hdrop.spent hs2, hdrop.sent.2.trans (hwt2.trans hwt1),
      (hcap2 (hcap.unpaid hlog hflow)).unpaid hdrop (flow_dropQueue e2 id)⟩
  · exact ⟨hs, hwt, hcap⟩

end


/-! ## Whole steps -/

section

variable [H3.Codec] {r : Nat} {e e' : Endpoint}

/-- The limit is no less than the SETTINGS granted. -/
def Seeded (e : Endpoint) : Prop :=
  ∀ s, e.peerSettings = some s → s.wtInitialMaxData ≤ e.fcMaxDataRemote

theorem Effect.seeded (h : Effect r e e') (hl : e.Layout) (hs : e.Seeded) : e'.Seeded := by
  intro s hsettings
  rcases (h.limits hl).2 with ⟨hkept, hlimits⟩ | ⟨-, s', hset, hlimit⟩
  · exact (hs s (hkept.symm.trans hsettings)).trans (hlimits .data)
  · obtain rfl := Option.some.inj (hset.symm.trans hsettings)
    exact hlimit.ge

omit [H3.Codec] in
theorem Seeded.flow (hs : e.Seeded) (hflow : e'.flow = e.flow) : e'.Seeded := by
  obtain ⟨-, hrest⟩ := Prod.mk.inj hflow
  obtain ⟨hlimits, hsettings⟩ := Prod.mk.inj hrest
  intro s hset
  exact (hs s (hsettings.symm.trans hset)).trans (congrFun hlimits .data).ge

theorem step_seeded (hl : e.Layout) (hseeded : e.Seeded) {s : Step} (hs : e.StepAdmissible s) :
    (e.step s).Seeded := by
  cases s with
  | read id backpressured =>
      show (readStep id backpressured e).1.Seeded
      rcases readStep_effects (hl.readable hs) hl.wellFormed (hl.alive_of_readable hs id) backpressured
        with heq | ⟨cap, heff⟩
      · rw [heq]
        exact hseeded
      · have hspec := Quic.Connection.streamRecv_spec e.conn id cap
        have hl0 : Layout { e with conn := (e.conn.streamRecv id cap).2 } :=
          hl.same (.conn e hspec.isServer hspec.wellFormed hspec.phase fun hwf _ => hspec.exhausted hwf)
        exact (heff.invariant (I := fun s => s.Layout ∧ s.Seeded)
          (fun _ _ h hI => ⟨h.layout hI.1, h.seeded hI.1 hI.2⟩) ⟨hl0, hseeded⟩).2
  | signalFlowControlBlocked =>
      have h := Aside.signalFlowControlBlocked e
      intro settings hset
      exact (hseeded settings (h.peerSettings.symm.trans hset)).trans h.limits.1.ge
  | _ => exact hseeded.flow (step_flow e (by simp) (by simp))

/-- The limits of the peer are never lowered once its SETTINGS are there. -/
theorem step_limits (hl : e.Layout) (hg : e.Gated) {s : Step} (hs : e.StepAdmissible s) :
    ((e.step s).peerSettings = e.peerSettings ∧ ∀ k, e.limit k ≤ (e.step s).limit k) ∨
      e.peerSettings = none := by
  by_cases hsignal : s = .signalFlowControlBlocked
  · subst hsignal
    have h := Aside.signalFlowControlBlocked e
    refine .inl ⟨h.peerSettings, fun k => ?_⟩
    rcases k with _ | _ | _
    · exact h.limits.1.ge
    · exact h.limits.2.2.ge
    · exact h.limits.2.1.ge
  · exact (step_steady hl hg hs hsignal).limits

/-- The step may send, return or book payload. -/
def Step.spends : Step → Bool
  | .streamReset _ _ | .flushStream _ | .commitSent => true
  | _ => false

/-- Every other step pays nothing. -/
theorem step_unpaid (hl : e.Layout) {s : Step} (hs : e.StepAdmissible s) (hspends : Step.spends s = false) :
    Unpaid e (e.step s) := by
  cases s with
  | streamReset | flushStream | commitSent => cases hspends
  | read id backpressured =>
      show Unpaid e (readStep id backpressured e).1
      rcases readStep_effects (hl.readable hs) hl.wellFormed (hl.alive_of_readable hs id) backpressured
        with heq | ⟨cap, heff⟩
      · rw [heq]
        exact .refl e
      · have hspec := Quic.Connection.streamRecv_spec e.conn id cap
        exact (Unpaid.conn e fun i => by rw [hspec.send]).trans heff.unpaid
  | onEstablished => exact .onEstablished e
  | touch id => exact .touch e id
  | onDatagrams => exact .of_aside (.onDatagrams e)
  | sendDatagram data requestId => exact .of_aside (.sendDatagram e data requestId)
  | openStream bidi requestId =>
      have hpending : Unpaid e { e with pendingOpens := e.pendingOpens ++ [(bidi, requestId)] } :=
        .of_eq ⟨rfl, rfl⟩ rfl rfl rfl
      exact hpending.trans (.releasePendingOpens _)
  | streamWrite id data requestId => exact .streamWrite e id data requestId
  | streamFin id | setPaused id => exact .modify e id fun _ => ⟨le_refl _, le_refl _⟩
  | streamStopSending id code => exact .streamStopSending e id code
  | close code reason => exact .of_aside (.close e code reason)
  | sendDrain => exact .of_aside (.sendDrain e)
  | takeTerminalError => exact .of_aside (.takeTerminalError e)
  | grantCredit => exact .of_aside (.grantCredit e)
  | replenish => exact .of_aside (.replenish e)
  | queueClose => exact .of_aside (.queueClose e)
  | releasePendingOpens => exact .releasePendingOpens e
  | signalFlowControlBlocked => exact .of_aside (.signalFlowControlBlocked e)
  | prune => exact .prune e
  | gracefulClose => exact .of_aside (.gracefulClose e)
  | markClosed code reason remote => exact .markClosed e code reason remote
  | network event => exact .conn e (Quic.Connection.net_data (fun i => (hl.wellFormed i).absent) event)

/-! ## Runs -/

/-- What was written was written on a stream that the application knows. -/
def Addressed (e : Endpoint) : Prop := ∀ id data r, .written id data r ∈ e.history → e.Surfaced id

/-- Between calls, all that was sent is booked. -/
structure Banked (e : Endpoint) : Prop where
  layout : e.Layout
  gated : e.Gated
  addressed : e.Addressed
  seeded : e.Seeded
  spent : e.Spent
  capped : e.Capped
  booked : e.wtSent = 0

theorem step_addressed (hl : e.Layout) (ha : e.Addressed) {s : Step} (hs : e.StepAdmissible s) :
    (e.step s).Addressed := by
  obtain ⟨hev, hwritten⟩ := step_records hl hs
  have hkept : ∀ {id}, e.Surfaced id → (e.step s).Surfaced id :=
    fun h => h.imp (fun ⟨r, hr⟩ => ⟨r, hev _ hr⟩) fun ⟨bidi, hbidi⟩ => ⟨bidi, hev _ hbidi⟩
  intro id data r hr
  rcases hwritten id data r hr with hr | rfl
  · exact hkept (ha id data r hr)
  · exact hkept (Writable.surfaced hs)

theorem Banked.flushing (h : e.Banked) : Flushing [] e :=
  ⟨h.layout.wellFormed, h.spent, by rw [SentOn, h.booked]; exact Nat.zero_le _, h.capped⟩

omit [H3.Codec] in
/-- The end of a flush. -/
theorem Flushing.commit {visited : List Nat} (h : Flushing visited e) :
    e.commitSent.Spent ∧ e.commitSent.Capped ∧ e.commitSent.wtSent = 0 := by
  refine ⟨⟨h.spent.total, h.spent.within, h.spent.cover, h.spent.entry, h.spent.offered,
    h.spent.taken⟩, h.capped, rfl⟩

/-- A step outside the send loop. -/
theorem Banked.step (h : e.Banked) {s : Step} (hs : e.StepAdmissible s) (hk : e.KeepsCredit s)
    (hflush : ∀ id, s ≠ .flushStream id) : (e.step s).Banked ∧ e.Thrifty s := by
  have hlimits := step_limits h.layout h.gated hs
  have hseeded := step_seeded h.layout h.seeded hs
  have hthrifty : e.Thrifty s := by
    refine ⟨fun id _ st hst => h.spent.solvent h.flushing.sentOn .nil List.not_mem_nil hst,
      fun huses => ?_⟩
    rcases hlimits with ⟨-, hle⟩ | hnone
    · exact hle
    · simp [WtSession.usesSessionFlowControl, hnone] at huses
  have hcredit : (e.step s).Spent ∧ (e.step s).Capped ∧ (e.step s).wtSent = 0 := by
    cases hspends : Step.spends s with
    | true =>
        cases s with
        | flushStream id => exact absurd rfl (hflush id)
        | streamReset id code =>
            obtain ⟨hspent, hbooked, hcapped⟩ := h.spent.streamReset h.booked h.capped id code
            exact ⟨hspent, hcapped, hbooked⟩
        | commitSent => exact h.flushing.commit
        | _ => cases hspends
    | false =>
        have hunpaid := step_unpaid h.layout hs hspends
        refine ⟨hunpaid.spent h.spent, ?_, hunpaid.sent.2.trans h.booked⟩
        rcases hlimits with ⟨hsettings, hle⟩ | hnone
        · exact h.capped.raised hunpaid hsettings (hle .data)
        · intro huses
          obtain ⟨settings, hset, hpos⟩ : ∃ settings, (e.step s).peerSettings = some settings ∧
              0 < settings.wtMaxSessions := by
            simpa [WtSession.usesSessionFlowControl, Option.any_eq_true] using huses
          have hgranted := hk hnone settings hset hpos
          have hlimit := hseeded settings hset
          rw [hunpaid.sent.1, hunpaid.sent.2, h.booked]
          omega
  exact ⟨⟨h.layout.step hs, gated_whole.step h.layout hs h.gated, step_addressed h.layout h.addressed hs,
    hseeded, hcredit.1, hcredit.2.1, hcredit.2.2⟩, hthrifty⟩

omit [H3.Codec] in
theorem mem_of_amountOf (l : List (Nat × Nat)) (id : Nat) (h : amountOf l id ≠ 0) : ∃ n, (id, n) ∈ l := by
  by_contra hnone
  refine h (List.sum_eq_zero fun n hn => ?_)
  obtain ⟨⟨i, k⟩, hmem, rfl⟩ := List.mem_map.mp hn
  have hi : i ≠ id := by
    rintro rfl
    exact hnone ⟨k, hmem⟩
  simp [hi]

/-- Payload was accepted only on streams that the application knows. -/
theorem Banked.surfaced (h : e.Banked) {id : Nat} (hpaid : amountOf e.accepted id ≠ 0) : e.Surfaced id := by
  have hoffered := h.spent.offered id
  obtain ⟨n, hn⟩ := mem_of_amountOf (e.history.filterMap Trace.offers) id
    (by unfold offeredOf at hoffered; omega)
  obtain ⟨t, ht, htn⟩ := List.mem_filterMap.mp hn
  cases t with
  | written i data r =>
      obtain ⟨rfl, -⟩ := Prod.mk.inj (Option.some.inj htn)
      exact h.addressed i data r ht
  | _ => cases htn

theorem Banked.frugal (h : e.Banked) : e.Frugal where
  counted ids hids hall := by
    have hnone : ∀ id, id ∉ ids → amountOf e.accepted id = 0 := fun id hid => by
      by_contra hne
      exact hid (hall id (h.surfaced hne))
    have htotal := h.spent.total
    rw [h.booked, Nat.add_zero] at htotal
    rw [sum_amountOf hids hnone, sum_amountOf hids fun id hid => ?_]
    · exact htotal
    · have hwithin := h.spent.within id
      rw [hnone id hid] at hwithin
      omega
  capped huses := by
    have hcap := h.capped huses
    rwa [h.booked, Nat.add_zero] at hcap
  payload id := (Nat.le_add_right _ _).trans (h.spent.offered id)
  taken := h.spent.taken

/-- The send loop of a flush, which visits each stream once. -/
theorem Flushing.streams : ∀ (ids visited : List Nat) {e : Endpoint}, (ids ++ visited).Nodup →
    Flushing visited e → e.Layout → e.Gated → e.Addressed → e.Seeded →
    Along Endpoint.step Thrifty e (ids.map .flushStream) ∧
      (∃ visited', Flushing visited' (execute Endpoint.step e (ids.map .flushStream))) ∧
      (execute Endpoint.step e (ids.map .flushStream)).Layout ∧
      (execute Endpoint.step e (ids.map .flushStream)).Gated ∧
      (execute Endpoint.step e (ids.map .flushStream)).Addressed ∧
      (execute Endpoint.step e (ids.map .flushStream)).Seeded
  | [], visited, e, _, h, hl, hg, ha, hs => ⟨trivial, ⟨visited, h⟩, hl, hg, ha, hs⟩
  | id :: ids, visited, e, hnodup, h, hl, hg, ha, hs => by
      obtain ⟨hid, hrest⟩ := List.nodup_cons.mp hnodup
      have hvisited : id ∉ visited := fun hmem => hid (List.mem_append_right _ hmem)
      have hnext : (ids ++ id :: visited).Nodup := List.nodup_middle.mpr hnodup
      have hthrifty : e.Thrifty (.flushStream id) := by
        refine ⟨?_, fun _ k => ?_⟩
        · rintro i (heq | ⟨code, heq⟩) st hst
          · obtain rfl := Step.flushStream.inj heq
            exact h.spent.solvent h.sentOn (hrest.of_append_right) hvisited hst
          · cases heq
        · exact (congrFun (Prod.mk.inj (Prod.mk.inj (flow_flushStream e id)).2).1 k).ge
      obtain ⟨halong, hI⟩ := Flushing.streams ids (id :: visited) (e := e.flushStream id) hnext
        (h.flushStream hrest.of_append_right hvisited) (hl.step (s := .flushStream id) trivial)
        (gated_whole.step hl (s := .flushStream id) trivial hg)
        (step_addressed hl ha (s := .flushStream id) trivial) (hs.flow (flow_flushStream e id))
      exact ⟨⟨hthrifty, halong⟩, hI⟩

/-- Steps outside the send loop. -/
theorem Banked.steps {l : List Step} (hl : ∀ s ∈ l, ∀ id, s ≠ .flushStream id) (h : e.Banked)
    (hrun : Along Endpoint.step (fun e s => e.StepAdmissible s ∧ e.KeepsCredit s) e l) :
    (execute Endpoint.step e l).Banked ∧ Along Endpoint.step Thrifty e l := by
  have hrun := along_and hrun (along_of_forall (P := fun _ s => ∀ id, s ≠ .flushStream id)
    fun s hs _ => hl s hs)
  exact ⟨execute_invariant (fun _ _ hI hs => (hI.step hs.1.1 hs.1.2 hs.2).1) h hrun,
    along_imp (fun _ _ hI hs => (hI.step hs.1.1 hs.1.2 hs.2).symm) h hrun⟩

/-- A call keeps the books, and takes no step that it must not take. -/
theorem Banked.call (h : e.Banked) {c : Call} (hc : e.Meets KeepsCredit c) :
    (e.call c).Banked ∧ Along Endpoint.step Thrifty e (e.steps c) := by
  have hrun := along_and (steps_admissible hc.1) hc.2
  rw [call_eq]
  have hplain : ∀ {l : List Step}, (∀ s ∈ l, ∀ id, s ≠ .flushStream id) → e.steps c = l →
      (execute Endpoint.step e (e.steps c)).Banked ∧ Along Endpoint.step Thrifty e (e.steps c) := by
    rintro l hl rfl
    exact h.steps hl hrun
  cases c with
  | flush order =>
      simp only [Endpoint.steps] at hrun ⊢
      obtain ⟨hhead, hrest⟩ := along_append.mp hrun
      obtain ⟨hloop, htail⟩ := along_append.mp hrest
      obtain ⟨hb, hthead⟩ := h.steps (by simp [flushHead]) hhead
      have hperm := order.perm (execute Endpoint.step e flushHead).streams.keys
      obtain ⟨htloop, ⟨visited, hflushing⟩, hl, hg, ha, hs⟩ := Flushing.streams (flushIds order e) []
        (by rw [List.append_nil]; exact hperm.nodup_iff.mpr
              (execute Endpoint.step e flushHead).streams.nodup)
        hb.flushing hb.layout hb.gated hb.addressed hb.seeded
      rw [execute_append, execute_append, along_append, along_append]
      obtain ⟨hcommit, hbehind⟩ := htail
      obtain ⟨hspent, hcapped, hbooked⟩ := hflushing.commit
      have hb1 : (Endpoint.commitSent _).Banked :=
        ⟨hl.step hcommit.1, gated_whole.step hl hcommit.1 hg, step_addressed hl ha hcommit.1,
          step_seeded hl hs hcommit.1, hspent, hcapped, hbooked⟩
      obtain ⟨hb2, httail⟩ := hb1.steps (l := [.signalFlowControlBlocked, .prune, .gracefulClose])
        (by simp) hbehind
      have htcommit : ∀ s : Endpoint, s.Thrifty .commitSent := fun s => ⟨by simp, fun _ _ => le_refl _⟩
      exact ⟨hb2, hthead, htloop, htcommit _, httail⟩
  | onReadable id backpressured =>
      refine hplain (l := e.steps (.onReadable id backpressured)) (fun s hs => ?_) rfl
      simp only [Endpoint.steps] at hs
      split at hs
      · cases hs
      · rcases List.mem_cons.mp hs with rfl | hs
        · simp
        · split at hs
          · simp [mem_reads hs]
          · cases hs
  | _ => exact hplain (by simp [Endpoint.steps]) rfl

theorem Start.banked (h : Start e) : e.Banked := by
  have hempty : e.peerSettings = none ∧ e.fcDataSent = 0 ∧ e.wtSent = 0 ∧ e.streams = .empty ∧
      e.history = [] := by
    cases h <;> exact ⟨rfl, rfl, rfl, rfl, rfl⟩
  obtain ⟨hsettings, hsent, hbooked, hstreams, hhistory⟩ := hempty
  have hget : ∀ i, e.streams.get i = none := fun i => by rw [hstreams]; rfl
  have hnone : e.accepted = [] ∧ e.returned = [] := by
    rw [Endpoint.accepted, Endpoint.returned, hhistory]
    exact ⟨rfl, rfl⟩
  have huses : e.usesSessionFlowControl = false := by
    rw [WtSession.usesSessionFlowControl, hsettings]
    rfl
  have hspent : e.Spent := by
    refine ⟨by rw [hsent, hbooked, hnone.1, hnone.2]; rfl, fun i => by rw [hnone.1, hnone.2],
      fun ids _ => ?_, fun i st hst => ?_, fun i => ?_, fun i => ?_⟩
    · refine le_of_eq_of_le (List.sum_eq_zero fun n hn => ?_) (Nat.zero_le _)
      obtain ⟨i, -, rfl⟩ := List.mem_map.mp hn
      rw [spentOn, hnone.1]
      exact Nat.zero_sub _
    · cases (hget i).symm.trans hst
    · rw [hnone.1, waitingOn, hget]
      exact Nat.zero_le _
    · rw [hnone.1]
      exact Nat.zero_le _
  refine ⟨h.layout, h.gated, fun id data r hr => ?_, fun s hs => ?_, hspent, fun hu => ?_, hbooked⟩
  · rw [hhistory] at hr
    cases hr
  · cases hsettings.symm.trans hs
  · cases huses.symm.trans hu

/-- Along a run in which the SETTINGS of the peer grant what was sent in front
of them, the session credit that is spent is the payload that quiche accepted
less what was returned, within the peer's limit, after every call; no refund is
cut off, and no limit lowered, in any step. -/
theorem credit_kept (hstart : Start e) {calls : List Call}
    (hrun : Along Endpoint.call (Meets KeepsCredit) e calls) :
    Along Endpoint.call (fun e c => (e.call c).Frugal ∧ Along Endpoint.step Thrifty e (e.steps c)) e
      calls :=
  along_imp (I := Banked) (fun _ _ hI hc => ⟨⟨(hI.call hc).1.frugal, (hI.call hc).2⟩, (hI.call hc).1⟩)
    hstart.banked hrun

end

/-! ## Concrete runs -/

instance [H3.Codec] (e : Endpoint) (s : Step) : Decidable (e.KeepsCredit s) :=
  inferInstanceAs (Decidable (e.peerSettings = none → ∀ settings ∈ (e.step s).peerSettings,
    0 < settings.wtMaxSessions → e.fcDataSent ≤ settings.wtInitialMaxData))

instance [H3.Codec] (e : Endpoint) (c : Call) : Decidable (e.Meets KeepsCredit c) :=
  inferInstanceAs (Decidable (_ ∧ _))

/-- SETTINGS that enable session flow control and grant four bytes on one stream. -/
def grantingControl : Bytes :=
  H3.putVarint H3.h3ControlStreamType ++ H3.frame H3.frameSettings
    (H3.putVarint H3.settingsEnableConnectProtocol ++ H3.putVarint 1 ++
      H3.putVarint H3.settingsH3Datagram ++ H3.putVarint 1 ++
      H3.putVarint H3.settingsEnableWebtransport ++ H3.putVarint 1 ++
      H3.putVarint H3.settingsWtMaxSessions ++ H3.putVarint 1 ++
      H3.putVarint H3.settingsWtInitialMaxData ++ H3.putVarint 4 ++
      H3.putVarint H3.settingsWtInitialMaxStreamsBidi ++ H3.putVarint 1)

/-- More is written than is granted, and the stream is reset. -/
def grantedRun : List Call :=
  [.onEstablished, .network (.data 2 grantingControl), .onReadable 2 false,
    .network (.data 0 sampleRequest), .onReadable 0 false, .openStream true 1, flushOnce,
    .streamWrite 1 [1, 2, 3, 4, 5] 2, flushOnce, .streamReset 1 0]

theorem grantedRun_keeps :
    letI := H3.Codec.plain
    Along Endpoint.call (Meets KeepsCredit) sampleServer grantedRun := by
  decide +kernel

theorem credit_kept_sample :
    letI := H3.Codec.plain
    Along Endpoint.call (fun e c => (e.call c).Frugal ∧ Along Endpoint.step Thrifty e (e.steps c))
      sampleServer grantedRun :=
  letI := H3.Codec.plain
  credit_kept sampleServer_start grantedRun_keeps

end Endpoint

end RWebTransport
