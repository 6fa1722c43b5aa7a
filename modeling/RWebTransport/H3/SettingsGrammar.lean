import RWebTransport.H3.Settings

/-!
# The grammar of SETTINGS

What a varint is, independently of the code that reads it, and which payloads
`parseSettings` takes: the concatenations of complete pairs of varints whose
identifiers are pairwise distinct as numbers, with values in range.  The result
is read off these pairs by their identifiers.
-/

namespace RWebTransport.H3

/-! ## Varints -/

/-- The number some bytes spell, most significant byte first. -/
def bigEndian (bytes : Bytes) : Nat := bytes.foldl (fun v b => v * 256 + b.toNat) 0

/-- `enc` is an encoding of `v`, not necessarily the shortest one: of 1, 2, 4 or
8 bytes, with the logarithm of the length in the top two bits. -/
def IsVarint (enc : Bytes) (v : Nat) : Prop :=
  ∃ k < 4, enc.length = 2 ^ k ∧ v < 2 ^ (8 * 2 ^ k - 2) ∧
    bigEndian enc = k * 2 ^ (8 * 2 ^ k - 2) + v

theorem foldl_bigEndian (bytes : Bytes) (a b : Nat) :
    bytes.foldl (fun v b => v * 256 + b.toNat) (a + b) =
      a * 256 ^ bytes.length + bytes.foldl (fun v b => v * 256 + b.toNat) b := by
  induction bytes generalizing a b with
  | nil => simp
  | cons x bytes ih =>
      have hsplit : (a + b) * 256 + x.toNat = a * 256 + (b * 256 + x.toNat) := by ring
      rw [List.foldl_cons, List.foldl_cons, hsplit, ih, List.length_cons, pow_succ]
      ring

theorem bigEndian_cons (x : UInt8) (bytes : Bytes) :
    bigEndian (x :: bytes) = x.toNat * 256 ^ bytes.length + bigEndian bytes := by
  have h := foldl_bigEndian bytes x.toNat 0
  simpa [bigEndian] using h

theorem bigEndian_lt (bytes : Bytes) : bigEndian bytes < 256 ^ bytes.length := by
  induction bytes with
  | nil => simp [bigEndian]
  | cons x bytes ih =>
      have hx : x.toNat < 256 := x.toNat_lt
      rw [bigEndian_cons, List.length_cons, pow_succ]
      calc x.toNat * 256 ^ bytes.length + bigEndian bytes
          < (x.toNat + 1) * 256 ^ bytes.length := by rw [Nat.succ_mul]; omega
        _ ≤ 256 ^ bytes.length * 256 := by rw [Nat.mul_comm]; exact Nat.mul_le_mul_left _ hx

/-- The weight of the first byte of `2 ^ k` bytes, times sixty-four. -/
theorem tag_weight (k : Nat) : 64 * 256 ^ (2 ^ k - 1) = 2 ^ (8 * 2 ^ k - 2) := by
  have hpos : 0 < 2 ^ k := by positivity
  have hexp : 8 * 2 ^ k - 2 = 6 + 8 * (2 ^ k - 1) := by omega
  rw [hexp, pow_add, pow_mul]
  norm_num

/-- A varint, by its first byte. -/
theorem isVarint_cons {first : UInt8} {tail : Bytes} {v : Nat} : IsVarint (first :: tail) v ↔
    tail.length + 1 = 2 ^ (first.toNat / 64) ∧
      v = tail.foldl (fun v b => v * 256 + b.toNat) (first.toNat % 64) := by
  have htail : tail.foldl (fun v b => v * 256 + b.toNat) (first.toNat % 64) =
      first.toNat % 64 * 256 ^ tail.length + bigEndian tail :=
    foldl_bigEndian tail (first.toNat % 64) 0
  have hbound : first.toNat % 64 * 256 ^ tail.length + bigEndian tail < 64 * 256 ^ tail.length := by
    have hlt := bigEndian_lt tail
    have hmod : first.toNat % 64 + 1 ≤ 64 := Nat.mod_lt _ (by norm_num)
    have hle := Nat.mul_le_mul_right (256 ^ tail.length) hmod
    rw [Nat.succ_mul] at hle
    omega
  -- the first byte holds the tag and the six most significant bits
  have hwhole : bigEndian (first :: tail) = first.toNat / 64 * (64 * 256 ^ tail.length) +
      (first.toNat % 64 * 256 ^ tail.length + bigEndian tail) := by
    have hsplit : first.toNat = first.toNat / 64 * 64 + first.toNat % 64 :=
      (Nat.div_add_mod' first.toNat 64).symm
    rw [bigEndian_cons]
    nth_rewrite 1 [hsplit]
    ring
  have hpos : 0 < 64 * 256 ^ tail.length := by positivity
  rw [htail]
  constructor
  · rintro ⟨k, -, hlen, hv, hbig⟩
    rw [List.length_cons] at hlen
    rw [← tag_weight, ← hlen, Nat.add_sub_cancel] at hv hbig
    rw [hwhole] at hbig
    have hk : first.toNat / 64 = k := by
      have hblock : ∀ q r : Nat, r < 64 * 256 ^ tail.length →
          (q * (64 * 256 ^ tail.length) + r) / (64 * 256 ^ tail.length) = q := by
        intro q r hr
        rw [Nat.add_comm, Nat.add_mul_div_right _ _ hpos, Nat.div_eq_of_lt hr, Nat.zero_add]
      exact (hblock _ _ hbound).symm.trans ((congrArg (· / _) hbig).trans (hblock _ _ hv))
    subst hk
    exact ⟨hlen, (Nat.add_left_cancel hbig).symm⟩
  · rintro ⟨hlen, rfl⟩
    have hfirst : first.toNat < 256 := first.toNat_lt
    refine ⟨first.toNat / 64, by omega, by rw [List.length_cons, hlen], ?_, ?_⟩
    · rwa [← tag_weight, ← hlen, Nat.add_sub_cancel]
    · rw [hwhole, ← tag_weight, ← hlen, Nat.add_sub_cancel]

theorem IsVarint.length_pos {enc : Bytes} {v : Nat} (h : IsVarint enc v) : 0 < enc.length := by
  obtain ⟨k, -, hlen, -⟩ := h
  rw [hlen]
  positivity

/-- Reading takes a varint off the front, and nothing else. -/
theorem readVarint_eq_some_iff {b : Bytes} {v n : Nat} : readVarint b = some (v, n) ↔
    ∃ enc rest, b = enc ++ rest ∧ enc.length = n ∧ IsVarint enc v := by
  cases b with
  | nil =>
      refine ⟨fun h => by simp [readVarint] at h, ?_⟩
      rintro ⟨enc, rest, hnil, -, henc⟩
      have hpos := henc.length_pos
      simp [(List.append_eq_nil_iff.mp hnil.symm).1] at hpos
  | cons first bytes =>
      have hpos : 0 < 2 ^ (first.toNat / 64) := by positivity
      simp only [readVarint, List.length_cons]
      constructor
      · intro h
        split at h
        · cases h
        next hlen =>
          simp only [Option.some.injEq, Prod.mk.injEq] at h
          obtain ⟨rfl, rfl⟩ := h
          have htake : (bytes.take (2 ^ (first.toNat / 64) - 1)).length =
              2 ^ (first.toNat / 64) - 1 := by
            rw [List.length_take]
            omega
          refine ⟨first :: bytes.take (2 ^ (first.toNat / 64) - 1),
            bytes.drop (2 ^ (first.toNat / 64) - 1), by simp, ?_, isVarint_cons.mpr ⟨?_, rfl⟩⟩
          · rw [List.length_cons, htake]
            omega
          · rw [htake]
            omega
      · rintro ⟨enc, rest, hb, rfl, henc⟩
        cases enc with
        | nil => simpa using henc.length_pos
        | cons x tail =>
            rw [List.cons_append] at hb
            obtain ⟨rfl, rfl⟩ := List.cons.inj hb
            obtain ⟨hlen, rfl⟩ := isVarint_cons.mp henc
            rw [if_neg (by rw [List.length_append]; omega), ← hlen, Nat.add_sub_cancel,
              List.take_left' rfl, List.length_cons]

theorem readVarint_encoded {enc : Bytes} {v : Nat} (h : IsVarint enc v) (rest : Bytes) :
    readVarint (enc ++ rest) = some (v, enc.length) :=
  readVarint_eq_some_iff.mpr ⟨enc, rest, rfl, rfl, h⟩

/-! ## The pairs of a payload -/

/-- The payload is the concatenation of these pairs of varints. -/
inductive Spells : Bytes → List (Nat × Nat) → Prop
  | nil : Spells [] []
  | cons {idEnc valEnc rest : Bytes} {id val : Nat} {pairs : List (Nat × Nat)} :
      IsVarint idEnc id → IsVarint valEnc val → Spells rest pairs →
      Spells (idEnc ++ valEnc ++ rest) ((id, val) :: pairs)

def isBooleanSetting (id : Nat) : Bool :=
  id == settingsEnableConnectProtocol || id == settingsH3Datagram || id == settingsEnableWebtransport

def isStreamLimit (id : Nat) : Bool :=
  id == settingsWtInitialMaxStreamsBidi || id == settingsWtInitialMaxStreamsUni

/-- What one pair may say. -/
structure AllowedPair (pair : Nat × Nat) : Prop where
  unreserved : ¬(0x2 ≤ pair.1 ∧ pair.1 ≤ 0x5)
  boolean : isBooleanSetting pair.1 = true → pair.2 ≤ 1
  streamLimit : isStreamLimit pair.1 = true → pair.2 ≤ 2 ^ 60

/-- The pairs of SETTINGS that are well formed. -/
structure WellFormedPairs (pairs : List (Nat × Nat)) : Prop where
  distinct : (pairs.map Prod.fst).Nodup
  allowed : ∀ pair ∈ pairs, AllowedPair pair

/-- The fields of `s` with the values found by their identifiers. -/
def PeerSettings.update (s : PeerSettings) (find : Nat → Option Nat) : PeerSettings where
  enableConnectProtocol :=
    ((find settingsEnableConnectProtocol).map (· != 0)).getD s.enableConnectProtocol
  h3Datagram := ((find settingsH3Datagram).map (· != 0)).getD s.h3Datagram
  enableWebtransport := ((find settingsEnableWebtransport).map (· != 0)).getD s.enableWebtransport
  wtMaxSessions := (find settingsWtMaxSessions).getD s.wtMaxSessions
  wtInitialMaxData := (find settingsWtInitialMaxData).getD s.wtInitialMaxData
  wtInitialMaxStreamsBidi := (find settingsWtInitialMaxStreamsBidi).getD s.wtInitialMaxStreamsBidi
  wtInitialMaxStreamsUni := (find settingsWtInitialMaxStreamsUni).getD s.wtInitialMaxStreamsUni

/-- What SETTINGS with these pairs say: the value of the matching pair for each
field, or the default. -/
def PeerSettings.ofPairs (pairs : List (Nat × Nat)) : PeerSettings :=
  ({} : PeerSettings).update fun id => pairs.lookup id

theorem lookup_eq_none {pairs : List (Nat × Nat)} {id : Nat} (h : id ∉ pairs.map Prod.fst) :
    pairs.lookup id = none := by
  induction pairs with
  | nil => rfl
  | cons pair pairs ih =>
      simp only [List.map_cons, List.mem_cons, not_or] at h
      rw [List.lookup_cons, beq_false_of_ne h.1]
      exact ih h.2

theorem lookup_eq_some {pairs : List (Nat × Nat)} (h : (pairs.map Prod.fst).Nodup) {id val : Nat} :
    pairs.lookup id = some val ↔ (id, val) ∈ pairs := by
  induction pairs with
  | nil => simp
  | cons pair pairs ih =>
      obtain ⟨id', val'⟩ := pair
      simp only [List.map_cons, List.nodup_cons] at h
      rw [List.lookup_cons, List.mem_cons]
      by_cases hid : id = id'
      · subst hid
        have hnot : (id, val) ∉ pairs := fun hm => h.1 (List.mem_map_of_mem (f := Prod.fst) hm)
        simp [hnot, eq_comm]
      · rw [beq_false_of_ne hid]
        simp [ih h.2, hid]

/-- An assignment is an update of one field. -/
theorem PeerSettings.update_set (s : PeerSettings) {id : Nat} (val : Nat) {find : Nat → Option Nat}
    (hnew : find id = none) :
    (s.set id val).update find = s.update fun i => if i = id then some val else find i := by
  -- the identifiers of the fields differ, so that one assignment meets one field
  unfold PeerSettings.set
  split_ifs with h1 h2 h3 h4 h5 h6 h7
  case neg =>
    simp only [PeerSettings.update, if_neg (Ne.symm h1), if_neg (Ne.symm h2), if_neg (Ne.symm h3),
      if_neg (Ne.symm h4), if_neg (Ne.symm h5), if_neg (Ne.symm h6), if_neg (Ne.symm h7)]
  all_goals
    simp only [settingsEnableConnectProtocol, settingsH3Datagram, settingsEnableWebtransport,
      settingsWtMaxSessions, settingsWtInitialMaxData, settingsWtInitialMaxStreamsBidi,
      settingsWtInitialMaxStreamsUni, PeerSettings.update] at *
    simp_all

/-- The first pair as an assignment, and the others as an update. -/
theorem PeerSettings.update_pair (s : PeerSettings) {id : Nat} (val : Nat)
    {pairs : List (Nat × Nat)} (hfresh : id ∉ pairs.map Prod.fst) :
    ((s.set id val).update fun i => pairs.lookup i) =
      s.update fun i => ((id, val) :: pairs).lookup i := by
  rw [s.update_set val (lookup_eq_none hfresh)]
  congr 1
  funext i
  rw [List.lookup_cons]
  by_cases hi : i = id
  · simp [hi]
  · rw [if_neg hi, beq_false_of_ne hi]

/-! ## The parser -/

theorem spells_nil {pairs : List (Nat × Nat)} : Spells [] pairs ↔ pairs = [] := by
  constructor
  · intro h
    generalize hb : ([] : Bytes) = b at h
    cases h with
    | nil => rfl
    | cons hid =>
        have hpos := hid.length_pos
        simp only [List.nil_eq, List.append_eq_nil_iff] at hb
        simp [hb.1.1] at hpos
  · rintro rfl
    exact .nil

/-- The first pair of a payload is what is read first. -/
theorem spells_iff {payload : Bytes} {id n1 val n2 : Nat}
    (hid : readVarint payload = some (id, n1)) (hval : readVarint (payload.drop n1) = some (val, n2))
    {pairs : List (Nat × Nat)} : Spells payload pairs ↔
      ∃ more, pairs = (id, val) :: more ∧ Spells (payload.drop (n1 + n2)) more := by
  constructor
  · intro h
    cases h with
    | nil => simp [readVarint] at hid
    | @cons idEnc valEnc rest id' val' more hidEnc hvalEnc hrest =>
        rw [List.append_assoc, readVarint_encoded hidEnc, Option.some.injEq, Prod.mk.injEq] at hid
        obtain ⟨rfl, rfl⟩ := hid
        rw [List.append_assoc, List.drop_left' rfl, readVarint_encoded hvalEnc, Option.some.injEq,
          Prod.mk.injEq] at hval
        obtain ⟨rfl, rfl⟩ := hval
        rw [List.drop_left' (by rw [List.length_append])]
        exact ⟨more, rfl, hrest⟩
  · rintro ⟨more, rfl, hrest⟩
    obtain ⟨idEnc, rest, rfl, rfl, hidEnc⟩ := readVarint_eq_some_iff.mp hid
    rw [List.drop_left' rfl] at hval
    obtain ⟨valEnc, rest, rfl, rfl, hvalEnc⟩ := readVarint_eq_some_iff.mp hval
    rw [← List.append_assoc, List.drop_left' (by rw [List.length_append])] at hrest
    rw [← List.append_assoc]
    exact .cons hidEnc hvalEnc hrest

/-- A payload that does not begin with a whole pair is none. -/
theorem not_spells_truncated {payload : Bytes} {pairs : List (Nat × Nat)} (hne : payload ≠ [])
    (htruncated : ∀ id n1, readVarint payload = some (id, n1) → readVarint (payload.drop n1) = none) :
    ¬Spells payload pairs := by
  intro h
  cases h with
  | nil => exact hne rfl
  | @cons idEnc valEnc rest id val more hidEnc hvalEnc =>
      rw [List.append_assoc] at htruncated
      have hnone := htruncated _ _ (readVarint_encoded hidEnc _)
      rw [List.drop_left' rfl, readVarint_encoded hvalEnc] at hnone
      cases hnone

theorem allowedPair_iff {id val : Nat} : AllowedPair (id, val) ↔ ¬(0x2 ≤ id ∧ id ≤ 0x5) ∧
    ¬((id = settingsEnableConnectProtocol ∨ id = settingsH3Datagram ∨
      id = settingsEnableWebtransport) ∧ val > 1) ∧
    ¬((id = settingsWtInitialMaxStreamsBidi ∨ id = settingsWtInitialMaxStreamsUni) ∧
      val > 2 ^ 60) := by
  constructor
  · rintro ⟨hreserved, hboolean, hlimit⟩
    simp only [isBooleanSetting, isStreamLimit, Bool.or_eq_true, beq_iff_eq, or_assoc] at hboolean hlimit
    exact ⟨hreserved, fun ⟨hid, hval⟩ => absurd (hboolean hid) (by omega),
      fun ⟨hid, hval⟩ => absurd (hlimit hid) (by omega)⟩
  · rintro ⟨hreserved, hboolean, hlimit⟩
    refine ⟨hreserved, fun hid => ?_, fun hid => ?_⟩
    · by_contra hval
      simp only [isBooleanSetting, Bool.or_eq_true, beq_iff_eq, or_assoc] at hid
      exact hboolean ⟨hid, by omega⟩
    · by_contra hval
      simp only [isStreamLimit, Bool.or_eq_true, beq_iff_eq] at hid
      exact hlimit ⟨hid, by omega⟩

/-- What the loop accepts, and what it makes of it. -/
theorem parseSettingsLoop_eq_ok : ∀ (fuel : Nat) {seen : List Nat} {s r : PeerSettings}
    {payload : Bytes}, payload.length < fuel →
    (parseSettingsLoop fuel seen s payload = .ok r ↔ ∃ pairs, Spells payload pairs ∧
      (pairs.map Prod.fst).Nodup ∧ (∀ pair ∈ pairs, pair.1 ∉ seen ∧ AllowedPair pair) ∧
      r = s.update fun id => pairs.lookup id)
  | 0, _, _, _, _, hlt => absurd hlt (Nat.not_lt_zero _)
  | fuel + 1, seen, s, r, payload, hlt => by
      rw [parseSettingsLoop]
      by_cases hne : payload = []
      · subst hne
        rw [List.isEmpty_nil, if_pos rfl, Except.ok.injEq]
        constructor
        · rintro rfl
          exact ⟨[], .nil, List.nodup_nil, fun _ h => (by cases h), rfl⟩
        · rintro ⟨pairs, hspells, -, -, rfl⟩
          obtain rfl := spells_nil.mp hspells
          rfl
      · rw [if_neg (by simpa using hne)]
        cases hid : readVarint payload with
        | none =>
            simp only [reduceCtorEq, false_iff]
            rintro ⟨pairs, hspells, -⟩
            exact not_spells_truncated hne (fun _ _ h => by simp [hid] at h) hspells
        | some p =>
            obtain ⟨id, n1⟩ := p
            cases hval : readVarint (payload.drop n1) with
            | none =>
                simp only [hval, reduceCtorEq, false_iff]
                rintro ⟨pairs, hspells, -⟩
                refine not_spells_truncated hne (fun _ _ h => ?_) hspells
                obtain ⟨rfl, rfl⟩ := Prod.mk.inj (Option.some.inj (hid.symm.trans h))
                exact hval
            | some p =>
                obtain ⟨val, n2⟩ := p
                simp only [hval]
                have hshorter : (payload.drop (n1 + n2)).length < fuel := by
                  have hpos := (readVarint_len hid).1
                  have hlen := List.length_pos_iff.mpr hne
                  rw [List.length_drop]
                  omega
                -- the pair that was read is the first of the pairs, if there are any
                have hfirst : ∀ {P : List (Nat × Nat) → Prop},
                    (∃ pairs, Spells payload pairs ∧ P pairs) ↔
                      ∃ more, Spells (payload.drop (n1 + n2)) more ∧ P ((id, val) :: more) := by
                  intro P
                  constructor
                  · rintro ⟨pairs, hspells, hP⟩
                    obtain ⟨more, rfl, hmore⟩ := (spells_iff hid hval).mp hspells
                    exact ⟨more, hmore, hP⟩
                  · rintro ⟨more, hmore, hP⟩
                    exact ⟨_, (spells_iff hid hval).mpr ⟨more, rfl, hmore⟩, hP⟩
                rw [hfirst]
                by_cases hpair : id ∉ seen ∧ AllowedPair (id, val)
                · obtain ⟨hnew, hallowed⟩ := hpair
                  obtain ⟨hreserved, hboolean, hlimit⟩ := allowedPair_iff.mp hallowed
                  rw [if_neg (by simp [hnew, hreserved]), if_neg hboolean, if_neg hlimit,
                    parseSettingsLoop_eq_ok fuel hshorter]
                  refine exists_congr fun more => and_congr_right fun _ => ?_
                  rw [List.map_cons, List.nodup_cons, List.forall_mem_cons]
                  constructor
                  · rintro ⟨hdistinct, hall, rfl⟩
                    have hfresh : id ∉ more.map Prod.fst := by
                      intro hmem
                      obtain ⟨pair, hpair, rfl⟩ := List.mem_map.mp hmem
                      exact List.ne_of_not_mem_cons (hall pair hpair).1 rfl
                    exact ⟨⟨hfresh, hdistinct⟩, ⟨⟨hnew, hallowed⟩, fun pair hpair =>
                      ⟨List.not_mem_of_not_mem_cons (hall pair hpair).1, (hall pair hpair).2⟩⟩,
                      s.update_pair val hfresh⟩
                  · rintro ⟨⟨hfresh, hdistinct⟩, ⟨-, hall⟩, rfl⟩
                    refine ⟨hdistinct, fun pair hpair => ⟨List.not_mem_cons_of_ne_of_not_mem ?_
                      (hall pair hpair).1, (hall pair hpair).2⟩, (s.update_pair val hfresh).symm⟩
                    intro hid
                    have hmem : pair.1 ∈ more.map Prod.fst := List.mem_map_of_mem hpair
                    exact hfresh (hid ▸ hmem)
                · -- the first pair is refused, whichever rule it breaks
                  have herror : ∃ message, (if id ∈ seen ∨ 0x2 ≤ id ∧ id ≤ 0x5 then
                      .error "duplicate or reserved SETTINGS identifier"
                    else if (id = settingsEnableConnectProtocol ∨ id = settingsH3Datagram ∨
                        id = settingsEnableWebtransport) ∧ val > 1 then
                      .error "invalid boolean SETTINGS value"
                    else if (id = settingsWtInitialMaxStreamsBidi ∨
                        id = settingsWtInitialMaxStreamsUni) ∧ val > 2 ^ 60 then
                      .error "invalid WebTransport stream limit"
                    else parseSettingsLoop fuel (id :: seen) (s.set id val)
                      (payload.drop (n1 + n2))) = Except.error message := by
                    rw [allowedPair_iff] at hpair
                    split_ifs with h1 h2 h3
                    · exact ⟨_, rfl⟩
                    · exact ⟨_, rfl⟩
                    · exact ⟨_, rfl⟩
                    · rw [not_or] at h1
                      exact absurd ⟨h1.1, h1.2, h2, h3⟩ hpair
                  obtain ⟨message, hmessage⟩ := herror
                  rw [hmessage]
                  simp only [reduceCtorEq, false_iff]
                  rintro ⟨more, -, -, hall, -⟩
                  exact hpair (hall _ List.mem_cons_self)

/-- A payload spells one list of pairs at most. -/
theorem Spells.unique {payload : Bytes} {pairs pairs' : List (Nat × Nat)} (h : Spells payload pairs)
    (h' : Spells payload pairs') : pairs = pairs' := by
  induction h generalizing pairs' with
  | nil => exact (spells_nil.mp h').symm
  | @cons idEnc valEnc rest id val more hid hval _ ih =>
      have hidRead : readVarint (idEnc ++ valEnc ++ rest) = some (id, idEnc.length) := by
        rw [List.append_assoc, readVarint_encoded hid]
      have hvalRead : readVarint ((idEnc ++ valEnc ++ rest).drop idEnc.length) =
          some (val, valEnc.length) := by
        rw [List.append_assoc, List.drop_left' rfl, readVarint_encoded hval]
      obtain ⟨more', rfl, hmore⟩ := (spells_iff hidRead hvalRead).mp h'
      rw [List.drop_left' (by rw [List.length_append])] at hmore
      rw [ih hmore]

/-- What `parseSettings` accepts, and what it makes of it. -/
theorem parseSettings_eq_ok {payload : Bytes} {s : PeerSettings} : parseSettings payload = .ok s ↔
    ∃ pairs, Spells payload pairs ∧ WellFormedPairs pairs ∧ s = .ofPairs pairs := by
  rw [parseSettings, parseSettingsLoop_eq_ok _ (Nat.lt_succ_self _)]
  refine exists_congr fun pairs => and_congr_right fun _ => ?_
  constructor
  · rintro ⟨hdistinct, hall, rfl⟩
    exact ⟨⟨hdistinct, fun pair hpair => (hall pair hpair).2⟩, rfl⟩
  · rintro ⟨hwell, rfl⟩
    exact ⟨hwell.distinct, fun pair hpair => ⟨List.not_mem_nil, hwell.allowed pair hpair⟩, rfl⟩

/-- The pairs of our own SETTINGS. -/
theorem spells_settingsPayload : Spells settingsPayload settingsPairs := by
  have hspells : ∀ pairs : List (Nat × Nat), (∀ p ∈ pairs, p.1 < 2 ^ 62 ∧ p.2 < 2 ^ 62) →
      Spells (pairs.flatMap fun p => putVarint p.1 ++ putVarint p.2) pairs := by
    intro pairs
    induction pairs with
    | nil => exact fun _ => .nil
    | cons pair pairs ih =>
        intro hbound
        have hvarint : ∀ {v : Nat}, v < 2 ^ 62 → IsVarint (putVarint v) v := by
          intro v hv
          have hread := readVarint_putVarint hv []
          rw [List.append_nil] at hread
          obtain ⟨enc, rest, heq, hlen, henc⟩ := readVarint_eq_some_iff.mp hread
          have hnil : rest = [] := by
            have hlength := congrArg List.length heq
            rw [List.length_append, length_putVarint, hlen] at hlength
            exact List.eq_nil_of_length_eq_zero (by omega)
          rw [heq, hnil, List.append_nil]
          exact henc
        obtain ⟨hid, hval⟩ := hbound pair List.mem_cons_self
        exact .cons (hvarint hid) (hvarint hval) (ih fun p hp => hbound p (List.mem_cons_of_mem _ hp))
  exact hspells settingsPairs (by decide)

/-- The identifiers `parseSettings` looks for. -/
def knownSettings : List Nat :=
  [settingsEnableConnectProtocol, settingsH3Datagram, settingsEnableWebtransport,
    settingsWtMaxSessions, settingsWtInitialMaxData, settingsWtInitialMaxStreamsBidi,
    settingsWtInitialMaxStreamsUni]

/-- The result depends on the known identifiers alone. -/
theorem PeerSettings.ofPairs_congr {pairs pairs' : List (Nat × Nat)}
    (h : ∀ id ∈ knownSettings, pairs.lookup id = pairs'.lookup id) :
    PeerSettings.ofPairs pairs = .ofPairs pairs' := by
  simp only [knownSettings, List.forall_mem_cons] at h
  obtain ⟨h1, h2, h3, h4, h5, h6, h7, -⟩ := h
  simp only [PeerSettings.ofPairs, PeerSettings.update, h1, h2, h3, h4, h5, h6, h7]

/-- `parseSettings` accepts exactly its grammar, reads each field off the pair
that names it, whatever the order of the pairs and the other identifiers, and
reads our own SETTINGS as we mean them. -/
theorem parseSettings_grammar :
    (∀ payload, (∃ s, parseSettings payload = .ok s) ↔
      ∃ pairs, Spells payload pairs ∧ WellFormedPairs pairs) ∧
    (∀ payload s pairs, parseSettings payload = .ok s → Spells payload pairs →
      s = .ofPairs pairs) ∧
    (∀ payload payload' pairs pairs', Spells payload pairs → Spells payload' pairs' →
      WellFormedPairs pairs → WellFormedPairs pairs' →
      (∀ id ∈ knownSettings, ∀ val, (id, val) ∈ pairs ↔ (id, val) ∈ pairs') →
      parseSettings payload = parseSettings payload') ∧
    parseSettings settingsPayload = .ok
      { enableConnectProtocol := true, h3Datagram := true, enableWebtransport := true,
        wtMaxSessions := 256, wtInitialMaxData := wtInitialMaxData,
        wtInitialMaxStreamsBidi := wtInitialMaxStreams,
        wtInitialMaxStreamsUni := wtInitialMaxStreams } := by
  refine ⟨fun payload => ⟨?_, ?_⟩, fun payload s pairs hok hspells => ?_, ?_, ?_⟩
  · rintro ⟨s, hs⟩
    obtain ⟨pairs, hspells, hwell, -⟩ := parseSettings_eq_ok.mp hs
    exact ⟨pairs, hspells, hwell⟩
  · rintro ⟨pairs, hspells, hwell⟩
    exact ⟨_, parseSettings_eq_ok.mpr ⟨pairs, hspells, hwell, rfl⟩⟩
  · obtain ⟨pairs', hspells', -, rfl⟩ := parseSettings_eq_ok.mp hok
    rw [hspells.unique hspells']
  · intro payload payload' pairs pairs' hspells hspells' hwell hwell' hsame
    have hlookup : ∀ id ∈ knownSettings, pairs.lookup id = pairs'.lookup id := by
      intro id hid
      refine Option.ext fun val => ?_
      rw [lookup_eq_some hwell.distinct, lookup_eq_some hwell'.distinct]
      exact hsame id hid val
    rw [parseSettings_eq_ok.mpr ⟨pairs, hspells, hwell, rfl⟩,
      parseSettings_eq_ok.mpr ⟨pairs', hspells', hwell', rfl⟩, PeerSettings.ofPairs_congr hlookup]
  · have hwell : WellFormedPairs settingsPairs := by
      refine ⟨by decide, fun pair hpair => ?_⟩
      simp only [settingsPairs, List.mem_cons, List.not_mem_nil, or_false] at hpair
      rcases hpair with rfl | rfl | rfl | rfl | rfl | rfl | rfl | rfl | rfl <;>
        exact ⟨by decide, by decide, by decide⟩
    rw [parseSettings_eq_ok.mpr ⟨settingsPairs, spells_settingsPayload, hwell, rfl⟩]
    rfl

end RWebTransport.H3
