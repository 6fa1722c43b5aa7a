import Mathlib.Data.List.Basic
import Mathlib.Tactic.Ring
import Mathlib.Tactic.NormNum
import Mathlib.Tactic.Positivity

/-!
# QUIC variable-length integers and HTTP/3 frames

The codec of `wtcore::h3`.  A `u64` is a `Nat`; every value read is below
`2 ^ 62`, and `putVarint` is only used below that bound, so no shift of the
source loses a bit.
-/

namespace RWebTransport

/-- A byte string (`&[u8]`, `Vec<u8>`). -/
abbrev Bytes := List UInt8

namespace H3

/-- Reads a varint off the front: its value and its length. -/
def readVarint : Bytes → Option (Nat × Nat)
  | [] => none
  | first :: rest =>
      -- `1usize << (first >> 6)` bytes, the top two bits of the first one cleared
      let len := 2 ^ (first.toNat / 64)
      if (first :: rest).length < len then none
      else some ((rest.take (len - 1)).foldl (fun v b => v * 256 + b.toNat) (first.toNat % 64), len)

/-- The cast `v as u8`. -/
def asU8 (v : Nat) : UInt8 := UInt8.ofNat v

/-- The shortest encoding of `v`. -/
def putVarint (v : Nat) : Bytes :=
  if v < 2 ^ 6 then [asU8 v]
  else if v < 2 ^ 14 then [0x40 ||| asU8 (v / 2 ^ 8), asU8 v]
  else if v < 2 ^ 30 then
    [0x80 ||| asU8 (v / 2 ^ 24), asU8 (v / 2 ^ 16), asU8 (v / 2 ^ 8), asU8 v]
  else
    (0xc0 ||| asU8 (v / 2 ^ 56)) ::
      [48, 40, 32, 24, 16, 8, 0].map fun shift => asU8 (v / 2 ^ shift)

/-- The number of bytes `putVarint` emits. -/
def varintLen (v : Nat) : Nat :=
  if v < 2 ^ 6 then 1 else if v < 2 ^ 14 then 2 else if v < 2 ^ 30 then 4 else 8

/-- A complete HTTP/3 frame. -/
def frame (ty : Nat) (payload : Bytes) : Bytes :=
  putVarint ty ++ putVarint payload.length ++ payload

/-! ## Reading -/

/-- What a successful read says about its length. -/
theorem readVarint_len {b : Bytes} {v n : Nat} (h : readVarint b = some (v, n)) :
    0 < n ∧ n ≤ b.length := by
  cases b with
  | nil => simp [readVarint] at h
  | cons first rest =>
      simp only [readVarint] at h
      split at h
      · cases h
      next hlen =>
        simp only [Option.some.injEq, Prod.mk.injEq] at h
        obtain ⟨-, rfl⟩ := h
        exact ⟨by positivity, by omega⟩

/-- More bytes behind a complete varint do not change what is read. -/
theorem readVarint_append {b : Bytes} {r : Nat × Nat} (h : readVarint b = some r) (c : Bytes) :
    readVarint (b ++ c) = some r := by
  cases b with
  | nil => simp [readVarint] at h
  | cons first rest =>
      simp only [readVarint, List.cons_append] at h ⊢
      split at h
      · cases h
      next hlen =>
        simp only [List.length_cons] at hlen
        have hle : 2 ^ (first.toNat / 64) - 1 ≤ rest.length := by omega
        rw [if_neg (by simp only [List.length_cons, List.length_append]; omega),
          List.take_append_of_le_length hle]
        exact h

/-- The bytes behind the first one, as a number to the base 256. -/
theorem foldl_bytes_lt : ∀ (l : Bytes) (a : Nat),
    l.foldl (fun v b => v * 256 + b.toNat) a < (a + 1) * 256 ^ l.length
  | [], a => by simp
  | x :: l, a => by
      have hx : x.toNat < 256 := x.toNat_lt
      calc List.foldl (fun v b => v * 256 + b.toNat) a (x :: l)
          < (a * 256 + x.toNat + 1) * 256 ^ l.length := foldl_bytes_lt l (a * 256 + x.toNat)
        _ ≤ ((a + 1) * 256) * 256 ^ l.length := Nat.mul_le_mul_right _ (by omega)
        _ = (a + 1) * 256 ^ (x :: l).length := by
            rw [List.length_cons, pow_succ]; ring

/-- The length class of what was read bounds its value: six bits of the first
byte, and eight of each other one. -/
theorem readVarint_class {b : Bytes} {v n : Nat} (h : readVarint b = some (v, n)) :
    ∃ k ≤ 3, n = 2 ^ k ∧ v < 64 * 256 ^ (2 ^ k - 1) := by
  cases b with
  | nil => simp [readVarint] at h
  | cons first rest =>
      simp only [readVarint] at h
      split at h
      · cases h
      next hlen =>
        simp only [Option.some.injEq, Prod.mk.injEq] at h
        obtain ⟨rfl, rfl⟩ := h
        have hfirst : first.toNat < 256 := first.toNat_lt
        have htake : (rest.take (2 ^ (first.toNat / 64) - 1)).length ≤ 2 ^ (first.toNat / 64) - 1 := by
          rw [List.length_take]
          omega
        refine ⟨first.toNat / 64, by omega, rfl, ?_⟩
        exact (foldl_bytes_lt _ _).trans_le
          (Nat.mul_le_mul (by omega) (Nat.pow_le_pow_right (by norm_num) htake))

/-- The value read is a 62-bit number. -/
theorem readVarint_lt {b : Bytes} {v n : Nat} (h : readVarint b = some (v, n)) : v < 2 ^ 62 := by
  obtain ⟨k, hk, -, hv⟩ := readVarint_class h
  have hpow : 2 ^ k - 1 ≤ 7 := by
    have := Nat.pow_le_pow_right (n := 2) (by norm_num) hk
    omega
  calc v < 64 * 256 ^ (2 ^ k - 1) := hv
    _ ≤ 64 * 256 ^ 7 := Nat.mul_le_mul_left _ (Nat.pow_le_pow_right (by norm_num) hpow)
    _ = 2 ^ 62 := by norm_num

/-- No encoding is shorter than the one `putVarint` chooses. -/
theorem varintLen_le_of_readVarint {b : Bytes} {v n : Nat} (h : readVarint b = some (v, n)) :
    varintLen v ≤ n := by
  obtain ⟨k, hk, rfl, hv⟩ := readVarint_class h
  have hcases : k = 0 ∨ k = 1 ∨ k = 2 ∨ k = 3 := by omega
  unfold varintLen
  rcases hcases with rfl | rfl | rfl | rfl <;> norm_num at hv ⊢ <;> split_ifs <;> omega

/-! ## Round trip -/

/-- A tag in the top two bits and a six-bit value do not overlap. -/
theorem toNat_tag_or : ∀ k < 4, ∀ x < 64,
    (UInt8.ofNat (64 * k) ||| UInt8.ofNat x).toNat = 64 * k + x := by decide

theorem toNat_asU8 (v : Nat) : (asU8 v).toNat = v % 256 := by
  simp [asU8]

@[simp] theorem length_putVarint (v : Nat) : (putVarint v).length = varintLen v := by
  unfold putVarint varintLen
  split_ifs <;> simp

theorem varintLen_pos (v : Nat) : 0 < varintLen v := by
  unfold varintLen
  split_ifs <;> norm_num

/-- A first byte with tag `k` and enough bytes behind it. -/
theorem readVarint_tagged {first : UInt8} {k x : Nat} (hx : x < 64) (hfirst : first.toNat = 64 * k + x)
    {rest : Bytes} (hrest : rest.length = 2 ^ k - 1) (s : Bytes) :
    readVarint (first :: rest ++ s) =
      some (rest.foldl (fun v b => v * 256 + b.toNat) x, 2 ^ k) := by
  have hpos : 0 < 2 ^ k := by positivity
  have hdiv : first.toNat / 64 = k := by omega
  have hmod : first.toNat % 64 = x := by omega
  simp only [List.cons_append, readVarint, hdiv, hmod]
  rw [if_neg (by simp only [List.length_cons, List.length_append]; omega),
    List.take_left' hrest]

/-- Reading what `putVarint` wrote, whatever follows. -/
theorem readVarint_putVarint {v : Nat} (hv : v < 2 ^ 62) (s : Bytes) :
    readVarint (putVarint v ++ s) = some (v, varintLen v) := by
  unfold putVarint varintLen
  split_ifs with h1 h2 h3
  · have hfirst : (asU8 v).toNat = 64 * 0 + v := by rw [toNat_asU8]; omega
    exact readVarint_tagged (by omega) hfirst (by rfl) s
  · have hfirst : (0x40 ||| asU8 (v / 2 ^ 8)).toNat = 64 * 1 + v / 2 ^ 8 :=
      toNat_tag_or 1 (by norm_num) (v / 2 ^ 8) (by omega)
    refine (readVarint_tagged (by omega) hfirst (by rfl) s).trans ?_
    simp only [List.foldl_cons, List.foldl_nil, toNat_asU8]
    congr 2
    omega
  · have hfirst : (0x80 ||| asU8 (v / 2 ^ 24)).toNat = 64 * 2 + v / 2 ^ 24 :=
      toNat_tag_or 2 (by norm_num) (v / 2 ^ 24) (by omega)
    refine (readVarint_tagged (by omega) hfirst (by rfl) s).trans ?_
    simp only [List.foldl_cons, List.foldl_nil, toNat_asU8]
    congr 2
    omega
  · have hfirst : (0xc0 ||| asU8 (v / 2 ^ 56)).toNat = 64 * 3 + v / 2 ^ 56 :=
      toNat_tag_or 3 (by norm_num) (v / 2 ^ 56) (by omega)
    refine (readVarint_tagged (by omega) hfirst (by rfl) s).trans ?_
    simp only [List.map_cons, List.map_nil, List.foldl_cons, List.foldl_nil, toNat_asU8]
    congr 2
    omega

/-- A cut inside the encoding is seen. -/
theorem readVarint_take_putVarint {v : Nat} (hv : v < 2 ^ 62) {k : Nat} (hk : k < varintLen v) :
    readVarint ((putVarint v).take k) = none := by
  cases hread : readVarint ((putVarint v).take k) with
  | none => rfl
  | some r =>
      obtain ⟨w, n⟩ := r
      have hn : n ≤ k := (readVarint_len hread).2.trans (List.length_take_le k _)
      have hwhole := readVarint_append hread ((putVarint v).drop k)
      rw [List.take_append_drop, ← List.append_nil (putVarint v), readVarint_putVarint hv] at hwhole
      cases hwhole
      omega

/-- The case split of a two-part header read off the front of a buffer. -/
theorem readVarint_drop_putVarint {v : Nat} (hv : v < 2 ^ 62) (w s : Bytes) {n : Nat}
    (hn : w.length = n) : readVarint ((w ++ (putVarint v ++ s)).drop n) = some (v, varintLen v) := by
  rw [List.drop_left' hn, readVarint_putVarint hv]

end H3

end RWebTransport
