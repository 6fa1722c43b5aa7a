import Mathlib.Data.List.Basic
import Mathlib.Tactic.Ring
import Mathlib.Tactic.NormNum

/-!
# Integers with a prefix

The integers of HTTP header compression.  The low bits of the first byte hold
the number; its high bits say something else.  A number that does not fit leaves
ones in these bits, and the rest of it follows in digits of seven bits, the
lowest first, each but the last marked by the top bit.

`value` and `decode` read any spelling of a number, however long; `digits` and
`encode` write the shortest one.
-/

namespace RWebTransport.PrefixInt

/-! ## Digits -/

/-- The digits of a number below `128 ^ (n + 1)`. -/
def digits : Nat → Nat → List UInt8
  | 0, v => [UInt8.ofNat v]
  | n + 1, v =>
      if v < 128 then [UInt8.ofNat v] else UInt8.ofNat (v % 128 + 128) :: digits n (v / 128)

/-- The number some digits spell, and the bytes behind them. -/
def value : List UInt8 → Option (Nat × List UInt8)
  | [] => none
  | b :: rest =>
      if b.toNat < 128 then some (b.toNat, rest)
      else (value rest).map fun r => (b.toNat % 128 + 128 * r.1, r.2)

theorem value_digits (rest : List UInt8) : ∀ {n v : Nat}, v < 128 ^ (n + 1) →
    value (digits n v ++ rest) = some (v, rest)
  | 0, v, h => by
      have hb : (UInt8.ofNat v).toNat = v := by
        rw [UInt8.toNat_ofNat']
        omega
      simp only [digits, List.cons_append, List.nil_append, value, hb]
      rw [if_pos (by omega)]
  | n + 1, v, h => by
      unfold digits
      split
      next hlt =>
        have hb : (UInt8.ofNat v).toNat = v := by
          rw [UInt8.toNat_ofNat']
          omega
        simp only [List.cons_append, List.nil_append, value, hb]
        rw [if_pos hlt]
      next hge =>
        have hb : (UInt8.ofNat (v % 128 + 128)).toNat = v % 128 + 128 := by
          rw [UInt8.toNat_ofNat']
          omega
        have hdiv : v / 128 < 128 ^ (n + 1) := by
          rw [Nat.div_lt_iff_lt_mul (by omega)]
          exact h
        simp only [List.cons_append, value, hb]
        rw [if_neg (by omega), value_digits rest hdiv, Option.map_some]
        congr 2
        omega

/-- A number below `128 ^ k` takes at most `k` digits. -/
theorem digits_length : ∀ (k : Nat) {n v : Nat}, v < 128 ^ (k + 1) → (digits n v).length ≤ k + 1
  | _, 0, _, _ => by simp [digits]
  | 0, n + 1, v, h => by
      rw [digits, if_pos (by omega)]
      rfl
  | k + 1, n + 1, v, h => by
      unfold digits
      split
      · exact Nat.succ_le_succ (Nat.zero_le _)
      · have hdiv : v / 128 < 128 ^ (k + 1) := by
          rw [Nat.div_lt_iff_lt_mul (by omega)]
          exact h
        rw [List.length_cons]
        exact Nat.succ_le_succ (digits_length k hdiv)

theorem digits_ne_nil (n v : Nat) : digits n v ≠ [] := by
  cases n with
  | zero => simp [digits]
  | succ n =>
      unfold digits
      split <;> simp

/-- Digits are taken off the front. -/
theorem value_suffix : ∀ {l : List UInt8} {v : Nat} {rest : List UInt8},
    value l = some (v, rest) → ∃ d, d ≠ [] ∧ l = d ++ rest
  | [], _, _, h => by cases h
  | b :: l, v, rest, h => by
      rw [value] at h
      split at h
      · obtain ⟨-, rfl⟩ := Prod.mk.inj (Option.some.inj h)
        exact ⟨[b], by simp, rfl⟩
      · obtain ⟨⟨w, rest'⟩, hw, heq⟩ := Option.map_eq_some_iff.mp h
        obtain ⟨-, rfl⟩ := Prod.mk.inj heq
        obtain ⟨d, -, rfl⟩ := value_suffix hw
        exact ⟨b :: d, by simp, rfl⟩

/-! ## The prefix -/

/-- A number behind the flags in the first byte. -/
def encode (bits : Nat) (flags : UInt8) (v : Nat) : List UInt8 :=
  if v < 2 ^ bits - 1 then [flags ||| UInt8.ofNat v]
  else (flags ||| UInt8.ofNat (2 ^ bits - 1)) :: digits (v - (2 ^ bits - 1)) (v - (2 ^ bits - 1))

/-- Reads a number; the flags are passed over. -/
def decode (bits : Nat) : List UInt8 → Option (Nat × List UInt8)
  | [] => none
  | b :: rest =>
      if b.toNat % 2 ^ bits < 2 ^ bits - 1 then some (b.toNat % 2 ^ bits, rest)
      else (value rest).map fun r => (2 ^ bits - 1 + r.1, r.2)

/-- Flags and a number below them do not overlap. -/
theorem flags_or {bits v : Nat} {flags : UInt8} (hbits : bits ≤ 8) (hflags : flags.toNat % 2 ^ bits = 0)
    (hv : v < 2 ^ bits) : (flags ||| UInt8.ofNat v).toNat = flags.toNat + v := by
  have hpow : 2 ^ bits ≤ 2 ^ 8 := Nat.pow_le_pow_right (by omega) hbits
  have hb : (UInt8.ofNat v).toNat = v := by
    rw [UInt8.toNat_ofNat']
    omega
  obtain ⟨k, hk⟩ := Nat.dvd_of_mod_eq_zero hflags
  rw [UInt8.toNat_or, hb, hk, ← Nat.two_pow_add_eq_or_of_lt hv]

theorem lt_pow_succ (v : Nat) : v < 128 ^ (v + 1) :=
  calc v < 2 ^ v := Nat.lt_two_pow_self
    _ ≤ 128 ^ v := Nat.pow_le_pow_left (by omega) v
    _ ≤ 128 ^ (v + 1) := Nat.pow_le_pow_right (by omega) (Nat.le_succ v)

/-- The first byte of a number, and what is behind it. -/
theorem encode_cons (bits v : Nat) (flags : UInt8) (hbits : bits ≤ 8)
    (hflags : flags.toNat % 2 ^ bits = 0) : ∃ low more, low < 2 ^ bits ∧
      encode bits flags v = (flags ||| UInt8.ofNat low) :: more ∧
      (flags ||| UInt8.ofNat low).toNat = flags.toNat + low := by
  have hpos : 0 < 2 ^ bits := Nat.two_pow_pos bits
  unfold encode
  split
  next hlt => exact ⟨v, [], by omega, rfl, flags_or hbits hflags (by omega)⟩
  · exact ⟨2 ^ bits - 1, _, by omega, rfl, flags_or hbits hflags (by omega)⟩

/-- A number reads back, whatever stands behind it. -/
theorem decode_encode {bits v : Nat} {flags : UInt8} (hbits : bits ≤ 8)
    (hflags : flags.toNat % 2 ^ bits = 0) (rest : List UInt8) :
    decode bits (encode bits flags v ++ rest) = some (v, rest) := by
  have hpos : 0 < 2 ^ bits := Nat.two_pow_pos bits
  have hmod : ∀ {low : Nat}, low < 2 ^ bits → (flags ||| UInt8.ofNat low).toNat % 2 ^ bits = low := by
    intro low hlow
    rw [flags_or hbits hflags hlow, Nat.add_mod, hflags, Nat.zero_add, Nat.mod_mod,
      Nat.mod_eq_of_lt hlow]
  unfold encode
  split
  next hlt =>
    simp only [List.cons_append, List.nil_append, decode, hmod (show v < 2 ^ bits by omega)]
    rw [if_pos hlt]
  next hge =>
    have hlow := hmod (show 2 ^ bits - 1 < 2 ^ bits by omega)
    simp only [List.cons_append, decode, hlow]
    rw [if_neg (by omega), value_digits rest (lt_pow_succ _), Option.map_some]
    congr 2
    omega

/-- How long a number gets. -/
theorem encode_length (k bits : Nat) (flags : UInt8) {v : Nat} (h : v < 2 ^ bits - 1 + 128 ^ (k + 1)) :
    (encode bits flags v).length ≤ k + 2 := by
  unfold encode
  split
  · exact Nat.succ_le_succ (Nat.zero_le _)
  · rw [List.length_cons]
    exact Nat.succ_le_succ (digits_length k (by omega))

/-- A number is taken off the front. -/
theorem decode_suffix {bits : Nat} {l : List UInt8} {v : Nat} {rest : List UInt8}
    (h : decode bits l = some (v, rest)) : rest.length < l.length := by
  cases l with
  | nil => cases h
  | cons b l =>
      rw [decode] at h
      split at h
      · obtain ⟨-, rfl⟩ := Prod.mk.inj (Option.some.inj h)
        exact Nat.lt_succ_self _
      · obtain ⟨⟨w, rest'⟩, hw, heq⟩ := Option.map_eq_some_iff.mp h
        obtain ⟨-, rfl⟩ := Prod.mk.inj heq
        obtain ⟨d, -, rfl⟩ := value_suffix hw
        simp only [List.length_cons, List.length_append]
        omega

end RWebTransport.PrefixInt
