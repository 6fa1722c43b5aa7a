import Mathlib.Data.List.Basic

/-!
# Characters in UTF-8 text

Where a well-formed byte string may be cut.  The bytes of a character behind its
first one are told by their top bits, and no other byte has these; so a prefix is
well-formed exactly if no such byte stands behind it.
-/

namespace RWebTransport

/-- A byte string that encodes some characters. -/
def IsUtf8 (b : List UInt8) : Prop := ∃ chars : List Char, b = chars.flatMap String.utf8EncodeChar

/-- A byte that continues a character, `10xxxxxx`. -/
def IsContinuation (b : UInt8) : Prop := b.toNat / 64 = 2

instance (b : UInt8) : Decidable (IsContinuation b) := inferInstanceAs (Decidable (_ = 2))

theorem isUtf8_nil : IsUtf8 [] := ⟨[], rfl⟩

/-- A character is a byte that does not continue one, and bytes that do. -/
theorem utf8EncodeChar_bytes (c : Char) : ∃ first cont, String.utf8EncodeChar c = first :: cont ∧
    ¬IsContinuation first ∧ ∀ b ∈ cont, IsContinuation b := by
  have hlead : ∀ lead v : Nat, lead + v < 256 → 192 ≤ lead → ¬IsContinuation (UInt8.ofNat (v + lead)) := by
    intro lead v hlt hge hcont
    rw [IsContinuation, UInt8.toNat_ofNat'] at hcont
    omega
  have hnil : ∀ b ∈ ([] : List UInt8), IsContinuation b := by simp
  have hcons : ∀ (v : Nat) (l : List UInt8), (∀ b ∈ l, IsContinuation b) →
      ∀ b ∈ UInt8.ofNat (v % 64 + 128) :: l, IsContinuation b := by
    intro v l hl
    have hv : IsContinuation (UInt8.ofNat (v % 64 + 128)) := by
      rw [IsContinuation, UInt8.toNat_ofNat']
      omega
    exact List.forall_mem_cons.mpr ⟨hv, hl⟩
  unfold String.utf8EncodeChar
  dsimp only
  split_ifs with h1 h2 h3
  · refine ⟨_, [], rfl, ?_, by simp⟩
    rw [IsContinuation, UInt8.toNat_ofNat']
    omega
  · exact ⟨_, _, rfl, hlead 192 _ (by omega) (by omega), hcons _ _ hnil⟩
  · exact ⟨_, _, rfl, hlead 224 _ (by omega) (by omega), hcons _ _ (hcons _ _ hnil)⟩
  · exact ⟨_, _, rfl, hlead 240 _ (by omega) (by omega), hcons _ _ (hcons _ _ (hcons _ _ hnil))⟩

/-- The first character of some bytes is determined by them. -/
theorem utf8EncodeChar_append_inj {c d : Char} {x y : List UInt8}
    (h : String.utf8EncodeChar c ++ x = String.utf8EncodeChar d ++ y) : c = d := by
  have hdecode : ∀ (c : Char) (x : List UInt8),
      ByteArray.utf8DecodeChar? (String.utf8EncodeChar c ++ x).toByteArray 0 = some c := by
    intro c x
    rw [List.toByteArray_append]
    exact ByteArray.utf8DecodeChar?_utf8EncodeChar_append
  have hc := hdecode c x
  rw [h, hdecode d y] at hc
  exact (Option.some.inj hc).symm

/-- What follows a well-formed prefix does not continue a character. -/
theorem not_isContinuation_of_isUtf8_append {b : UInt8} {x y : List UInt8} (hx : IsUtf8 x)
    (hwhole : IsUtf8 (x ++ b :: y)) : ¬IsContinuation b := by
  obtain ⟨before, rfl⟩ := hx
  obtain ⟨chars, hchars⟩ := hwhole
  induction before generalizing chars with
  | nil =>
      cases chars with
      | nil => cases hchars
      | cons c chars =>
          obtain ⟨first, cont, henc, hfirst, -⟩ := utf8EncodeChar_bytes c
          rw [List.flatMap_cons, henc] at hchars
          cases hchars
          exact hfirst
  | cons c before ih =>
      cases chars with
      | nil =>
          obtain ⟨first, cont, henc, -⟩ := utf8EncodeChar_bytes c
          rw [List.flatMap_cons, henc] at hchars
          cases hchars
      | cons d chars =>
          rw [List.flatMap_cons, List.flatMap_cons, List.append_assoc] at hchars
          obtain rfl := utf8EncodeChar_append_inj hchars
          exact ih chars (List.append_cancel_left hchars)

/-- A cut in front of a byte that does not continue a character leaves whole
characters. -/
theorem isUtf8_of_append {b : UInt8} {x y : List UInt8} (hwhole : IsUtf8 (x ++ b :: y))
    (hb : ¬IsContinuation b) : IsUtf8 x := by
  obtain ⟨chars, hchars⟩ := hwhole
  induction chars generalizing x with
  | nil => simp at hchars
  | cons c chars ih =>
      obtain ⟨first, cont, henc, -, hcont⟩ := utf8EncodeChar_bytes c
      rw [List.flatMap_cons] at hchars
      rcases List.append_eq_append_iff.mp hchars with ⟨mid, hmid, hrest⟩ | ⟨mid, rfl, hrest⟩
      · -- the cut is inside the character, or in front of it
        cases x with
        | nil => exact isUtf8_nil
        | cons x0 x =>
            cases mid with
            | nil =>
                rw [List.append_nil] at hmid
                exact ⟨[c], by rw [← hmid]; simp⟩
            | cons m mid =>
                rw [henc] at hmid
                cases hmid
                cases hrest
                exact absurd (hcont b (by simp)) hb
      · obtain ⟨before, hbefore⟩ := ih hrest.symm
        exact ⟨c :: before, by rw [List.flatMap_cons, ← hbefore]⟩

end RWebTransport
