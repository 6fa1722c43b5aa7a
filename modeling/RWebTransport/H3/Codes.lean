import RWebTransport.H3.Settings

/-!
# Error codes

WebTransport application codes in the error space of HTTP/3.  The encoding adds
a step behind every thirty codes, so that it passes over the reserved
codepoints; the decoding takes the steps back.  Both divide, by 30 and by 31,
and the two quotients agree since the range starts right behind a reserved
codepoint.
-/

namespace RWebTransport.H3

/-- A codepoint that is reserved to exercise unknown codes. -/
def IsGrease (h : Nat) : Prop := ∃ n, h = 0x1f * n + 0x21

/-- What the range of application codes starts behind. -/
theorem wtAppErrorFirst_eq : wtAppErrorFirst = 0x1f * ((wtAppErrorFirst - 0x22) / 0x1f) + 0x22 := by
  decide

/-- A code above the start of the range is reserved exactly if it is the last
one of its block of thirty-one. -/
theorem isGrease_iff {h : Nat} (hfirst : wtAppErrorFirst ≤ h) :
    IsGrease h ↔ (h - wtAppErrorFirst) % 0x1f = 0x1e := by
  have hstart := wtAppErrorFirst_eq
  generalize (wtAppErrorFirst - 0x22) / 0x1f = k at hstart
  constructor
  · rintro ⟨n, rfl⟩
    omega
  · intro hlast
    exact ⟨k + (h - wtAppErrorFirst) / 0x1f + 1, by omega⟩

/-- The reserved codepoints, as the decoder tells them. -/
theorem isGrease_iff_mod {h : Nat} (hfirst : wtAppErrorFirst ≤ h) :
    IsGrease h ↔ (h - 0x21) % 0x1f = 0 := by
  have hstart : 0x21 ≤ wtAppErrorFirst := by decide
  constructor
  · rintro ⟨n, rfl⟩
    omega
  · intro hmod
    exact ⟨(h - 0x21) / 0x1f, by omega⟩

/-- The steps of the encoding and of the decoding are the same. -/
theorem steps_eq (n : Nat) : (n + n / 0x1e) / 0x1f = n / 0x1e := by omega

theorem webtransportCodeToHttpCode_lt {m n : Nat} (h : m < n) :
    webtransportCodeToHttpCode m < webtransportCodeToHttpCode n := by
  have hstep : m / 0x1e ≤ n / 0x1e := Nat.div_le_div_right h.le
  unfold webtransportCodeToHttpCode
  omega

theorem webtransportCodeToHttpCode_range {n : Nat} (hn : n < 2 ^ 32) :
    wtAppErrorFirst ≤ webtransportCodeToHttpCode n ∧ webtransportCodeToHttpCode n ≤ wtAppErrorLast := by
  have hlast : webtransportCodeToHttpCode (2 ^ 32 - 1) = wtAppErrorLast := by decide
  constructor
  · unfold webtransportCodeToHttpCode
    omega
  · rw [← hlast]
    rcases Nat.lt_or_ge n (2 ^ 32 - 1) with hlt | hge
    · exact (webtransportCodeToHttpCode_lt hlt).le
    · obtain rfl : n = 2 ^ 32 - 1 := by omega
      exact le_refl _

theorem not_isGrease_webtransportCodeToHttpCode (n : Nat) :
    ¬IsGrease (webtransportCodeToHttpCode n) := by
  have hfirst : wtAppErrorFirst ≤ webtransportCodeToHttpCode n := by
    unfold webtransportCodeToHttpCode
    omega
  rw [isGrease_iff hfirst]
  unfold webtransportCodeToHttpCode
  omega

/-- What the decoder answers. -/
theorem httpCodeToWebtransportCode_eq_some {h n : Nat} : httpCodeToWebtransportCode h = some n ↔
    (wtAppErrorFirst ≤ h ∧ h ≤ wtAppErrorLast) ∧ ¬IsGrease h ∧
      n = h - wtAppErrorFirst - (h - wtAppErrorFirst) / 0x1f := by
  unfold httpCodeToWebtransportCode
  split_ifs with hrange hgrease
  · simp [(isGrease_iff_mod hrange.1).mpr hgrease]
  · simp only [Option.some.injEq, hrange, and_self, true_and,
      (isGrease_iff_mod hrange.1).not.mpr hgrease, not_false_eq_true]
    exact eq_comm
  · simp [hrange]

/-- The decoder finds the code that was encoded. -/
theorem httpCodeToWebtransportCode_encoded {n : Nat} (hn : n < 2 ^ 32) :
    httpCodeToWebtransportCode (webtransportCodeToHttpCode n) = some n := by
  refine httpCodeToWebtransportCode_eq_some.mpr
    ⟨webtransportCodeToHttpCode_range hn, not_isGrease_webtransportCodeToHttpCode n, ?_⟩
  have hshifted : webtransportCodeToHttpCode n - wtAppErrorFirst = n + n / 0x1e := by
    unfold webtransportCodeToHttpCode
    omega
  rw [hshifted, steps_eq, Nat.add_sub_cancel]

/-- What was decoded encodes to the same code. -/
theorem webtransportCodeToHttpCode_decoded {h n : Nat} (hn : httpCodeToWebtransportCode h = some n) :
    n < 2 ^ 32 ∧ webtransportCodeToHttpCode n = h := by
  obtain ⟨⟨hfirst, hlast⟩, hgrease, rfl⟩ := httpCodeToWebtransportCode_eq_some.mp hn
  rw [isGrease_iff hfirst] at hgrease
  have hsize : wtAppErrorLast - wtAppErrorFirst = 2 ^ 32 - 1 + (2 ^ 32 - 1) / 0x1e := by decide
  unfold webtransportCodeToHttpCode
  constructor <;> omega

/-- The mapping of error codes is a bijection onto its image: the codes of the
range that are not reserved. -/
theorem errorCodes_bijective :
    (∀ n < 2 ^ 32, httpCodeToWebtransportCode (webtransportCodeToHttpCode n) = some n ∧
      wtAppErrorFirst ≤ webtransportCodeToHttpCode n ∧
      webtransportCodeToHttpCode n ≤ wtAppErrorLast ∧ ¬IsGrease (webtransportCodeToHttpCode n)) ∧
    (∀ m n, m < n → n < 2 ^ 32 → webtransportCodeToHttpCode m < webtransportCodeToHttpCode n) ∧
    ∀ h < 2 ^ 64, ((∃ n, httpCodeToWebtransportCode h = some n) ↔
        wtAppErrorFirst ≤ h ∧ h ≤ wtAppErrorLast ∧ ¬IsGrease h) ∧
      ∀ n, httpCodeToWebtransportCode h = some n → n < 2 ^ 32 ∧ webtransportCodeToHttpCode n = h := by
  refine ⟨fun n hn => ?_, fun m n hmn _ => webtransportCodeToHttpCode_lt hmn, fun h _ => ⟨?_, ?_⟩⟩
  · obtain ⟨hfirst, hlast⟩ := webtransportCodeToHttpCode_range hn
    exact ⟨httpCodeToWebtransportCode_encoded hn, hfirst, hlast,
      not_isGrease_webtransportCodeToHttpCode n⟩
  · constructor
    · rintro ⟨n, hn⟩
      obtain ⟨⟨hfirst, hlast⟩, hgrease, -⟩ := httpCodeToWebtransportCode_eq_some.mp hn
      exact ⟨hfirst, hlast, hgrease⟩
    · rintro ⟨hfirst, hlast, hgrease⟩
      exact ⟨_, httpCodeToWebtransportCode_eq_some.mpr ⟨⟨hfirst, hlast⟩, hgrease, rfl⟩⟩
  · intro n hn
    exact webtransportCodeToHttpCode_decoded hn

end RWebTransport.H3
