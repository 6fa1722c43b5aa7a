import RWebTransport.Lib.Utf8
import RWebTransport.Session.Send

/-!
# Close reasons

`truncate_close_reason` cuts in front of the last byte, at or before the limit,
that does not continue a character.  In a well-formed reason that is the longest
prefix of whole characters; bytes of a hostile peer are cut somewhere before the
limit, and no index is out of bounds.
-/

namespace RWebTransport

namespace H3

/-- The scan of `truncate_close_reason`, which reads `reason[end]`; an index out of
bounds is `none`. -/
def checkedCharStart (reason : Bytes) : Nat → Option Nat
  | 0 => some 0
  | stop + 1 =>
      (reason[stop + 1]?).bind fun b =>
        if b.toNat / 64 = 2 then checkedCharStart reason stop else some (stop + 1)

/-- `truncate_close_reason` with its indices checked. -/
def checkedTruncateCloseReason (reason : Bytes) : Option Bytes :=
  if reason.length ≤ wtMaxCloseReason then some reason
  else (checkedCharStart reason wtMaxCloseReason).map fun stop => reason.take stop

variable {reason : Bytes}

/-- The scan only reads what is there. -/
theorem checkedCharStart_eq {stop : Nat} (h : stop < reason.length) :
    checkedCharStart reason stop = some (charStart reason stop) := by
  induction stop with
  | zero => rfl
  | succ stop ih =>
      rw [checkedCharStart, charStart, List.getElem?_eq_getElem h, List.getD_eq_getElem?_getD, List.getElem?_eq_getElem h, Option.getD_some,
        Option.bind_some, ih (by omega)]
      split <;> rfl

theorem checkedTruncateCloseReason_eq (reason : Bytes) :
    checkedTruncateCloseReason reason = some (truncateCloseReason reason) := by
  unfold checkedTruncateCloseReason truncateCloseReason
  split_ifs with hlen
  · rfl
  · rw [checkedCharStart_eq (by omega), Option.map_some]

theorem charStart_le (reason : Bytes) (stop : Nat) : charStart reason stop ≤ stop := by
  induction stop with
  | zero => exact Nat.le_refl 0
  | succ stop ih =>
      rw [charStart]
      split <;> omega

/-- The scan passes over no place where a character may start. -/
theorem le_charStart {stop k : Nat} (hk : k ≤ stop)
    (hstart : ¬IsContinuation (reason.getD k 0)) : k ≤ charStart reason stop := by
  induction stop with
  | zero => omega
  | succ stop ih =>
      rw [charStart]
      split
      next hcont =>
        have hne : k ≠ stop + 1 := by
          rintro rfl
          exact hstart hcont
        exact ih (by omega)
      · omega

/-- Where the scan stops, no character goes on. -/
theorem charStart_spec (reason : Bytes) (stop : Nat) :
    charStart reason stop = 0 ∨ ¬IsContinuation (reason.getD (charStart reason stop) 0) := by
  induction stop with
  | zero => exact .inl rfl
  | succ stop ih =>
      rw [charStart]
      split
      · exact ih
      next hstart => exact .inr hstart

theorem truncateCloseReason_prefix (reason : Bytes) : truncateCloseReason reason <+: reason := by
  unfold truncateCloseReason
  split
  · exact List.prefix_rfl
  · exact List.take_prefix _ reason

theorem length_truncateCloseReason_le (reason : Bytes) :
    (truncateCloseReason reason).length ≤ wtMaxCloseReason := by
  unfold truncateCloseReason
  split
  · assumption
  · exact (List.length_take_le _ reason).trans (charStart_le reason _)

/-- What was cut is short enough. -/
theorem truncateCloseReason_idem (reason : Bytes) :
    truncateCloseReason (truncateCloseReason reason) = truncateCloseReason reason :=
  if_pos (length_truncateCloseReason_le reason)

/-- A text is cut behind a character. -/
theorem isUtf8_truncateCloseReason (h : IsUtf8 reason) : IsUtf8 (truncateCloseReason reason) := by
  unfold truncateCloseReason
  split
  · exact h
  next hlen =>
    rcases charStart_spec reason wtMaxCloseReason with hzero | hstart
    · rw [hzero]
      exact isUtf8_nil
    · have hlt : charStart reason wtMaxCloseReason < reason.length :=
        (charStart_le reason _).trans_lt (by omega)
      rw [List.getD_eq_getElem?_getD, List.getElem?_eq_getElem hlt, Option.getD_some] at hstart
      rw [← List.take_append_drop (charStart reason wtMaxCloseReason) reason,
        List.drop_eq_getElem_cons hlt] at h
      exact isUtf8_of_append h hstart

/-- No longer prefix is text within the limit. -/
theorem length_le_truncateCloseReason (h : IsUtf8 reason) {x : Bytes} (hpre : x <+: reason)
    (hx : IsUtf8 x) (hlen : x.length ≤ wtMaxCloseReason) :
    x.length ≤ (truncateCloseReason reason).length := by
  unfold truncateCloseReason
  split
  · exact hpre.length_le
  next hlong =>
    obtain ⟨rest, rfl⟩ := hpre
    cases rest with
    | nil =>
        rw [List.append_nil] at hlong
        exact absurd hlen hlong
    | cons b rest =>
        have hstart := not_isContinuation_of_isUtf8_append hx h
        have hget : (x ++ b :: rest).getD x.length 0 = b := by simp
        rw [← hget] at hstart
        rw [List.length_take]
        have hfound := le_charStart hlen hstart
        rw [List.length_append]
        omega

end H3

namespace Endpoint

/-- The receiver of a close reads the code and cuts the reason again. -/
theorem closeCapsuleInfo_closeValue {code : Nat} (hcode : code < 2 ^ 32) (reason : Bytes) :
    closeCapsuleInfo (closeValue code reason) = (code, H3.truncateCloseReason reason) := by
  have hlen : 4 ≤ (closeValue code reason).length := by simp [closeValue]
  rw [closeCapsuleInfo, if_pos hlen]
  simp only [closeValue, List.cons_append, List.nil_append, List.take_succ_cons, List.take_zero,
    List.drop_succ_cons, List.drop_zero, List.foldl_cons, List.foldl_nil, H3.toNat_asU8]
  congr 1
  omega

/-- A text is cut to its longest prefix of whole characters that takes at most
1024 bytes; what one side has cut, the other side takes as it is.  Of any bytes
the cut is a prefix of that size, and no index on the way is out of bounds. -/
theorem closeReason_cut :
    (∀ reason, IsUtf8 reason → IsUtf8 (H3.truncateCloseReason reason) ∧
      ∀ x, x <+: reason → IsUtf8 x → x.length ≤ 1024 → x <+: H3.truncateCloseReason reason) ∧
    (∀ reason, H3.truncateCloseReason (H3.truncateCloseReason reason) = H3.truncateCloseReason reason) ∧
    (∀ code < 2 ^ 32, ∀ reason, closeCapsuleInfo (closeValue code (H3.truncateCloseReason reason)) =
      (code, H3.truncateCloseReason reason)) ∧
    ∀ reason, H3.checkedTruncateCloseReason reason = some (H3.truncateCloseReason reason) ∧
      H3.truncateCloseReason reason <+: reason ∧ (H3.truncateCloseReason reason).length ≤ 1024 := by
  refine ⟨fun reason h => ⟨H3.isUtf8_truncateCloseReason h, fun x hpre hx hlen => ?_⟩,
    H3.truncateCloseReason_idem, fun code hcode reason => ?_, fun reason => ⟨?_, ?_, ?_⟩⟩
  · exact List.prefix_of_prefix_length_le hpre (H3.truncateCloseReason_prefix reason)
      (H3.length_le_truncateCloseReason h hpre hx hlen)
  · rw [closeCapsuleInfo_closeValue hcode, H3.truncateCloseReason_idem]
  · exact H3.checkedTruncateCloseReason_eq reason
  · exact H3.truncateCloseReason_prefix reason
  · exact H3.length_truncateCloseReason_le reason

/-- 1023 letters, and one that takes two bytes. -/
def sampleReason : Bytes := List.replicate 1023 0x61 ++ [0xc3, 0xa9]

theorem closeReason_cut_sample : IsUtf8 (H3.truncateCloseReason sampleReason) :=
  (closeReason_cut.1 sampleReason ⟨List.replicate 1023 'a' ++ ['é'], by decide +kernel⟩).1

end Endpoint

end RWebTransport
