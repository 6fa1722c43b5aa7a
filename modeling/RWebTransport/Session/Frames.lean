import RWebTransport.Session.Reading

/-!
# Frames in a byte stream

Where the first frame of some bytes ends, and what the peer's control stream may
not contain.  A frame parser holds the bytes behind the frames it has taken, so
what it finds does not depend on how the bytes were cut into chunks.
-/

namespace RWebTransport

/-- What some bytes begin with. -/
inductive FrameHead where
  | incomplete
  /-- A frame that is longer than the parser takes. -/
  | oversized
  | frame (ty : Nat) (payload rest : Bytes)
deriving DecidableEq, Repr

/-- The first frame of some bytes. -/
def frameHead (bytes : Bytes) : FrameHead :=
  match H3.readVarint bytes with
  | none => .incomplete
  | some (ty, n1) =>
      match H3.readVarint (bytes.drop n1) with
      | none => .incomplete
      | some (len, n2) =>
          if maxControlFrame < len then .oversized
          else if bytes.length < n1 + n2 + len then .incomplete
          else .frame ty ((bytes.drop (n1 + n2)).take len) (bytes.drop (n1 + n2 + len))

theorem frameHead_spec (bytes : Bytes) : frameHead bytes = .incomplete ∨
    ∃ ty n1 len n2, H3.readVarint bytes = some (ty, n1) ∧
      H3.readVarint (bytes.drop n1) = some (len, n2) ∧
      (maxControlFrame < len ∧ frameHead bytes = .oversized ∨
        len ≤ maxControlFrame ∧ n1 + n2 + len ≤ bytes.length ∧ frameHead bytes =
          .frame ty ((bytes.drop (n1 + n2)).take len) (bytes.drop (n1 + n2 + len))) := by
  unfold frameHead
  cases hty : H3.readVarint bytes with
  | none => exact .inl rfl
  | some r =>
      obtain ⟨ty, n1⟩ := r
      cases hlen : H3.readVarint (bytes.drop n1) with
      | none => exact .inl (by simp only [hlen])
      | some r =>
          obtain ⟨len, n2⟩ := r
          simp only [hlen]
          split
          next hover => exact .inr ⟨ty, n1, len, n2, rfl, hlen, .inl ⟨hover, rfl⟩⟩
          next hfits =>
            split
            · exact .inl rfl
            next hwhole =>
              exact .inr ⟨ty, n1, len, n2, rfl, hlen, .inr ⟨by omega, by omega, rfl⟩⟩

/-- More bytes do not change what was found. -/
theorem frameHead_append {bytes : Bytes} (more : Bytes) :
    (frameHead bytes = .oversized → frameHead (bytes ++ more) = .oversized) ∧
      ∀ ty payload rest, frameHead bytes = .frame ty payload rest →
        frameHead (bytes ++ more) = .frame ty payload (rest ++ more) := by
  rcases frameHead_spec bytes with hnone | ⟨ty, n1, len, n2, hty, hlen, h⟩
  · rw [hnone]
    exact ⟨fun h => (by cases h), fun _ _ _ h => (by cases h)⟩
  · have hn1 := (H3.readVarint_len hty).2
    have hn2 := (H3.readVarint_len hlen).2
    rw [List.length_drop] at hn2
    have hty' := H3.readVarint_append hty more
    have hlen' := H3.readVarint_append hlen more
    rw [← List.drop_append_of_le_length hn1] at hlen'
    have hhead : frameHead (bytes ++ more) = if maxControlFrame < len then .oversized
        else if (bytes ++ more).length < n1 + n2 + len then .incomplete
        else .frame ty (((bytes ++ more).drop (n1 + n2)).take len)
          ((bytes ++ more).drop (n1 + n2 + len)) := by
      unfold frameHead
      simp only [hty', hlen']
    rcases h with ⟨hover, hb⟩ | ⟨hfits, hwhole, hb⟩
    · rw [hb, hhead, if_pos hover]
      exact ⟨fun _ => rfl, fun _ _ _ h => (by cases h)⟩
    · have hlong : n1 + n2 + len ≤ (bytes ++ more).length := by
        rw [List.length_append]
        omega
      rw [hb, hhead, if_neg (by omega), if_neg (by omega)]
      refine ⟨fun h => (by cases h), fun ty' payload rest h => ?_⟩
      cases h
      have hstart : n1 + n2 ≤ bytes.length := by omega
      have hbody : len ≤ (bytes.drop (n1 + n2)).length := by
        rw [List.length_drop]
        omega
      rw [List.drop_append_of_le_length hstart, List.take_append_of_le_length hbody,
        List.drop_append_of_le_length hwhole]

/-- A frame is not empty. -/
theorem frameHead_length {bytes payload rest : Bytes} {ty : Nat}
    (h : frameHead bytes = .frame ty payload rest) : rest.length < bytes.length := by
  rcases frameHead_spec bytes with hnone | ⟨ty', n1, len, n2, hty, hlen, ⟨-, hb⟩ | ⟨-, hwhole, hb⟩⟩
  · rw [hnone] at h
    cases h
  · rw [hb] at h
    cases h
  · rw [hb] at h
    cases h
    have hpos := (H3.readVarint_len hty).1
    rw [List.length_drop]
    omega

/-- Behind a frame come the last bytes, and its payload is not oversized. -/
theorem frameHead_rest {bytes payload rest : Bytes} {ty : Nat}
    (h : frameHead bytes = .frame ty payload rest) :
    bytes.drop (bytes.length - rest.length) = rest ∧ payload.length ≤ maxControlFrame := by
  rcases frameHead_spec bytes with hnone | ⟨ty', n1, len, n2, -, -, ⟨-, hb⟩ | ⟨hfits, hwhole, hb⟩⟩
  · rw [hnone] at h
    cases h
  · rw [hb] at h
    cases h
  · rw [hb] at h
    cases h
    constructor
    · congr 1
      rw [List.length_drop]
      omega
    · exact (List.length_take_le len _).trans hfits

/-- What a frame's encoding begins with is the frame. -/
theorem frameHead_frame {ty : Nat} {payload : Bytes} (hty : ty < 2 ^ 62)
    (hpayload : payload.length ≤ maxControlFrame) (rest : Bytes) :
    frameHead (H3.frame ty payload ++ rest) = .frame ty payload rest := by
  have hmax : maxControlFrame < 2 ^ 62 := by decide
  have hbytes : H3.frame ty payload ++ rest =
      H3.putVarint ty ++ (H3.putVarint payload.length ++ (payload ++ rest)) := by
    simp [H3.frame]
  have hread := H3.readVarint_putVarint hty (H3.putVarint payload.length ++ (payload ++ rest))
  have hlen := H3.readVarint_drop_putVarint (v := payload.length) (by omega) (H3.putVarint ty)
    (payload ++ rest) (H3.length_putVarint ty)
  have hhead : (H3.putVarint ty ++ H3.putVarint payload.length).length =
      H3.varintLen ty + H3.varintLen payload.length := by simp
  unfold frameHead
  rw [hbytes, hread]
  simp only [hlen]
  rw [if_neg (by omega), if_neg (by simp; omega), ← List.append_assoc, List.drop_left' hhead,
    List.take_left' rfl, ← List.drop_drop, List.drop_left' hhead, List.drop_left' rfl]

/-! ## The frame parser -/

/-- What a call of `next_frame` does, by what its bytes begin with. -/
theorem FrameParser.nextFrame_eq {p : FrameParser} (h : Heap) (hok : p.error = false) :
    p.nextFrame h = match frameHead p.buf.data with
      | .incomplete => (none, p, h)
      | .oversized => (none, { p with error := true }, h)
      | .frame ty payload rest =>
          match (ParserBuffer.new p.buf.memory).extendFromSlice h payload with
          | (none, h') => (none, { p with error := true }, h')
          | (some copy, h') =>
              let (buf, h'') := p.buf.consume h' (p.buf.data.length - rest.length)
              (some (ty, copy), { p with buf := buf }, h'') := by
  unfold FrameParser.nextFrame frameHead
  rw [if_neg (by simp [hok])]
  cases hty : H3.readVarint p.buf.data with
  | none => rfl
  | some r =>
      obtain ⟨ty, n1⟩ := r
      simp only
      cases hlen : H3.readVarint (p.buf.data.drop n1) with
      | none => rfl
      | some r =>
          obtain ⟨len, n2⟩ := r
          simp only
          by_cases hover : maxControlFrame < len
          · simp only [if_pos hover]
          · by_cases hshort : p.buf.data.length < n1 + n2 + len
            · simp only [if_neg hover, if_pos hshort]
            · have htotal : p.buf.data.length - (p.buf.data.drop (n1 + n2 + len)).length =
                  n1 + n2 + len := by
                rw [List.length_drop]
                omega
              cases hcopy : (ParserBuffer.new p.buf.memory).extendFromSlice h
                  ((p.buf.data.drop (n1 + n2)).take len) with
              | mk copy h' =>
                  cases copy with
                  | none =>
                      simp only [if_neg hover, if_neg hshort, ParserBuffer.copyRange,
                        Nat.add_sub_cancel_left, hcopy]
                  | some copy =>
                      simp only [if_neg hover, if_neg hshort, htotal, ParserBuffer.copyRange,
                        Nat.add_sub_cancel_left, hcopy]

/-- What the parser finds is the first frame of its bytes, unless memory for the
copy is refused. -/
theorem FrameParser.nextFrame_spec {p : FrameParser} (h : Heap) (hok : p.error = false) :
    match p.nextFrame h with
    | (none, p', _) => p'.error = true ∨ p' = p ∧ frameHead p.buf.data = .incomplete
    | (some (ty, payload), p', _) => p'.error = false ∧
        frameHead p.buf.data = .frame ty payload.data p'.buf.data := by
  rw [FrameParser.nextFrame_eq h hok]
  cases hhead : frameHead p.buf.data with
  | incomplete => exact .inr ⟨rfl, rfl⟩
  | oversized => exact .inl rfl
  | frame ty payload rest =>
      cases hcopy : (ParserBuffer.new p.buf.memory).extendFromSlice h payload with
      | mk copy h' =>
          simp only [hcopy]
          cases copy with
          | none => exact .inl rfl
          | some copy =>
              have hdata : copy.data = payload := by
                simpa [ParserBuffer.new] using ParserBuffer.extendFromSlice_data hcopy
              refine ⟨hok, ?_⟩
              rw [hdata, ParserBuffer.consume_data, (frameHead_rest hhead).1]

/-! ## The peer's control stream -/

/-- The frame types that end the session on a control stream; `first` says that
no frame came before. -/
def forbiddenControl (first : Bool) (ty : Nat) : Bool :=
  if first then ty != H3.frameSettings
  else ty == H3.frameSettings || ty == H3.frameData || ty == H3.frameHeaders || ty == 0x2 ||
    ty == 0x6 || ty == 0x8 || ty == 0x9

/-- The bytes break a rule of the control stream. -/
inductive ControlViolation : Bool → Bytes → Prop
  | oversized {first : Bool} {bytes : Bytes} : frameHead bytes = .oversized →
      ControlViolation first bytes
  | forbidden {first : Bool} {bytes payload rest : Bytes} {ty : Nat} :
      frameHead bytes = .frame ty payload rest → forbiddenControl first ty = true →
      ControlViolation first bytes
  | later {first : Bool} {bytes payload rest : Bytes} {ty : Nat} :
      frameHead bytes = .frame ty payload rest → ControlViolation false rest →
      ControlViolation first bytes

theorem not_violation_of_incomplete {first : Bool} {bytes : Bytes}
    (h : frameHead bytes = .incomplete) : ¬ControlViolation first bytes := by
  intro hv
  cases hv with
  | oversized hb => simp [h] at hb
  | forbidden hb => simp [h] at hb
  | later hb => simp [h] at hb

/-- Behind a frame that is allowed the violation comes later. -/
theorem ControlViolation.behind {first : Bool} {bytes payload rest : Bytes} {ty : Nat}
    (hv : ControlViolation first bytes) (h : frameHead bytes = .frame ty payload rest)
    (hok : forbiddenControl first ty = false) : ControlViolation false rest := by
  cases hv with
  | oversized hb => simp [h] at hb
  | forbidden hb hbad =>
      rw [h] at hb
      cases hb
      simp [hok] at hbad
  | later hb hrest =>
      rw [h] at hb
      cases hb
      exact hrest

/-- What a control stream that is open holds: `rest` is what was read of it
behind its type, and `buf` is what the parser has not taken yet. -/
structure Follows (rest : Bytes) (first : Bool) (buf : Bytes) : Prop where
  violation : ∀ more, ControlViolation true (rest ++ more) → ControlViolation first (buf ++ more)
  untouched : first = true → buf = rest

theorem Follows.start (rest : Bytes) : Follows rest true rest := ⟨fun _ h => h, fun _ => rfl⟩

theorem Follows.push {rest buf : Bytes} {first : Bool} (h : Follows rest first buf) (chunk : Bytes) :
    Follows (rest ++ chunk) first (buf ++ chunk) where
  violation more hv := by
    rw [List.append_assoc] at hv ⊢
    exact h.violation _ hv
  untouched hf := by rw [h.untouched hf]

theorem Follows.take {rest buf payload buf' : Bytes} {first : Bool} {ty : Nat}
    (h : Follows rest first buf) (hb : frameHead buf = .frame ty payload buf')
    (hok : forbiddenControl first ty = false) : Follows rest false buf' where
  violation more hv :=
    (h.violation more hv).behind ((frameHead_append more).2 ty payload buf' hb) hok
  untouched hf := by cases hf

/-- When the parser finds nothing more, no rule was broken. -/
theorem Follows.clean {rest buf : Bytes} {first : Bool} (h : Follows rest first buf)
    (hb : frameHead buf = .incomplete) : ¬ControlViolation true rest := fun hv =>
  not_violation_of_incomplete hb (by simpa using h.violation [] (by simpa using hv))

end RWebTransport
