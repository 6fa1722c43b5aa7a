import RWebTransport.Session.Receive

/-!
# Subprotocol fields

How the two header fields of subprotocol negotiation survive the way between
two endpoints.  ASCII text is its own UTF-8 encoding, so that what one side
writes with `as_bytes` the other side reads unchanged; QPACK turns the names of
fields into lower case.
-/

namespace RWebTransport.H3

/-! ## ASCII text -/

/-- A byte array is the list of its bytes. -/
theorem toList_eq (b : ByteArray) : b.toList = b.data.toList := by
  have hloop : ∀ (n i : Nat) (r : Bytes), b.size - i = n →
      ByteArray.toList.loop b i r = r.reverse ++ b.data.toList.drop i := by
    intro n
    induction n with
    | zero =>
        intro i r hn
        have hsize : b.data.toList.length = b.size := rfl
        rw [ByteArray.toList.loop, if_neg (by omega), List.drop_eq_nil_of_le (by omega),
          List.append_nil]
    | succ n ih =>
        intro i r hn
        have hsize : b.data.toList.length = b.size := rfl
        have hlt : i < b.data.toList.length := by omega
        rw [ByteArray.toList.loop, if_pos (by omega), ih (i + 1) _ (by omega),
          List.drop_eq_getElem_cons hlt]
        have hget : b.get! i = b.data.toList[i] := getElem!_pos b.data i hlt
        simp [hget]
  rw [ByteArray.toList, hloop _ 0 [] rfl]
  rfl

/-- All characters are ASCII. -/
def IsAscii (s : String) : Prop := ∀ c ∈ s.toList, c.toNat < 0x80

theorem utf8EncodeChar_ascii {c : Char} (h : c.toNat < 0x80) :
    String.utf8EncodeChar c = [UInt8.ofNat c.toNat] := by
  have hval : c.val.toNat = c.toNat := rfl
  have hsize : c.utf8Size = 1 := by
    rw [Char.utf8Size_eq_one_iff, UInt32.le_iff_toNat_le]
    show c.val.toNat ≤ 127
    omega
  rw [String.utf8EncodeChar_eq_singleton hsize]
  rfl

theorem asBytes_eq {s : String} (h : IsAscii s) : asBytes s = ascii s := by
  have hlist : ∀ l : List Char, (∀ c ∈ l, c.toNat < 0x80) →
      l.flatMap String.utf8EncodeChar = l.map fun c => UInt8.ofNat c.toNat := by
    intro l hl
    induction l with
    | nil => rfl
    | cons c l ih =>
        rw [List.flatMap_cons, utf8EncodeChar_ascii (hl c List.mem_cons_self),
          ih fun d hd => hl d (List.mem_cons_of_mem _ hd)]
        rfl
  rw [asBytes, toList_eq, String.toUTF8_eq_toByteArray, ← String.utf8Encode_toList, List.utf8Encode,
    List.toList_data_toByteArray, hlist _ h, ascii]

/-- Every ASCII byte is a character of its own. -/
theorem utf8Chars_ascii {l : List Char} (h : ∀ c ∈ l, c.toNat < 0x80) {fuel : Nat}
    (hfuel : l.length ≤ fuel) :
    utf8Chars fuel (l.map fun c => UInt8.ofNat c.toNat) = l.map some := by
  induction l generalizing fuel with
  | nil => cases fuel <;> rfl
  | cons c l ih =>
      cases fuel with
      | zero => simp at hfuel
      | succ fuel =>
          have hc := h c List.mem_cons_self
          have hbyte : (UInt8.ofNat c.toNat).toNat = c.toNat := by
            rw [UInt8.toNat_ofNat']
            omega
          have hhead : utf8Head (UInt8.ofNat c.toNat) (l.map fun c => UInt8.ofNat c.toNat) =
              (some c, 1) := by
            simp [utf8Head, continuationRanges, hbyte, hc, matchRanges, codePoint]
          rw [List.map_cons, utf8Chars, hhead, List.map_cons]
          simp only [Nat.sub_self, List.drop_zero]
          rw [ih (fun d hd => h d (List.mem_cons_of_mem _ hd)) (by simpa using hfuel)]

theorem fromUtf8_asBytes {s : String} (h : IsAscii s) : fromUtf8 (asBytes s) = some s := by
  have hchars : utf8Chars (ascii s).length (ascii s) = s.toList.map some :=
    utf8Chars_ascii h (by simp [ascii])
  rw [asBytes_eq h, fromUtf8, hchars]
  simp

theorem fromUtf8Lossy_asBytes {s : String} (h : IsAscii s) : fromUtf8Lossy (asBytes s) = s := by
  have hchars : utf8Chars (ascii s).length (ascii s) = s.toList.map some :=
    utf8Chars_ascii h (by simp [ascii])
  rw [asBytes_eq h, fromUtf8Lossy, hchars]
  simp [Function.comp_def]

/-! ## Structured fields -/

/-- Characters a structured-field string may hold. -/
def IsPrintable (s : String) : Prop := ∀ c ∈ s.toList, 0x20 ≤ c.toNat ∧ c.toNat < 0x7f

theorem serializeSfString_ascii {s : String} (h : IsPrintable s) : IsAscii (serializeSfString s) := by
  intro c hc
  simp only [serializeSfString, String.toList_ofList, List.cons_append, List.mem_cons,
    List.mem_append, List.mem_flatMap] at hc
  rcases hc with rfl | ⟨d, hd, hc⟩ | hc
  · decide
  · have hlt := (h d hd).2
    split at hc
    · rcases List.mem_cons.mp hc with rfl | hc
      · decide
      · rw [List.mem_singleton.mp hc]
        omega
    · rw [List.mem_singleton.mp hc]
      omega
  · rcases hc with rfl | hc
    · decide
    · cases hc

theorem isAscii_append {a b : String} (ha : IsAscii a) (hb : IsAscii b) : IsAscii (a ++ b) := by
  intro c hc
  rw [String.toList_append, List.mem_append] at hc
  exact hc.elim (ha c) (hb c)

theorem isAscii_intercalate {sep : String} (hsep : IsAscii sep) :
    ∀ {items : List String}, (∀ s ∈ items, IsAscii s) → IsAscii (sep.intercalate items)
  | [], _ => by simp [IsAscii]
  | [s], h => by simpa using h s List.mem_cons_self
  | s :: t :: rest, h => by
      rw [String.intercalate_cons_cons]
      exact isAscii_append (isAscii_append (h s List.mem_cons_self) hsep)
        (isAscii_intercalate hsep fun u hu => h u (List.mem_cons_of_mem _ hu))

theorem serializeSfStringList_ascii {items : List String} (h : ∀ s ∈ items, IsPrintable s) :
    IsAscii (serializeSfStringList items) := by
  have hsep : IsAscii ", " := by simp [IsAscii]
  refine isAscii_intercalate hsep fun s hs => ?_
  obtain ⟨item, hitem, rfl⟩ := List.mem_map.mp hs
  exact serializeSfString_ascii (h item hitem)

/-- Nothing is trimmed off a quoted string. -/
theorem trim_serializeSfString (s : String) : trim (serializeSfString s) = serializeSfString s := by
  simp [trim, serializeSfString, show isWhitespace '"' = false by decide]

/-! ## Headers on the wire -/

/-- `to_ascii_lowercase` on a byte. -/
def lowerByte (b : UInt8) : UInt8 := if 0x41 ≤ b ∧ b ≤ 0x5a then b + 0x20 else b

/-- A field as QPACK delivers it. -/
def Header.lower (h : Header) : Header := { h with name := h.name.map lowerByte }

/-- The values of the fields of a name. -/
def valuesOf (name : Bytes) (headers : List Header) : List Bytes :=
  (headers.filter fun h => h.name == name).map Header.value

@[simp]
theorem valuesOf_nil (name : Bytes) : valuesOf name [] = [] := rfl

theorem valuesOf_cons (name : Bytes) (h : Header) (headers : List Header) :
    valuesOf name (h :: headers) =
      if h.name = name then h.value :: valuesOf name headers else valuesOf name headers := by
  by_cases heq : h.name = name <;> simp [valuesOf, heq]

theorem valuesOf_append (name : Bytes) (a b : List Header) :
    valuesOf name (a ++ b) = valuesOf name a ++ valuesOf name b := by
  simp [valuesOf]

variable [Codec]

/-- The response reader looks at the values of `wt-protocol` alone. -/
theorem wtProtocolOf_eq (headers : List Header) : wtProtocolOf headers =
    match valuesOf wtProtocol headers with
    | [value] => (fromUtf8 value).bind fun v => parseSfStringItem (trim v)
    | _ => none := by
  unfold wtProtocolOf valuesOf
  cases headers.filter fun h => h.name == wtProtocol with
  | nil => rfl
  | cons h rest => cases rest <;> rfl

end RWebTransport.H3

namespace RWebTransport.Endpoint

open H3

/-- The request reader collects the values of `wt-available-protocols`. -/
theorem ConnectRequest.protocolFields_eq (headers : List Header) :
    (ConnectRequest.ofHeaders headers).protocolFields =
      (valuesOf wtAvailableProtocols headers).map fromUtf8Lossy := by
  have hfold : ∀ (headers : List Header) (r : ConnectRequest),
      (headers.foldl ConnectRequest.header r).protocolFields =
        r.protocolFields ++ (valuesOf wtAvailableProtocols headers).map fromUtf8Lossy := by
    intro headers
    induction headers with
    | nil => intro r; simp
    | cons h headers ih =>
        intro r
        rw [List.foldl_cons, ih, valuesOf_cons]
        by_cases heq : h.name = wtAvailableProtocols
        · have hstep : (r.header h).protocolFields = r.protocolFields ++ [fromUtf8Lossy h.value] := by
            unfold ConnectRequest.header
            rw [heq, if_neg (by decide), if_neg (by decide), if_neg (by decide), if_neg (by decide),
              if_neg (by decide), if_pos rfl]
          rw [hstep, if_pos heq]
          simp
        · have hstep : (r.header h).protocolFields = r.protocolFields := by
            unfold ConnectRequest.header
            rw [if_neg heq]
            split_ifs <;> rfl
          rw [hstep, if_neg heq]
  exact hfold headers {}

end RWebTransport.Endpoint
