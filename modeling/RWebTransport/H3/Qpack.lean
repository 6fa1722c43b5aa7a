import RWebTransport.H3.Subprotocol
import RWebTransport.Lib.PrefixInt

/-!
# Static QPACK

The vendored `quiche::h3::qpack`, which writes and reads header blocks without a
dynamic table.  Huffman coding is a library's (`octets`) and a parameter here.

A header block reads back as the headers that were written, with their names in
lower case, unless they exceed the limit of the reader.  The buffer that
`encode_headers_frame` allocates suffices.
-/

namespace RWebTransport.H3.Qpack

/-- What `octets` does with Huffman codes. -/
class Huffman where
  /-- `huffman_encoding_len`; an encoding longer than the string is refused. -/
  encodingLen : (lowerCase : Bool) → Bytes → Option Nat
  /-- What `put_huffman_encoded` appends. -/
  putEncoded : (lowerCase : Bool) → Bytes → Bytes
  /-- `get_huffman_decoded`. -/
  getDecoded : Bytes → Option Bytes

inductive Error where
  | bufferTooShort
  | invalidHuffmanEncoding
  | invalidStaticTableIndex
  | invalidHeaderValue
  | headerListTooLarge
deriving DecidableEq, Repr

/-- The debug text of an error. -/
def Error.debug : Error → String
  | .bufferTooShort => "BufferTooShort"
  | .invalidHuffmanEncoding => "InvalidHuffmanEncoding"
  | .invalidStaticTableIndex => "InvalidStaticTableIndex"
  | .invalidHeaderValue => "InvalidHeaderValue"
  | .headerListTooLarge => "HeaderListTooLarge"

/-! ## The static table -/

/-- `STATIC_DECODE_TABLE`. -/
def staticDecodeTable : List (Bytes × Bytes) :=
  [(":authority", ""), (":path", "/"), ("age", "0"), ("content-disposition", ""),
    ("content-length", "0"), ("cookie", ""), ("date", ""), ("etag", ""),
    ("if-modified-since", ""), ("if-none-match", ""), ("last-modified", ""), ("link", ""),
    ("location", ""), ("referer", ""), ("set-cookie", ""), (":method", "CONNECT"),
    (":method", "DELETE"), (":method", "GET"), (":method", "HEAD"), (":method", "OPTIONS"),
    (":method", "POST"), (":method", "PUT"), (":scheme", "http"), (":scheme", "https"),
    (":status", "103"), (":status", "200"), (":status", "304"), (":status", "404"),
    (":status", "503"), ("accept", "*/*"), ("accept", "application/dns-message"),
    ("accept-encoding", "gzip, deflate, br"), ("accept-ranges", "bytes"),
    ("access-control-allow-headers", "cache-control"),
    ("access-control-allow-headers", "content-type"), ("access-control-allow-origin", "*"),
    ("cache-control", "max-age=0"), ("cache-control", "max-age=2592000"),
    ("cache-control", "max-age=604800"), ("cache-control", "no-cache"),
    ("cache-control", "no-store"), ("cache-control", "public, max-age=31536000"),
    ("content-encoding", "br"), ("content-encoding", "gzip"),
    ("content-type", "application/dns-message"), ("content-type", "application/javascript"),
    ("content-type", "application/json"), ("content-type", "application/x-www-form-urlencoded"),
    ("content-type", "image/gif"), ("content-type", "image/jpeg"), ("content-type", "image/png"),
    ("content-type", "text/css"), ("content-type", "text/html; charset=utf-8"),
    ("content-type", "text/plain"), ("content-type", "text/plain;charset=utf-8"),
    ("range", "bytes=0-"), ("strict-transport-security", "max-age=31536000"),
    ("strict-transport-security", "max-age=31536000; includesubdomains"),
    ("strict-transport-security", "max-age=31536000; includesubdomains; preload"),
    ("vary", "accept-encoding"), ("vary", "origin"), ("x-content-type-options", "nosniff"),
    ("x-xss-protection", "1; mode=block"), (":status", "100"), (":status", "204"),
    (":status", "206"), (":status", "302"), (":status", "400"), (":status", "403"),
    (":status", "421"), (":status", "425"), (":status", "500"), ("accept-language", ""),
    ("access-control-allow-credentials", "FALSE"), ("access-control-allow-credentials", "TRUE"),
    ("access-control-allow-headers", "*"), ("access-control-allow-methods", "get"),
    ("access-control-allow-methods", "get, post, options"),
    ("access-control-allow-methods", "options"),
    ("access-control-expose-headers", "content-length"),
    ("access-control-request-headers", "content-type"), ("access-control-request-method", "get"),
    ("access-control-request-method", "post"), ("alt-svc", "clear"), ("authorization", ""),
    ("content-security-policy", "script-src 'none'; object-src 'none'; base-uri 'none'"),
    ("early-data", "1"), ("expect-ct", ""), ("forwarded", ""), ("if-range", ""), ("origin", ""),
    ("purpose", "prefetch"), ("server", ""), ("timing-allow-origin", "*"),
    ("upgrade-insecure-requests", "1"), ("user-agent", ""), ("x-forwarded-for", ""),
    ("x-frame-options", "deny"), ("x-frame-options", "sameorigin")].map fun p =>
      (ascii p.1, ascii p.2)

/-- `STATIC_ENCODE_TABLE`: the names of a length with their values, and where each pair stands. -/
def staticEncodeTable : List (List (Bytes × List (Bytes × Nat))) :=
  [[], [], [],
    [("age", [("0", 2)])],
    [("etag", [("", 7)]), ("date", [("", 6)]), ("link", [("", 11)]),
      ("vary", [("accept-encoding", 59), ("origin", 60)])],
    [("range", [("bytes=0-", 55)]), (":path", [("/", 1)])],
    [("cookie", [("", 5)]), ("origin", [("", 90)]), ("server", [("", 92)]),
      ("accept", [("*/*", 29), ("application/dns-message", 30)])],
    [("purpose", [("prefetch", 91)]), ("referer", [("", 13)]), ("alt-svc", [("clear", 83)]),
      (":status", [("103", 24), ("200", 25), ("304", 26), ("404", 27), ("503", 28), ("100", 63),
      ("204", 64), ("206", 65), ("302", 66), ("400", 67), ("403", 68), ("421", 69), ("425", 70),
      ("500", 71)]), (":scheme", [("http", 22), ("https", 23)]), (":method", [("CONNECT", 15),
      ("DELETE", 16), ("GET", 17), ("HEAD", 18), ("OPTIONS", 19), ("POST", 20), ("PUT", 21)])],
    [("location", [("", 12)]), ("if-range", [("", 89)])],
    [("expect-ct", [("", 87)]), ("forwarded", [("", 88)])],
    [("user-agent", [("", 95)]), (":authority", [("", 0)]), ("set-cookie", [("", 14)]),
      ("early-data", [("1", 86)])],
    [],
    [("content-type", [("application/dns-message", 44), ("application/javascript", 45),
      ("application/json", 46), ("application/x-www-form-urlencoded", 47), ("image/gif", 48),
      ("image/jpeg", 49), ("image/png", 50), ("text/css", 51), ("text/html; charset=utf-8", 52),
      ("text/plain", 53), ("text/plain;charset=utf-8", 54)])],
    [("last-modified", [("", 10)]), ("accept-ranges", [("bytes", 32)]),
      ("authorization", [("", 84)]), ("if-none-match", [("", 9)]),
      ("cache-control", [("max-age=0", 36), ("max-age=2592000", 37), ("max-age=604800", 38),
      ("no-cache", 39), ("no-store", 40), ("public, max-age=31536000", 41)])],
    [("content-length", [("0", 4)])],
    [("accept-encoding", [("gzip, deflate, br", 31)]), ("x-forwarded-for", [("", 96)]),
      ("accept-language", [("", 72)]), ("x-frame-options", [("deny", 97), ("sameorigin", 98)])],
    [("content-encoding", [("br", 42), ("gzip", 43)]),
      ("x-xss-protection", [("1; mode=block", 62)])],
    [("if-modified-since", [("", 8)])],
    [],
    [("content-disposition", [("", 3)]), ("timing-allow-origin", [("*", 93)])],
    [], [],
    [("x-content-type-options", [("nosniff", 61)])],
    [("content-security-policy",
      [("script-src 'none'; object-src 'none'; base-uri 'none'", 85)])],
    [],
    [("upgrade-insecure-requests", [("1", 94)]),
      ("strict-transport-security", [("max-age=31536000", 56),
      ("max-age=31536000; includesubdomains", 57),
      ("max-age=31536000; includesubdomains; preload", 58)])],
    [],
    [("access-control-allow-origin", [("*", 35)])],
    [("access-control-allow-methods", [("get", 76), ("get, post, options", 77),
      ("options", 78)]), ("access-control-allow-headers", [("cache-control", 33),
      ("content-type", 34), ("*", 75)])],
    [("access-control-expose-headers", [("content-length", 79)]),
      ("access-control-request-method", [("get", 81), ("post", 82)])],
    [("access-control-request-headers", [("content-type", 80)])],
    [],
    [("access-control-allow-credentials", [("FALSE", 73), ("TRUE", 74)])]].map fun group =>
      group.map fun p => (ascii p.1, p.2.map fun v => (ascii v.1, v.2))

/-! ## Writing -/

def indexed : UInt8 := 0x80
def indexedWithPostBase : UInt8 := 0x10
def literal : UInt8 := 0x20
def literalWithNameRef : UInt8 := 0x40

/-- `to_ascii_lowercase`. -/
def lowerCase (b : Bytes) : Bytes := b.map lowerByte

/-- The number of a header in the table, and whether its value is there too. -/
def lookupEncode (h : Header) : Option (Nat × Bool) :=
  (staticEncodeTable[h.name.length]?).bind fun group =>
    (group.find? fun p => (p.1.zip h.name).all fun b => b.1 == lowerByte b.2).bind fun p =>
      match p.2.find? fun v => v.1.isEmpty || h.value == v.1 with
      | some (value, enc) => some (enc, !value.isEmpty)
      | none => p.2.head?.map fun v => (v.2, false)

/-- An output buffer of a fixed size. -/
structure OctetsMut where
  cap : Nat
  buf : Bytes := []

def OctetsMut.put (b : OctetsMut) (bytes : Bytes) : Except Error OctetsMut :=
  if b.buf.length + bytes.length ≤ b.cap then .ok { b with buf := b.buf ++ bytes }
  else .error .bufferTooShort

/-- What `encode_int` writes. -/
def encodeInt (v : Nat) (first : UInt8) (bits : Nat) : Bytes := PrefixInt.encode bits first v

section

variable [Huffman]

/-- What `encode_str` writes: Huffman codes, unless they take more space. -/
def encodeStr (lower : Bool) (v : Bytes) (first : UInt8) (bits : Nat) : Bytes :=
  match Huffman.encodingLen lower v with
  | some len => encodeInt len (first ||| UInt8.ofNat (2 ^ bits)) bits ++ Huffman.putEncoded lower v
  | none => encodeInt v.length first bits ++ if lower then lowerCase v else v

/-- A header as `encode` writes it. -/
def encodeField (h : Header) : Bytes :=
  match lookupEncode h with
  | some (idx, true) => encodeInt idx (indexed ||| 0x40) 6
  | some (idx, false) =>
      encodeInt idx (literalWithNameRef ||| 0x10) 4 ++ encodeStr false h.value 0 7
  | none => encodeStr true h.name literal 3 ++ encodeStr false h.value 0 7

/-- `Encoder::encode`: no insert count, no base, and the headers. -/
def encode (headers : List Header) (cap : Nat) : Except Error Bytes := do
  let b ← OctetsMut.put ⟨cap, []⟩ (encodeInt 0 0 8 ++ encodeInt 0 0 7)
  let b ← headers.foldlM (fun b h => b.put (encodeField h)) b
  return b.buf

/-! ## Reading -/

inductive Representation where
  | indexed
  | indexedWithPostBase
  | literal
  | literalWithNameRef
  | literalWithPostBase
deriving DecidableEq, Repr

omit [Huffman] in
def Representation.fromByte (b : UInt8) : Representation :=
  if b &&& Qpack.indexed = Qpack.indexed then .indexed
  else if b &&& Qpack.literalWithNameRef = Qpack.literalWithNameRef then .literalWithNameRef
  else if b &&& Qpack.literal = Qpack.literal then .literal
  else if b &&& Qpack.indexedWithPostBase = Qpack.indexedWithPostBase then .indexedWithPostBase
  else .literalWithPostBase

/-- `lookup_static` of the decoder. -/
def lookupDecode (idx : Nat) : Except Error (Bytes × Bytes) :=
  match staticDecodeTable[idx]? with
  | some entry => .ok entry
  | none => .error .invalidStaticTableIndex

/-- The loop of `decode_int`.  `checked_shl` refuses a shift by 64 or more bits
and drops what a smaller one moves out of the word; `checked_add` refuses a sum
that does not fit. -/
def decodeIntLoop : Nat → Nat → Bytes → Except Error (Nat × Bytes)
  | _, _, [] => .error .bufferTooShort
  | shift, val, byte :: rest =>
      if 64 ≤ shift then .error .bufferTooShort
      else
        let inc := byte.toNat % 128 * 2 ^ shift % 2 ^ 64
        if 2 ^ 64 ≤ val + inc then .error .bufferTooShort
        else if byte.toNat < 128 then .ok (val + inc, rest)
        else decodeIntLoop (shift + 7) (val + inc) rest

/-- `decode_int`. -/
def decodeInt (bits : Nat) : Bytes → Except Error (Nat × Bytes)
  | [] => .error .bufferTooShort
  | first :: rest =>
      let val := first.toNat % 2 ^ bits
      if val < 2 ^ bits - 1 then .ok (val, rest) else decodeIntLoop 0 val rest

/-- `get_bytes`, and the Huffman codes undone. -/
def takeStr (huff : Bool) (len : Nat) (b : Bytes) : Except Error (Bytes × Bytes) :=
  if b.length < len then .error .bufferTooShort
  else if huff then
    match Huffman.getDecoded (b.take len) with
    | some v => .ok (v, b.drop len)
    | none => .error .bufferTooShort
  else .ok (b.take len, b.drop len)

/-- `decode_str`, and the name of a literal: the bit above the length tells
whether Huffman codes follow. -/
def decodeStr (bits : Nat) (b : Bytes) : Except Error (Bytes × Bytes) := do
  let (len, rest) ← decodeInt bits b
  takeStr (b.head?.any fun first => first.toNat / 2 ^ bits % 2 == 1) len rest

/-- The limit on the sizes of the headers together. -/
def charge (left : Nat) (h : Header) : Except Error Nat :=
  if left < h.name.length + h.value.length then .error .headerListTooLarge
  else .ok (left - (h.name.length + h.value.length))

/-- A pass of the loop of `decode`: a header, what is left of the limit, and what
is left of the block.  There is no dynamic table. -/
def decodeField (left : Nat) (b : Bytes) : Except Error (Header × Nat × Bytes) :=
  match b with
  | [] => .error .bufferTooShort
  | first :: _ =>
      match Representation.fromByte first with
      | .indexed => do
          let (idx, rest) ← decodeInt 6 b
          if first &&& 0x40 ≠ 0x40 then .error .invalidHeaderValue
          else
            let (name, value) ← lookupDecode idx
            let left ← charge left ⟨name, value⟩
            return (⟨name, value⟩, left, rest)
      | .indexedWithPostBase => do
          let _ ← decodeInt 4 b
          .error .invalidHeaderValue
      | .literal => do
          let (name, rest) ← decodeStr 3 b
          let (value, rest) ← decodeStr 7 rest
          let left ← charge left ⟨name, value⟩
          return (⟨name, value⟩, left, rest)
      | .literalWithNameRef => do
          let (idx, rest) ← decodeInt 4 b
          let (value, rest) ← decodeStr 7 rest
          if first &&& 0x10 ≠ 0x10 then .error .invalidHeaderValue
          else
            let (name, _) ← lookupDecode idx
            let left ← charge left ⟨name, value⟩
            return (⟨name, value⟩, left, rest)
      | .literalWithPostBase => .error .invalidHeaderValue

/-- The loop of `decode`.  A pass takes a byte at least. -/
def decodeFields : Nat → Nat → Bytes → Except Error (List Header)
  | _, _, [] => .ok []
  | 0, _, _ => .error .bufferTooShort
  | fuel + 1, left, b => do
      let (h, left, rest) ← decodeField left b
      let headers ← decodeFields fuel left rest
      return h :: headers

/-- `Decoder::decode`. -/
def decode (b : Bytes) (maxSize : Nat) : Except Error (List Header) := do
  let (_, b) ← decodeInt 8 b
  let (_, b) ← decodeInt 7 b
  decodeFields b.length maxSize b

/-! ## The tables agree -/

omit [Huffman] in
theorem staticEncodeTable_spec : ∀ q ∈ staticEncodeTable.zipIdx, ∀ p ∈ q.1,
    p.1.length = q.2 ∧ p.2 ≠ [] ∧ ∀ v ∈ p.2, staticDecodeTable[v.2]? = some (p.1, v.1) := by
  decide +kernel

omit [Huffman] in
theorem eq_lowerCase : ∀ {a b : Bytes}, a.length = b.length →
    ((a.zip b).all fun b => b.1 == lowerByte b.2) = true → a = lowerCase b
  | [], [], _, _ => rfl
  | x :: a, y :: b, hlen, h => by
      simp only [List.zip_cons_cons, List.all_cons, Bool.and_eq_true, beq_iff_eq] at h
      rw [h.1, eq_lowerCase (Nat.succ.inj hlen) h.2]
      rfl

omit [Huffman] in
/-- What the encoder finds in its table stands in the decoder's. -/
theorem lookupEncode_spec {h : Header} {idx : Nat} {full : Bool}
    (hfound : lookupEncode h = some (idx, full)) : ∃ value,
      staticDecodeTable[idx]? = some (lowerCase h.name, value) ∧ (full = true → value = h.value) := by
  obtain ⟨group, hgroup, hrest⟩ := Option.bind_eq_some_iff.mp hfound
  obtain ⟨p, hp, hvalue⟩ := Option.bind_eq_some_iff.mp hrest
  obtain ⟨hlen, -, hall⟩ := staticEncodeTable_spec (group, h.name.length)
    (List.mem_zipIdx_iff_getElem?.mpr hgroup) p (List.mem_of_find?_eq_some hp)
  have hmatch := List.find?_some hp
  have hname : p.1 = lowerCase h.name := eq_lowerCase hlen hmatch
  split at hvalue
  next value enc hfind =>
    obtain ⟨rfl, rfl⟩ := Prod.mk.inj (Option.some.inj hvalue)
    refine ⟨value, hname ▸ hall _ (List.mem_of_find?_eq_some hfind), fun hfull => ?_⟩
    have hor := List.find?_some hfind
    simp only [Bool.not_eq_true'] at hfull
    simp only [hfull, Bool.false_or, beq_iff_eq] at hor
    exact hor.symm
  next =>
    obtain ⟨v, hv, heq⟩ := Option.map_eq_some_iff.mp hvalue
    obtain ⟨rfl, rfl⟩ := Prod.mk.inj heq
    exact ⟨v.1, hname ▸ hall v (List.mem_of_mem_head? hv), by simp⟩

/-! ## Integers -/

omit [Huffman] in
/-- A digit below the others is not lost among those that do not fit in the word. -/
theorem low_digit {k d w : Nat} (hk : k ≤ 8) (hd : d < 128) :
    ((d + 128 * w) * 2 ^ (7 * k)) % 2 ^ 64 = d * 2 ^ (7 * k) + w * 2 ^ (7 * (k + 1)) % 2 ^ 64 := by
  have hstep : 2 ^ (7 * (k + 1)) = 128 * 2 ^ (7 * k) := by ring
  have hword : 2 ^ 64 = 2 ^ (7 * (k + 1)) * 2 ^ (64 - 7 * (k + 1)) := by
    rw [← Nat.pow_add]
    congr 1
    omega
  have hlow : d * 2 ^ (7 * k) < 2 ^ (7 * (k + 1)) := by
    rw [hstep]
    exact Nat.mul_lt_mul_of_pos_right hd (Nat.two_pow_pos _)
  have hsum : (d + 128 * w) * 2 ^ (7 * k) = d * 2 ^ (7 * k) + 2 ^ (7 * (k + 1)) * w := by
    rw [hstep]
    ring
  rw [hsum, hword, Nat.mod_mul, Nat.add_mul_mod_self_left, Nat.mod_eq_of_lt hlow,
    Nat.add_mul_div_left _ _ (Nat.two_pow_pos _), Nat.div_eq_of_lt hlow, Nat.zero_add,
    Nat.mul_comm w, Nat.mul_mod_mul_left]

omit [Huffman] in
/-- The loop takes ten digits at most.  What the last of them moves out of the word
is dropped, but the sum must fit. -/
theorem decodeIntLoop_iff : ∀ {l : Bytes} {k val v : Nat} {rest : Bytes},
    decodeIntLoop (7 * k) val l = .ok (v, rest) ↔
      ∃ w, PrefixInt.value l = some (w, rest) ∧ k + (l.length - rest.length) ≤ 10 ∧
        v = val + w * 2 ^ (7 * k) % 2 ^ 64 ∧ v < 2 ^ 64
  | [], _, _, _, _ => by
      refine ⟨fun h => ?_, fun h => ?_⟩
      · cases h
      · obtain ⟨_, h, -⟩ := h
        cases h
  | b :: l, k, val, v, rest => by
      have hpast : ∀ {w}, PrefixInt.value (b :: l) = some (w, rest) →
          1 ≤ (b :: l).length - rest.length := by
        intro w hw
        obtain ⟨d, hd, heq⟩ := PrefixInt.value_suffix hw
        have hd := List.length_pos_of_ne_nil hd
        rw [heq, List.length_append]
        omega
      by_cases hshift : 64 ≤ 7 * k
      · rw [decodeIntLoop, if_pos hshift]
        refine ⟨fun h => ?_, fun h => ?_⟩
        · cases h
        · obtain ⟨w, hw, hdigits, -⟩ := h
          have hpast := hpast hw
          omega
      by_cases hlast : b.toNat < 128
      · rw [decodeIntLoop, if_neg hshift]
        simp only [if_pos hlast, Nat.mod_eq_of_lt hlast, PrefixInt.value]
        refine ⟨fun h => ?_, ?_⟩
        · split_ifs at h with hover
          obtain ⟨rfl, rfl⟩ := Prod.mk.inj (Except.ok.inj h)
          exact ⟨b.toNat, rfl, by simp only [List.length_cons]; omega, rfl, by omega⟩
        · rintro ⟨w, heq, -, rfl, hfit⟩
          obtain ⟨rfl, rfl⟩ := Prod.mk.inj (Option.some.inj heq)
          rw [if_neg (by omega)]
      · have hstep : decodeIntLoop (7 * k) val (b :: l) =
            if 2 ^ 64 ≤ val + b.toNat % 128 * 2 ^ (7 * k) % 2 ^ 64 then .error .bufferTooShort
            else decodeIntLoop (7 * (k + 1)) (val + b.toNat % 128 * 2 ^ (7 * k) % 2 ^ 64) l := by
          rw [decodeIntLoop, if_neg hshift]
          simp only [if_neg hlast]
          rfl
        have hvalue : ∀ w, PrefixInt.value (b :: l) = some (w, rest) ↔
            ∃ w', PrefixInt.value l = some (w', rest) ∧ w = b.toNat % 128 + 128 * w' := by
          intro w
          rw [PrefixInt.value, if_neg hlast, Option.map_eq_some_iff]
          constructor
          · rintro ⟨⟨w', rest'⟩, hw, heq⟩
            obtain ⟨rfl, rfl⟩ := Prod.mk.inj heq
            exact ⟨w', hw, rfl⟩
          · rintro ⟨w', hw, rfl⟩
            exact ⟨(w', rest), hw, rfl⟩
        have hmore : ∀ {w}, PrefixInt.value l = some (w, rest) → 1 ≤ l.length - rest.length ∧
            (b :: l).length - rest.length = l.length - rest.length + 1 := by
          intro w hw
          obtain ⟨d, hd, rfl⟩ := PrefixInt.value_suffix hw
          have hd := List.length_pos_of_ne_nil hd
          simp only [List.length_cons, List.length_append]
          omega
        rw [hstep]
        refine ⟨fun h => ?_, ?_⟩
        · split_ifs at h with hover
          obtain ⟨w, hw, hdigits, rfl, hfit⟩ := decodeIntLoop_iff.mp h
          obtain ⟨hone, hcount⟩ := hmore hw
          refine ⟨_, (hvalue _).mpr ⟨w, hw, rfl⟩, by omega, ?_, hfit⟩
          have hlow := low_digit (k := k) (w := w) (by omega) (Nat.mod_lt b.toNat (show 0 < 128 by omega))
          rw [hlow]
          have hfits : b.toNat % 128 * 2 ^ (7 * k) < 2 ^ 64 := by
            have hle : b.toNat % 128 * 2 ^ (7 * k) ≤ 127 * 2 ^ (7 * 8) :=
              Nat.mul_le_mul (by omega) (Nat.pow_le_pow_right (by omega) (by omega))
            omega
          rw [Nat.mod_eq_of_lt hfits, Nat.add_assoc]
        · rintro ⟨w, hw, hdigits, rfl, hfit⟩
          obtain ⟨w', hw', rfl⟩ := (hvalue w).mp hw
          obtain ⟨hone, hcount⟩ := hmore hw'
          have hlow := low_digit (k := k) (w := w') (by omega) (Nat.mod_lt b.toNat (show 0 < 128 by omega))
          rw [hlow] at hfit ⊢
          have hfits : b.toNat % 128 * 2 ^ (7 * k) < 2 ^ 64 := by
            have hle : b.toNat % 128 * 2 ^ (7 * k) ≤ 127 * 2 ^ (7 * 8) :=
              Nat.mul_le_mul (by omega) (Nat.pow_le_pow_right (by omega) (by omega))
            omega
          rw [Nat.mod_eq_of_lt hfits, if_neg (by omega)]
          exact decodeIntLoop_iff.mpr ⟨w', hw', by omega, by omega, by omega⟩

omit [Huffman] in
/-- What `decode_int` accepts: a number in the prefix, or ten digits behind it at most.
What the last digit moves out of the word is dropped, and the sum must fit. -/
theorem decodeInt_iff {bits : Nat} (hbits : bits ≤ 8) {l : Bytes} {v : Nat} {rest : Bytes} :
    decodeInt bits l = .ok (v, rest) ↔
      ∃ w, PrefixInt.decode bits l = some (w, rest) ∧ l.length - rest.length ≤ 11 ∧ v < 2 ^ 64 ∧
        v = if w < 2 ^ bits - 1 then w else 2 ^ bits - 1 + (w - (2 ^ bits - 1)) % 2 ^ 64 := by
  have hpow : 2 ^ bits ≤ 2 ^ 8 := Nat.pow_le_pow_right (by omega) hbits
  have hpos : 0 < 2 ^ bits := Nat.two_pow_pos bits
  cases l with
  | nil =>
      refine ⟨fun h => ?_, fun h => ?_⟩
      · cases h
      · obtain ⟨_, h, -⟩ := h
        cases h
  | cons b l =>
      simp only [PrefixInt.decode, decodeInt]
      by_cases hlt : b.toNat % 2 ^ bits < 2 ^ bits - 1
      · rw [if_pos hlt, if_pos hlt]
        refine ⟨fun h => ?_, ?_⟩
        · obtain ⟨rfl, rfl⟩ := Prod.mk.inj (Except.ok.inj h)
          exact ⟨_, rfl, by simp, by omega, (if_pos hlt).symm⟩
        · rintro ⟨w, heq, -, -, rfl⟩
          obtain ⟨rfl, rfl⟩ := Prod.mk.inj (Option.some.inj heq)
          rw [if_pos hlt]
      · have hlow : b.toNat % 2 ^ bits < 2 ^ bits := Nat.mod_lt _ hpos
        have hones : b.toNat % 2 ^ bits = 2 ^ bits - 1 := by omega
        have hloop := @decodeIntLoop_iff l 0 (2 ^ bits - 1) v rest
        rw [if_neg hlt, if_neg hlt, hones]
        simp only [Nat.mul_zero, Nat.pow_zero, Nat.mul_one, Nat.zero_add] at hloop
        rw [hloop]
        constructor
        · rintro ⟨w, hw, hdigits, heq, hfit⟩
          refine ⟨2 ^ bits - 1 + w, by rw [hw]; rfl, by simp only [List.length_cons]; omega, hfit, ?_⟩
          rw [if_neg (by omega), Nat.add_sub_cancel_left]
          exact heq
        · rintro ⟨w, hw, hdigits, hfit, heq⟩
          obtain ⟨⟨w', rest'⟩, hw', hpair⟩ := Option.map_eq_some_iff.mp hw
          obtain ⟨rfl, rfl⟩ := Prod.mk.inj hpair
          rw [if_neg (by omega), Nat.add_sub_cancel_left] at heq
          obtain ⟨d, hd, rfl⟩ := PrefixInt.value_suffix hw'
          have hd := List.length_pos_of_ne_nil hd
          simp only [List.length_cons, List.length_append] at hdigits ⊢
          exact ⟨w', hw', by omega, heq, hfit⟩

omit [Huffman] in
/-- A number of 64 bits reads back. -/
theorem decodeInt_encodeInt (bits v : Nat) (first : UInt8) (hbits : bits ≤ 8)
    (hfirst : first.toNat % 2 ^ bits = 0) (hv : v < 2 ^ 64) (rest : Bytes) :
    decodeInt bits (encodeInt v first bits ++ rest) = .ok (v, rest) := by
  have hlen := PrefixInt.encode_length 9 bits first (v := v) (by omega)
  refine (decodeInt_iff hbits).mpr ⟨v, PrefixInt.decode_encode hbits hfirst rest, ?_, hv, ?_⟩
  · simp only [encodeInt, List.length_append]
    omega
  · split
    · rfl
    · omega

omit [Huffman] in
/-- The integers of QPACK: what `decode_int` accepts, and that it reads what `encode_int` writes.
Ten digits hold any number of 64 bits; more are refused, as is a sum that does not fit. -/
theorem integers_exact {bits : Nat} (hbits : bits ≤ 8) :
    (∀ (l : Bytes) (v : Nat) (rest : Bytes), decodeInt bits l = .ok (v, rest) ↔
      ∃ w, PrefixInt.decode bits l = some (w, rest) ∧ l.length - rest.length ≤ 11 ∧ v < 2 ^ 64 ∧
        v = if w < 2 ^ bits - 1 then w else 2 ^ bits - 1 + (w - (2 ^ bits - 1)) % 2 ^ 64) ∧
    ∀ (v : Nat) (first : UInt8) (rest : Bytes), first.toNat % 2 ^ bits = 0 → v < 2 ^ 64 →
      decodeInt bits (encodeInt v first bits ++ rest) = .ok (v, rest) :=
  ⟨fun _ _ _ => decodeInt_iff hbits,
    fun v first rest hfirst hv => decodeInt_encodeInt bits v first hbits hfirst hv rest⟩

omit [Huffman] in
theorem integers_exact_sample :
    (∀ (l : Bytes) (v : Nat) (rest : Bytes), decodeInt 7 l = .ok (v, rest) ↔
      ∃ w, PrefixInt.decode 7 l = some (w, rest) ∧ l.length - rest.length ≤ 11 ∧ v < 2 ^ 64 ∧
        v = if w < 2 ^ 7 - 1 then w else 2 ^ 7 - 1 + (w - (2 ^ 7 - 1)) % 2 ^ 64) ∧
    ∀ (v : Nat) (first : UInt8) (rest : Bytes), first.toNat % 2 ^ 7 = 0 → v < 2 ^ 64 →
      decodeInt 7 (encodeInt v first 7 ++ rest) = .ok (v, rest) :=
  integers_exact (by decide)

/-- Ten digits after the ones of the prefix: the last one shifts six of its bits out. -/
example : decodeInt 8 [255, 128, 128, 128, 128, 128, 128, 128, 128, 128, 126] = .ok (255, []) := by
  decide +kernel

/-! ## Strings -/

/-- What is known of Huffman codes: the announced length, and that they can be undone. -/
class Huffman.Lawful : Prop where
  length : ∀ {lower : Bool} {v : Bytes} {n : Nat}, Huffman.encodingLen lower v = some n →
    (Huffman.putEncoded lower v).length = n ∧ n ≤ v.length
  inverse : ∀ {lower : Bool} {v : Bytes} {n : Nat}, Huffman.encodingLen lower v = some n →
    Huffman.getDecoded (Huffman.putEncoded lower v) = some (if lower then lowerCase v else v)

/-- How a string reads. -/
def stored (lower : Bool) (v : Bytes) : Bytes := if lower then lowerCase v else v

omit [Huffman] in
@[simp] theorem lowerCase_length (v : Bytes) : (lowerCase v).length = v.length := by simp [lowerCase]

omit [Huffman] in
@[simp] theorem stored_length (lower : Bool) (v : Bytes) : (stored lower v).length = v.length := by
  unfold stored
  split <;> simp

variable [Huffman.Lawful]

omit [Huffman] [Huffman.Lawful] in
/-- A string behind an integer: the flag above the length is seen, and the length read. -/
theorem head_encodeInt {bits v : Nat} {first : UInt8} (hbits : bits ≤ 7)
    (hfirst : first.toNat % 2 ^ bits = 0) (rest : Bytes) :
    (((encodeInt v first bits ++ rest).head?).any fun b => b.toNat / 2 ^ bits % 2 == 1) =
      (first.toNat / 2 ^ bits % 2 == 1) := by
  obtain ⟨low, more, hlow, heq, hbyte⟩ := PrefixInt.encode_cons bits v first (by omega) hfirst
  obtain ⟨k, hk⟩ := Nat.dvd_of_mod_eq_zero hfirst
  have hpos : 0 < 2 ^ bits := Nat.two_pow_pos bits
  have hdiv : (first ||| UInt8.ofNat low).toNat / 2 ^ bits = first.toNat / 2 ^ bits := by
    rw [hbyte, hk, Nat.mul_add_div hpos, Nat.div_eq_of_lt hlow, Nat.add_zero,
      Nat.mul_div_cancel_left _ hpos]
  rw [encodeInt, heq, List.cons_append, List.head?_cons, Option.any_some, hdiv]

omit [Huffman.Lawful] in
theorem takeStr_plain {v : Bytes} {len : Nat} (h : v.length = len) (rest : Bytes) :
    takeStr false len (v ++ rest) = .ok (v, rest) := by
  rw [takeStr, if_neg (by simp [h]), if_neg (by simp), List.take_left' h, List.drop_left' h]

omit [Huffman.Lawful] in
theorem takeStr_huffman {codes v : Bytes} {len : Nat} (h : codes.length = len)
    (hdecoded : Huffman.getDecoded codes = some v) (rest : Bytes) :
    takeStr true len (codes ++ rest) = .ok (v, rest) := by
  rw [takeStr, if_neg (by simp [h]), if_pos rfl, List.take_left' h, List.drop_left' h, hdecoded]

/-- A string reads back, whatever stands behind it. -/
theorem decodeStr_encodeStr (lower : Bool) {v : Bytes} (first : UInt8) (bits : Nat) (hbits : bits ≤ 7)
    (hfirst : first.toNat % 2 ^ (bits + 1) = 0) (hv : v.length < 2 ^ 64) (rest : Bytes) :
    decodeStr bits (encodeStr lower v first bits ++ rest) = .ok (stored lower v, rest) := by
  have hpos : 0 < 2 ^ bits := Nat.two_pow_pos bits
  obtain ⟨k, hk⟩ := Nat.dvd_of_mod_eq_zero hfirst
  rw [Nat.pow_succ, Nat.mul_assoc] at hk
  have hplain : first.toNat % 2 ^ bits = 0 := by
    rw [hk]
    exact Nat.mul_mod_right _ _
  unfold encodeStr
  split
  next len hlen =>
    obtain ⟨hlength, hle⟩ := Huffman.Lawful.length hlen
    have hflag : (first ||| UInt8.ofNat (2 ^ bits)).toNat = first.toNat + 2 ^ bits :=
      PrefixInt.flags_or (by omega) hfirst (by rw [Nat.pow_succ]; omega)
    have hmark : (first ||| UInt8.ofNat (2 ^ bits)).toNat % 2 ^ bits = 0 := by
      rw [hflag, Nat.add_mod_right, hplain]
    have hset : ((first ||| UInt8.ofNat (2 ^ bits)).toNat / 2 ^ bits % 2 == 1) = true := by
      rw [hflag, Nat.add_div_right _ hpos, hk, Nat.mul_div_cancel_left _ hpos, beq_iff_eq]
      omega
    have hint := decodeInt_encodeInt bits len _ (by omega) hmark (by omega)
      (Huffman.putEncoded lower v ++ rest)
    simp only [decodeStr, List.append_assoc, hint, head_encodeInt hbits hmark, hset, bind, Except.bind]
    exact takeStr_huffman hlength (Huffman.Lawful.inverse hlen) rest
  next =>
    have hclear : (first.toNat / 2 ^ bits % 2 == 1) = false := by
      rw [hk, Nat.mul_div_cancel_left _ hpos, beq_eq_false_iff_ne]
      omega
    have hint := decodeInt_encodeInt bits v.length first (by omega) hplain hv (stored lower v ++ rest)
    simp only [decodeStr, List.append_assoc]
    change (decodeInt bits (encodeInt v.length first bits ++ (stored lower v ++ rest))).bind _ = _
    simp only [hint, head_encodeInt hbits hplain, hclear, Except.bind]
    exact takeStr_plain (stored_length lower v) rest

/-- How long a string gets. -/
theorem encodeStr_length (k : Nat) {lower : Bool} {v : Bytes} {first : UInt8} {bits : Nat}
    (hv : v.length < 2 ^ bits - 1 + 128 ^ (k + 1)) :
    (encodeStr lower v first bits).length ≤ v.length + k + 2 := by
  unfold encodeStr
  split
  next len hlen =>
    obtain ⟨hlength, hle⟩ := Huffman.Lawful.length hlen
    have hint := PrefixInt.encode_length k bits (first ||| UInt8.ofNat (2 ^ bits))
      (show len < 2 ^ bits - 1 + 128 ^ (k + 1) by omega)
    simp only [encodeInt, List.length_append]
    omega
  next =>
    have hint := PrefixInt.encode_length k bits first hv
    have hlength : (if lower = true then lowerCase v else v).length = v.length := stored_length lower v
    simp only [encodeInt, List.length_append, hlength]
    omega

/-! ## Headers -/

omit [Huffman] [Huffman.Lawful] in
theorem staticDecodeTable_length : staticDecodeTable.length = 99 := by decide +kernel

omit [Huffman] [Huffman.Lawful] in
theorem lt_of_staticDecodeTable {idx : Nat} {p : Bytes × Bytes} (h : staticDecodeTable[idx]? = some p) :
    idx < 99 := by
  have hlt := (List.getElem?_eq_some_iff.mp h).1
  rwa [staticDecodeTable_length] at hlt

/-- The size of a header. -/
def size (h : Header) : Nat := h.name.length + h.value.length

omit [Huffman] [Huffman.Lawful] in
theorem charge_lower (h : Header) (left : Nat) : charge left ⟨lowerCase h.name, h.value⟩ =
    if left < size h then .error .headerListTooLarge else .ok (left - size h) := by
  simp only [charge, lowerCase_length]
  rfl

/-- A header reads back with its name in lower case, if the limit admits it. -/
theorem decodeField_encodeField {h : Header} (hname : h.name.length < 2 ^ 64)
    (hvalue : h.value.length < 2 ^ 64) (left : Nat) (rest : Bytes) :
    decodeField left (encodeField h ++ rest) =
      if left < size h then .error .headerListTooLarge else .ok (h.lower, left - size h, rest) := by
  unfold encodeField
  split
  next idx hfound =>
    obtain ⟨value, htable, heq⟩ := lookupEncode_spec hfound
    obtain rfl := heq rfl
    have hidx := lt_of_staticDecodeTable htable
    have hint := decodeInt_encodeInt 6 idx (indexed ||| 0x40) (by omega)
      (by decide) (by omega) rest
    obtain ⟨low, more, hlow, hcons, -⟩ := PrefixInt.encode_cons 6 idx (indexed ||| 0x40)
      (by omega) (by decide)
    have hfirst : ∀ low : Fin 64, Representation.fromByte (indexed ||| 0x40 ||| UInt8.ofNat low) = .indexed ∧
        (indexed ||| 0x40 ||| UInt8.ofNat low) &&& 0x40 = 0x40 := by decide
    obtain ⟨hrep, hstatic⟩ := hfirst ⟨low, hlow⟩
    rw [encodeInt, hcons, List.cons_append] at hint ⊢
    simp only at hrep hstatic
    simp only [decodeField, hrep, hint, hstatic, lookupDecode, htable, charge_lower, bind, Except.bind,
      ne_eq, not_true_eq_false, if_false]
    split_ifs <;> rfl
  next idx hfound =>
    obtain ⟨value, htable, -⟩ := lookupEncode_spec hfound
    have hidx := lt_of_staticDecodeTable htable
    have hint := decodeInt_encodeInt 4 idx (literalWithNameRef ||| 0x10) (by omega)
      (by decide) (by omega) (encodeStr false h.value 0 7 ++ rest)
    have hstr := decodeStr_encodeStr false 0 7 (by omega) (by decide) hvalue rest
    obtain ⟨low, more, hlow, hcons, -⟩ := PrefixInt.encode_cons 4 idx
      (literalWithNameRef ||| 0x10) (by omega) (by decide)
    have hfirst : ∀ low : Fin 16,
        Representation.fromByte (literalWithNameRef ||| 0x10 ||| UInt8.ofNat low) = .literalWithNameRef ∧
          (literalWithNameRef ||| 0x10 ||| UInt8.ofNat low) &&& 0x10 = 0x10 := by decide
    obtain ⟨hrep, hstatic⟩ := hfirst ⟨low, hlow⟩
    rw [List.append_assoc]
    rw [encodeInt, hcons, List.cons_append] at hint ⊢
    simp only at hrep hstatic
    simp only [decodeField, hrep, hint, hstr, hstatic, lookupDecode, htable, stored, charge_lower, bind,
      Except.bind, ne_eq, not_true_eq_false, if_false, Bool.false_eq_true]
    split_ifs <;> rfl
  next hfound =>
    have hnamestr := decodeStr_encodeStr true literal 3 (by omega) (by decide) hname
      (encodeStr false h.value 0 7 ++ rest)
    have hstr := decodeStr_encodeStr false 0 7 (by omega) (by decide) hvalue rest
    have hfirst : ∃ b more, encodeStr true h.name literal 3 = b :: more ∧
        Representation.fromByte b = .literal := by
      have hrep : ∀ low : Fin 8, Representation.fromByte (literal ||| UInt8.ofNat low) = .literal ∧
          Representation.fromByte (literal ||| UInt8.ofNat (2 ^ 3) ||| UInt8.ofNat low) = .literal := by
        decide
      unfold encodeStr
      split
      next len hlen =>
        obtain ⟨low, more, hlow, hcons, -⟩ := PrefixInt.encode_cons 3 len
          (literal ||| UInt8.ofNat (2 ^ 3)) (by omega) (by decide)
        exact ⟨_, _, by rw [encodeInt, hcons, List.cons_append], (hrep ⟨low, hlow⟩).2⟩
      next =>
        obtain ⟨low, more, hlow, hcons, -⟩ := PrefixInt.encode_cons 3 h.name.length literal
          (by omega) (by decide)
        exact ⟨_, _, by rw [encodeInt, hcons, List.cons_append], (hrep ⟨low, hlow⟩).1⟩
    obtain ⟨b, more, hcons, hrep⟩ := hfirst
    rw [List.append_assoc]
    rw [hcons, List.cons_append] at hnamestr ⊢
    simp only [decodeField, hrep, hnamestr, hstr, stored, charge_lower, bind, Except.bind, if_true,
      if_false, Bool.false_eq_true]
    split_ifs <;> rfl

/-! ## Header blocks -/

omit [Huffman.Lawful] in
theorem encodeField_ne_nil (h : Header) : encodeField h ≠ [] := by
  have hint : ∀ {v first bits}, encodeInt v first bits ≠ [] := by
    intro v first bits
    unfold encodeInt PrefixInt.encode
    split <;> simp
  have hstr : ∀ {lower v first bits}, encodeStr lower v first bits ≠ [] := by
    intro lower v first bits
    unfold encodeStr
    split <;> simp [hint]
  unfold encodeField
  split
  · exact hint
  · simp [hint]
  · simp [hstr]

/-- The headers of a block read back, as far as the limit admits them. -/
theorem decodeFields_encodeField : ∀ {headers : List Header} {fuel : Nat},
    (∀ h ∈ headers, h.name.length < 2 ^ 64 ∧ h.value.length < 2 ^ 64) →
    (headers.flatMap encodeField).length ≤ fuel → ∀ left : Nat,
    decodeFields fuel left (headers.flatMap encodeField) =
      if left < (headers.map size).sum then .error .headerListTooLarge
      else .ok (headers.map Header.lower)
  | [], fuel, _, _, left => by
      rw [List.flatMap_nil, decodeFields, if_neg (by simp)]
      rfl
  | h :: headers, fuel, hlen, hfuel, left => by
      obtain ⟨hname, hvalue⟩ := hlen h List.mem_cons_self
      have hne := List.length_pos_of_ne_nil (encodeField_ne_nil h)
      rw [List.flatMap_cons, List.length_append] at hfuel
      rw [List.flatMap_cons, List.map_cons, List.sum_cons]
      cases fuel with
      | zero => omega
      | succ fuel =>
          have hfield := decodeField_encodeField hname hvalue left (headers.flatMap encodeField)
          have hrest := decodeFields_encodeField
            (fun h hh => hlen h (List.mem_cons_of_mem _ hh)) (show _ ≤ fuel by omega) (left - size h)
          cases hblock : encodeField h ++ headers.flatMap encodeField with
          | nil => exact absurd (List.append_eq_nil_iff.mp hblock).1 (encodeField_ne_nil h)
          | cons b more =>
              rw [hblock] at hfield
              rw [decodeFields, hfield]
              · by_cases hover : left < size h
                · rw [if_pos hover, if_pos (by omega)]
                  rfl
                · simp only [if_neg hover, bind, Except.bind, hrest]
                  by_cases hall : left < size h + (headers.map size).sum
                  · rw [if_pos (by omega), if_pos hall]
                  · rw [if_neg (by omega), if_neg hall]
                    rfl
              · simp

/-- What `encode` writes, if there is room for it. -/
def headerBlock (headers : List Header) : Bytes :=
  encodeInt 0 0 8 ++ (encodeInt 0 0 7 ++ headers.flatMap encodeField)

omit [Huffman.Lawful] in
theorem foldlM_put : ∀ {headers : List Header} {b : OctetsMut}, b.buf.length ≤ b.cap →
    headers.foldlM (fun b h => b.put (encodeField h)) b =
      if b.buf.length + (headers.flatMap encodeField).length ≤ b.cap then
        .ok { b with buf := b.buf ++ headers.flatMap encodeField }
      else .error .bufferTooShort
  | [], b, hb => by
      rw [List.flatMap_nil, List.append_nil, if_pos (by simpa using hb)]
      rfl
  | h :: headers, b, hb => by
      rw [List.foldlM_cons, List.flatMap_cons, List.length_append, OctetsMut.put]
      by_cases hroom : b.buf.length + (encodeField h).length ≤ b.cap
      · rw [if_pos hroom]
        simp only [bind, Except.bind]
        rw [foldlM_put (by simpa using hroom)]
        simp only [List.length_append, List.append_assoc, Nat.add_assoc]
      · rw [if_neg hroom, if_neg (by omega)]
        rfl

omit [Huffman.Lawful] in
theorem encode_eq (headers : List Header) (cap : Nat) : encode headers cap =
    if (headerBlock headers).length ≤ cap then .ok (headerBlock headers) else .error .bufferTooShort := by
  have hstart : ∀ bytes : Bytes, OctetsMut.put ⟨cap, []⟩ bytes =
      if bytes.length ≤ cap then .ok ⟨cap, bytes⟩ else .error .bufferTooShort :=
    fun bytes => by simp [OctetsMut.put]
  rw [encode, hstart, headerBlock, ← List.append_assoc]
  by_cases hroom : (encodeInt 0 0 8 ++ encodeInt 0 0 7).length ≤ cap
  · rw [if_pos hroom]
    simp only [bind, Except.bind]
    have hlength := @List.length_append _ (encodeInt 0 0 8 ++ encodeInt 0 0 7) (headers.flatMap encodeField)
    rw [foldlM_put hroom, hlength]
    by_cases hall : (encodeInt 0 0 8 ++ encodeInt 0 0 7).length +
        (headers.flatMap encodeField).length ≤ cap
    · rw [if_pos hall, if_pos hall]
      rfl
    · rw [if_neg hall, if_neg hall]
  · rw [if_neg hroom, @List.length_append _ _ (headers.flatMap encodeField), if_neg (by omega)]
    rfl

/-- A header block reads back as the headers it was written for, with their names
in lower case, unless they exceed the limit. -/
theorem decode_headerBlock {headers : List Header}
    (hlen : ∀ h ∈ headers, h.name.length < 2 ^ 64 ∧ h.value.length < 2 ^ 64) (maxSize : Nat) :
    decode (headerBlock headers) maxSize =
      if maxSize < (headers.map size).sum then .error .headerListTooLarge
      else .ok (headers.map Header.lower) := by
  have hcount := decodeInt_encodeInt 8 0 0 (by omega) (by decide) (by omega)
    (encodeInt 0 0 7 ++ headers.flatMap encodeField)
  have hbase := decodeInt_encodeInt 7 0 0 (by omega) (by decide) (by omega)
    (headers.flatMap encodeField)
  simp only [decode, headerBlock, hcount, hbase, bind, Except.bind]
  exact decodeFields_encodeField hlen (le_refl _) maxSize

/-! ## Sizes -/

/-- What a header takes in a block. -/
theorem encodeField_length {h : Header} (hname : h.name.length < 2 ^ 21) (hvalue : h.value.length < 2 ^ 21) :
    (encodeField h).length ≤ size h + 8 := by
  have hstr : (encodeStr false h.value 0 7).length ≤ h.value.length + 2 + 2 :=
    encodeStr_length 2 (by omega)
  unfold encodeField size
  split
  next idx hfound =>
    obtain ⟨value, htable, -⟩ := lookupEncode_spec hfound
    have hidx := lt_of_staticDecodeTable htable
    have hint := PrefixInt.encode_length 0 6 (indexed ||| 0x40)
      (show idx < 2 ^ 6 - 1 + 128 ^ 1 by omega)
    simp only [encodeInt]
    omega
  next idx hfound =>
    obtain ⟨value, htable, -⟩ := lookupEncode_spec hfound
    have hidx := lt_of_staticDecodeTable htable
    have hint := PrefixInt.encode_length 0 4 (literalWithNameRef ||| 0x10)
      (show idx < 2 ^ 4 - 1 + 128 ^ 1 by omega)
    simp only [encodeInt, List.length_append]
    omega
  next =>
    have hlit : (encodeStr true h.name literal 3).length ≤ h.name.length + 2 + 2 :=
      encodeStr_length 2 (by omega)
    simp only [List.length_append]
    omega

/-- The buffer of `encode_headers_frame`. -/
def bufferSize (headers : List Header) : Nat :=
  (headers.map fun h => h.name.length + h.value.length + 8).sum + 16

theorem headerBlock_length {headers : List Header}
    (hlen : ∀ h ∈ headers, h.name.length < 2 ^ 21 ∧ h.value.length < 2 ^ 21) :
    (headerBlock headers).length ≤ bufferSize headers := by
  have hfields : (headers.flatMap encodeField).length ≤
      (headers.map fun h => h.name.length + h.value.length + 8).sum := by
    rw [List.length_flatMap]
    exact List.sum_le_sum fun h hh => encodeField_length (hlen h hh).1 (hlen h hh).2
  have hzero : (encodeInt 0 0 8).length = 1 ∧ (encodeInt 0 0 7).length = 1 := by decide
  simp only [headerBlock, bufferSize, List.length_append, hzero]
  omega

end

/-! ## What hostile blocks do -/

section

variable [Huffman]

omit [Huffman] in
theorem of_bind {α β : Type} {x : Except Error α} {f : α → Except Error β} {r : β}
    (h : x.bind f = .ok r) : ∃ a, x = .ok a ∧ f a = .ok r := by
  cases x with
  | error err => cases h
  | ok a => exact ⟨a, rfl, h⟩

omit [Huffman] in
theorem decodeInt_shorter {bits v : Nat} (hbits : bits ≤ 8) {l rest : Bytes}
    (h : decodeInt bits l = .ok (v, rest)) : rest.length < l.length := by
  obtain ⟨w, hw, -⟩ := (decodeInt_iff hbits).mp h
  exact PrefixInt.decode_suffix hw

theorem takeStr_shorter {huff : Bool} {len : Nat} {l v rest : Bytes}
    (h : takeStr huff len l = .ok (v, rest)) : rest.length ≤ l.length := by
  unfold takeStr at h
  split_ifs at h
  · split at h
    · obtain ⟨-, rfl⟩ := Prod.mk.inj (Except.ok.inj h)
      simp
    · cases h
  · obtain ⟨-, rfl⟩ := Prod.mk.inj (Except.ok.inj h)
    simp

theorem decodeStr_shorter {bits : Nat} (hbits : bits ≤ 8) {l v rest : Bytes}
    (h : decodeStr bits l = .ok (v, rest)) : rest.length < l.length := by
  obtain ⟨⟨len, more⟩, hint, hstr⟩ := of_bind h
  exact (takeStr_shorter hstr).trans_lt (decodeInt_shorter hbits hint)

omit [Huffman] in
theorem charge_spec {left left' : Nat} {h : Header} (hc : charge left h = .ok left') :
    left' + size h = left := by
  unfold charge at hc
  split at hc
  · cases hc
  · obtain rfl := Except.ok.inj hc
    unfold size
    omega

/-- A pass of the loop takes a byte at least, and what it yields is charged. -/
theorem decodeField_spec {left left' : Nat} {b rest : Bytes} {h : Header}
    (hfield : decodeField left b = .ok (h, left', rest)) :
    rest.length < b.length ∧ left' + size h = left := by
  have hend : ∀ {h0 : Header} {more : Bytes}, (charge left h0).bind (fun left =>
      (pure (h0, left, more) : Except Error (Header × Nat × Bytes))) = .ok (h, left', rest) →
      rest = more ∧ left' + size h = left := by
    intro h0 more heq
    obtain ⟨l, hcharge, hpure⟩ := of_bind heq
    obtain ⟨rfl, hrest⟩ := Prod.mk.inj (Except.ok.inj hpure)
    obtain ⟨rfl, rfl⟩ := Prod.mk.inj hrest
    exact ⟨rfl, charge_spec hcharge⟩
  unfold decodeField at hfield
  split at hfield
  · cases hfield
  next first more =>
    split at hfield
    · obtain ⟨⟨idx, more'⟩, hint, hrest⟩ := of_bind hfield
      have hlt := decodeInt_shorter (by omega) hint
      simp only at hrest
      split at hrest
      · cases hrest
      · obtain ⟨⟨name, value⟩, -, hrest⟩ := of_bind hrest
        obtain ⟨rfl, hsize⟩ := hend hrest
        exact ⟨hlt, hsize⟩
    · obtain ⟨a, -, hrest⟩ := of_bind hfield
      cases hrest
    · obtain ⟨⟨name, more'⟩, hname, hrest⟩ := of_bind hfield
      obtain ⟨⟨value, more''⟩, hvalue, hrest⟩ := of_bind hrest
      obtain ⟨rfl, hsize⟩ := hend hrest
      exact ⟨(decodeStr_shorter (by omega) hvalue).trans (decodeStr_shorter (by omega) hname), hsize⟩
    · obtain ⟨⟨idx, more'⟩, hint, hrest⟩ := of_bind hfield
      obtain ⟨⟨value, more''⟩, hvalue, hrest⟩ := of_bind hrest
      have hlt := (decodeStr_shorter (by omega) hvalue).trans (decodeInt_shorter (by omega) hint)
      simp only at hrest
      split at hrest
      · cases hrest
      · obtain ⟨⟨name, value'⟩, -, hrest⟩ := of_bind hrest
        obtain ⟨rfl, hsize⟩ := hend hrest
        exact ⟨hlt, hsize⟩
    · cases hfield

/-- The fuel of the loop is immaterial. -/
theorem decodeFields_fuel : ∀ {n m left : Nat} {b : Bytes}, b.length ≤ n → b.length ≤ m →
    decodeFields n left b = decodeFields m left b
  | _, _, _, [], _, _ => by rw [decodeFields, decodeFields]
  | 0, _, _, _ :: _, hn, _ => absurd hn (by simp)
  | _, 0, _, _ :: _, _, hm => absurd hm (by simp)
  | n + 1, m + 1, left, b :: l, hn, hm => by
      rw [decodeFields, decodeFields]
      · cases hfield : decodeField left (b :: l) with
        | error err => rfl
        | ok r =>
            obtain ⟨field, left', rest⟩ := r
            have hlt := (decodeField_spec hfield).1
            simp only [bind, Except.bind]
            rw [decodeFields_fuel (n := n) (m := m) (by omega) (by omega)]
      · simp
      · simp

theorem decodeFields_bounded : ∀ {n left : Nat} {b : Bytes} {headers : List Header},
    decodeFields n left b = .ok headers →
    (headers.map size).sum ≤ left ∧ headers.length ≤ b.length
  | n, left, [], headers, h => by
      rw [decodeFields] at h
      obtain rfl := Except.ok.inj h
      exact ⟨Nat.zero_le _, Nat.zero_le _⟩
  | 0, _, _ :: _, _, h => by cases h
  | n + 1, left, b :: l, headers, h => by
      rw [decodeFields] at h
      · obtain ⟨⟨field, left', rest⟩, hfield, hrest⟩ := of_bind h
        obtain ⟨fields, hfields, hpure⟩ := of_bind hrest
        obtain rfl := Except.ok.inj hpure
        obtain ⟨hlt, hsize⟩ := decodeField_spec hfield
        obtain ⟨hsum, hcount⟩ := decodeFields_bounded hfields
        rw [List.map_cons, List.sum_cons, List.length_cons]
        exact ⟨by omega, by omega⟩
      · simp

end

/-! ## The codec of the session -/

/-- The limit of `decode_header_block`. -/
def maxHeaderBlock : Nat := 64 * 1024

/-- QPACK as the session uses it. -/
@[reducible] def codec [Huffman] (item : String → Option (Option String))
    (list : String → Option (List (Option String))) : Codec where
  qpackEncode headers := (encode headers (bufferSize headers)).mapError Error.debug
  qpackDecode block := (decode block maxHeaderBlock).mapError Error.debug
  sfvItem := item
  sfvList := list

/-- Codes of which none is shorter than its string. -/
@[reducible] def Huffman.plain : Huffman where
  encodingLen _ _ := none
  putEncoded _ v := v
  getDecoded _ := none

theorem Huffman.plain_lawful : @Huffman.Lawful Huffman.plain :=
  letI := Huffman.plain
  { length := fun h => by cases h
    inverse := fun h => by cases h }

/-- A header of the table, a value with its name in the table, and one with neither. -/
def sampleHeaders : List Header :=
  [⟨ascii ":Method", ascii "CONNECT"⟩, ⟨ascii ":path", ascii "~"⟩, ⟨ascii "~", ascii "|"⟩]

section

variable [Huffman] (item : String → Option (Option String)) (list : String → Option (List (Option String)))

theorem encodeHeadersFrame_eq (headers : List Header) : @encodeHeadersFrame (codec item list) headers =
    ((encode headers (bufferSize headers)).mapError fun err => s!"qpack encode: {err.debug}").map
      (frame frameHeaders) := by
  have hread : ∀ r, encode headers (bufferSize headers) = r →
      @Codec.qpackEncode (codec item list) headers = r.mapError Error.debug := by
    rintro r rfl
    rfl
  unfold encodeHeadersFrame
  cases hencode : encode headers (bufferSize headers) with
  | error err =>
      rw [hread _ hencode]
      rfl
  | ok block =>
      rw [hread _ hencode]
      rfl

theorem decodeHeaderBlock_eq (block : Bytes) : @decodeHeaderBlock (codec item list) block =
    (decode block maxHeaderBlock).mapError fun err => s!"qpack decode: {err.debug}" := by
  have hread : ∀ r, decode block maxHeaderBlock = r →
      @Codec.qpackDecode (codec item list) block = r.mapError Error.debug := by
    rintro r rfl
    rfl
  unfold decodeHeaderBlock
  cases hdecode : decode block maxHeaderBlock with
  | error err =>
      rw [hread _ hdecode]
      rfl
  | ok headers =>
      rw [hread _ hdecode]
      rfl

/-- A header list is always written, and reads back with its names in lower case
unless it exceeds the limit of the reader. -/
theorem header_frame_round_trip [Huffman.Lawful] {headers : List Header}
    (hlen : ∀ h ∈ headers, h.name.length < 2 ^ 21 ∧ h.value.length < 2 ^ 21) :
    letI := codec item list
    ∃ block, encodeHeadersFrame headers = .ok (frame frameHeaders block) ∧
      decodeHeaderBlock block =
        if maxHeaderBlock < (headers.map size).sum then .error "qpack decode: HeaderListTooLarge"
        else .ok (headers.map Header.lower) := by
  have hroom := headerBlock_length hlen
  have hread := decode_headerBlock
    (fun h hh => ⟨(hlen h hh).1.trans (by decide), (hlen h hh).2.trans (by decide)⟩) maxHeaderBlock
  refine ⟨headerBlock headers, ?_, ?_⟩
  · rw [encodeHeadersFrame_eq, encode_eq, if_pos hroom]
    rfl
  · rw [decodeHeaderBlock_eq, hread]
    by_cases hover : maxHeaderBlock < (headers.map size).sum
    · rw [if_pos hover, if_pos hover]
      rfl
    · rw [if_neg hover, if_neg hover]
      rfl

omit [Huffman] in
theorem header_frame_round_trip_sample :
    letI := @codec Huffman.plain (fun _ => none) (fun _ => none)
    ∃ block, encodeHeadersFrame sampleHeaders = .ok (frame frameHeaders block) ∧
      decodeHeaderBlock block =
        if maxHeaderBlock < (sampleHeaders.map size).sum then .error "qpack decode: HeaderListTooLarge"
        else .ok (sampleHeaders.map Header.lower) :=
  @header_frame_round_trip Huffman.plain _ _ Huffman.plain_lawful sampleHeaders (by decide)

/-- Whatever the peer sends, the headers of a block are within the limit, and no
more than its bytes. -/
theorem decoded_within_limit {block : Bytes} {headers : List Header} :
    letI := codec item list
    decodeHeaderBlock block = .ok headers →
      (headers.map size).sum ≤ maxHeaderBlock ∧ headers.length ≤ block.length := by
  intro h
  rw [decodeHeaderBlock_eq] at h
  cases hread : decode block maxHeaderBlock with
  | error err =>
      rw [hread] at h
      cases h
  | ok fields =>
      rw [hread] at h
      obtain rfl := Except.ok.inj h
      obtain ⟨⟨count, more⟩, hcount, hrest⟩ := of_bind hread
      obtain ⟨⟨base, more'⟩, hbase, hfields⟩ := of_bind hrest
      obtain ⟨hsum, hnumber⟩ := decodeFields_bounded hfields
      have hlt := (decodeInt_shorter (by omega) hbase).trans (decodeInt_shorter (by omega) hcount)
      exact ⟨hsum, hnumber.trans hlt.le⟩

omit [Huffman] in
theorem decoded_within_limit_sample :
    ((sampleHeaders.map Header.lower).map size).sum ≤ maxHeaderBlock ∧
      (sampleHeaders.map Header.lower).length ≤ [0, 0, 0xcf, 0x51, 1, 126, 0x21, 126, 1, 124].length :=
  @decoded_within_limit Huffman.plain (fun _ => none) (fun _ => none)
    [0, 0, 0xcf, 0x51, 1, 126, 0x21, 126, 1, 124] (sampleHeaders.map Header.lower) (by decide +kernel)

end

end RWebTransport.H3.Qpack
