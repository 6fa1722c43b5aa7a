import RWebTransport.H3.Settings

/-!
# Header blocks

The header part of `wtcore::h3`: the CONNECT request, subprotocol fields, and
the readers of a response.  Two crates outside the repository do the coding:
QPACK (`quiche::h3::qpack`) and structured fields (`sfv`).  They are the
parameter `Codec`; no property of them is assumed here.
-/

namespace RWebTransport.H3

/-- A header field (`quiche::h3::Header`). -/
structure Header where
  name : Bytes
  value : Bytes
deriving DecidableEq, Repr

/-- What the model takes from QPACK and from `sfv`.  A structured-field member
that is not a string is `none` inside the result. -/
class Codec where
  /-- `qpack::Encoder::encode`, an error being its debug text. -/
  qpackEncode : List Header → Except String Bytes
  /-- `qpack::Decoder::decode` with the limit of `decodeHeaderBlock`. -/
  qpackDecode : Bytes → Except String (List Header)
  /-- `sfv::Parser::parse::<Item>`. -/
  sfvItem : String → Option (Option String)
  /-- `sfv::Parser::parse::<List>`. -/
  sfvList : String → Option (List (Option String))

/-- A string behind its length. -/
def plainString (b : Bytes) : Bytes := UInt8.ofNat b.length :: b

/-- The inverse of writing fields behind their lengths. -/
def plainFields : Nat → Bytes → Option (List Header)
  | _, [] => some []
  | 0, _ => none
  | fuel + 1, n :: rest =>
      match rest.drop n.toNat with
      | [] => none
      | m :: rest' =>
          (plainFields fuel (rest'.drop m.toNat)).map fun headers =>
            ⟨rest.take n.toNat, rest'.take m.toNat⟩ :: headers

/-- A quoted string without escapes. -/
def plainItem (s : String) : Option String :=
  match s.toList with
  | '"' :: cs =>
      if cs.getLast? = some '"' ∧ '"' ∉ cs.dropLast then some (String.ofList cs.dropLast) else none
  | _ => none

/-- A codec for concrete runs.  A header block is the list of its fields
without any compression, and a structured field is a quoted string. -/
@[reducible] def Codec.plain : Codec where
  qpackEncode headers := .ok (headers.flatMap fun h => plainString h.name ++ plainString h.value)
  qpackDecode block :=
    match plainFields block.length block with
    | some headers => .ok headers
    | none => .error "DecompressionFailed"
  sfvItem s := (plainItem s).map some
  sfvList s := (plainItem s).map fun v => [some v]

/-! ## Strings and bytes -/

/-- A byte-string literal `b"..."`. -/
def ascii (s : String) : Bytes := s.toList.map fun c => UInt8.ofNat c.toNat

/-- `str::as_bytes`. -/
def asBytes (s : String) : Bytes := s.toUTF8.toList

/-- The ranges the bytes behind a leading byte must lie in, or `none` when no
UTF-8 sequence starts with that byte. -/
def continuationRanges (b : Nat) : Option (List (Nat × Nat)) :=
  if b < 0x80 then some []
  else if 0xc2 ≤ b ∧ b ≤ 0xdf then some [(0x80, 0xbf)]
  else if b = 0xe0 then some [(0xa0, 0xbf), (0x80, 0xbf)]
  else if b = 0xed then some [(0x80, 0x9f), (0x80, 0xbf)]
  else if 0xe1 ≤ b ∧ b ≤ 0xef then some [(0x80, 0xbf), (0x80, 0xbf)]
  else if b = 0xf0 then some [(0x90, 0xbf), (0x80, 0xbf), (0x80, 0xbf)]
  else if 0xf1 ≤ b ∧ b ≤ 0xf3 then some [(0x80, 0xbf), (0x80, 0xbf), (0x80, 0xbf)]
  else if b = 0xf4 then some [(0x80, 0x8f), (0x80, 0xbf), (0x80, 0xbf)]
  else none

/-- How many bytes lie in the ranges, one after the other. -/
def matchRanges : List (Nat × Nat) → Bytes → Nat
  | (lo, hi) :: ranges, b :: rest =>
      if lo ≤ b.toNat ∧ b.toNat ≤ hi then matchRanges ranges rest + 1 else 0
  | _, _ => 0

/-- The code point of a complete sequence with `n` continuation bytes. -/
def codePoint (first : UInt8) (cont : Bytes) : Nat :=
  let lead := match cont.length with
    | 0 => first.toNat
    | 1 => first.toNat % 32
    | 2 => first.toNat % 16
    | _ => first.toNat % 8
  cont.foldl (fun v b => v * 64 + b.toNat % 64) lead

/-- The first character, or `none` for the longest ill-formed prefix, with the
number of bytes it takes. -/
def utf8Head (first : UInt8) (rest : Bytes) : Option Char × Nat :=
  match continuationRanges first.toNat with
  | none => (none, 1)
  | some ranges =>
      let n := matchRanges ranges rest
      if n = ranges.length then (some (Char.ofNat (codePoint first (rest.take n))), n + 1)
      else (none, n + 1)

/-- The characters of a byte string, `none` standing for an ill-formed piece. -/
def utf8Chars : Nat → Bytes → List (Option Char)
  | 0, _ => []
  | _, [] => []
  | fuel + 1, first :: rest =>
      let (c, n) := utf8Head first rest
      c :: utf8Chars fuel (rest.drop (n - 1))

/-- `String::from_utf8_lossy`. -/
def fromUtf8Lossy (b : Bytes) : String :=
  String.ofList ((utf8Chars b.length b).map fun c => c.getD '\uFFFD')

/-- `str::from_utf8`. -/
def fromUtf8 (b : Bytes) : Option String :=
  let chars := utf8Chars b.length b
  if chars.all Option.isSome then some (String.ofList (chars.filterMap id)) else none

/-- `char::is_whitespace`. -/
def isWhitespace (c : Char) : Bool :=
  let n := c.toNat
  (0x9 ≤ n && n ≤ 0xd) || n == 0x20 || n == 0x85 || n == 0xa0 || n == 0x1680 ||
    (0x2000 ≤ n && n ≤ 0x200a) || n == 0x2028 || n == 0x2029 || n == 0x202f || n == 0x205f ||
    n == 0x3000

/-- `str::trim`. -/
def trim (s : String) : String :=
  String.ofList (((s.toList.dropWhile isWhitespace).reverse.dropWhile isWhitespace).reverse)

/-- `str::parse::<u16>`: an optional `+`, then decimal digits. -/
def parseU16 (s : String) : Option Nat :=
  let digits := match s.toList with
    | '+' :: ds => ds
    | ds => ds
  if digits.isEmpty || !digits.all Char.isDigit then none
  else
    let n := digits.foldl (fun v c => v * 10 + (c.toNat - '0'.toNat)) 0
    if n < 2 ^ 16 then some n else none

/-! ## Structured fields -/

def wtAvailableProtocols : Bytes := ascii "wt-available-protocols"
def wtProtocol : Bytes := ascii "wt-protocol"

def serializeSfString (s : String) : String :=
  String.ofList ('"' :: s.toList.flatMap (fun c => if c = '"' ∨ c = '\\' then ['\\', c] else [c])
    ++ ['"'])

def serializeSfStringList (items : List String) : String :=
  ", ".intercalate (items.map serializeSfString)

section

variable [Codec]

def parseSfStringItem (value : String) : Option String := (Codec.sfvItem value).join

/-- A malformed field, or one with a member that is not a string, counts as empty. -/
def parseSfStringList (value : String) : List String :=
  match Codec.sfvList value with
  | none => []
  | some entries => if entries.all Option.isSome then entries.filterMap id else []

/-! ## The CONNECT request and its response -/

/-- The Extended CONNECT request of a client. -/
def connectHeaders (authority path : String) (origin : Option String)
    (extra : List (String × String)) (protocols : List String) : List Header :=
  [⟨ascii ":method", ascii "CONNECT"⟩, ⟨ascii ":protocol", ascii "webtransport"⟩,
    ⟨ascii ":scheme", ascii "https"⟩, ⟨ascii ":authority", asBytes authority⟩,
    ⟨ascii ":path", asBytes path⟩] ++
  (match origin with
    | some o => [⟨ascii "origin", asBytes o⟩]
    | none => []) ++
  (if protocols.isEmpty then []
    else [⟨wtAvailableProtocols, asBytes (serializeSfStringList protocols)⟩]) ++
  extra.map fun p => ⟨asBytes p.1, asBytes p.2⟩

/-- The subprotocol a response selects; a repeated field selects none. -/
def wtProtocolOf (headers : List Header) : Option String :=
  match headers.filter fun h => h.name == wtProtocol with
  | [h] => (fromUtf8 h.value).bind fun v => parseSfStringItem (trim v)
  | _ => none

/-- The non-pseudo headers of a response that are valid UTF-8. -/
def responseHeaders (headers : List Header) : List (String × String) :=
  (headers.filter fun h => h.name.head? != some 0x3a).filterMap fun h =>
    (fromUtf8 h.name).bind fun n => (fromUtf8 h.value).map fun v => (n, v)

/-- The numeric `:status` of a response. -/
def statusOf (headers : List Header) : Option Nat :=
  (headers.find? fun h => h.name == ascii ":status").bind fun h =>
    (fromUtf8 h.value).bind fun v => parseU16 (trim v)

def encodeHeadersFrame (headers : List Header) : Except String Bytes :=
  match Codec.qpackEncode headers with
  | .ok block => .ok (frame frameHeaders block)
  | .error e => .error s!"qpack encode: {e}"

def decodeHeaderBlock (block : Bytes) : Except String (List Header) :=
  match Codec.qpackDecode block with
  | .ok headers => .ok headers
  | .error e => .error s!"qpack decode: {e}"

end

end RWebTransport.H3
