import RWebTransport.H3.Headers

/-!
# Retry tokens

`mint_token` and `validate_token` of `server.rs`.  A token carries the original
destination connection id in the clear, and a tag over it and the address it
was minted for.  SHA-256 is code of a library and a parameter here.

The tag covers the address in front of the connection id with no length and no
family between them.  `mintToken_bound_iff` says for which pairs of addresses a
token is bound to the one it was minted for.
-/

namespace RWebTransport.Server

open H3 (ascii)

/-! ## Addresses -/

/-- `std::net::SocketAddr`. -/
inductive SocketAddr where
  | v4 (octets : { b : Bytes // b.length = 4 }) (port : UInt16)
  | v6 (octets : { b : Bytes // b.length = 16 }) (port : UInt16)
deriving DecidableEq

/-- `u16::to_be_bytes`. -/
def toBeBytes (port : UInt16) : Bytes :=
  [UInt8.ofNat (port.toNat / 256), UInt8.ofNat port.toNat]

/-- `addr_identity`. -/
def addrIdentity : SocketAddr → Bytes
  | .v4 octets port => octets.val ++ toBeBytes port
  | .v6 octets port => octets.val ++ toBeBytes port

theorem toBeBytes_injective {p q : UInt16} (h : toBeBytes p = toBeBytes q) : p = q := by
  simp only [toBeBytes, List.cons.injEq, and_true] at h
  have hhi := congrArg UInt8.toNat h.1
  have hlo := congrArg UInt8.toNat h.2
  have hp := p.toNat_lt
  have hq := q.toNat_lt
  simp only [UInt8.toNat_ofNat'] at hhi hlo
  refine UInt16.toNat_inj.mp ?_
  omega

/-- The two addresses are of one family. -/
def SameFamily : SocketAddr → SocketAddr → Prop
  | .v4 _ _, .v4 _ _ | .v6 _ _, .v6 _ _ => True
  | _, _ => False

theorem length_addrIdentity (a : SocketAddr) :
    (addrIdentity a).length = match a with
      | .v4 _ _ => 6
      | .v6 _ _ => 18 := by
  cases a with
  | v4 octets port => simp [addrIdentity, toBeBytes, octets.property]
  | v6 octets port => simp [addrIdentity, toBeBytes, octets.property]

theorem addrIdentity_injective {a b : SocketAddr} (h : addrIdentity a = addrIdentity b) : a = b := by
  have hlen := congrArg List.length h
  rw [length_addrIdentity, length_addrIdentity] at hlen
  cases a with
  | v4 octets port =>
      cases b with
      | v4 octets' port' =>
          obtain ⟨ho, hp⟩ := List.append_inj h (by rw [octets.property, octets'.property])
          rw [Subtype.ext ho, toBeBytes_injective hp]
      | v6 => simp at hlen
  | v6 octets port =>
      cases b with
      | v4 => simp at hlen
      | v6 octets' port' =>
          obtain ⟨ho, hp⟩ := List.append_inj h (by rw [octets.property, octets'.property])
          rw [Subtype.ext ho, toBeBytes_injective hp]

/-! ## HMAC -/

/-- `hmac_sha256`, over the hash function. -/
def hmacSha256 (sha256 : Bytes → Bytes) (secret data : Bytes) : Bytes :=
  let block := 64
  let short := if block < secret.length then sha256 secret else secret
  let key := short ++ List.replicate (block - short.length) 0
  let ipad := key.map (0x36 ^^^ ·)
  let opad := key.map (0x5c ^^^ ·)
  sha256 (opad ++ sha256 (ipad ++ data))

/-- `constant_time_eq`. -/
def constantTimeEq (a b : Bytes) : Bool :=
  if a.length ≠ b.length then false
  else (a.zip b).foldl (fun diff p => diff ||| (p.1 ^^^ p.2)) 0 == 0

theorem foldl_diff_eq_zero (l : List (UInt8 × UInt8)) : ∀ diff : UInt8,
    l.foldl (fun diff p => diff ||| (p.1 ^^^ p.2)) diff = 0 ↔ diff = 0 ∧ ∀ p ∈ l, p.1 = p.2 := by
  induction l with
  | nil => simp
  | cons q l ih =>
      intro diff
      rw [List.foldl_cons, ih, UInt8.or_eq_zero_iff, UInt8.xor_eq_zero_iff, List.forall_mem_cons,
        and_assoc]

theorem constantTimeEq_iff {a b : Bytes} : constantTimeEq a b = true ↔ a = b := by
  unfold constantTimeEq
  split
  next h => exact ⟨fun hf => absurd hf (by simp), fun he => absurd (congrArg List.length he) h⟩
  next h =>
    have hlen : a.length = b.length := by simpa using h
    rw [beq_iff_eq, foldl_diff_eq_zero]
    refine ⟨fun ⟨_, hall⟩ => List.ext_getElem hlen fun i hi hi' => ?_, fun he => ⟨rfl, ?_⟩⟩
    · exact hall (a[i], b[i]) (by
        rw [← List.getElem_zip (i := i) (h := by simp [hi, hi'])]
        exact List.getElem_mem _)
    · subst he
      intro p hp
      obtain ⟨i, hi, rfl⟩ := List.getElem_of_mem hp
      simp

/-! ## Tokens -/

def tokenTagLen : Nat := 16

def tokenPrefix : Bytes := ascii "rwt1"

/-- The tag of a token: the truncated HMAC over address and connection id. -/
def macTag (sha256 : Bytes → Bytes) (secret : Bytes) (src : SocketAddr) (dcid : Bytes) : Bytes :=
  (hmacSha256 sha256 secret (addrIdentity src ++ dcid)).take tokenTagLen

/-- `mint_token`. -/
def mintToken (sha256 : Bytes → Bytes) (secret origDcid : Bytes) (src : SocketAddr) : Bytes :=
  tokenPrefix ++ origDcid ++ macTag sha256 secret src origDcid

/-- `slice::strip_prefix` with the token prefix. -/
def stripPrefix (token : Bytes) : Option Bytes :=
  if tokenPrefix.isPrefixOf token then some (token.drop tokenPrefix.length) else none

/-- `validate_token`. -/
def validateToken (sha256 : Bytes → Bytes) (secret : Bytes) (src : SocketAddr) (token : Bytes) :
    Option Bytes :=
  match stripPrefix token with
  | none => none
  | some rest =>
      if rest.length < tokenTagLen then none
      else
        let origDcid := rest.take (rest.length - tokenTagLen)
        let tag := rest.drop (rest.length - tokenTagLen)
        if !constantTimeEq (macTag sha256 secret src origDcid) tag then none else some origDcid

/-- The last bytes of a token. -/
def tagOf (token : Bytes) : Bytes := token.drop (token.length - tokenTagLen)

section

variable {sha256 : Bytes → Bytes}

theorem stripPrefix_append (rest : Bytes) : stripPrefix (tokenPrefix ++ rest) = some rest := by
  simp [stripPrefix]

theorem stripPrefix_eq_some {token rest : Bytes} (h : stripPrefix token = some rest) :
    token = tokenPrefix ++ rest := by
  unfold stripPrefix at h
  split at h
  next hp =>
    obtain ⟨t, rfl⟩ := List.isPrefixOf_iff_prefix.mp hp
    simpa using h
  · cases h

theorem tagOf_append (pre : Bytes) {tag : Bytes} (h : tag.length = tokenTagLen) :
    tagOf (pre ++ tag) = tag := by
  unfold tagOf
  rw [List.length_append, h, Nat.add_sub_cancel, List.drop_left]

theorem length_macTag (hlen : ∀ b, (sha256 b).length = 32) (secret : Bytes) (src : SocketAddr)
    (dcid : Bytes) : (macTag sha256 secret src dcid).length = tokenTagLen := by
  simp [macTag, hmacSha256, hlen, tokenTagLen]

/-- A token is validated when it is laid out as a minted one for the address. -/
theorem validateToken_eq_some (hlen : ∀ b, (sha256 b).length = 32) {secret : Bytes}
    {src : SocketAddr} {token dcid : Bytes} :
    validateToken sha256 secret src token = some dcid ↔ token = mintToken sha256 secret dcid src := by
  have htag := fun d => length_macTag hlen secret src d
  constructor
  · intro h
    unfold validateToken at h
    split at h
    · cases h
    next rest hrest =>
      simp only at h
      split_ifs at h with hshort heq
      simp only [Option.some.injEq] at h
      subst h
      simp only [Bool.not_eq_true', Bool.not_eq_false] at heq
      rw [stripPrefix_eq_some hrest, mintToken, constantTimeEq_iff.mp heq, List.append_assoc,
        List.take_append_drop]
  · rintro rfl
    unfold validateToken mintToken
    rw [List.append_assoc, stripPrefix_append]
    have hsub : (dcid ++ macTag sha256 secret src dcid).length - tokenTagLen = dcid.length := by
      rw [List.length_append, htag, Nat.add_sub_cancel]
    simp only
    rw [if_neg (by rw [List.length_append, htag]; omega), hsub, List.take_left, List.drop_left,
      if_neg (by simp [constantTimeEq_iff.mpr rfl])]

theorem validateToken_mintToken (hlen : ∀ b, (sha256 b).length = 32) (secret dcid : Bytes)
    (src : SocketAddr) : validateToken sha256 secret src (mintToken sha256 secret dcid src) = some dcid :=
  (validateToken_eq_some hlen).mpr rfl

theorem tagOf_mintToken (hlen : ∀ b, (sha256 b).length = 32) (secret dcid : Bytes)
    (src : SocketAddr) : tagOf (mintToken sha256 secret dcid src) = macTag sha256 secret src dcid :=
  tagOf_append _ (length_macTag hlen secret src dcid)

/-! ## What a token is bound to -/

/-- Whatever validates for `src'` with the tag minted for `dcid` and `src` names
just these. -/
def Binds (sha256 : Bytes → Bytes) (secret dcid : Bytes) (src src' : SocketAddr) : Prop :=
  ∀ token dcid', validateToken sha256 secret src' token = some dcid' →
    tagOf token = tagOf (mintToken sha256 secret dcid src) → src' = src ∧ dcid' = dcid

/-- No MAC input for `src'` collides with the one for `dcid` and `src`. -/
def CollisionFree (sha256 : Bytes → Bytes) (secret dcid : Bytes) (src src' : SocketAddr) : Prop :=
  ∀ dcid', macTag sha256 secret src' dcid' = macTag sha256 secret src dcid →
    addrIdentity src' ++ dcid' = addrIdentity src ++ dcid

/-- A token minted for one address can be re-cut for another one whose identity
is an initial segment of what the tag covers. -/
theorem validateToken_recut (hlen : ∀ b, (sha256 b).length = 32) (secret : Bytes)
    {dcid dcid' : Bytes} {src src' : SocketAddr}
    (h : addrIdentity src' ++ dcid' = addrIdentity src ++ dcid) :
    validateToken sha256 secret src' (mintToken sha256 secret dcid' src') = some dcid' ∧
      tagOf (mintToken sha256 secret dcid' src') = tagOf (mintToken sha256 secret dcid src) := by
  refine ⟨validateToken_mintToken hlen _ _ _, ?_⟩
  rw [tagOf_mintToken hlen, tagOf_mintToken hlen, macTag, macTag, h]

/-- Tokens are recovered, and bound to address and connection id exactly where
no other address begins what the tag covers. -/
theorem mintToken_bound_iff (hlen : ∀ b, (sha256 b).length = 32) (secret dcid : Bytes)
    (src src' : SocketAddr) (hfree : CollisionFree sha256 secret dcid src src') :
    (validateToken sha256 secret src (mintToken sha256 secret dcid src) = some dcid ∧
        Binds sha256 secret dcid src src') ↔
      (addrIdentity src' <+: addrIdentity src ++ dcid → src' = src) := by
  constructor
  · rintro ⟨-, hbinds⟩ ⟨dcid', hcut⟩
    obtain ⟨hvalid, htag⟩ := validateToken_recut hlen secret hcut
    exact (hbinds _ dcid' hvalid htag).1
  · intro hcond
    refine ⟨validateToken_mintToken hlen _ _ _, fun token dcid' hvalid htag => ?_⟩
    obtain rfl := (validateToken_eq_some hlen).mp hvalid
    rw [tagOf_mintToken hlen, tagOf_mintToken hlen] at htag
    have hinput := hfree dcid' htag
    have hsrc := hcond ⟨dcid', hinput⟩
    subst hsrc
    exact ⟨rfl, List.append_cancel_left hinput⟩

/-- SHA-256 on the two blocks that the HMAC of one token hashes. -/
def sampleSha256 (b : Bytes) : Bytes :=
  let mac := addrIdentity (.v4 ⟨[192, 0, 2, 10], rfl⟩ 4433) ++
    [0x11, 0x22, 0x33, 0x44, 0x55, 0x66, 0x77, 0x88]
  let inner : Bytes := [124, 97, 135, 206, 171, 13, 146, 199, 190, 158, 145, 125, 206, 166, 88, 41,
    19, 80, 235, 120, 140, 135, 161, 36, 80, 16, 20, 14, 247, 37, 86, 76]
  if b = List.replicate 32 0x31 ++ List.replicate 32 0x36 ++ mac then inner
  else if b = List.replicate 32 0x5b ++ List.replicate 32 0x5c ++ inner then
    [116, 136, 91, 118, 110, 45, 5, 213, 25, 19, 209, 141, 194, 104, 75, 7, 127, 38, 246, 166, 72, 46,
      82, 242, 161, 250, 33, 182, 222, 15, 227, 192]
  else List.replicate 32 0

theorem length_sampleSha256 (b : Bytes) : (sampleSha256 b).length = 32 := by
  unfold sampleSha256
  simp only
  split_ifs <;> rfl

end

theorem collisionFree_sample : CollisionFree sampleSha256 (List.replicate 32 7)
    [0x11, 0x22, 0x33, 0x44, 0x55, 0x66, 0x77, 0x88] (.v4 ⟨[192, 0, 2, 10], rfl⟩ 4433)
    (.v4 ⟨[192, 0, 2, 11], rfl⟩ 4433) := by
  intro dcid' h
  by_contra hne
  -- any other input is hashed to zeros twice
  have hinner : sampleSha256 (List.replicate 32 0x31 ++ List.replicate 32 0x36 ++
      (addrIdentity (.v4 ⟨[192, 0, 2, 11], rfl⟩ 4433) ++ dcid')) = List.replicate 32 0 := by
    unfold sampleSha256
    simp only
    rw [if_neg (fun heq => hne (List.append_cancel_left heq)), if_neg (fun heq => ?_)]
    simp [List.replicate] at heq
  have hzero : macTag sampleSha256 (List.replicate 32 7) (.v4 ⟨[192, 0, 2, 11], rfl⟩ 4433) dcid' =
      List.replicate 16 0 := by
    have hkey : (List.replicate 32 (7 : UInt8) ++ List.replicate (64 - 32) 0).map (0x36 ^^^ ·) =
        List.replicate 32 0x31 ++ List.replicate 32 0x36 := by decide
    have hkey' : (List.replicate 32 (7 : UInt8) ++ List.replicate (64 - 32) 0).map (0x5c ^^^ ·) =
        List.replicate 32 0x5b ++ List.replicate 32 0x5c := by decide
    simp only [macTag, hmacSha256, List.length_replicate, if_neg (show ¬64 < 32 by decide), hkey,
      hkey', hinner]
    decide
  rw [hzero] at h
  revert h
  decide

/-- A token of the tests is bound to its address. -/
theorem mintToken_bound_iff_sample :
    validateToken sampleSha256 (List.replicate 32 7) (.v4 ⟨[192, 0, 2, 10], rfl⟩ 4433)
        (mintToken sampleSha256 (List.replicate 32 7)
          [0x11, 0x22, 0x33, 0x44, 0x55, 0x66, 0x77, 0x88] (.v4 ⟨[192, 0, 2, 10], rfl⟩ 4433)) =
        some [0x11, 0x22, 0x33, 0x44, 0x55, 0x66, 0x77, 0x88] ∧
      Binds sampleSha256 (List.replicate 32 7) [0x11, 0x22, 0x33, 0x44, 0x55, 0x66, 0x77, 0x88]
        (.v4 ⟨[192, 0, 2, 10], rfl⟩ 4433) (.v4 ⟨[192, 0, 2, 11], rfl⟩ 4433) :=
  (mintToken_bound_iff length_sampleSha256 _ _ _ _ collisionFree_sample).mpr (by decide)

/-- A token minted for an IPv4 address and a connection id of twelve bytes is
valid for an IPv6 address, under every secret. -/
theorem mintToken_recut :
    addrIdentity (.v6 ⟨[192, 0, 2, 10, 0x11, 0x51, 1, 2, 3, 4, 5, 6, 7, 8, 9, 10], rfl⟩ 0x0b0c) ++ [] =
        addrIdentity (.v4 ⟨[192, 0, 2, 10], rfl⟩ 4433) ++ [1, 2, 3, 4, 5, 6, 7, 8, 9, 10, 11, 12] ∧
      ∀ (sha256 : Bytes → Bytes) (secret : Bytes), (∀ b, (sha256 b).length = 32) →
        ¬Binds sha256 secret [1, 2, 3, 4, 5, 6, 7, 8, 9, 10, 11, 12]
          (.v4 ⟨[192, 0, 2, 10], rfl⟩ 4433)
          (.v6 ⟨[192, 0, 2, 10, 0x11, 0x51, 1, 2, 3, 4, 5, 6, 7, 8, 9, 10], rfl⟩ 0x0b0c) := by
  have hinput : addrIdentity
      (.v6 ⟨[192, 0, 2, 10, 0x11, 0x51, 1, 2, 3, 4, 5, 6, 7, 8, 9, 10], rfl⟩ 0x0b0c) ++ [] =
      addrIdentity (.v4 ⟨[192, 0, 2, 10], rfl⟩ 4433) ++
        [1, 2, 3, 4, 5, 6, 7, 8, 9, 10, 11, 12] := by decide
  refine ⟨hinput, fun sha256 secret hlen hbinds => ?_⟩
  obtain ⟨hvalid, htag⟩ := validateToken_recut hlen secret hinput
  exact absurd (hbinds _ _ hvalid htag).1 (by simp)

/-- Within one address family every token is bound to its address. -/
theorem sameFamily_prefix {src src' : SocketAddr} {dcid : Bytes} (h : SameFamily src src')
    (hpre : addrIdentity src' <+: addrIdentity src ++ dcid) : src' = src := by
  obtain ⟨rest, hrest⟩ := hpre
  refine addrIdentity_injective (List.append_inj hrest ?_).1
  rw [length_addrIdentity, length_addrIdentity]
  cases src with
  | v4 => cases src' with
    | v4 => rfl
    | v6 => exact h.elim
  | v6 => cases src' with
    | v4 => exact h.elim
    | v6 => rfl

end RWebTransport.Server
