import RWebTransport.H3.Varint

/-!
# HTTP/3 and WebTransport constants, SETTINGS, error codes

The rest of `wtcore::h3` except the header codec: the wire constants, the
SETTINGS we advertise and their parser, the mapping of WebTransport error
codes into the HTTP/3 space, and the truncation of close reasons.
-/

namespace RWebTransport.H3

/-! ## Constants -/

def h3ControlStreamType : Nat := 0x00
def qpackEncoderStreamType : Nat := 0x02
def qpackDecoderStreamType : Nat := 0x03

def frameData : Nat := 0x00
def frameHeaders : Nat := 0x01
def frameSettings : Nat := 0x04
def frameGoaway : Nat := 0x07

def h3NoError : Nat := 0x100

def settingsQpackMaxTableCapacity : Nat := 0x01
def settingsQpackBlockedStreams : Nat := 0x07
def settingsEnableConnectProtocol : Nat := 0x08
def settingsH3Datagram : Nat := 0x33
def settingsWtMaxSessions : Nat := 0x14e9cd29
def settingsEnableWebtransport : Nat := 0x2b603742
def settingsWtInitialMaxData : Nat := 0x2b61
def settingsWtInitialMaxStreamsUni : Nat := 0x2b64
def settingsWtInitialMaxStreamsBidi : Nat := 0x2b65

def wtMaxDataCapsule : Nat := 0x190b4d3d
def wtMaxStreamsBidiCapsule : Nat := 0x190b4d3f
def wtMaxStreamsUniCapsule : Nat := 0x190b4d40
def wtDataBlockedCapsule : Nat := 0x190b4d41
def wtStreamsBlockedBidiCapsule : Nat := 0x190b4d43
def wtStreamsBlockedUniCapsule : Nat := 0x190b4d44

/-- The session limits we advertise in SETTINGS. -/
def wtInitialMaxData : Nat := 10 * 1024 * 1024
def wtInitialMaxStreams : Nat := 256

def wtUniStreamType : Nat := 0x54
def wtBidiFrameType : Nat := 0x41
def wtCloseSessionCapsule : Nat := 0x2843
def wtDrainSessionCapsule : Nat := 0x78ae

def wtMaxCloseReason : Nat := 1024

def wtAppErrorFirst : Nat := 0x52e4a40fa8db
def wtAppErrorLast : Nat := 0x52e5ac983162

/-! ## Error codes and close reasons -/

/-- A WebTransport application code in the HTTP/3 error space. -/
def webtransportCodeToHttpCode (n : Nat) : Nat := wtAppErrorFirst + n + n / 0x1e

/-- The inverse; `none` outside the range and on the reserved codepoints. -/
def httpCodeToWebtransportCode (h : Nat) : Option Nat :=
  if ¬(wtAppErrorFirst ≤ h ∧ h ≤ wtAppErrorLast) then none
  -- `wrapping_sub` does not wrap here: the range starts above `0x21`
  else if (h - 0x21) % 0x1f = 0 then none
  else
    let shifted := h - wtAppErrorFirst
    some (shifted - shifted / 0x1f)

/-- The backward scan of `truncateCloseReason`: the last position at or below
`stop` that does not hold a UTF-8 continuation byte. -/
def charStart (reason : Bytes) : Nat → Nat
  | 0 => 0
  | stop + 1 =>
      if (reason.getD (stop + 1) 0).toNat / 64 = 2 then charStart reason stop else stop + 1

/-- Cuts a close reason to at most `wtMaxCloseReason` bytes. -/
def truncateCloseReason (reason : Bytes) : Bytes :=
  if reason.length ≤ wtMaxCloseReason then reason
  else reason.take (charStart reason wtMaxCloseReason)

/-! ## SETTINGS -/

/-- The pairs of our SETTINGS frame. -/
def settingsPairs : List (Nat × Nat) :=
  [(settingsQpackMaxTableCapacity, 0), (settingsQpackBlockedStreams, 0),
    (settingsEnableConnectProtocol, 1), (settingsH3Datagram, 1), (settingsEnableWebtransport, 1),
    (settingsWtMaxSessions, 256), (settingsWtInitialMaxData, wtInitialMaxData),
    (settingsWtInitialMaxStreamsBidi, wtInitialMaxStreams),
    (settingsWtInitialMaxStreamsUni, wtInitialMaxStreams)]

def settingsPayload : Bytes :=
  settingsPairs.flatMap fun p => putVarint p.1 ++ putVarint p.2

/-- The bytes that start our control stream. -/
def controlStreamPrefix : Bytes :=
  putVarint h3ControlStreamType ++ frame frameSettings settingsPayload

/-- The peer's SETTINGS that matter to WebTransport. -/
structure PeerSettings where
  enableConnectProtocol : Bool := false
  h3Datagram : Bool := false
  enableWebtransport : Bool := false
  wtMaxSessions : Nat := 0
  wtInitialMaxData : Nat := 0
  wtInitialMaxStreamsBidi : Nat := 0
  wtInitialMaxStreamsUni : Nat := 0
deriving DecidableEq, Repr

/-- Whether the peer advertises enough to run a session. -/
def PeerSettings.webtransportOk (s : PeerSettings) : Bool :=
  s.enableConnectProtocol && s.h3Datagram && (s.enableWebtransport || decide (0 < s.wtMaxSessions))

/-- What a server asks of a client's SETTINGS.  Browsers need not advertise
ENABLE_CONNECT_PROTOCOL when they act as clients. -/
def PeerSettings.admitsConnect (s : PeerSettings) : Bool :=
  s.h3Datagram && (s.enableWebtransport || decide (0 < s.wtMaxSessions))

/-- The assignment one pair makes. -/
def PeerSettings.set (s : PeerSettings) (id val : Nat) : PeerSettings :=
  if id = settingsEnableConnectProtocol then { s with enableConnectProtocol := val != 0 }
  else if id = settingsH3Datagram then { s with h3Datagram := val != 0 }
  else if id = settingsEnableWebtransport then { s with enableWebtransport := val != 0 }
  else if id = settingsWtMaxSessions then { s with wtMaxSessions := val }
  else if id = settingsWtInitialMaxData then { s with wtInitialMaxData := val }
  else if id = settingsWtInitialMaxStreamsBidi then { s with wtInitialMaxStreamsBidi := val }
  else if id = settingsWtInitialMaxStreamsUni then { s with wtInitialMaxStreamsUni := val }
  else s

/-- The loop of `parseSettings`: the identifiers seen so far and the result. -/
def parseSettingsLoop : Nat → List Nat → PeerSettings → Bytes → Except String PeerSettings
  | 0, _, s, _ => .ok s
  | fuel + 1, seen, s, payload =>
      if payload.isEmpty then .ok s
      else match readVarint payload with
        | none => .error "truncated SETTINGS identifier"
        | some (id, n1) =>
            match readVarint (payload.drop n1) with
            | none => .error "truncated SETTINGS value"
            | some (val, n2) =>
                if id ∈ seen ∨ (0x2 ≤ id ∧ id ≤ 0x5) then
                  .error "duplicate or reserved SETTINGS identifier"
                else if (id = settingsEnableConnectProtocol ∨ id = settingsH3Datagram ∨
                    id = settingsEnableWebtransport) ∧ val > 1 then
                  .error "invalid boolean SETTINGS value"
                else if (id = settingsWtInitialMaxStreamsBidi ∨
                    id = settingsWtInitialMaxStreamsUni) ∧ val > 2 ^ 60 then
                  .error "invalid WebTransport stream limit"
                else parseSettingsLoop fuel (id :: seen) (s.set id val) (payload.drop (n1 + n2))

/-- Parses a SETTINGS payload.  Every pass takes at least two bytes, so one
unit of fuel per byte is enough. -/
def parseSettings (payload : Bytes) : Except String PeerSettings :=
  parseSettingsLoop (payload.length + 1) [] {} payload

/-! ## The stream limits a peer may advertise -/

/-- The two stream limits stay within what a stream count may be. -/
def PeerSettings.Bounded (s : PeerSettings) : Prop :=
  s.wtInitialMaxData < 2 ^ 62 ∧ s.wtInitialMaxStreamsBidi ≤ 2 ^ 60 ∧
    s.wtInitialMaxStreamsUni ≤ 2 ^ 60

theorem PeerSettings.Bounded.set {s : PeerSettings} (h : s.Bounded) {id val : Nat}
    (hval : val < 2 ^ 62)
    (hstreams : (id = settingsWtInitialMaxStreamsBidi ∨ id = settingsWtInitialMaxStreamsUni) →
      val ≤ 2 ^ 60) : (s.set id val).Bounded := by
  obtain ⟨h1, h2, h3⟩ := h
  unfold PeerSettings.set
  split_ifs with e1 e2 e3 e4 e5 e6 e7
  · exact ⟨h1, h2, h3⟩
  · exact ⟨h1, h2, h3⟩
  · exact ⟨h1, h2, h3⟩
  · exact ⟨h1, h2, h3⟩
  · exact ⟨hval, h2, h3⟩
  · exact ⟨h1, hstreams (.inl e6), h3⟩
  · exact ⟨h1, h2, hstreams (.inr e7)⟩
  · exact ⟨h1, h2, h3⟩

theorem parseSettingsLoop_bounded : ∀ (fuel : Nat) {seen : List Nat} {s : PeerSettings}
    {payload : Bytes} {r : PeerSettings}, s.Bounded →
      parseSettingsLoop fuel seen s payload = .ok r → r.Bounded
  | 0, _, s, _, r, hs, h => by
      simp only [parseSettingsLoop, Except.ok.injEq] at h
      exact h ▸ hs
  | fuel + 1, seen, s, payload, r, hs, h => by
      rw [parseSettingsLoop] at h
      split_ifs at h with hempty
      · simp only [Except.ok.injEq] at h
        exact h ▸ hs
      · split at h
        · cases h
        next id n1 hid =>
          split at h
          · cases h
          next val n2 hv =>
            split_ifs at h with hdup hbool hlimit
            refine parseSettingsLoop_bounded fuel (hs.set (readVarint_lt hv) ?_) h
            intro hstream
            by_contra hgt
            exact hlimit ⟨hstream, by omega⟩

/-- Accepted SETTINGS carry limits that a capsule could carry as well. -/
theorem parseSettings_bounded {payload : Bytes} {s : PeerSettings}
    (h : parseSettings payload = .ok s) : s.Bounded :=
  parseSettingsLoop_bounded _ (by simp [PeerSettings.Bounded]) h

example : parseSettings settingsPayload = .ok
    { enableConnectProtocol := true, h3Datagram := true, enableWebtransport := true,
      wtMaxSessions := 256, wtInitialMaxData := wtInitialMaxData,
      wtInitialMaxStreamsBidi := wtInitialMaxStreams,
      wtInitialMaxStreamsUni := wtInitialMaxStreams } := by rfl

end RWebTransport.H3
