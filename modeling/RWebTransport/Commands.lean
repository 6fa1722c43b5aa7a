import RWebTransport.Session.Run

/-!
# Numbers from JavaScript

The conversions of `lib.rs` from a JavaScript number to an identifier and to an
application code, and what `stream_reset` and `stream_stop_sending` make of a
code before QUIC gets it.

`to_code` clamps to the largest variable-length integer, so that the number can
be encoded.  The mapping into the error space of HTTP/3 comes behind the clamp
and adds to the number again: it never overflows a `u64`, but above
`maxStreamCode` the result is no variable-length integer.
-/

namespace RWebTransport

/-! ## Conversions -/

/-- A `JsNumber`, an IEEE double; a finite one is its sign, its mantissa and the
power of two that goes with it. -/
inductive JsNumber where
  | nan
  | infinite (negative : Bool)
  | finite (negative : Bool) (mantissa : Fin (2 ^ 53)) (exponent : Int)
      (range : -1074 ≤ exponent ∧ exponent ≤ 971)

namespace JsNumber

/-- The magnitude without its fraction. -/
def whole (mantissa : Nat) (exponent : Int) : Nat :=
  if 0 ≤ exponent then mantissa * 2 ^ exponent.toNat else mantissa / 2 ^ (-exponent).toNat

/-- `v as u64` for a finite `v` that is not below zero, and `none` for the
others; a cast takes what is too large for the largest `u64`. -/
def asU64 : JsNumber → Option Nat
  | .finite negative mantissa exponent _ =>
      if negative = false ∨ mantissa.val = 0 then some (min (whole mantissa exponent) (2 ^ 64 - 1))
      else none
  | _ => none

/-- `to_stream_id`; the largest `u64` is no stream. -/
def toStreamId (v : JsNumber) : Nat := v.asU64.getD (2 ^ 64 - 1)

/-- `to_code`. -/
def toCode (v : JsNumber) : Nat :=
  match v.asU64 with
  | some n => min n (2 ^ 62 - 1)
  | none => 0

/-- The codes that get past the conversion can be encoded. -/
theorem toCode_lt (v : JsNumber) : v.toCode < 2 ^ 62 := by
  unfold toCode
  cases v.asU64 with
  | none => norm_num
  | some n =>
      have := min_le_right n (2 ^ 62 - 1)
      show min n (2 ^ 62 - 1) < 2 ^ 62
      omega

end JsNumber

/-- The call behind `reset_stream`, and behind `server_reset`. -/
def resetStream (id code : JsNumber) : Call := .streamReset id.toStreamId code.toCode

/-- The call behind `stop_sending`, and behind `server_stop_sending`. -/
def stopSending (id code : JsNumber) : Call := .streamStopSending id.toStreamId code.toCode

/-! ## The mapping on machine integers -/

/-- An addition of two `u64`, or `none` when it overflows. -/
def checkedAdd (a b : Nat) : Option Nat := if a + b < 2 ^ 64 then some (a + b) else none

/-- `webtransport_code_to_http_code` with both its additions checked. -/
def H3.checkedHttpCode (n : Nat) : Option Nat :=
  (checkedAdd wtAppErrorFirst n).bind fun h => checkedAdd h (n / 0x1e)

/-- No addition overflows on a variable-length integer. -/
theorem H3.checkedHttpCode_eq {n : Nat} (hn : n < 2 ^ 62) :
    H3.checkedHttpCode n = some (H3.webtransportCodeToHttpCode n) := by
  have hfirst : H3.wtAppErrorFirst < 2 ^ 47 := by decide
  have h1 : checkedAdd H3.wtAppErrorFirst n = some (H3.wtAppErrorFirst + n) := if_pos (by omega)
  have h2 : checkedAdd (H3.wtAppErrorFirst + n) (n / 0x1e) =
      some (H3.webtransportCodeToHttpCode n) := if_pos (by omega)
  rw [H3.checkedHttpCode, h1, Option.bind_some, h2]

/-- The largest code whose image is a variable-length integer. -/
def maxStreamCode : Nat := 0x3def2ba6dd1a22c8

theorem webtransportCodeToHttpCode_lt_iff (n : Nat) :
    H3.webtransportCodeToHttpCode n < 2 ^ 62 ↔ n ≤ maxStreamCode := by
  unfold H3.webtransportCodeToHttpCode H3.wtAppErrorFirst maxStreamCode
  omega

/-! ## What QUIC is handed -/

namespace Endpoint

/-- `stream_reset` behind the mapping: what it does with the code `h`. -/
def resetWith (e : Endpoint) (id h : Nat) : Endpoint :=
  ((({ e.log (.streamReset id) with conn := e.conn.streamShutdownWrite id h } :
    Endpoint).reconcileSendFinalSize id).dropQueue id).modifyStream id fun st =>
      { st with finSent := true }

/-- `stream_stop_sending` behind the mapping. -/
def stopSendingWith (e : Endpoint) (id h : Nat) : Endpoint := (e.shutdownRead id h).setRecvDead id

theorem streamReset_eq {e : Endpoint} {id : Nat} (hid : e.streams.contains id = true) (code : Nat) :
    e.streamReset id code = e.resetWith id (H3.webtransportCodeToHttpCode code) := by
  rw [streamReset, if_pos hid]
  rfl

theorem streamStopSending_eq {e : Endpoint} {id : Nat} (hid : e.streams.contains id = true)
    (code : Nat) :
    e.streamStopSending id code = e.stopSendingWith id (H3.webtransportCodeToHttpCode code) := by
  rw [streamStopSending, if_pos hid]
  rfl

section

variable [H3.Codec]

/-- Both calls compute a code without an overflow and hand it to
`stream_shutdown`, and QUIC can encode it. -/
def HandsVarint (e : Endpoint) (id code : Nat) : Prop :=
  ∃ h, H3.checkedHttpCode code = some h ∧ h < 2 ^ 62 ∧
    call e (.streamReset id code) = e.resetWith id h ∧
    call e (.streamStopSending id code) = e.stopSendingWith id h

/-- The codes of the two calls that come from JavaScript are variable-length
integers.  On those the mapping never overflows, and QUIC can encode its result
exactly up to `maxStreamCode`. -/
theorem handsVarint_iff :
    (∀ id v : JsNumber, ∃ code < 2 ^ 62, resetStream id v = .streamReset id.toStreamId code ∧
      stopSending id v = .streamStopSending id.toStreamId code) ∧
    ∀ (e : Endpoint) (id code : Nat), e.streams.contains id = true → code < 2 ^ 62 →
      (∃ h, H3.checkedHttpCode code = some h) ∧ (e.HandsVarint id code ↔ code ≤ maxStreamCode) := by
  refine ⟨fun id v => ⟨v.toCode, v.toCode_lt, rfl, rfl⟩, fun e id code hid hcode => ?_⟩
  have hmap := H3.checkedHttpCode_eq hcode
  refine ⟨⟨_, hmap⟩, ?_, ?_⟩
  · rintro ⟨h, hh, hlt, -, -⟩
    obtain rfl : H3.webtransportCodeToHttpCode code = h := Option.some.inj (hmap.symm.trans hh)
    exact (webtransportCodeToHttpCode_lt_iff code).mp hlt
  · intro hle
    exact ⟨_, hmap, (webtransportCodeToHttpCode_lt_iff code).mpr hle, streamReset_eq hid code,
      streamStopSending_eq hid code⟩

end

/-- A server whose connection is established has the stream 3. -/
def sampleEstablished : Endpoint := sampleServer.onEstablished

/-- `2 ^ 62` as a double. -/
def sampleLarge : JsNumber := .finite false 1 62 (by decide)

theorem handsVarint_iff_sample :
    letI := H3.Codec.plain
    sampleEstablished.HandsVarint 3 42 := by
  let _ := H3.Codec.plain
  exact ((handsVarint_iff.2 sampleEstablished 3 42 (by decide) (by norm_num)).2).mpr (by decide)

/-- The conversion lets `2 ^ 62 - 1` pass, and its image is no varint. -/
theorem clamped_code_not_varint :
    letI := H3.Codec.plain
    ¬∀ (e : Endpoint) (id v : JsNumber), e.streams.contains id.toStreamId = true →
      e.HandsVarint id.toStreamId v.toCode := by
  let _ := H3.Codec.plain
  intro h
  obtain ⟨h, hh, hlt, -, -⟩ := h sampleEstablished (.finite false 3 0 (by decide)) sampleLarge
    (by decide)
  have hcode : H3.checkedHttpCode sampleLarge.toCode = some 4765500027666811644 := by decide
  obtain rfl : 4765500027666811644 = h := Option.some.inj (hcode.symm.trans hh)
  omega

end Endpoint

end RWebTransport
