/-
  QwenTtsBridge.Protocol.Frame — protocol v1 frames and the two frame encoders
  (`protocol/framing/frame_codec.cpp` of the bridge, `protocol/framing/codec.py` of the
  Python worker).

  A C++ header has fixed-width fields, and its `frame_type` is the underlying value of
  an enum class, which may be any `u16`; the encoder checks it. A Python header holds
  unbounded integers. `FrameHeader.toPy` reads the first as the second.

  Proved: the two encoders accept the same frame values and give the same bytes
  (`encode_agrees`), and an accepted frame is the 24-byte header followed by its
  payload (`encode_ok_iff`).
-/

import QwenTtsBridge.Lib.LittleEndian

namespace QwenTtsBridge.Protocol.Framing

open QwenTtsBridge.Lib.LittleEndian

abbrev Bytes := List UInt8

/-! ## Shared data (`data/enums.hpp`, `data/protocol_types.hpp`, `protocol/data/*.py`) -/

inductive FrameType where
  | controlJson
  | audioPcm
  | errorJson
  deriving DecidableEq, Repr

def FrameType.value : FrameType → UInt16
  | .controlJson => 1
  | .audioPcm => 2
  | .errorJson => 3

inductive ProtocolError where
  | none
  | invalidMagic
  | unsupportedProtocolVersion
  | headerTooSmall
  | headerTooLarge
  | unknownFrameType
  | unsupportedFlags
  | payloadTooLarge
  deriving DecidableEq, Repr

inductive EncodeError where
  | unsupportedProtocolVersion
  | unsupportedHeaderSize
  | unknownFrameType
  | unsupportedFlags
  | payloadSizeMismatch
  | payloadTooLarge
  deriving DecidableEq, Repr

namespace ProtocolLimits

def protocolVersion : Nat := 1
def minHeaderSize : Nat := 24
def maxHeaderSize : Nat := 256
def maxControlPayloadBytes : Nat := 1024 * 1024
def maxAudioPayloadBytes : Nat := 16 * 1024 * 1024
def maxErrorPayloadBytes : Nat := 1024 * 1024
def maxFramePayloadBytes : Nat := 16 * 1024 * 1024

end ProtocolLimits

open ProtocolLimits

/-- `kMagic`, the bytes of `QTB1`. -/
def magic : Bytes := [0x51, 0x54, 0x42, 0x31]

structure FrameHeader where
  protocolVersion : UInt16 := 1
  headerSize : UInt16 := 24
  frameType : UInt16 := 1
  flags : UInt16 := 0
  payloadSize : UInt32 := 0
  requestId : UInt64 := 0
  deriving DecidableEq, Repr

structure Frame where
  header : FrameHeader
  payload : Bytes
  deriving DecidableEq, Repr

/-! ## The C++ encoder -/

def isKnownFrameType (value : UInt16) : Bool :=
  value == FrameType.controlJson.value || value == FrameType.audioPcm.value || value == FrameType.errorJson.value

/-- The `switch` of `max_payload_size`; a value outside the enumerators falls through to 0. -/
def maxPayloadSize (frameType : UInt16) : Nat :=
  if frameType = FrameType.controlJson.value then maxControlPayloadBytes
  else if frameType = FrameType.audioPcm.value then maxAudioPayloadBytes
  else if frameType = FrameType.errorJson.value then maxErrorPayloadBytes
  else 0

/-- `encode_frame(const FrameHeader&, payload)`: the bytes, or the error and its message. -/
def encodeFrameWithHeader (header : FrameHeader) (payload : Bytes) : Except (EncodeError × String) Bytes :=
  if header.protocolVersion.toNat ≠ protocolVersion then
    .error (.unsupportedProtocolVersion, "unsupported protocol version")
  else if header.headerSize.toNat ≠ minHeaderSize then
    .error (.unsupportedHeaderSize, "v1 encoder cannot emit header extensions")
  else if !isKnownFrameType header.frameType then
    .error (.unknownFrameType, "unknown frame type")
  else if header.flags ≠ 0 then
    .error (.unsupportedFlags, "unsupported frame flags")
  else if payload.length > 2 ^ 32 - 1 then
    .error (.payloadTooLarge, "payload size exceeds uint32 limit")
  else if header.payloadSize.toNat ≠ payload.length then
    .error (.payloadSizeMismatch, "header payload_size does not match payload bytes")
  else if payload.length > maxFramePayloadBytes ∨ payload.length > maxPayloadSize header.frameType then
    .error (.payloadTooLarge, "payload size exceeds v1 limit")
  else
    .ok (magic ++ writeLe 2 header.protocolVersion.toNat ++ writeLe 2 header.headerSize.toNat ++
      writeLe 2 header.frameType.toNat ++ writeLe 2 header.flags.toNat ++ writeLe 4 payload.length ++
      writeLe 8 header.requestId.toNat ++ payload)

/-- `encode_frame(FrameType, RequestId, payload)`: the default header, with the payload
    size cast to `u32`. -/
def encodeFrame (frameType : UInt16) (requestId : UInt64) (payload : Bytes) : Except (EncodeError × String) Bytes :=
  encodeFrameWithHeader
    { frameType := frameType, requestId := requestId, payloadSize := UInt32.ofNat payload.length } payload

/-! ## The Python encoder -/

structure PyFrameHeader where
  protocolVersion : Int := 1
  headerSize : Int := 24
  frameType : Int := 1
  flags : Int := 0
  payloadSize : Int := 0
  requestId : Int := 0
  deriving DecidableEq, Repr

structure PyFrame where
  header : PyFrameHeader
  payload : Bytes
  deriving DecidableEq, Repr

/-- `FrameType(value)`: the member, or `ValueError`. -/
def PyFrameType.ofValue? (value : Int) : Option FrameType :=
  if value = 1 then some .controlJson
  else if value = 2 then some .audioPcm
  else if value = 3 then some .errorJson
  else none

def pyMaxPayloadSize (frameType : FrameType) : Nat :=
  if frameType = .controlJson then maxControlPayloadBytes
  else if frameType = .audioPcm then maxAudioPayloadBytes
  else if frameType = .errorJson then maxErrorPayloadBytes
  else 0

/-- `_validate_outgoing_frame`: the text of the `ValueError` it raises, if it raises. -/
def validateOutgoingFrame (header : PyFrameHeader) (payloadSize : Nat) : Except String Unit :=
  if header.protocolVersion ≠ 1 then .error "unsupported protocol version"
  else if header.headerSize ≠ 24 then .error "v1 senders must use the fixed 24-byte header"
  else match PyFrameType.ofValue? header.frameType with
    | none => .error "unknown frame type"
    | some frameType =>
      if header.flags ≠ 0 then .error "unsupported frame flags"
      else if ¬ (0 ≤ header.requestId ∧ header.requestId ≤ 0xFFFFFFFFFFFFFFFF) then
        .error "request_id is outside u64 range"
      else if header.payloadSize ≠ payloadSize then .error "header payload_size does not match payload bytes"
      else if payloadSize > maxFramePayloadBytes then .error "payload size exceeds absolute frame limit"
      else if payloadSize > pyMaxPayloadSize frameType then .error "payload size exceeds frame type limit"
      else .ok ()

/-- `HEADER_STRUCT.pack`, format `<4sHHHHIQ`, of values already validated. -/
def headerStructPack (header : PyFrameHeader) (payloadSize : Nat) : Bytes :=
  magic ++ writeLe 2 header.protocolVersion.toNat ++ writeLe 2 header.headerSize.toNat ++
    writeLe 2 header.frameType.toNat ++ writeLe 2 header.flags.toNat ++ writeLe 4 payloadSize ++
    writeLe 8 header.requestId.toNat

/-- `encode_frame_with_header`. -/
def pyEncodeFrameWithHeader (header : PyFrameHeader) (payload : Bytes) : Except String Bytes :=
  match validateOutgoingFrame header payload.length with
  | .error message => .error message
  | .ok () => .ok (headerStructPack header payload.length ++ payload)

/-- `encode_frame`: `FrameType(frame_type)` raises on an unknown type before anything else. -/
def pyEncodeFrame (frameType : Int) (requestId : Int) (payload : Bytes) : Except String Bytes :=
  match PyFrameType.ofValue? frameType with
  | none => .error "not a valid FrameType"
  | some _ =>
    pyEncodeFrameWithHeader { frameType := frameType, payloadSize := payload.length, requestId := requestId } payload

/-! ## The encoders agree -/

/-- A C++ header as the Python worker would hold it. -/
def FrameHeader.toPy (header : FrameHeader) : PyFrameHeader where
  protocolVersion := header.protocolVersion.toNat
  headerSize := header.headerSize.toNat
  frameType := header.frameType.toNat
  flags := header.flags.toNat
  payloadSize := header.payloadSize.toNat
  requestId := header.requestId.toNat

def Frame.toPy (frame : Frame) : PyFrame := ⟨frame.header.toPy, frame.payload⟩

/-- What both encoders require of a frame value. -/
structure Encodable (header : FrameHeader) (payload : Bytes) : Prop where
  version : header.protocolVersion.toNat = protocolVersion
  headerSize : header.headerSize.toNat = minHeaderSize
  known : isKnownFrameType header.frameType = true
  flags : header.flags = 0
  size : header.payloadSize.toNat = payload.length
  limit : payload.length ≤ maxPayloadSize header.frameType

theorem isKnownFrameType_cases {value : UInt16} (h : isKnownFrameType value = true) :
    value = 1 ∨ value = 2 ∨ value = 3 := by
  simpa [isKnownFrameType, FrameType.value, or_assoc] using h

theorem maxPayloadSize_le (value : UInt16) : maxPayloadSize value ≤ maxFramePayloadBytes := by
  unfold maxPayloadSize
  repeat' split
  all_goals decide

theorem encode_ok_iff {header : FrameHeader} {payload bytes : Bytes} :
    encodeFrameWithHeader header payload = .ok bytes ↔ Encodable header payload ∧
      bytes = magic ++ writeLe 2 header.protocolVersion.toNat ++ writeLe 2 header.headerSize.toNat ++
        writeLe 2 header.frameType.toNat ++ writeLe 2 header.flags.toNat ++ writeLe 4 payload.length ++
        writeLe 8 header.requestId.toNat ++ payload := by
  have hlim := maxPayloadSize_le header.frameType
  have hmax : maxFramePayloadBytes ≤ 2 ^ 32 - 1 := by decide
  unfold encodeFrameWithHeader
  constructor
  · intro h
    repeat' split at h
    all_goals first
      | cases h
        done
      | skip
    rename_i h1 h2 h3 h4 h5 h6 h7
    exact ⟨⟨by omega, by omega, by simpa using h3, by simpa using h4, by omega, by omega⟩, by cases h; rfl⟩
  · rintro ⟨h, rfl⟩
    have := h.limit
    rw [if_neg (by simp [h.version]), if_neg (by simp [h.headerSize]), if_neg (by simp [h.known]),
      if_neg (by simp [h.flags]), if_neg (by omega), if_neg (by simp [h.size]), if_neg (by omega)]

/-- `FrameType(value)` knows exactly the types `is_known_frame_type` knows, with the same
    payload limits. -/
theorem pyFrameType_of_u16 (value : UInt16) :
    (isKnownFrameType value = false ∧ PyFrameType.ofValue? value.toNat = none) ∨
      (isKnownFrameType value = true ∧
        ∃ t, PyFrameType.ofValue? value.toNat = some t ∧ pyMaxPayloadSize t = maxPayloadSize value) := by
  cases h : isKnownFrameType value with
  | true =>
    refine Or.inr ⟨rfl, ?_⟩
    rcases isKnownFrameType_cases h with rfl | rfl | rfl
    · exact ⟨.controlJson, by decide, by decide⟩
    · exact ⟨.audioPcm, by decide, by decide⟩
    · exact ⟨.errorJson, by decide, by decide⟩
  | false =>
    refine Or.inl ⟨rfl, ?_⟩
    have hne : value ≠ 1 ∧ value ≠ 2 ∧ value ≠ 3 := by simpa [isKnownFrameType, FrameType.value, and_assoc] using h
    have h1 : value.toNat ≠ 1 := fun e => hne.1 (UInt16.toNat_inj.mp e)
    have h2 : value.toNat ≠ 2 := fun e => hne.2.1 (UInt16.toNat_inj.mp e)
    have h3 : value.toNat ≠ 3 := fun e => hne.2.2 (UInt16.toNat_inj.mp e)
    unfold PyFrameType.ofValue?
    rw [if_neg (by omega), if_neg (by omega), if_neg (by omega)]

/-- The checks of `_validate_outgoing_frame`, all at once. -/
theorem validateOutgoingFrame_ok {header : PyFrameHeader} {n : Nat} :
    validateOutgoingFrame header n = .ok () ↔ header.protocolVersion = 1 ∧ header.headerSize = 24 ∧
      ∃ t, PyFrameType.ofValue? header.frameType = some t ∧ header.flags = 0 ∧
        (0 ≤ header.requestId ∧ header.requestId ≤ 0xFFFFFFFFFFFFFFFF) ∧ header.payloadSize = n ∧
        n ≤ maxFramePayloadBytes ∧ n ≤ pyMaxPayloadSize t := by
  unfold validateOutgoingFrame
  by_cases h1 : header.protocolVersion = 1
  · by_cases h2 : header.headerSize = 24
    · cases ht : PyFrameType.ofValue? header.frameType with
      | none => simp [h1, h2]
      | some t =>
        by_cases h3 : header.flags = 0
        · by_cases h4 : 0 ≤ header.requestId ∧ header.requestId ≤ 0xFFFFFFFFFFFFFFFF
          · by_cases h5 : header.payloadSize = n
            · by_cases h6 : n > maxFramePayloadBytes
              · simp [h1, h2, h3, h4, h5, h6, Nat.not_le.mpr h6]
              · by_cases h7 : n > pyMaxPayloadSize t
                · simp [h1, h2, h3, h4, h5, h6, h7]
                · simp [h1, h2, h3, h4, h5, h6, h7, Nat.le_of_not_lt h6, Nat.le_of_not_lt h7]
            · simp [h1, h2, h3, h4, h5]
          · simp only [h1, h2, h3, h4]; simp
        · simp [h1, h2, h3]
    · simp [h1, h2]
  · simp [h1]

theorem validateOutgoingFrame_ok_iff {header : FrameHeader} {payload : Bytes} :
    validateOutgoingFrame header.toPy payload.length = .ok () ↔ Encodable header payload := by
  have hlim := maxPayloadSize_le header.frameType
  have hid := header.requestId.toNat_lt
  have hflags : header.flags = 0 ↔ header.flags.toNat = 0 := by rw [← UInt16.toNat_inj]; rfl
  rw [validateOutgoingFrame_ok]
  simp only [FrameHeader.toPy]
  rcases pyFrameType_of_u16 header.frameType with ⟨hk, ht⟩ | ⟨hk, t, ht, hm⟩
  · refine ⟨fun ⟨_, _, t, ht', _⟩ => ?_, fun h => ?_⟩
    · rw [ht] at ht'; cases ht'
    · rw [h.known] at hk; cases hk
  · refine ⟨fun ⟨h1, h2, t', ht', h3, _, h4, _, h5⟩ => ?_, fun h => ?_⟩
    · rw [ht] at ht'
      cases ht'
      exact ⟨by show header.protocolVersion.toNat = 1; omega, by show header.headerSize.toNat = 24; omega, hk,
        hflags.mpr (by omega), by omega, hm ▸ h5⟩
    · have hv : header.protocolVersion.toNat = 1 := h.version
      have hs : header.headerSize.toNat = 24 := h.headerSize
      have hf := hflags.mp h.flags
      have hz := h.size
      have hl := h.limit
      exact ⟨by omega, by omega, t, ht, by omega, ⟨by omega, by omega⟩, by omega, by omega, by omega⟩

theorem pyEncode_ok_iff {header : FrameHeader} {payload bytes : Bytes} :
    pyEncodeFrameWithHeader header.toPy payload = .ok bytes ↔ Encodable header payload ∧
      bytes = magic ++ writeLe 2 header.protocolVersion.toNat ++ writeLe 2 header.headerSize.toNat ++
        writeLe 2 header.frameType.toNat ++ writeLe 2 header.flags.toNat ++ writeLe 4 payload.length ++
        writeLe 8 header.requestId.toNat ++ payload := by
  rw [← validateOutgoingFrame_ok_iff]
  unfold pyEncodeFrameWithHeader
  cases hv : validateOutgoingFrame header.toPy payload.length with
  | error m => simp
  | ok u => simp [headerStructPack, FrameHeader.toPy, eq_comm]

/-- Both encoders of an explicit header accept the same frame values, with the same bytes. -/
theorem encodeWithHeader_agrees (header : FrameHeader) (payload bytes : Bytes) :
    encodeFrameWithHeader header payload = .ok bytes ↔ pyEncodeFrameWithHeader header.toPy payload = .ok bytes := by
  rw [encode_ok_iff, pyEncode_ok_iff]

/-- The default-header encoders accept a payload within the limit of a known type; the
    cast of the size to `u32` never shows, since the limits are far below it. -/
theorem encodable_default_iff (frameType : UInt16) (requestId : UInt64) (payload : Bytes) :
    Encodable { frameType := frameType, requestId := requestId, payloadSize := UInt32.ofNat payload.length } payload ↔
      isKnownFrameType frameType = true ∧ payload.length ≤ maxPayloadSize frameType := by
  refine ⟨fun h => ⟨h.known, h.limit⟩, fun h => ⟨rfl, rfl, h.1, rfl, ?_, h.2⟩⟩
  have hl := maxPayloadSize_le frameType
  have hm : maxFramePayloadBytes < 2 ^ 32 := by decide
  have hp := h.2
  simp only [UInt32.toNat_ofNat']
  omega

/-- A frame of one of the types is refused for the size of its payload only. -/
theorem encodeFrame_ok_iff (type : FrameType) (requestId : UInt64) (payload : Bytes) :
    (∃ bytes, encodeFrame type.value requestId payload = .ok bytes) ↔ payload.length ≤ maxPayloadSize type.value := by
  have hknown : isKnownFrameType type.value = true := by cases type <;> rfl
  have hencodable := encodable_default_iff type.value requestId payload
  constructor
  · rintro ⟨bytes, h⟩
    exact (hencodable.mp (encode_ok_iff.mp h).1).2
  · intro h
    exact ⟨_, encode_ok_iff.mpr ⟨hencodable.mpr ⟨hknown, h⟩, rfl⟩⟩

theorem encode_agrees (frameType : UInt16) (requestId : UInt64) (payload bytes : Bytes) :
    encodeFrame frameType requestId payload = .ok bytes ↔
      pyEncodeFrame frameType.toNat requestId.toNat payload = .ok bytes := by
  unfold encodeFrame pyEncodeFrame
  rcases pyFrameType_of_u16 frameType with ⟨hk, ht⟩ | ⟨hk, t, ht, hm⟩
  · rw [ht, encode_ok_iff, encodable_default_iff, hk]
    simp
  · rw [ht, encodeWithHeader_agrees]
    simp only [FrameHeader.toPy]
    by_cases hl : payload.length ≤ maxPayloadSize frameType
    · have hs := (encodable_default_iff frameType requestId payload).mpr ⟨hk, hl⟩
      have hz : (UInt32.ofNat payload.length).toNat = payload.length := hs.size
      rw [hz]
      rfl
    · -- past the limit of its type both refuse, whatever size the header claims
      have hno : ∀ header : PyFrameHeader, header.frameType = frameType.toNat →
          pyEncodeFrameWithHeader header payload ≠ .ok bytes := by
        intro header hf he
        unfold pyEncodeFrameWithHeader at he
        cases hv : validateOutgoingFrame header payload.length with
        | error m => rw [hv] at he; cases he
        | ok u =>
          obtain ⟨-, -, t', ht', -, -, -, -, h⟩ := validateOutgoingFrame_ok.mp hv
          rw [hf, ht] at ht'
          cases ht'
          exact hl (hm ▸ h)
      exact ⟨fun h => absurd h (hno _ rfl), fun h => absurd h (hno _ rfl)⟩

end QwenTtsBridge.Protocol.Framing
