/-
  QwenTtsBridge.Protocol.FrameParser — the two incremental frame parsers
  (`protocol/framing/frame_parser.cpp` of the bridge, `protocol/framing/parser.py` of
  the Python worker).

  The C++ parser keeps a growing buffer and a read offset into it, and drops consumed
  bytes when a frame has been returned and a threshold is met (`compactBuffer`). The
  Python parser deletes a frame's bytes at once. Both refine one reference
  (`frameScanner`): the unread bytes and the error the parser is stuck on. So:
  - the C++ parser returns exactly the frames that were encoded, in order, under any
    chunking and any interleaving of calls, and compaction never shows
    (`stream_round_trip`);
  - both parsers give the same frames, the same final status and stop at the same byte
    on every byte stream, valid or not (`parsers_agree`).
-/

import QwenTtsBridge.Protocol.Frame
import QwenTtsBridge.Lib.StreamParser

namespace QwenTtsBridge.Protocol.Framing

open QwenTtsBridge.Lib.LittleEndian QwenTtsBridge.Lib.StreamParser ProtocolLimits

/-- `ParseResult`: NeedMoreData, FrameReady with its frame, or FatalError with the error
    and the message. -/
abbrev ParseResult := Result Frame (ProtocolError × String)

/-! ## The C++ parser -/

structure FrameParser where
  buffer : Bytes := []
  readOffset : Nat := 0
  fatal : Bool := false
  fatalError : ProtocolError := .none
  fatalMessage : String := ""
  deriving DecidableEq, Repr

namespace FrameParser

def append (p : FrameParser) (data : Bytes) : FrameParser :=
  if p.fatal || data.isEmpty then p else { p with buffer := p.buffer ++ data }

def hasMagic (data : Bytes) : Bool := data.take 4 == magic

def makeFatal (p : FrameParser) (error : ProtocolError) (message : String) : FrameParser × ParseResult :=
  ({ p with fatal := true, fatalError := error, fatalMessage := message }, .fatalError (error, message))

def compactThreshold : Nat := 64 * 1024

def compactBuffer (p : FrameParser) : FrameParser :=
  if p.readOffset = 0 then p
  else if p.readOffset = p.buffer.length then { p with buffer := [], readOffset := 0 }
  else if p.readOffset ≥ compactThreshold ∨ p.readOffset > p.buffer.length / 2 then
    { p with buffer := p.buffer.drop p.readOffset, readOffset := 0 }
  else p

/-- The six header fields at `data`, read as `parse_next` reads them. -/
def readHeader (data : Bytes) : FrameHeader where
  protocolVersion := UInt16.ofNat (readLe 2 (data.drop 4))
  headerSize := UInt16.ofNat (readLe 2 (data.drop 6))
  frameType := UInt16.ofNat (readLe 2 (data.drop 8))
  flags := UInt16.ofNat (readLe 2 (data.drop 10))
  payloadSize := UInt32.ofNat (readLe 4 (data.drop 12))
  requestId := UInt64.ofNat (readLe 8 (data.drop 16))

/-- `parse_next`, over the step that drops consumed bytes after a frame. -/
def parseNextWith (compact : FrameParser → FrameParser) (p : FrameParser) : FrameParser × ParseResult :=
  if p.fatal then (p, .fatalError (p.fatalError, p.fatalMessage))
  else if p.buffer.length - p.readOffset < minHeaderSize then (p, .needMoreData)
  else
    let data := p.buffer.drop p.readOffset
    if !hasMagic data then p.makeFatal .invalidMagic "invalid frame magic"
    else
      let header := readHeader data
      if header.protocolVersion.toNat ≠ protocolVersion then
        p.makeFatal .unsupportedProtocolVersion "unsupported protocol version"
      else if header.headerSize.toNat < minHeaderSize then
        p.makeFatal .headerTooSmall "header size is smaller than v1 minimum"
      else if header.headerSize.toNat > maxHeaderSize then
        p.makeFatal .headerTooLarge "header size exceeds v1 maximum"
      else if !isKnownFrameType header.frameType then
        p.makeFatal .unknownFrameType "unknown frame type"
      else if header.flags ≠ 0 then
        p.makeFatal .unsupportedFlags "unsupported frame flags"
      else if header.payloadSize.toNat > maxFramePayloadBytes ∨
          header.payloadSize.toNat > maxPayloadSize header.frameType then
        p.makeFatal .payloadTooLarge "payload size exceeds v1 limit"
      else
        let totalSize := header.headerSize.toNat + header.payloadSize.toNat
        if totalSize < header.headerSize.toNat then p.makeFatal .payloadTooLarge "frame size overflow"
        else if p.buffer.length - p.readOffset < totalSize then (p, .needMoreData)
        else
          let payload := (p.buffer.drop (p.readOffset + header.headerSize.toNat)).take header.payloadSize.toNat
          (compact { p with readOffset := p.readOffset + totalSize }, .frameReady ⟨header, payload⟩)

def parseNext : FrameParser → FrameParser × ParseResult := parseNextWith compactBuffer

def bufferedSize (p : FrameParser) : Nat := p.buffer.length - p.readOffset

/-- The parser as a machine over append and parse calls. -/
def machine : Machine FrameParser UInt8 Frame (ProtocolError × String) := ⟨{}, append, parseNext⟩

/-- The same parser never dropping a consumed byte. -/
def uncompacted : Machine FrameParser UInt8 Frame (ProtocolError × String) := ⟨{}, append, parseNextWith id⟩

end FrameParser

/-! ## The Python parser -/

abbrev PyParseResult := Result PyFrame (ProtocolError × String)

structure PyFrameParser where
  buffer : Bytes := []
  fatalError : Option ProtocolError := none
  fatalMessage : String := ""
  deriving Repr

namespace PyFrameParser

def append (p : PyFrameParser) (data : Bytes) : PyFrameParser :=
  if p.fatalError.isSome || data.isEmpty then p else { p with buffer := p.buffer ++ data }

def makeFatal (p : PyFrameParser) (error : ProtocolError) (message : String) : PyFrameParser × PyParseResult :=
  ({ p with fatalError := some error, fatalMessage := message }, .fatalError (error, message))

def parseNext (p : PyFrameParser) : PyFrameParser × PyParseResult :=
  match p.fatalError with
  | some error => (p, .fatalError (error, p.fatalMessage))
  | none =>
    if p.buffer.length < minHeaderSize then (p, .needMoreData)
    else if p.buffer.take 4 ≠ magic then p.makeFatal .invalidMagic "invalid frame magic"
    else
      -- `HEADER_STRUCT.unpack_from(self._buffer)`
      let version := readLe 2 (p.buffer.drop 4)
      let headerSize := readLe 2 (p.buffer.drop 6)
      let frameTypeValue := readLe 2 (p.buffer.drop 8)
      let flags := readLe 2 (p.buffer.drop 10)
      let payloadSize := readLe 4 (p.buffer.drop 12)
      let requestId := readLe 8 (p.buffer.drop 16)
      if version ≠ protocolVersion then p.makeFatal .unsupportedProtocolVersion "unsupported protocol version"
      else if headerSize < minHeaderSize then
        p.makeFatal .headerTooSmall "header size is smaller than v1 minimum"
      else if headerSize > maxHeaderSize then p.makeFatal .headerTooLarge "header size exceeds v1 maximum"
      else match PyFrameType.ofValue? frameTypeValue with
        | none => p.makeFatal .unknownFrameType "unknown frame type"
        | some frameType =>
          if flags ≠ 0 then p.makeFatal .unsupportedFlags "unsupported frame flags"
          else if payloadSize > maxFramePayloadBytes ∨ payloadSize > pyMaxPayloadSize frameType then
            p.makeFatal .payloadTooLarge "payload size exceeds v1 limit"
          else
            let totalSize := headerSize + payloadSize
            if p.buffer.length < totalSize then (p, .needMoreData)
            else
              let payload := (p.buffer.take totalSize).drop headerSize
              let header : PyFrameHeader :=
                { protocolVersion := version, headerSize := headerSize, frameType := frameTypeValue, flags := flags,
                  payloadSize := payloadSize, requestId := requestId }
              ({ p with buffer := p.buffer.drop totalSize }, .frameReady ⟨header, payload⟩)

def machine : Machine PyFrameParser UInt8 PyFrame (ProtocolError × String) := ⟨{}, append, parseNext⟩

end PyFrameParser

/-! ## The reference -/

/-- Why the header at the front of the stream is refused, in the order of the checks. -/
def headerError (header : FrameHeader) : Option (ProtocolError × String) :=
  if header.protocolVersion.toNat ≠ protocolVersion then
    some (.unsupportedProtocolVersion, "unsupported protocol version")
  else if header.headerSize.toNat < minHeaderSize then
    some (.headerTooSmall, "header size is smaller than v1 minimum")
  else if header.headerSize.toNat > maxHeaderSize then some (.headerTooLarge, "header size exceeds v1 maximum")
  else if !isKnownFrameType header.frameType then some (.unknownFrameType, "unknown frame type")
  else if header.flags ≠ 0 then some (.unsupportedFlags, "unsupported frame flags")
  else if header.payloadSize.toNat > maxPayloadSize header.frameType then
    some (.payloadTooLarge, "payload size exceeds v1 limit")
  else none

def frameSize (header : FrameHeader) : Nat := header.headerSize.toNat + header.payloadSize.toNat

/-- What the unread bytes start with. -/
def scanFrame (data : Bytes) : Scan Frame (ProtocolError × String) :=
  if data.length < minHeaderSize then .needMore
  else if data.take 4 ≠ magic then .fatal (.invalidMagic, "invalid frame magic")
  else
    let header := FrameParser.readHeader data
    match headerError header with
    | some e => .fatal e
    | none =>
      if data.length < frameSize header then .needMore
      else .item ⟨header, (data.drop header.headerSize.toNat).take header.payloadSize.toNat⟩ (frameSize header)

theorem readLe_drop_append {n k : Nat} {data : Bytes} (h : k + n ≤ data.length) (more : Bytes) :
    readLe n ((data ++ more).drop k) = readLe n (data.drop k) := by
  rw [List.drop_append_of_le_length (by omega), readLe_append (by simp; omega)]

theorem readHeader_append {data : Bytes} (h : minHeaderSize ≤ data.length) (more : Bytes) :
    FrameParser.readHeader (data ++ more) = FrameParser.readHeader data := by
  have h' : 24 ≤ data.length := h
  simp only [FrameParser.readHeader]
  rw [readLe_drop_append (by omega), readLe_drop_append (by omega), readLe_drop_append (by omega),
    readLe_drop_append (by omega), readLe_drop_append (by omega), readLe_drop_append (by omega)]

theorem scanFrame_item {data : Bytes} {frame : Frame} {n : Nat} (h : scanFrame data = .item frame n) :
    minHeaderSize ≤ data.length ∧ data.take 4 = magic ∧ frame.header = FrameParser.readHeader data ∧
      headerError frame.header = none ∧ n = frameSize frame.header ∧ n ≤ data.length ∧
      frame.payload = (data.drop frame.header.headerSize.toNat).take frame.header.payloadSize.toNat := by
  unfold scanFrame at h
  by_cases h1 : data.length < minHeaderSize
  · simp [h1] at h
  by_cases h2 : data.take 4 ≠ magic
  · simp [h1, h2] at h
  simp only [h1, if_false, h2] at h
  cases he : headerError (FrameParser.readHeader data) with
  | some e => simp [he] at h
  | none =>
    simp only [he] at h
    by_cases h3 : data.length < frameSize (FrameParser.readHeader data)
    · simp [h3] at h
    · simp only [h3, if_false, Scan.item.injEq] at h
      obtain ⟨rfl, rfl⟩ := h
      exact ⟨by omega, by simpa using h2, rfl, he, rfl, by omega, rfl⟩

theorem scanFrame_of_header {data : Bytes} (h1 : minHeaderSize ≤ data.length) (h2 : data.take 4 = magic)
    (he : headerError (FrameParser.readHeader data) = none) (hn : frameSize (FrameParser.readHeader data) ≤ data.length) :
    scanFrame data = .item ⟨FrameParser.readHeader data,
      (data.drop (FrameParser.readHeader data).headerSize.toNat).take (FrameParser.readHeader data).payloadSize.toNat⟩
      (frameSize (FrameParser.readHeader data)) := by
  unfold scanFrame
  rw [if_neg (by omega), if_neg (by simp [h2])]
  simp only [he]
  rw [if_neg (by omega)]

/-- Bytes that arrive later do not change a frame already complete. -/
theorem scanFrame_item_append {data : Bytes} {frame : Frame} {n : Nat} (more : Bytes)
    (h : scanFrame data = .item frame n) : scanFrame (data ++ more) = .item frame n := by
  obtain ⟨h1, h2, h3, h4, rfl, h5, h6⟩ := scanFrame_item h
  have hr := readHeader_append h1 more
  have h24 : 24 ≤ data.length := h1
  rw [h3] at h4 h5
  rw [scanFrame_of_header (by simp; omega) (by rw [List.take_append_of_le_length (by omega), h2]) (by rw [hr]; exact h4)
    (by rw [hr]; simp; omega), hr]
  obtain ⟨header, payload⟩ := frame
  simp only at h3 h6 ⊢
  subst h3
  have hs : frameSize (FrameParser.readHeader data) ≤ data.length := h5
  unfold frameSize at hs
  rw [h6, List.drop_append_of_le_length (by omega), List.take_append_of_le_length (by simp; omega)]

/-- Nor an error. -/
theorem scanFrame_fatal_append {data : Bytes} {e : ProtocolError × String} (more : Bytes)
    (h : scanFrame data = .fatal e) : scanFrame (data ++ more) = .fatal e := by
  unfold scanFrame at h ⊢
  by_cases h1 : data.length < minHeaderSize
  · simp [h1] at h
  have h24 : 24 ≤ data.length := Nat.le_of_not_lt h1
  rw [if_neg h1] at h
  rw [if_neg (by simp only [List.length_append]; omega), List.take_append_of_le_length (by omega),
    readHeader_append (by omega)]
  by_cases h2 : data.take 4 ≠ magic
  · rw [if_pos h2] at h ⊢; exact h
  rw [if_neg h2] at h ⊢
  cases he : headerError (FrameParser.readHeader data) with
  | some e' => simpa [he] using h
  | none =>
    simp only [he] at h
    split at h <;> cases h

theorem scanFrame_pos {data : Bytes} {frame : Frame} {n : Nat} (h : scanFrame data = .item frame n) : 0 < n := by
  obtain ⟨-, -, -, he, rfl, -, -⟩ := scanFrame_item h
  have hs : ¬ frame.header.headerSize.toNat < minHeaderSize := by
    intro hlt
    unfold headerError at he
    by_cases hv : frame.header.protocolVersion.toNat ≠ protocolVersion
    · rw [if_pos hv] at he; cases he
    · rw [if_neg hv, if_pos hlt] at he; cases he
  have : minHeaderSize = 24 := rfl
  unfold frameSize
  omega

/-- The abstract parser both implementations refine. -/
def frameScanner : Scanner UInt8 Frame (ProtocolError × String) where
  scan := scanFrame
  scan_nil := rfl
  item_pos := scanFrame_pos
  item_le := fun h => (scanFrame_item h).2.2.2.2.2.1
  item_append := scanFrame_item_append
  fatal_append := scanFrame_fatal_append

/-! ## The C++ parser refines it -/

namespace FrameParser

/-- The representation invariant: the read offset stays inside the buffer. -/
def Inv (p : FrameParser) : Prop := p.readOffset ≤ p.buffer.length

/-- What is left to read, and the error the parser is stuck on. -/
def unread (p : FrameParser) : Unread UInt8 (ProtocolError × String) :=
  ⟨p.buffer.drop p.readOffset, if p.fatal then some (p.fatalError, p.fatalMessage) else none⟩

theorem compactBuffer_spec (p : FrameParser) (h : p.Inv) : p.compactBuffer.Inv ∧ p.compactBuffer.unread = p.unread := by
  unfold compactBuffer
  by_cases h0 : p.readOffset = 0
  · rw [if_pos h0]; exact ⟨h, rfl⟩
  rw [if_neg h0]
  by_cases h1 : p.readOffset = p.buffer.length
  · rw [if_pos h1]; exact ⟨Nat.zero_le _, by simp [unread, h1]⟩
  rw [if_neg h1]
  split
  · exact ⟨Nat.zero_le _, by simp [unread]⟩
  · exact ⟨h, rfl⟩

theorem append_refines (p : FrameParser) (data : Bytes) (h : p.Inv) :
    (p.append data).Inv ∧ (p.append data).unread = Scanner.append p.unread data := by
  unfold append Scanner.append
  cases hf : p.fatal with
  | true => simpa [unread, hf] using h
  | false =>
    cases data with
    | nil => simpa [unread, hf] using h
    | cons b bs =>
      have hi : p.readOffset ≤ p.buffer.length := h
      refine ⟨?_, ?_⟩
      · show p.readOffset ≤ (p.buffer ++ b :: bs).length
        simp only [List.length_append]
        omega
      · simp [unread, hf, List.drop_append_of_le_length hi]

/-- The limit per type implies the absolute one, so the parser's two payload checks are
    the reference's one. -/
theorem payload_limits (header : FrameHeader) :
    (header.payloadSize.toNat > maxFramePayloadBytes ∨ header.payloadSize.toNat > maxPayloadSize header.frameType) ↔
      header.payloadSize.toNat > maxPayloadSize header.frameType := by
  have := maxPayloadSize_le header.frameType
  omega

/-- The checks after the magic, as one: either a header error the parser sticks on, or
    the length test and the frame. -/
theorem parseNextWith_eq (compact : FrameParser → FrameParser) (p : FrameParser) (hf : p.fatal = false) :
    p.parseNextWith compact =
      if p.buffer.length - p.readOffset < minHeaderSize then (p, .needMoreData)
      else if (p.buffer.drop p.readOffset).take 4 ≠ magic then p.makeFatal .invalidMagic "invalid frame magic"
      else
        let header := readHeader (p.buffer.drop p.readOffset)
        match headerError header with
        | some e => p.makeFatal e.1 e.2
        | none =>
          if p.buffer.length - p.readOffset < frameSize header then (p, .needMoreData)
          else (compact { p with readOffset := p.readOffset + frameSize header }, .frameReady ⟨header,
            (p.buffer.drop (p.readOffset + header.headerSize.toNat)).take header.payloadSize.toNat⟩) := by
  unfold parseNextWith
  simp only [hf, Bool.false_eq_true, if_false, hasMagic, payload_limits]
  by_cases h1 : p.buffer.length - p.readOffset < minHeaderSize
  · rw [if_pos h1, if_pos h1]
  rw [if_neg h1, if_neg h1]
  by_cases h2 : (p.buffer.drop p.readOffset).take 4 = magic
  · simp only [h2, beq_self_eq_true, Bool.not_true, Bool.false_eq_true, if_false, if_neg (not_not_intro (Eq.refl magic))]
    generalize readHeader (p.buffer.drop p.readOffset) = header
    have hov : ¬ header.headerSize.toNat + header.payloadSize.toNat < header.headerSize.toNat := by omega
    simp only [if_neg hov, headerError, frameSize]
    -- the two chains of checks are the same, so each test closes the goal or moves on
    by_cases c1 : header.protocolVersion.toNat ≠ protocolVersion
    · simp only [if_pos c1]
    simp only [if_neg c1]
    by_cases c2 : header.headerSize.toNat < minHeaderSize
    · simp only [if_pos c2]
    simp only [if_neg c2]
    by_cases c3 : header.headerSize.toNat > maxHeaderSize
    · simp only [if_pos c3]
    simp only [if_neg c3]
    by_cases c4 : (!isKnownFrameType header.frameType) = true
    · simp only [if_pos c4]
    simp only [if_neg c4]
    by_cases c5 : header.flags ≠ 0
    · simp only [if_pos c5]
    simp only [if_neg c5]
    by_cases c6 : header.payloadSize.toNat > maxPayloadSize header.frameType
    · simp only [if_pos c6]
    · simp only [if_neg c6]
      rfl
  · simp [h2]

theorem parseNextWith_refines {compact : FrameParser → FrameParser}
    (hc : ∀ q : FrameParser, q.Inv → (compact q).Inv ∧ (compact q).unread = q.unread) (p : FrameParser) (h : p.Inv) :
    (p.parseNextWith compact).1.Inv ∧ (p.parseNextWith compact).1.unread = (frameScanner.parse p.unread).1 ∧
      (p.parseNextWith compact).2 = (frameScanner.parse p.unread).2 := by
  have hi : p.readOffset ≤ p.buffer.length := h
  cases hf : p.fatal with
  | true => simp [parseNextWith, hf, Scanner.parse, unread, h]
  | false =>
    have hu : p.unread = ⟨p.buffer.drop p.readOffset, none⟩ := by simp [unread, hf]
    rw [parseNextWith_eq compact p hf, hu]
    simp only [Scanner.parse, frameScanner, scanFrame, List.length_drop]
    by_cases h1 : p.buffer.length - p.readOffset < minHeaderSize
    · rw [if_pos h1, if_pos h1]; exact ⟨h, hu, rfl⟩
    rw [if_neg h1, if_neg h1]
    by_cases h2 : (p.buffer.drop p.readOffset).take 4 ≠ magic
    · rw [if_pos h2, if_pos h2]; exact ⟨h, rfl, rfl⟩
    rw [if_neg h2, if_neg h2]
    generalize hh : readHeader (p.buffer.drop p.readOffset) = header
    cases he : headerError header with
    | some e => exact ⟨h, rfl, rfl⟩
    | none =>
      simp only
      by_cases h3 : p.buffer.length - p.readOffset < frameSize header
      · rw [if_pos h3, if_pos h3]; exact ⟨h, hu, rfl⟩
      rw [if_neg h3, if_neg h3]
      have hq : FrameParser.Inv { p with readOffset := p.readOffset + frameSize header } := by
        show p.readOffset + frameSize header ≤ p.buffer.length
        omega
      obtain ⟨hi', hu'⟩ := hc _ hq
      refine ⟨hi', ?_, ?_⟩
      · rw [hu']
        simp [unread, hf, List.drop_drop]
      · simp [List.drop_drop]

theorem refines_of_compact {compact : FrameParser → FrameParser}
    (hc : ∀ q : FrameParser, q.Inv → (compact q).Inv ∧ (compact q).unread = q.unread) :
    Refines frameScanner ⟨{}, append, parseNextWith compact⟩ id unread Inv where
  init_inv := Nat.le_refl _
  init_abs := rfl
  append_inv := fun p data h => (append_refines p data h).1
  append_abs := fun p data h => (append_refines p data h).2
  parse_inv := fun p h => (parseNextWith_refines hc p h).1
  parse_abs := fun p h => (parseNextWith_refines hc p h).2.1
  parse_result := fun p h => by rw [Result.map_id]; exact (parseNextWith_refines hc p h).2.2

theorem machine_refines : Refines frameScanner machine id unread Inv := refines_of_compact compactBuffer_spec

theorem uncompacted_refines : Refines frameScanner uncompacted id unread Inv :=
  refines_of_compact fun _ h => ⟨h, rfl⟩

end FrameParser

/-! ## The Python parser refines it -/

theorem readHeader_fields (data : Bytes) :
    (FrameParser.readHeader data).protocolVersion.toNat = readLe 2 (data.drop 4) ∧
      (FrameParser.readHeader data).headerSize.toNat = readLe 2 (data.drop 6) ∧
      (FrameParser.readHeader data).frameType.toNat = readLe 2 (data.drop 8) ∧
      (FrameParser.readHeader data).flags.toNat = readLe 2 (data.drop 10) ∧
      (FrameParser.readHeader data).payloadSize.toNat = readLe 4 (data.drop 12) ∧
      (FrameParser.readHeader data).requestId.toNat = readLe 8 (data.drop 16) := by
  have h2 : ∀ bs, readLe 2 bs < 2 ^ 16 := fun bs => readLe_lt 2 bs
  have h4 : ∀ bs, readLe 4 bs < 2 ^ 32 := fun bs => readLe_lt 4 bs
  have h8 : ∀ bs, readLe 8 bs < 2 ^ 64 := fun bs => readLe_lt 8 bs
  simp only [FrameParser.readHeader, UInt16.toNat_ofNat', UInt32.toNat_ofNat', UInt64.toNat_ofNat']
  exact ⟨Nat.mod_eq_of_lt (h2 _), Nat.mod_eq_of_lt (h2 _), Nat.mod_eq_of_lt (h2 _), Nat.mod_eq_of_lt (h2 _),
    Nat.mod_eq_of_lt (h4 _), Nat.mod_eq_of_lt (h8 _)⟩

namespace PyFrameParser

def unread (p : PyFrameParser) : Unread UInt8 (ProtocolError × String) :=
  ⟨p.buffer, p.fatalError.map fun error => (error, p.fatalMessage)⟩

theorem append_unread (p : PyFrameParser) (data : Bytes) : (p.append data).unread = Scanner.append p.unread data := by
  unfold append Scanner.append
  cases hf : p.fatalError with
  | some e => simp [unread, hf]
  | none => cases data <;> simp [unread, hf]

theorem parseNext_refines (p : PyFrameParser) :
    p.parseNext.1.unread = (frameScanner.parse p.unread).1 ∧
      p.parseNext.2 = ((frameScanner.parse p.unread).2).map Frame.toPy := by
  cases hf : p.fatalError with
  | some e => simp [parseNext, hf, Scanner.parse, unread, Result.map]
  | none =>
    have hu : p.unread = ⟨p.buffer, none⟩ := by simp [unread, hf]
    obtain ⟨e1, e2, e3, e4, e5, e6⟩ := readHeader_fields p.buffer
    rw [hu]
    simp only [Scanner.parse, frameScanner, scanFrame, parseNext, hf]
    rw [← e1, ← e2, ← e3, ← e4, ← e5, ← e6]
    by_cases h1 : p.buffer.length < minHeaderSize
    · rw [if_pos h1, if_pos h1]; exact ⟨hu, rfl⟩
    rw [if_neg h1, if_neg h1]
    by_cases h2 : p.buffer.take 4 ≠ magic
    · rw [if_pos h2, if_pos h2]; exact ⟨rfl, rfl⟩
    rw [if_neg h2, if_neg h2]
    generalize FrameParser.readHeader p.buffer = header
    have hlim := maxPayloadSize_le header.frameType
    have hflags : header.flags.toNat ≠ 0 ↔ header.flags ≠ 0 := by rw [ne_eq, ne_eq, ← UInt16.toNat_inj]; rfl
    unfold headerError
    by_cases c1 : header.protocolVersion.toNat ≠ protocolVersion
    · simp only [if_pos c1]; exact ⟨rfl, rfl⟩
    simp only [if_neg c1]
    by_cases c2 : header.headerSize.toNat < minHeaderSize
    · simp only [if_pos c2]; exact ⟨rfl, rfl⟩
    simp only [if_neg c2]
    by_cases c3 : header.headerSize.toNat > maxHeaderSize
    · simp only [if_pos c3]; exact ⟨rfl, rfl⟩
    simp only [if_neg c3]
    rcases pyFrameType_of_u16 header.frameType with ⟨hk, ht⟩ | ⟨hk, t, ht, hm⟩
    · simp only [ht, hk, Bool.not_false, if_true]; exact ⟨rfl, rfl⟩
    simp only [ht, hk, Bool.not_true, Bool.false_eq_true, if_false, hm, hflags]
    by_cases c5 : header.flags ≠ 0
    · simp only [if_pos c5]; exact ⟨rfl, rfl⟩
    simp only [if_neg c5, FrameParser.payload_limits header]
    by_cases c6 : header.payloadSize.toNat > maxPayloadSize header.frameType
    · simp only [if_pos c6]; exact ⟨rfl, rfl⟩
    simp only [if_neg c6]
    rw [show header.headerSize.toNat + header.payloadSize.toNat = frameSize header from rfl]
    by_cases c7 : p.buffer.length < frameSize header
    · rw [if_pos c7, if_pos c7]; exact ⟨hu, rfl⟩
    rw [if_neg c7, if_neg c7]
    refine ⟨rfl, ?_⟩
    simp [Result.map, Frame.toPy, FrameHeader.toPy, List.drop_take, frameSize]

theorem machine_refines : Refines frameScanner machine Frame.toPy unread (fun _ => True) where
  init_inv := trivial
  init_abs := rfl
  append_inv := fun _ _ _ => trivial
  append_abs := fun p data _ => append_unread p data
  parse_inv := fun _ _ => trivial
  parse_abs := fun p _ => (parseNext_refines p).1
  parse_result := fun p _ => (parseNext_refines p).2

end PyFrameParser

/-! ## Encoded frames are framed -/

/-- The bytes `encode_frame` gives for a frame (none when it refuses it). -/
def encoded (frame : Frame) : Bytes :=
  match encodeFrameWithHeader frame.header frame.payload with
  | .ok bytes => bytes
  | .error _ => []

def Accepted (frame : Frame) : Prop := ∃ bytes, encodeFrameWithHeader frame.header frame.payload = .ok bytes

theorem headerError_of_encodable {header : FrameHeader} {payload : Bytes} (h : Encodable header payload) :
    headerError header = none := by
  have hs : header.headerSize.toNat = 24 := h.headerSize
  have hl := h.limit
  have hz := h.size
  unfold headerError
  rw [if_neg (by simp [h.version]), if_neg (by rw [hs]; decide), if_neg (by rw [hs]; decide), if_neg (by simp [h.known]),
    if_neg (by simp [h.flags]), if_neg (by omega)]

/-- The header an encoded frame starts with is the frame's own, whatever follows. -/
theorem readHeader_encoded {header : FrameHeader} {payload bytes : Bytes} (h : Encodable header payload)
    (rest : Bytes) (hb : bytes = magic ++ writeLe 2 header.protocolVersion.toNat ++ writeLe 2 header.headerSize.toNat ++
      writeLe 2 header.frameType.toNat ++ writeLe 2 header.flags.toNat ++ writeLe 4 payload.length ++
      writeLe 8 header.requestId.toNat ++ payload) : FrameParser.readHeader (bytes ++ rest) = header := by
  have hz := h.size
  have field : ∀ (n k v : Nat) (pre : Bytes), (∃ post, bytes ++ rest = pre ++ (writeLe n v ++ post)) → pre.length = k →
      v < 256 ^ n → readLe n ((bytes ++ rest).drop k) = v := by
    intro n k v pre ⟨post, he⟩ hk hv
    rw [he, List.drop_left' hk, readLe_writeLe_of_lt hv]
  have h1 := field 2 4 header.protocolVersion.toNat magic
    ⟨_, by rw [hb]; simp only [List.append_assoc]; rfl⟩ rfl header.protocolVersion.toNat_lt
  have h2 := field 2 6 header.headerSize.toNat (magic ++ writeLe 2 header.protocolVersion.toNat)
    ⟨_, by rw [hb]; simp only [List.append_assoc]; rfl⟩ rfl header.headerSize.toNat_lt
  have h3 := field 2 8 header.frameType.toNat
    (magic ++ writeLe 2 header.protocolVersion.toNat ++ writeLe 2 header.headerSize.toNat)
    ⟨_, by rw [hb]; simp only [List.append_assoc]; rfl⟩ rfl header.frameType.toNat_lt
  have h4 := field 2 10 header.flags.toNat
    (magic ++ writeLe 2 header.protocolVersion.toNat ++ writeLe 2 header.headerSize.toNat ++
      writeLe 2 header.frameType.toNat)
    ⟨_, by rw [hb]; simp only [List.append_assoc]; rfl⟩ rfl header.flags.toNat_lt
  have h5 := field 4 12 payload.length
    (magic ++ writeLe 2 header.protocolVersion.toNat ++ writeLe 2 header.headerSize.toNat ++
      writeLe 2 header.frameType.toNat ++ writeLe 2 header.flags.toNat)
    ⟨_, by rw [hb]; simp only [List.append_assoc]; rfl⟩ rfl (hz ▸ header.payloadSize.toNat_lt)
  have h6 := field 8 16 header.requestId.toNat
    (magic ++ writeLe 2 header.protocolVersion.toNat ++ writeLe 2 header.headerSize.toNat ++
      writeLe 2 header.frameType.toNat ++ writeLe 2 header.flags.toNat ++ writeLe 4 payload.length)
    ⟨_, by rw [hb]; simp only [List.append_assoc]; rfl⟩ rfl header.requestId.toNat_lt
  simp only [FrameParser.readHeader, h1, h2, h3, h4, h5, h6, ← hz, UInt16.ofNat_toNat, UInt32.ofNat_toNat,
    UInt64.ofNat_toNat]

theorem framed_of_accepted {frame : Frame} (h : Accepted frame) : Framed frameScanner encoded frame := by
  obtain ⟨bytes, hb⟩ := h
  have he : encoded frame = bytes := by simp [encoded, hb]
  obtain ⟨henc, hbytes⟩ := encode_ok_iff.mp hb
  have hs : frame.header.headerSize.toNat = 24 := henc.headerSize
  have hz := henc.size
  have hlen : bytes.length = frameSize frame.header := by
    rw [hbytes]
    simp only [List.length_append, writeLe_length, frameSize, hs, hz]
    show 4 + 2 + 2 + 2 + 2 + 4 + 8 + frame.payload.length = _
    omega
  have hmin : frameSize frame.header = 24 + frame.payload.length := by unfold frameSize; omega
  have hmagic : ∀ rest, (bytes ++ rest).take 4 = magic := by
    intro rest
    rw [hbytes]
    simp only [List.append_assoc]
    exact List.take_left' rfl
  have hread := fun rest => readHeader_encoded henc rest hbytes
  have herr := headerError_of_encodable henc
  refine ⟨fun rest => ?_, fun p hp hne => ?_⟩
  · show scanFrame (encoded frame ++ rest) = _
    rw [he]
    rw [scanFrame_of_header (by simp [minHeaderSize]; omega) (hmagic rest) (by rw [hread]; exact herr)
      (by rw [hread]; simp; omega), hread, hlen]
    have hpay : ((bytes ++ rest).drop 24).take frame.payload.length = frame.payload := by
      obtain ⟨pre, hpre, hcat⟩ : ∃ pre : Bytes, pre.length = 24 ∧ bytes = pre ++ frame.payload := ⟨_, rfl, hbytes⟩
      rw [hcat, List.append_assoc, List.drop_left' hpre, List.take_left' rfl]
    rw [hs, hz, hpay]
  · show scanFrame p = .needMore
    obtain ⟨q, hq⟩ := hp
    rw [he] at hq hne
    have hqne : q ≠ [] := by
      intro h0
      exact hne (by rw [← hq, h0, List.append_nil])
    have hpl : p.length < bytes.length := by
      have := congrArg List.length hq
      have := List.length_pos_of_ne_nil hqne
      simp only [List.length_append] at *
      omega
    unfold scanFrame
    by_cases h1 : p.length < minHeaderSize
    · rw [if_pos h1]
    have h24 : 24 ≤ p.length := Nat.le_of_not_lt h1
    have hr : FrameParser.readHeader p = frame.header := by
      rw [← readHeader_append h24 q, hq, ← List.append_nil bytes, hread]
    have hm : p.take 4 = magic := by
      have h4 := hmagic []
      rwa [List.append_nil, ← hq, List.take_append_of_le_length (by omega)] at h4
    rw [if_neg h1, if_neg (by simp [hm]), hr]
    simp only [herr]
    rw [if_pos (by omega)]

/-! ## Round trip under any chunking -/

theorem machine_run (ops : List (Op UInt8)) :
    FrameParser.unread (FrameParser.machine.run {} ops).1 = (frameScanner.reference.run ⟨[], none⟩ ops).1 ∧
      (FrameParser.machine.run {} ops).2 = (frameScanner.reference.run ⟨[], none⟩ ops).2 := by
  obtain ⟨-, ha, hr⟩ := FrameParser.machine_refines.run {} (Nat.le_refl _) ops
  refine ⟨ha, ?_⟩
  rw [hr]
  simp [FrameParser.unread]

/-- What one more `parse_next` answers, as the bytes arrived so far decide it. -/
def nextAnswer (left : List Frame) (unread : Bytes) : ParseResult :=
  match left with
  | [] => .needMoreData
  | frame :: _ => if encoded frame <+: unread then .frameReady frame else .needMoreData

theorem parseNext_answer (left : List Frame) (hf : ∀ frame ∈ left, Accepted frame) (p : FrameParser) (hp : p.Inv)
    {v : Bytes} (hu : p.unread = ⟨v, none⟩) (hv : v <+: left.flatMap encoded) : p.parseNext.2 = nextAnswer left v := by
  have hr : p.parseNext.2 = (frameScanner.parse p.unread).2 :=
    (FrameParser.parseNextWith_refines FrameParser.compactBuffer_spec p hp).2.2
  rw [hr, hu]
  rcases reference_parse left (fun frame h => framed_of_accepted (hf frame h)) v hv with
    ⟨frame, rest, w, rfl, rfl, -, hs⟩ | ⟨hs, hno⟩
  · rw [hs]
    exact (if_pos (List.prefix_append _ _)).symm
  · rw [hs]
    cases left with
    | nil => rfl
    | cons frame rest => exact (if_neg (hno frame rest rfl)).symm

/-- At any point of any interleaving: the frames returned are a prefix of the original
    ones, no call failed, every byte appended is either in a returned frame or unread, and
    the next call answers the next frame exactly when all of it has arrived. -/
theorem stream_prefix (frames : List Frame) (hf : ∀ frame ∈ frames, Accepted frame) (ops : List (Op UInt8))
    (h : appended ops <+: frames.flatMap encoded) :
    ∃ left v, frames = items (FrameParser.machine.run {} ops).2 ++ left ∧
      (FrameParser.machine.run {} ops).1.unread = ⟨v, none⟩ ∧
      (items (FrameParser.machine.run {} ops).2).flatMap encoded ++ v = appended ops ∧
      (∀ r ∈ (FrameParser.machine.run {} ops).2, ∀ e, r ≠ .fatalError e) ∧
      (FrameParser.machine.run {} ops).1.parseNext.2 = nextAnswer left v := by
  obtain ⟨ha, hr⟩ := machine_run ops
  have hi := (FrameParser.machine_refines.run {} (Nat.le_refl _) ops).1
  obtain ⟨done, left, v, h1, h2, h3, h4, h5⟩ :=
    reference_stream frames (fun frame hm => framed_of_accepted (hf frame hm)) [] ops (by simpa using h)
  rw [← hr] at h2 h5
  rw [h3] at ha
  subst h2
  have hv : v <+: left.flatMap encoded := by
    rw [List.nil_append] at h4
    rw [h1, List.flatMap_append, ← h4] at h
    exact (List.prefix_append_right_inj _).mp h
  exact ⟨left, v, h1, ha, by simpa using h4, h5,
    parseNext_answer left (fun frame hm => hf frame (by rw [h1]; simp [hm])) _ hi ha hv⟩

/-- Between a sender and the parser: the unread bytes and those on the wire are the frames
    still to be returned. -/
structure InFlight (p : FrameParser) (wire : Bytes) (todo : List Frame) : Prop where
  accepted : ∀ frame ∈ todo, Accepted frame
  inv : p.Inv
  bytes : ∃ v, p.unread = ⟨v, none⟩ ∧ v ++ wire = todo.flatMap encoded

theorem inFlight_nil : InFlight {} [] [] :=
  ⟨fun _ h => (List.not_mem_nil h).elim, Nat.le_refl 0, [], rfl, rfl⟩

theorem InFlight.send {p : FrameParser} {wire bytes : Bytes} {todo : List Frame} {frame : Frame}
    (h : InFlight p wire todo) (hb : encodeFrameWithHeader frame.header frame.payload = .ok bytes) :
    InFlight p (wire ++ bytes) (todo ++ [frame]) := by
  obtain ⟨v, hu, hv⟩ := h.bytes
  refine ⟨fun f hf => ?_, h.inv, v, hu, ?_⟩
  · rcases List.mem_append.mp hf with hf | hf
    · exact h.accepted f hf
    · rw [List.mem_singleton.mp hf]
      exact ⟨bytes, hb⟩
  · have he : encoded frame = bytes := by simp [encoded, hb]
    rw [← List.append_assoc, hv, List.flatMap_append, List.flatMap_singleton, he]

theorem InFlight.deliver {p : FrameParser} {wire : Bytes} {todo : List Frame} (h : InFlight p wire todo) (n : Nat) :
    InFlight (p.append (wire.take n)) (wire.drop n) todo := by
  obtain ⟨v, hu, hv⟩ := h.bytes
  obtain ⟨hinv, hunread⟩ := FrameParser.append_refines p (wire.take n) h.inv
  refine ⟨h.accepted, hinv, v ++ wire.take n, ?_, ?_⟩
  · rw [hunread, hu]
    rfl
  · rw [List.append_assoc, List.take_append_drop, hv]

/-- The parser waits, or returns the next frame. -/
theorem InFlight.parse {p : FrameParser} {wire : Bytes} {todo : List Frame} (h : InFlight p wire todo) :
    (∃ p', p.parseNext = (p', .needMoreData) ∧ InFlight p' wire todo) ∨
      ∃ frame rest p', todo = frame :: rest ∧ p.parseNext = (p', .frameReady frame) ∧ InFlight p' wire rest := by
  obtain ⟨v, hu, hv⟩ := h.bytes
  obtain ⟨hinv, hunread, hresult⟩ := FrameParser.parseNextWith_refines FrameParser.compactBuffer_spec p h.inv
  have hparse : p.parseNext = ((p.parseNextWith FrameParser.compactBuffer).1, (frameScanner.parse p.unread).2) :=
    Prod.ext rfl hresult
  have hprefix : v <+: todo.flatMap encoded := ⟨wire, hv⟩
  rcases reference_parse todo (fun frame hf => framed_of_accepted (h.accepted frame hf)) v hprefix with
    ⟨frame, rest, w, rfl, rfl, -, hs⟩ | ⟨hs, -⟩
  · rw [hu, hs] at hparse hunread
    refine .inr ⟨frame, rest, _, rfl, hparse, fun f hf => h.accepted f (List.mem_cons_of_mem _ hf), hinv, w, hunread, ?_⟩
    rw [List.append_assoc, List.flatMap_cons] at hv
    exact List.append_cancel_left hv
  · rw [hu, hs] at hparse hunread
    exact .inl ⟨_, hparse, h.accepted, hinv, v, hunread, hv⟩

/-- Once the whole stream has arrived, enough further calls have returned every frame. -/
theorem stream_complete (frames : List Frame) (hf : ∀ frame ∈ frames, Accepted frame) (ops : List (Op UInt8))
    (h : appended ops = frames.flatMap encoded) (n : Nat) (hn : frames.length ≤ n) :
    items (FrameParser.machine.run {} (ops ++ List.replicate n .parse)).2 = frames := by
  have hfr : ∀ frame ∈ frames, Framed frameScanner encoded frame := fun frame hm => framed_of_accepted (hf frame hm)
  obtain ⟨done, left, v, h1, h2, h3, h4, -⟩ :=
    reference_stream frames hfr [] ops (by simp [h])
  have hv : v = left.flatMap encoded := by
    rw [List.nil_append, h, h1, List.flatMap_append] at h4
    exact List.append_cancel_left h4
  rw [(machine_run _).2, Machine.run_append, items_append, h2, h3, hv,
    reference_drained left (fun frame hm => hfr frame (by rw [h1]; simp [hm])) n (by rw [h1] at hn; simp at hn; omega), h1]

/-- A proper prefix of one frame only ever yields NeedMoreData. -/
theorem partial_frame_needs_more {frame : Frame} (hf : Accepted frame) (ops : List (Op UInt8))
    (h : appended ops <+: encoded frame) (hne : appended ops ≠ encoded frame) :
    ∀ r ∈ (FrameParser.machine.run {} ops).2, r = .needMoreData := by
  have hstream : appended ops <+: [frame].flatMap encoded := by simpa using h
  obtain ⟨left, v, h1, -, h3, h4, -⟩ :=
    stream_prefix [frame] (fun f hm => by rw [List.mem_singleton.mp hm]; exact hf) ops hstream
  have hnone : items (FrameParser.machine.run {} ops).2 = [] := by
    rcases List.singleton_eq_append_iff.mp h1 with ⟨hi, -⟩ | ⟨hi, -⟩
    · exact hi
    · rw [hi] at h3
      have hle : encoded frame <+: appended ops := ⟨v, by simpa using h3⟩
      exact absurd (h.eq_of_length_le hle.length_le) hne
  intro r hr
  cases r with
  | needMoreData => rfl
  | fatalError e => exact absurd rfl (h4 _ hr e)
  | frameReady f =>
    have : f ∈ items (FrameParser.machine.run {} ops).2 := mem_items hr
    rw [hnone] at this
    cases this

theorem compaction_invisible (ops : List (Op UInt8)) :
    (FrameParser.machine.run {} ops).2 = (FrameParser.uncompacted.run {} ops).2 := by
  rw [(FrameParser.machine_refines.run {} (Nat.le_refl _) ops).2.2,
    (FrameParser.uncompacted_refines.run {} (Nat.le_refl _) ops).2.2]

/-- Frames accepted by `encode_frame`, concatenated, split into any chunks and appended in
    any interleaving with `parse_next`: the frames returned so far are the first of the
    original ones and the next answer is the next of them as soon as it has arrived; when
    all has arrived, draining gives exactly the original frames; a proper prefix of a
    frame only yields NeedMoreData; and dropping consumed bytes changes no answer. -/
theorem stream_round_trip (frames : List Frame) (hf : ∀ frame ∈ frames, Accepted frame) :
    (∀ ops, appended ops <+: frames.flatMap encoded →
      ∃ left v, frames = items (FrameParser.machine.run {} ops).2 ++ left ∧
        (FrameParser.machine.run {} ops).1.unread = ⟨v, none⟩ ∧
        (items (FrameParser.machine.run {} ops).2).flatMap encoded ++ v = appended ops ∧
        (∀ r ∈ (FrameParser.machine.run {} ops).2, ∀ e, r ≠ .fatalError e) ∧
        (FrameParser.machine.run {} ops).1.parseNext.2 = nextAnswer left v) ∧
    (∀ ops n, appended ops = frames.flatMap encoded → frames.length ≤ n →
      items (FrameParser.machine.run {} (ops ++ List.replicate n .parse)).2 = frames) ∧
    (∀ frame ∈ frames, ∀ ops, appended ops <+: encoded frame → appended ops ≠ encoded frame →
      ∀ r ∈ (FrameParser.machine.run {} ops).2, r = .needMoreData) ∧
    (∀ ops, (FrameParser.machine.run {} ops).2 = (FrameParser.uncompacted.run {} ops).2) :=
  ⟨fun ops h => stream_prefix frames hf ops h, fun ops n h hn => stream_complete frames hf ops h n hn,
    fun frame hm ops h hne => partial_frame_needs_more (hf frame hm) ops h hne, compaction_invisible⟩

/-- An empty-object control frame of request 7. -/
def pingFrame : Frame := ⟨{ frameType := 1, payloadSize := 2, requestId := 7 }, [0x7b, 0x7d]⟩

theorem stream_round_trip_split_header :
    (∀ frame ∈ [pingFrame], Accepted frame) ∧
      items (FrameParser.machine.run {}
        ([.append ((encoded pingFrame).take 10), .parse, .append ((encoded pingFrame).drop 10)] ++
          List.replicate 1 .parse)).2 = [pingFrame] := by
  have hf : ∀ frame ∈ [pingFrame], Accepted frame := by
    intro frame hm
    rw [List.mem_singleton.mp hm]
    exact ⟨encoded pingFrame, rfl⟩
  exact ⟨hf, (stream_round_trip [pingFrame] hf).2.1 _ 1 (by decide) (by decide)⟩

/-! ## The two languages agree -/

/-- On every byte stream and every interleaving of calls the two parsers answer the same
    and keep the same bytes unread and the same error. -/
theorem runs_agree (ops : List (Op UInt8)) :
    (PyFrameParser.machine.run {} ops).2 = (FrameParser.machine.run {} ops).2.map (Result.map Frame.toPy) ∧
      (PyFrameParser.machine.run {} ops).1.unread = (FrameParser.machine.run {} ops).1.unread := by
  obtain ⟨ha, hr⟩ := machine_run ops
  obtain ⟨-, ha', hr'⟩ := PyFrameParser.machine_refines.run {} trivial ops
  rw [ha, hr]
  exact ⟨hr', ha'⟩

theorem drives_agree (fuel : Nat) (chunks : List Bytes) :
    (PyFrameParser.machine.drive fuel {} chunks).2 =
        (FrameParser.machine.drive fuel {} chunks).2.map (Result.map Frame.toPy) ∧
      (PyFrameParser.machine.drive fuel {} chunks).1.unread = (FrameParser.machine.drive fuel {} chunks).1.unread := by
  obtain ⟨-, ha, hr⟩ := FrameParser.machine_refines.drive fuel {} (Nat.le_refl _) chunks
  obtain ⟨-, ha', hr'⟩ := PyFrameParser.machine_refines.drive fuel {} trivial chunks
  rw [ha, hr, ha', hr']
  exact ⟨by simp [FrameParser.unread, PyFrameParser.unread], by rfl⟩

/-- With fuel for every byte, the read loop stops only when the parser has nothing more to
    return: it waits for data or is stuck on its error. -/
theorem drive_exhausts (chunks : List Bytes) (fuel : Nat) (h : chunks.flatten.length < fuel) (frame : Frame) :
    (FrameParser.machine.drive fuel {} chunks).1.parseNext.2 ≠ .frameReady frame := by
  obtain ⟨hi, ha, -⟩ := FrameParser.machine_refines.drive fuel {} (Nat.le_refl _) chunks
  have hx := frameScanner.drive_exhausted fuel ⟨[], none⟩ chunks (fun a h => by cases h) (by simpa using h)
  have hr := (FrameParser.parseNextWith_refines FrameParser.compactBuffer_spec _ hi).2.2
  rw [ha] at hr
  intro he
  exact hx frame (hr.symm.trans he)

/-- Both languages frame alike: on every stream, chunking and interleaving of calls the
    parsers return the same frames, end in the same status and leave the same bytes
    unread, also when each chunk is drained to exhaustion; and the encoders accept the
    same frame values with the same bytes. -/
theorem parsers_agree :
    (∀ ops, (PyFrameParser.machine.run {} ops).2 = (FrameParser.machine.run {} ops).2.map (Result.map Frame.toPy) ∧
      (PyFrameParser.machine.run {} ops).1.unread = (FrameParser.machine.run {} ops).1.unread) ∧
    (∀ fuel chunks, (PyFrameParser.machine.drive fuel {} chunks).2 =
        (FrameParser.machine.drive fuel {} chunks).2.map (Result.map Frame.toPy) ∧
      (PyFrameParser.machine.drive fuel {} chunks).1.unread = (FrameParser.machine.drive fuel {} chunks).1.unread ∧
      (chunks.flatten.length < fuel →
        ∀ frame, (FrameParser.machine.drive fuel {} chunks).1.parseNext.2 ≠ .frameReady frame)) ∧
    (∀ header payload bytes, encodeFrameWithHeader header payload = .ok bytes ↔
      pyEncodeFrameWithHeader header.toPy payload = .ok bytes) ∧
    (∀ (frameType : UInt16) (requestId : UInt64) payload bytes, encodeFrame frameType requestId payload = .ok bytes ↔
      pyEncodeFrame frameType.toNat requestId.toNat payload = .ok bytes) :=
  ⟨runs_agree, fun fuel chunks => ⟨(drives_agree fuel chunks).1, (drives_agree fuel chunks).2,
    drive_exhausts chunks fuel⟩, encodeWithHeader_agrees, encode_agrees⟩

end QwenTtsBridge.Protocol.Framing
