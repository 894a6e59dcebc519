/-
  QwenTtsBridge.Voice.FrameReader — the frame reader of the voice library
  (`_read_frame_blocking`, `voice_library.py`).

  While it prepares a voice the library reads the native worker's answers with a reader of
  its own: it blocks for the fixed header, the extension and the payload in turn, and knows
  control and error frames only. `FrameAt limit` is what both it and the bridge's parsers
  take for a frame, but for the limit on the header's size: 4096 here and 256 there.

  - `readers_agree_iff`: on a byte stream the reader, applied again and again, accepts the
    frames that the C++ and the Python `FrameParser` accept with a JSON object in control or
    error frames, returns these objects and stops at the same bytes, exactly when no frame of
    the stream declares a header of more than 256 bytes.
  A JSON object is what `json.loads` of the worker's Python reads as a dict.
-/

import QwenTtsBridge.Protocol.ParserSafety
import QwenTtsBridge.Worker.PyMessages

namespace QwenTtsBridge.Voice

open QwenTtsBridge.Lib QwenTtsBridge.Lib.LittleEndian QwenTtsBridge.Lib.StreamParser QwenTtsBridge.Python
open QwenTtsBridge.Protocol.Framing ProtocolLimits
open QwenTtsBridge.Worker.PyServer (sampleInterpreter)

/-! ## The reader -/

/-- How `_read_frame_blocking` ends without a frame. -/
inductive ReadError where
  | voiceLibraryError (message : String)
  | other (e : Exn)
  deriving DecidableEq, Repr

def headerSizeLimit : Nat := 4096

/-- The end of `_read_frame_blocking`: the payload is read as JSON. -/
def objectOf (py : Interpreter) (payload : Bytes) : Except ReadError Dict :=
  match Utf8.decode payload with
  | none => .error (.voiceLibraryError "native worker returned invalid control JSON")
  | some text =>
    match loads py text with
    | .error .jsonDecodeError => .error (.voiceLibraryError "native worker returned invalid control JSON")
    | .error e => .error (.other e)
    | .ok (.dict object) => .ok object
    | .ok _ => .error (.voiceLibraryError "native worker control payload must be an object")

/-- `_read_frame_blocking`. The stream is what is left up to its end; the object comes with
    what is left after it. -/
def readFrameBlocking (py : Interpreter) (stream : Bytes) : Except ReadError (Dict × Bytes) :=
  let header := stream.take 24
  if header.length ≠ 24 then .error (.voiceLibraryError "native worker closed protocol stream before ready")
  else
    let version := readLe 2 (header.drop 4)
    let headerSize := readLe 2 (header.drop 6)
    let frameType := readLe 2 (header.drop 8)
    let flags := readLe 2 (header.drop 10)
    let payloadSize := readLe 4 (header.drop 12)
    if header.take 4 ≠ magic ∨ version ≠ 1 ∨ headerSize < 24 ∨ headerSizeLimit < headerSize ∨
        ¬ (frameType = 1 ∨ frameType = 3) ∨ flags ≠ 0 ∨ 1048576 < payloadSize then
      .error (.voiceLibraryError "native worker returned an invalid protocol frame")
    else
      let stream := stream.drop 24
      if (stream.take (headerSize - 24)).length ≠ headerSize - 24 then
        .error (.voiceLibraryError "native worker returned a truncated frame header")
      else
        let stream := stream.drop (headerSize - 24)
        let payload := stream.take payloadSize
        if payload.length ≠ payloadSize then
          .error (.voiceLibraryError "native worker returned a truncated protocol frame")
        else
          match objectOf py payload with
          | .error e => .error e
          | .ok object => .ok (object, stream.drop payloadSize)

/-- The reader applied `n` times. -/
def readFrames (py : Interpreter) : Nat → Bytes → Except ReadError (List Dict × Bytes)
  | 0, stream => .ok ([], stream)
  | n + 1, stream =>
    match readFrameBlocking py stream with
    | .error e => .error e
    | .ok (object, stream) =>
      match readFrames py n stream with
      | .error e => .error e
      | .ok (objects, rest) => .ok (object :: objects, rest)

/-! ## The frames of a stream -/

/-- A complete control or error frame with a header of at most `limit` bytes and a JSON
    object for payload stands at the front of the bytes. -/
structure FrameAt (py : Interpreter) (limit : Nat) (bytes : Bytes) (object : Dict) (rest : Bytes) : Prop where
  fixed : minHeaderSize ≤ bytes.length
  front : bytes.take 4 = magic
  version : readLe 2 (bytes.drop 4) = 1
  header : minHeaderSize ≤ readLe 2 (bytes.drop 6)
  short : readLe 2 (bytes.drop 6) ≤ limit
  type : readLe 2 (bytes.drop 8) = 1 ∨ readLe 2 (bytes.drop 8) = 3
  flags : readLe 2 (bytes.drop 10) = 0
  payload : readLe 4 (bytes.drop 12) ≤ 1048576
  complete : readLe 2 (bytes.drop 6) + readLe 4 (bytes.drop 12) ≤ bytes.length
  object : objectOf py ((bytes.drop (readLe 2 (bytes.drop 6))).take (readLe 4 (bytes.drop 12))) = .ok object
  rest : rest = bytes.drop (readLe 2 (bytes.drop 6) + readLe 4 (bytes.drop 12))

variable {py : Interpreter} {limit : Nat} {bytes mid rest rest' : Bytes} {object object' : Dict}

theorem FrameAt.unique (h : FrameAt py limit bytes object rest) {limit' : Nat}
    (h' : FrameAt py limit' bytes object' rest') : object = object' ∧ rest = rest' :=
  ⟨Except.ok.inj (h.object.symm.trans h'.object), h.rest.trans h'.rest.symm⟩

theorem FrameAt.shorten (h : FrameAt py limit bytes object rest) {limit' : Nat}
    (hshort : readLe 2 (bytes.drop 6) ≤ limit') : FrameAt py limit' bytes object rest :=
  { h with short := hshort }

/-- `n` frames stand at the front of the bytes, one after the other. -/
inductive FramesAt (py : Interpreter) (limit : Nat) : Nat → Bytes → List Dict → Bytes → Prop
  | zero (bytes : Bytes) : FramesAt py limit 0 bytes [] bytes
  | succ {n : Nat} {bytes mid rest : Bytes} {object : Dict} {objects : List Dict} :
      FrameAt py limit bytes object mid → FramesAt py limit n mid objects rest →
      FramesAt py limit (n + 1) bytes (object :: objects) rest

theorem FramesAt.snoc {n : Nat} {objects : List Dict} (h : FramesAt py limit n bytes objects mid)
    (hlast : FrameAt py limit mid object rest) : FramesAt py limit (n + 1) bytes (objects ++ [object]) rest := by
  induction h with
  | zero bytes => exact .succ hlast (.zero _)
  | succ hfirst _ ih => exact .succ hfirst (ih hlast)

/-- The frame after the first `n`. -/
theorem FramesAt.last {n : Nat} {objects : List Dict} (h : FramesAt py limit n bytes objects mid)
    (h' : FramesAt py limit (n + 1) bytes (objects ++ [object]) rest) : FrameAt py limit mid object rest := by
  induction h with
  | zero bytes =>
    cases h' with
    | succ hfirst hnone =>
      cases hnone
      exact hfirst
  | succ hfirst _ ih =>
    cases h' with
    | succ hfirst' hrest =>
      obtain ⟨-, rfl⟩ := hfirst.unique hfirst'
      exact ih hrest

theorem FramesAt.mono {n : Nat} {objects : List Dict} (h : FramesAt py limit n bytes objects rest) {limit' : Nat}
    (hle : limit ≤ limit') : FramesAt py limit' n bytes objects rest := by
  induction h with
  | zero bytes => exact .zero bytes
  | succ hfirst _ ih => exact .succ (hfirst.shorten (hfirst.short.trans hle)) ih

/-! ## The reader accepts the frames with long headers, too -/

theorem readLe_take {n k : Nat} (h : k + n ≤ 24) (hlen : 24 ≤ bytes.length) :
    readLe n ((bytes.take 24).drop k) = readLe n (bytes.drop k) := by
  have hfront : k + n ≤ (bytes.take 24).length := by
    rw [List.length_take]
    omega
  have hsplit := readLe_drop_append hfront (bytes.drop 24)
  rw [List.take_append_drop] at hsplit
  exact hsplit.symm

theorem readFrameBlocking_iff :
    readFrameBlocking py bytes = .ok (object, rest) ↔ FrameAt py headerSizeLimit bytes object rest := by
  unfold readFrameBlocking
  by_cases hfixed : (bytes.take 24).length ≠ 24
  · rw [if_pos hfixed]
    refine ⟨nofun, fun h => (hfixed ?_).elim⟩
    have hlen : 24 ≤ bytes.length := h.fixed
    rw [List.length_take]
    omega
  have hlen : 24 ≤ bytes.length := by
    rw [List.length_take] at hfixed
    omega
  rw [if_neg hfixed]
  simp only [readLe_take (show 4 + 2 ≤ 24 by decide) hlen, readLe_take (show 6 + 2 ≤ 24 by decide) hlen,
    readLe_take (show 8 + 2 ≤ 24 by decide) hlen, readLe_take (show 10 + 2 ≤ 24 by decide) hlen,
    readLe_take (show 12 + 4 ≤ 24 by decide) hlen, List.take_take, Nat.min_eq_left (show 4 ≤ 24 by decide)]
  generalize hsize : readLe 2 (bytes.drop 6) = headerSize
  generalize hpayload : readLe 4 (bytes.drop 12) = payloadSize
  split
  · rename_i hbad
    refine ⟨nofun, fun h => ?_⟩
    have h1 := h.header
    have h2 := h.short
    have h3 := h.payload
    rw [hsize] at h1 h2
    rw [hpayload] at h3
    have h24 : minHeaderSize = 24 := rfl
    rcases hbad with hbad | hbad | hbad | hbad | hbad | hbad | hbad
    · exact (hbad h.front).elim
    · exact (hbad h.version).elim
    · omega
    · omega
    · exact (hbad h.type).elim
    · exact (hbad h.flags).elim
    · omega
  rename_i hgood
  simp only [not_or, not_not, Nat.not_lt, not_and_or] at hgood
  obtain ⟨hmagic, hversion, hheader, hshort, htype, hflags, hlimit⟩ := hgood
  simp only [List.drop_drop, Nat.add_sub_cancel' hheader]
  split
  · rename_i hcut
    refine ⟨nofun, fun h => (hcut ?_).elim⟩
    have hwhole := h.complete
    rw [hsize, hpayload] at hwhole
    rw [List.length_take, List.length_drop]
    omega
  rename_i hextension
  rw [not_not, List.length_take, List.length_drop] at hextension
  split
  · rename_i hcut
    refine ⟨nofun, fun h => (hcut ?_).elim⟩
    have hwhole := h.complete
    rw [hsize, hpayload] at hwhole
    rw [List.length_take, List.length_drop]
    omega
  rename_i hwhole
  rw [not_not, List.length_take, List.length_drop] at hwhole
  constructor
  · intro h
    split at h
    · cases h
    · rename_i object' hobject
      cases h
      refine ⟨hlen, hmagic, hversion, hsize ▸ hheader, hsize ▸ hshort, htype, hflags, hpayload ▸ hlimit, ?_, ?_, ?_⟩
      · rw [hsize, hpayload]
        omega
      · rw [hsize, hpayload]
        exact hobject
      · rw [hsize, hpayload]
  · intro h
    have hobject := h.object
    have hrest := h.rest
    rw [hsize, hpayload] at hobject hrest
    rw [hobject, hrest]

theorem readFrames_iff {n : Nat} {objects : List Dict} :
    readFrames py n bytes = .ok (objects, rest) ↔ FramesAt py headerSizeLimit n bytes objects rest := by
  induction n generalizing bytes objects with
  | zero =>
    constructor
    · intro h
      cases h
      exact .zero _
    · intro h
      cases h
      rfl
  | succ n ih =>
    unfold readFrames
    constructor
    · intro h
      split at h
      · cases h
      rename_i object mid hfirst
      split at h
      · cases h
      rename_i objects' rest' hrest
      cases h
      exact .succ (readFrameBlocking_iff.mp hfirst) (ih.mp hrest)
    · intro h
      cases h with
      | succ hfirst hrest =>
        simp only [readFrameBlocking_iff.mpr hfirst, ih.mpr hrest]

/-! ## The parsers accept the frames with short headers -/

/-- The frame is a control or error frame and its payload is the JSON object. -/
structure Holds (py : Interpreter) (frame : Frame) (object : Dict) : Prop where
  type : frame.header.frameType = FrameType.controlJson.value ∨ frame.header.frameType = FrameType.errorJson.value
  object : objectOf py frame.payload = .ok object

theorem headerError_none_iff {header : FrameHeader} : headerError header = none ↔
    header.protocolVersion.toNat = protocolVersion ∧ minHeaderSize ≤ header.headerSize.toNat ∧
      header.headerSize.toNat ≤ maxHeaderSize ∧ isKnownFrameType header.frameType = true ∧ header.flags = 0 ∧
      header.payloadSize.toNat ≤ maxPayloadSize header.frameType := by
  unfold headerError
  constructor
  · intro h
    split at h
    · cases h
    rename_i hversion
    split at h
    · cases h
    rename_i hsmall
    split at h
    · cases h
    rename_i hlarge
    split at h
    · cases h
    rename_i hknown
    split at h
    · cases h
    rename_i hflags
    split at h
    · cases h
    rename_i hpayload
    exact ⟨not_not.mp hversion, Nat.le_of_not_lt hsmall, Nat.le_of_not_lt hlarge, by simpa using hknown,
      not_not.mp hflags, Nat.le_of_not_lt hpayload⟩
  · rintro ⟨hversion, hsmall, hlarge, hknown, hflags, hpayload⟩
    rw [if_neg (not_not_intro hversion), if_neg (Nat.not_lt_of_le hsmall), if_neg (Nat.not_lt_of_le hlarge),
      if_neg (by simp [hknown]), if_neg (not_not_intro hflags), if_neg (Nat.not_lt_of_le hpayload)]

theorem controlJson_iff {value : UInt16} : value = FrameType.controlJson.value ↔ value.toNat = 1 :=
  UInt16.toNat_inj.symm

theorem errorJson_iff {value : UInt16} : value = FrameType.errorJson.value ↔ value.toNat = 3 := UInt16.toNat_inj.symm

theorem scanFrame_iff :
    (∃ frame n, scanFrame bytes = .item frame n ∧ Holds py frame object ∧ rest = bytes.drop n) ↔
      FrameAt py maxHeaderSize bytes object rest := by
  obtain ⟨hversion, hsize, htype, hflags, hpayload, -⟩ := readHeader_fields bytes
  constructor
  · rintro ⟨⟨header, payload⟩, n, hscan, hholds, rfl⟩
    obtain ⟨hfixed, hfront, hheader, herror, hn, hwhole, hbytes⟩ := scanFrame_item hscan
    simp only at hheader herror hn hbytes
    subst hheader hn
    obtain ⟨e1, e2, e3, -, e5, e6⟩ := headerError_none_iff.mp herror
    have hkind := hholds.type
    have hobject := hholds.object
    simp only [controlJson_iff, errorJson_iff, htype] at hkind
    have hmax : maxPayloadSize (FrameParser.readHeader bytes).frameType = 1048576 := by
      rcases hholds.type with h | h <;> rw [h] <;> rfl
    rw [hsize, hpayload] at hbytes
    refine ⟨hfixed, hfront, hversion ▸ e1, hsize ▸ e2, hsize ▸ e3, hkind, ?_, ?_, ?_, hbytes ▸ hobject, ?_⟩
    · rw [← hflags, e5]
      rfl
    · rw [← hpayload, ← hmax]
      exact e6
    · rw [frameSize, hsize, hpayload] at hwhole
      exact hwhole
    · rw [frameSize, hsize, hpayload]
  · intro h
    have hkind : (FrameParser.readHeader bytes).frameType = FrameType.controlJson.value ∨
        (FrameParser.readHeader bytes).frameType = FrameType.errorJson.value := by
      simp only [controlJson_iff, errorJson_iff, htype]
      exact h.type
    have hmax : maxPayloadSize (FrameParser.readHeader bytes).frameType = 1048576 := by
      rcases hkind with h | h <;> rw [h] <;> rfl
    have herror : headerError (FrameParser.readHeader bytes) = none := by
      refine headerError_none_iff.mpr ⟨hversion.trans h.version, hsize ▸ h.header, hsize ▸ h.short, ?_, ?_, ?_⟩
      · rcases hkind with hkind | hkind <;> rw [hkind] <;> rfl
      · exact UInt16.toNat_inj.mp (hflags.trans h.flags)
      · rw [hpayload, hmax]
        exact h.payload
    have hwhole : frameSize (FrameParser.readHeader bytes) ≤ bytes.length := by
      rw [frameSize, hsize, hpayload]
      exact h.complete
    refine ⟨_, _, scanFrame_of_header h.fixed h.front herror hwhole, ⟨hkind, ?_⟩, ?_⟩
    · simp only [hsize, hpayload]
      exact h.object
    · rw [frameSize, hsize, hpayload]
      exact h.rest

/-! ## Whole streams -/

/-- The frames that `n` calls of `parse_next` return, if all of them return one. -/
def framesOf {σ α ε : Type} (M : Machine σ UInt8 α ε) : Nat → σ → Option (List α × σ)
  | 0, p => some ([], p)
  | n + 1, p =>
    match M.parse p with
    | (p, .frameReady frame) => (framesOf M n p).map fun (frames, p) => (frame :: frames, p)
    | _ => none

section Machine

variable {σ α : Type} {M : Machine σ UInt8 α (ProtocolError × String)} {f : Frame → α}
  {abs : σ → Unread UInt8 (ProtocolError × String)} {Inv : σ → Prop} {p q : σ} {frame : Frame} {n : Nat}

/-- The frame at the front is returned and its bytes are gone. -/
theorem parse_of_scan (hM : Refines frameScanner M f abs Inv) (hp : Inv p) (hu : abs p = ⟨bytes, none⟩)
    (hscan : scanFrame bytes = .item frame n) :
    ∃ q, M.parse p = (q, .frameReady (f frame)) ∧ Inv q ∧ abs q = ⟨bytes.drop n, none⟩ := by
  have hstep : frameScanner.parse ⟨bytes, none⟩ = (⟨bytes.drop n, none⟩, .frameReady frame) := by
    simp only [Scanner.parse, frameScanner, hscan]
  refine ⟨(M.parse p).1, Prod.ext rfl ?_, hM.parse_inv p hp, ?_⟩
  · rw [hM.parse_result p hp, hu, hstep]
    rfl
  · rw [hM.parse_abs p hp, hu, hstep]

/-- A frame that is returned stood at the front. -/
theorem scan_of_parse (hM : Refines frameScanner M f abs Inv) (hp : Inv p) (hu : abs p = ⟨bytes, none⟩) {a : α}
    (hparse : M.parse p = (q, .frameReady a)) :
    ∃ frame n, scanFrame bytes = .item frame n ∧ a = f frame ∧ Inv q ∧ abs q = ⟨bytes.drop n, none⟩ := by
  have hresult := hM.parse_result p hp
  have habs := hM.parse_abs p hp
  have hinv := hM.parse_inv p hp
  rw [hparse] at hresult habs hinv
  rw [hu] at hresult habs
  cases hscan : scanFrame bytes with
  | needMore => simp [Scanner.parse, frameScanner, hscan, Result.map] at hresult
  | fatal e => simp [Scanner.parse, frameScanner, hscan, Result.map] at hresult
  | item frame n =>
    simp only [Scanner.parse, frameScanner, hscan, Result.map, Result.frameReady.injEq] at hresult habs
    exact ⟨frame, n, rfl, hresult, hinv, habs⟩

/-- `n` frames of any type stand at the front of the bytes. -/
inductive Scans : Nat → Bytes → List Frame → Bytes → Prop
  | zero (bytes : Bytes) : Scans 0 bytes [] bytes
  | succ {n k : Nat} {bytes rest : Bytes} {frame : Frame} {frames : List Frame} :
      scanFrame bytes = .item frame k → Scans n (bytes.drop k) frames rest → Scans (n + 1) bytes (frame :: frames) rest

theorem framesOf_of_scans (hM : Refines frameScanner M f abs Inv) {frames : List Frame}
    (h : Scans n bytes frames rest) (hp : Inv p) (hu : abs p = ⟨bytes, none⟩) :
    ∃ q, framesOf M n p = some (frames.map f, q) ∧ abs q = ⟨rest, none⟩ := by
  induction h generalizing p with
  | zero bytes => exact ⟨p, rfl, hu⟩
  | succ hscan _ ih =>
    obtain ⟨q, hparse, hq, habs⟩ := parse_of_scan hM hp hu hscan
    obtain ⟨q', hframes, habs'⟩ := ih hq habs
    refine ⟨q', ?_, habs'⟩
    simp only [framesOf, hparse, hframes, Option.map_some, List.map_cons]

theorem scans_of_framesOf (hM : Refines frameScanner M f abs Inv) {as : List α} (hp : Inv p)
    (hu : abs p = ⟨bytes, none⟩) (h : framesOf M n p = some (as, q)) :
    ∃ frames rest, Scans n bytes frames rest ∧ as = frames.map f ∧ abs q = ⟨rest, none⟩ := by
  induction n generalizing p bytes as with
  | zero =>
    cases h
    exact ⟨[], bytes, .zero bytes, rfl, hu⟩
  | succ n ih =>
    unfold framesOf at h
    split at h
    · rename_i p₁ a hparse
      obtain ⟨⟨as', q'⟩, hrest, heq⟩ := Option.map_eq_some_iff.mp h
      cases heq
      obtain ⟨frame, k, hscan, rfl, hp₁, hu₁⟩ := scan_of_parse hM hp hu hparse
      obtain ⟨frames, rest, hscans, rfl, habs⟩ := ih hp₁ hu₁ hrest
      exact ⟨frame :: frames, rest, .succ hscan hscans, rfl, habs⟩
    · cases h

end Machine

theorem framesAt_iff_scans {n : Nat} {objects : List Dict} :
    FramesAt py maxHeaderSize n bytes objects rest ↔
      ∃ frames, Scans n bytes frames rest ∧ List.Forall₂ (Holds py) frames objects := by
  constructor
  · intro h
    induction h with
    | zero bytes => exact ⟨[], .zero bytes, .nil⟩
    | succ hfirst _ ih =>
      obtain ⟨frame, k, hscan, hholds, rfl⟩ := scanFrame_iff.mpr hfirst
      obtain ⟨frames, hscans, hall⟩ := ih
      exact ⟨frame :: frames, .succ hscan hscans, .cons hholds hall⟩
  · rintro ⟨frames, hscans, hall⟩
    induction hscans generalizing objects with
    | zero bytes =>
      cases hall
      exact .zero bytes
    | succ hscan _ ih =>
      cases hall with
      | cons hholds hrest => exact .succ (scanFrame_iff.mp ⟨_, _, hscan, hholds, rfl⟩) (ih hrest)

/-- Both parsers, given the stream, return `n` control or error frames with these objects
    for payloads and have the same bytes left. -/
def ParsedAs (py : Interpreter) (n : Nat) (stream : Bytes) (objects : List Dict) (rest : Bytes) : Prop :=
  ∃ frames p q, framesOf FrameParser.machine n (FrameParser.append {} stream) = some (frames, p) ∧
    framesOf PyFrameParser.machine n (PyFrameParser.append {} stream) = some (frames.map Frame.toPy, q) ∧
    p.unread = ⟨rest, none⟩ ∧ q.unread = ⟨rest, none⟩ ∧ List.Forall₂ (Holds py) frames objects

theorem parsedAs_iff {n : Nat} {stream : Bytes} {objects : List Dict} :
    ParsedAs py n stream objects rest ↔ FramesAt py maxHeaderSize n stream objects rest := by
  have hcpp : (FrameParser.append {} stream).Inv ∧ (FrameParser.append {} stream).unread = ⟨stream, none⟩ :=
    FrameParser.append_refines {} stream (Nat.zero_le _)
  have hpy : (PyFrameParser.append {} stream).unread = ⟨stream, none⟩ := PyFrameParser.append_unread {} stream
  rw [framesAt_iff_scans]
  constructor
  · rintro ⟨frames, p, q, hp, -, hrest, -, hall⟩
    obtain ⟨frames', rest', hscans, rfl, habs⟩ := scans_of_framesOf FrameParser.machine_refines hcpp.1 hcpp.2 hp
    rw [hrest] at habs
    cases habs
    rw [List.map_id] at hall
    exact ⟨frames', hscans, hall⟩
  · rintro ⟨frames, hscans, hall⟩
    obtain ⟨p, hp, hrest⟩ := framesOf_of_scans FrameParser.machine_refines hscans hcpp.1 hcpp.2
    obtain ⟨q, hq, hrest'⟩ := framesOf_of_scans PyFrameParser.machine_refines hscans trivial hpy
    rw [List.map_id] at hp
    exact ⟨frames, p, q, hp, hq, hrest, hrest', hall⟩

/-- The reader, applied again and again, accepts what the parsers accept. -/
def ReadsAlike (py : Interpreter) (stream : Bytes) : Prop :=
  ∀ n objects rest, readFrames py n stream = .ok (objects, rest) ↔ ParsedAs py n stream objects rest

/-- No frame of the stream declares more header than the parsers take: a frame that follows
    frames with short headers, and is complete and acceptable otherwise. -/
def ShortHeaders (py : Interpreter) (stream : Bytes) : Prop :=
  ∀ n objects bytes object rest, FramesAt py maxHeaderSize n stream objects bytes →
    FrameAt py headerSizeLimit bytes object rest → readLe 2 (bytes.drop 6) ≤ maxHeaderSize

theorem readers_agree_iff (py : Interpreter) (stream : Bytes) : ReadsAlike py stream ↔ ShortHeaders py stream := by
  have hle : maxHeaderSize ≤ headerSizeLimit := by decide
  simp only [ReadsAlike, readFrames_iff, parsedAs_iff]
  constructor
  · intro h n objects bytes object rest hframes hlast
    have hlong := (hframes.mono hle).snoc hlast
    exact (hframes.last ((h _ _ _).mp hlong)).short
  · intro h n objects rest
    refine ⟨fun hframes => ?_, fun hframes => hframes.mono hle⟩
    -- from the front: what holds of the stream holds of what is left after its first frame
    induction hframes with
    | zero bytes => exact .zero bytes
    | succ hfirst _ ih =>
      have hshort := hfirst.shorten (h 0 [] _ _ _ (.zero _) hfirst)
      exact .succ hshort (ih fun n objects bytes object rest hframes => h (n + 1) _ bytes object rest (.succ hshort hframes))

/-- An empty object in a control frame with a header of 257 bytes. -/
def longHeaderStream : Bytes :=
  magic ++ writeLe 2 1 ++ writeLe 2 257 ++ writeLe 2 1 ++ writeLe 2 0 ++ writeLe 4 2 ++ writeLe 8 0 ++
    List.replicate 233 0 ++ [0x7b, 0x7d]

theorem longHeaderStream_frame : FrameAt sampleInterpreter headerSizeLimit longHeaderStream [] [] where
  fixed := by decide +kernel
  front := by decide
  version := by decide
  header := by decide
  short := by decide
  type := by decide
  flags := by decide
  payload := by decide
  complete := by decide +kernel
  object := by
    have hpayload : (longHeaderStream.drop (readLe 2 (longHeaderStream.drop 6))).take
        (readLe 4 (longHeaderStream.drop 12)) = [0x7b, 0x7d] := by decide +kernel
    rw [hpayload]
    rfl
  rest := by decide +kernel

/-- The library takes it and the parsers do not. -/
theorem a_long_header_is_read_by_the_library_only : ¬ ReadsAlike sampleInterpreter longHeaderStream := by
  intro h
  have hread := readFrames_iff.mpr (.succ longHeaderStream_frame (.zero []))
  have hparsed := parsedAs_iff.mp ((h _ _ _).mp hread)
  cases hparsed with
  | succ hframe _ => exact absurd hframe.short (by decide)

end QwenTtsBridge.Voice
