/-
  QwenTtsBridge.Audio.PlayoutCursor — `make_playout_cursor_fade` (`audio/playout_cursor.cpp`).

  The function copies the frames from a playback cursor on, out of buffers with positions in
  the stream, and fades them out. Sizes, positions and counts are natural numbers; each
  64-bit operation that could leave the width, each access that could leave its buffer and
  each `lround` whose result a 32-bit `long` could not hold has an outcome of its own
  (`Fault`). The loops over indices go down the list of the buffers.

  `cursor_fade_selects`: the function never has such an outcome; it accepts exactly the lists
  of whole frames in one PCM format and in stream order, with gaps and empty buffers, whose
  tail fits a vector (`Taken`); of these it takes the first frames at or after the cursor
  (`available`), as many as the fade is long, and nothing exactly if there are none; the last
  frame it returns is silent.
-/

import QwenTtsBridge.Audio.TerminalFade
import QwenTtsBridge.Lib.Binary64Bounds
import QwenTtsBridge.Lib.Outcome
import Mathlib.Algebra.Order.Floor.Div

namespace QwenTtsBridge.Audio.PlayoutCursor

open QwenTtsBridge.Protocol.Control QwenTtsBridge.Lib
open QwenTtsBridge.Audio.TerminalFade (loadSample storeSample)

/-! ## Model -/

/-- What the language leaves undefined or wraps. -/
inductive Fault where
  | wrapped
  | outOfBounds
  | unspecified
  deriving DecidableEq, Repr

inductive Failure where
  | fault (f : Fault)
  | invalidArgument (what : String)
  /-- A vector past its `max_size`. -/
  | lengthError
  deriving DecidableEq, Repr

/-- The size of a vector is a `size_t`. -/
structure PlayoutBuffer where
  chunk : PcmChunk
  startFrame : UInt64 := 0
  sized : chunk.bytes.length < 2 ^ 64 := by decide
  deriving DecidableEq, Repr

/-! ### Checked operations -/

def u64 (n : Nat) : Except Failure Nat := if n < 2 ^ 64 then .ok n else .error (.fault .wrapped)

def minus (a b : Nat) : Except Failure Nat := if b ≤ a then .ok (a - b) else .error (.fault .wrapped)

def slice (bytes : List UInt8) (first count : Nat) : Except Failure (List UInt8) :=
  if first + count ≤ bytes.length then .ok ((bytes.drop first).take count) else .error (.fault .outOfBounds)

/-- `insert` at the end of a vector. -/
def insert (bytes piece : List UInt8) : Except Failure (List UInt8) :=
  if bytes.length + piece.length < 2 ^ 63 then .ok (bytes ++ piece) else .error .lengthError

/-- `std::lround`. -/
def lround : Binary64 → Except Failure Int
  | .finite x => if x.lround.natAbs < 2 ^ 31 then .ok x.lround else .error (.fault .unspecified)
  | _ => .error (.fault .unspecified)

/-! ### The buffers -/

def formatsMatch (left right : AudioFormat) : Bool :=
  left.sampleFormat = right.sampleFormat ∧ left.sampleRate = right.sampleRate ∧ left.channels = right.channels

def frameBytes (format : AudioFormat) : Except Failure Nat :=
  if format.sampleFormat ≠ CppString.lit "s16le" ∨ format.sampleRate = 0 ∨ format.channels = 0 then
    .error (.invalidArgument "playout cursor fade requires valid s16le PCM")
  else if format.channels.toNat * 2 > 2 ^ 64 - 1 then
    .error (.invalidArgument "playout cursor frame size is too large")
  else .ok (format.channels.toNat * 2)

/-- The frames of a buffer. -/
def PlayoutBuffer.count (buffer : PlayoutBuffer) (bytesPerFrame : Nat) : Nat := buffer.chunk.bytes.length / bytesPerFrame

def checkFormats (format : AudioFormat) (bytesPerFrame : Nat) : List PlayoutBuffer → Except Failure Unit
  | [] => .ok ()
  | buffer :: buffers =>
    if ¬ formatsMatch format buffer.chunk.format ∨ buffer.chunk.bytes.length % bytesPerFrame ≠ 0 then
      .error (.invalidArgument "playout cursor buffers must share a complete PCM format")
    else checkFormats format bytesPerFrame buffers

def checkOrder (bytesPerFrame : Nat) : Option Nat → List PlayoutBuffer → Except Failure Unit
  | _, [] => .ok ()
  | previousEnd, buffer :: buffers => do
    let room ← minus (2 ^ 64 - 1) buffer.startFrame.toNat
    if buffer.count bytesPerFrame > room then
      .error (.invalidArgument "playout cursor buffer frame range overflows")
    else
      let last ← u64 (buffer.startFrame.toNat + buffer.count bytesPerFrame)
      if previousEnd.any (buffer.startFrame.toNat < ·) then
        .error (.invalidArgument "playout cursor buffers must be ordered and non-overlapping")
      else checkOrder bytesPerFrame (some last) buffers

/-- The buffers from `first_index` on, with `first_offset`. -/
def findFirst (bytesPerFrame cursorFrame : Nat) : List PlayoutBuffer → Except Failure (Option (Nat × List PlayoutBuffer))
  | [] => .ok none
  | buffer :: buffers => do
    let last ← u64 (buffer.startFrame.toNat + buffer.count bytesPerFrame)
    if cursorFrame ≥ last then findFirst bytesPerFrame cursorFrame buffers
    else if cursorFrame > buffer.startFrame.toNat then
      let offset ← minus cursorFrame buffer.startFrame.toNat
      .ok (some (offset, buffer :: buffers))
    else .ok (some (0, buffer :: buffers))

/-- The copying loop; `offset` is that of the first buffer. -/
def copyFrames (bytesPerFrame : Nat) : (remaining offset : Nat) → List UInt8 → List PlayoutBuffer →
    Except Failure (List UInt8)
  | _, _, bytes, [] => .ok bytes
  | remaining, offset, bytes, buffer :: buffers =>
    if remaining = 0 then .ok bytes
    else if offset ≥ buffer.count bytesPerFrame then copyFrames bytesPerFrame remaining 0 bytes buffers
    else do
      let left ← minus (buffer.count bytesPerFrame) offset
      let copied := min remaining left
      let first ← u64 (offset * bytesPerFrame)
      let copyBytes ← u64 (copied * bytesPerFrame)
      let piece ← slice buffer.chunk.bytes first copyBytes
      let bytes ← insert bytes piece
      let remaining ← minus remaining copied
      copyFrames bytesPerFrame remaining 0 bytes buffers

/-! ### The fade -/

def gain (frame frames : Nat) : Except Failure Binary64 :=
  if frames = 1 then .ok (.ofInt 0)
  else do
    let last ← minus frames 1
    let left ← minus last frame
    .ok ((Binary64.ofInt left).div (.ofInt last))

/-- `std::clamp`. -/
def clamp (n : Int) : Int := if n < -32768 then -32768 else if 32767 < n then 32767 else n

def shapeSample (gain : Binary64) (sample : Int16) : Except Failure Int16 := do
  let shaped ← lround ((Binary64.ofInt sample.toInt).mul gain)
  .ok (Int16.ofInt (clamp shaped))

def shapeChannel (gain : Binary64) (bytesPerFrame frame : Nat) (bytes : List UInt8) (channel : Nat) :
    Except Failure (List UInt8) := do
  let offset ← u64 (frame * bytesPerFrame + channel * 2)
  if offset + 2 ≤ bytes.length then
    let sample ← shapeSample gain (loadSample bytes offset)
    .ok (storeSample bytes offset sample)
  else .error (.fault .outOfBounds)

def shapeFrame (frames channels bytesPerFrame : Nat) (bytes : List UInt8) (frame : Nat) :
    Except Failure (List UInt8) := do
  let gain ← gain frame frames
  (List.range channels).foldlM (shapeChannel gain bytesPerFrame frame) bytes

def fade (channels bytesPerFrame : Nat) (bytes : List UInt8) : Except Failure (List UInt8) :=
  let frames := bytes.length / bytesPerFrame
  (List.range frames).foldlM (shapeFrame frames channels bytesPerFrame) bytes

/-! ### The function -/

/-- Up to the fade: the chunk that `first_index` stands for and the bytes. -/
def selectFrames (buffers : List PlayoutBuffer) (format : AudioFormat) (cursorFrame : UInt64) (fadeMs : UInt32) :
    Except Failure (Option (UInt64 × List UInt8)) := do
  let bytesPerFrame ← frameBytes format
  let scaled ← u64 (format.sampleRate.toNat * fadeMs.toNat + 999)
  let fadeFrames := scaled / 1000
  if fadeFrames = 0 then .ok none
  else
    checkFormats format bytesPerFrame buffers
    checkOrder bytesPerFrame none buffers
    match ← findFirst bytesPerFrame cursorFrame.toNat buffers with
    | none | some (_, []) => .ok none
    | some (offset, buffer :: buffers) =>
      let bytes ← copyFrames bytesPerFrame fadeFrames offset [] (buffer :: buffers)
      if bytes.isEmpty then .ok none else .ok (some (buffer.chunk.requestId, bytes))

def makePlayoutCursorFade (buffers : List PlayoutBuffer) (cursorFrame : UInt64) (fadeMs : UInt32) :
    Except Failure (Option PcmChunk) :=
  match buffers with
  | [] => .ok none
  | first :: _ =>
    if fadeMs = 0 then .ok none
    else do
      let format := first.chunk.format
      match ← selectFrames buffers format cursorFrame fadeMs with
      | none => .ok none
      | some (requestId, bytes) =>
        let bytes ← fade format.channels.toNat (format.channels.toNat * 2) bytes
        .ok (some { requestId, format, bytes })

/-! ## The frames of the stream -/

/-- `count` frames from position `start` on. -/
def framesFrom (bytesPerFrame : Nat) : (start count : Nat) → List UInt8 → List (Nat × List UInt8)
  | _, 0, _ => []
  | start, count + 1, bytes =>
    (start, bytes.take bytesPerFrame) :: framesFrom bytesPerFrame (start + 1) count (bytes.drop bytesPerFrame)

def PlayoutBuffer.frames (bytesPerFrame : Nat) (buffer : PlayoutBuffer) : List (Nat × List UInt8) :=
  framesFrom bytesPerFrame buffer.startFrame.toNat (buffer.count bytesPerFrame) buffer.chunk.bytes

/-- The frames at or after the cursor, in order. -/
def available (bytesPerFrame cursorFrame : Nat) (buffers : List PlayoutBuffer) : List (Nat × List UInt8) :=
  (buffers.flatMap (·.frames bytesPerFrame)).filter (cursorFrame ≤ ·.1)

def bytesOf (frames : List (Nat × List UInt8)) : List UInt8 := frames.flatMap Prod.snd

section Frames

variable {bytesPerFrame start count : Nat} {bytes : List UInt8}

theorem framesFrom_length : (framesFrom bytesPerFrame start count bytes).length = count := by
  induction count generalizing start bytes with
  | zero => rfl
  | succ count ih => rw [framesFrom, List.length_cons, ih]

theorem position_of_mem {frame : Nat × List UInt8} (h : frame ∈ framesFrom bytesPerFrame start count bytes) :
    start ≤ frame.1 ∧ frame.1 < start + count := by
  induction count generalizing start bytes with
  | zero => cases h
  | succ count ih =>
    rcases List.mem_cons.mp h with rfl | h
    · constructor
      · exact Nat.le_refl _
      · show start < start + (count + 1)
        omega
    · have hrest := ih h
      omega

theorem whole_of_mem {frame : Nat × List UInt8} (hfits : count * bytesPerFrame ≤ bytes.length)
    (h : frame ∈ framesFrom bytesPerFrame start count bytes) : frame.2.length = bytesPerFrame := by
  induction count generalizing start bytes with
  | zero => cases h
  | succ count ih =>
    rw [Nat.succ_mul] at hfits
    rcases List.mem_cons.mp h with rfl | h
    · exact List.length_take_of_le (by omega)
    · refine ih ?_ h
      rw [List.length_drop]
      omega

theorem framesFrom_drop (n : Nat) : (framesFrom bytesPerFrame start count bytes).drop n =
    framesFrom bytesPerFrame (start + n) (count - n) (bytes.drop (n * bytesPerFrame)) := by
  induction count generalizing start bytes n with
  | zero => rw [framesFrom, List.drop_nil, Nat.zero_sub, framesFrom]
  | succ count ih =>
    cases n with
    | zero => simp
    | succ n =>
      rw [framesFrom, List.drop_succ_cons, ih, List.drop_drop, Nat.succ_mul, Nat.succ_sub_succ]
      congr 1
      · omega
      · rw [Nat.add_comm]

theorem framesFrom_take {n : Nat} (h : n ≤ count) :
    (framesFrom bytesPerFrame start count bytes).take n = framesFrom bytesPerFrame start n bytes := by
  induction count generalizing start bytes n with
  | zero =>
    rw [Nat.le_zero.mp h]
    rfl
  | succ count ih =>
    cases n with
    | zero => rfl
    | succ n => rw [framesFrom, List.take_succ_cons, ih (Nat.le_of_succ_le_succ h), framesFrom]

theorem bytesOf_framesFrom :
    bytesOf (framesFrom bytesPerFrame start count bytes) = bytes.take (count * bytesPerFrame) := by
  induction count generalizing start bytes with
  | zero =>
    rw [Nat.zero_mul]
    rfl
  | succ count ih =>
    rw [framesFrom, bytesOf, List.flatMap_cons, ← bytesOf, ih, Nat.succ_mul, Nat.add_comm, List.take_add]

/-- The frames at or after a position are those without the ones before it. -/
theorem framesFrom_filter (position : Nat) :
    (framesFrom bytesPerFrame start count bytes).filter (position ≤ ·.1) =
      (framesFrom bytesPerFrame start count bytes).drop (position - start) := by
  induction count generalizing start bytes with
  | zero => rw [framesFrom, List.filter_nil, List.drop_nil]
  | succ count ih =>
    by_cases hbefore : position ≤ start
    · have hzero : position - start = 0 := by omega
      rw [hzero, List.drop_zero, List.filter_eq_self]
      intro frame hframe
      have hposition := position_of_mem hframe
      exact decide_eq_true (by omega)
    · have hone : position - start = position - (start + 1) + 1 := by omega
      rw [framesFrom, List.filter_cons_of_neg (by simpa using hbefore), ih, hone, List.drop_succ_cons]

end Frames

/-! ## The checks -/

/-- An outcome of the function's own. -/
def Rejected (failure : Failure) : Prop := ∀ f, failure ≠ .fault f

theorem rejected_invalid (what : String) : Rejected (.invalidArgument what) := nofun

theorem u64_eq {n : Nat} (h : n < 2 ^ 64) : u64 n = .ok n := if_pos h

theorem minus_eq {a b : Nat} (h : b ≤ a) : minus a b = .ok (a - b) := if_pos h

theorem slice_eq {bytes : List UInt8} {first count : Nat} (h : first + count ≤ bytes.length) :
    slice bytes first count = .ok ((bytes.drop first).take count) := if_pos h

/-- A buffer in the format of the first one. -/
structure Complete (format : AudioFormat) (buffer : PlayoutBuffer) : Prop where
  matching : formatsMatch format buffer.chunk.format = true
  whole : buffer.chunk.bytes.length % (format.channels.toNat * 2) = 0

/-- In order from `previousEnd` on, without overlaps, and within 64 bits. -/
def Ordered (bytesPerFrame : Nat) : Nat → List PlayoutBuffer → Prop
  | _, [] => True
  | previousEnd, buffer :: buffers =>
    previousEnd ≤ buffer.startFrame.toNat ∧ buffer.startFrame.toNat + buffer.count bytesPerFrame < 2 ^ 64 ∧
      Ordered bytesPerFrame (buffer.startFrame.toNat + buffer.count bytesPerFrame) buffers

/-- Whole frames in one PCM format, in stream order; gaps and empty buffers are allowed. -/
structure Stream (format : AudioFormat) (buffers : List PlayoutBuffer) : Prop where
  sample : format.sampleFormat = CppString.lit "s16le"
  rate : format.sampleRate ≠ 0
  channels : format.channels ≠ 0
  complete : ∀ buffer ∈ buffers, Complete format buffer
  ordered : Ordered (format.channels.toNat * 2) 0 buffers

section Checks

variable {bytesPerFrame : Nat} {buffers : List PlayoutBuffer} {format : AudioFormat}

theorem Stream.channels_pos (h : Stream format buffers) : 0 < format.channels.toNat :=
  Nat.pos_of_ne_zero fun hzero => h.channels (UInt32.toNat_inj.mp hzero)

theorem frameBytes_ends : Ends
    (fun n => n = format.channels.toNat * 2 ∧ format.sampleFormat = CppString.lit "s16le" ∧ format.sampleRate ≠ 0 ∧
      format.channels ≠ 0) Rejected (frameBytes format) := by
  unfold frameBytes
  refine .ite (fun _ => rejected_invalid _) fun hvalid => .ite (fun _ => rejected_invalid _) fun _ => ?_
  obtain ⟨hsample, hrate, hchannels⟩ := by simpa only [not_or] using hvalid
  exact ⟨rfl, not_not.mp hsample, hrate, hchannels⟩

theorem frameBytes_ok (h : Stream format buffers) : frameBytes format = .ok (format.channels.toNat * 2) := by
  have hsmall := format.channels.toNat_lt
  unfold frameBytes
  rw [if_neg (by simp [h.sample, h.rate, h.channels]), if_neg (by omega)]

theorem checkFormats_ends : Ends (fun _ => ∀ buffer ∈ buffers, Complete format buffer) Rejected
    (checkFormats format (format.channels.toNat * 2) buffers) := by
  induction buffers with
  | nil => exact nofun
  | cons buffer buffers ih =>
    unfold checkFormats
    refine .ite (fun _ => rejected_invalid _) fun hcomplete => ih.mono (fun _ hrest => ?_) fun _ => id
    obtain ⟨hformat, hwhole⟩ := not_or.mp hcomplete
    intro b hb
    rcases List.mem_cons.mp hb with rfl | hb
    · exact ⟨not_not.mp hformat, not_not.mp hwhole⟩
    · exact hrest b hb

theorem checkOrder_ends (previousEnd : Option Nat) : Ends
    (fun _ => Ordered bytesPerFrame (previousEnd.getD 0) buffers) Rejected
    (checkOrder bytesPerFrame previousEnd buffers) := by
  induction buffers generalizing previousEnd with
  | nil => trivial
  | cons buffer buffers ih =>
    have hstart := buffer.startFrame.toNat_lt
    unfold checkOrder
    rw [minus_eq (by omega), ok_bind]
    refine .ite (fun _ => rejected_invalid _) fun hroom => ?_
    have hlast : buffer.startFrame.toNat + buffer.count bytesPerFrame < 2 ^ 64 := by omega
    rw [u64_eq hlast, ok_bind]
    refine .ite (fun _ => rejected_invalid _) fun horder => (ih _).mono (fun _ hrest => ⟨?_, hlast, hrest⟩) fun _ => id
    cases previousEnd with
    | none => exact Nat.zero_le _
    | some last => simpa using horder

theorem checkFormats_ok (h : ∀ buffer ∈ buffers, Complete format buffer) :
    checkFormats format (format.channels.toNat * 2) buffers = .ok () := by
  induction buffers with
  | nil => rfl
  | cons buffer buffers ih =>
    obtain ⟨hmatch, hwhole⟩ := h buffer List.mem_cons_self
    unfold checkFormats
    rw [if_neg (by simp [hmatch, hwhole])]
    exact ih fun other hother => h other (List.mem_cons_of_mem _ hother)

theorem checkOrder_ok (previousEnd : Option Nat) (h : Ordered bytesPerFrame (previousEnd.getD 0) buffers) :
    checkOrder bytesPerFrame previousEnd buffers = .ok () := by
  induction buffers generalizing previousEnd with
  | nil => rfl
  | cons buffer buffers ih =>
    obtain ⟨hstart, hlast, hrest⟩ := h
    have hstart' : ¬ previousEnd.any (buffer.startFrame.toNat < ·) = true := by
      cases previousEnd with
      | none => simp
      | some last => simpa using hstart
    unfold checkOrder
    rw [minus_eq (by omega), ok_bind, if_neg (by omega), u64_eq hlast, ok_bind, if_neg hstart']
    exact ih (some (buffer.startFrame.toNat + buffer.count bytesPerFrame)) hrest

end Checks

/-! ## What is copied -/

/-- The frames of the buffers without the first `offset` of the first buffer. -/
def remainingFrames (bytesPerFrame offset : Nat) : List PlayoutBuffer → List (Nat × List UInt8)
  | [] => []
  | buffer :: buffers => (buffer.frames bytesPerFrame).drop offset ++ buffers.flatMap (·.frames bytesPerFrame)

section Copy

variable {bytesPerFrame cursorFrame offset : Nat} {buffer : PlayoutBuffer} {buffers : List PlayoutBuffer}

theorem remainingFrames_zero : remainingFrames bytesPerFrame 0 buffers = buffers.flatMap (·.frames bytesPerFrame) := by
  cases buffers <;> rfl

theorem count_mul_le (bytesPerFrame : Nat) (buffer : PlayoutBuffer) :
    buffer.count bytesPerFrame * bytesPerFrame ≤ buffer.chunk.bytes.length := Nat.div_mul_le_self _ _

theorem available_cons : available bytesPerFrame cursorFrame (buffer :: buffers) =
    (buffer.frames bytesPerFrame).drop (cursorFrame - buffer.startFrame.toNat) ++
      available bytesPerFrame cursorFrame buffers := by
  unfold available
  rw [List.flatMap_cons, List.filter_append]
  exact congrArg (· ++ _) (framesFrom_filter cursorFrame)

/-- Later buffers lie behind a cursor that no earlier one has passed. -/
theorem available_of_ordered {previousEnd : Nat} (h : Ordered bytesPerFrame previousEnd buffers)
    (hcursor : cursorFrame ≤ previousEnd) :
    available bytesPerFrame cursorFrame buffers = buffers.flatMap (·.frames bytesPerFrame) := by
  induction buffers generalizing previousEnd with
  | nil => rfl
  | cons buffer buffers ih =>
    obtain ⟨hstart, -, hrest⟩ := h
    have hzero : cursorFrame - buffer.startFrame.toNat = 0 := by omega
    rw [available_cons, hzero, List.drop_zero, ih hrest (by omega), List.flatMap_cons]

/-- The cursor has not passed the end of the buffer. -/
def PlayoutBuffer.isAhead (bytesPerFrame cursorFrame : Nat) (buffer : PlayoutBuffer) : Bool :=
  cursorFrame < buffer.startFrame.toNat + buffer.count bytesPerFrame

/-- The buffer that the next frame comes from. -/
def upcoming (bytesPerFrame cursorFrame : Nat) (buffers : List PlayoutBuffer) : Option PlayoutBuffer :=
  buffers.find? (·.isAhead bytesPerFrame cursorFrame)

def ahead (bytesPerFrame cursorFrame : Nat) (buffers : List PlayoutBuffer) : List PlayoutBuffer :=
  buffers.dropWhile fun buffer => !buffer.isAhead bytesPerFrame cursorFrame

/-- The buffers found, and where in the first of them the cursor is. -/
def Found (bytesPerFrame cursorFrame : Nat) (buffers : List PlayoutBuffer) : Option (Nat × List PlayoutBuffer) → Prop
  | none => available bytesPerFrame cursorFrame buffers = []
  | some (offset, rest) => available bytesPerFrame cursorFrame buffers = remainingFrames bytesPerFrame offset rest ∧ rest ≠ []

theorem findFirst_ends {previousEnd : Nat} (h : Ordered bytesPerFrame previousEnd buffers) :
    Ends (Found bytesPerFrame cursorFrame buffers) Rejected (findFirst bytesPerFrame cursorFrame buffers) := by
  induction buffers generalizing previousEnd with
  | nil => rfl
  | cons buffer buffers ih =>
    obtain ⟨-, hlast, hrest⟩ := h
    have hfound (hbefore : cursorFrame < buffer.startFrame.toNat + buffer.count bytesPerFrame) :
        Found bytesPerFrame cursorFrame (buffer :: buffers)
          (some (cursorFrame - buffer.startFrame.toNat, buffer :: buffers)) := by
      refine ⟨?_, List.cons_ne_nil _ _⟩
      rw [available_cons, available_of_ordered hrest (Nat.le_of_lt hbefore)]
      rfl
    unfold findFirst
    rw [u64_eq hlast, ok_bind]
    refine .ite (fun hpassed => ?_) fun hbefore => .ite (fun hinside => ?_) fun hgap => ?_
    · -- No frame of the buffer is left.
      have hnone : (buffer.frames bytesPerFrame).drop (cursorFrame - buffer.startFrame.toNat) = [] := by
        apply List.drop_eq_nil_of_le
        rw [PlayoutBuffer.frames, framesFrom_length]
        omega
      have hskip : available bytesPerFrame cursorFrame (buffer :: buffers) = available bytesPerFrame cursorFrame buffers := by
        rw [available_cons, hnone, List.nil_append]
      refine (ih hrest).mono (fun found hfound => ?_) fun _ => id
      cases found with
      | none => exact hskip.trans hfound
      | some found => exact ⟨hskip.trans hfound.1, hfound.2⟩
    · rw [minus_eq (by omega), ok_bind]
      exact hfound (Nat.not_le.mp hbefore)
    · have hzero : cursorFrame - buffer.startFrame.toNat = 0 := by omega
      have hhere := hfound (Nat.not_le.mp hbefore)
      rw [hzero] at hhere
      exact hhere

theorem frames_drop_take {n : Nat} (h : n ≤ buffer.count bytesPerFrame - offset) :
    bytesOf (((buffer.frames bytesPerFrame).drop offset).take n) =
      (buffer.chunk.bytes.drop (offset * bytesPerFrame)).take (n * bytesPerFrame) := by
  rw [PlayoutBuffer.frames, framesFrom_drop, framesFrom_take h, bytesOf_framesFrom]

theorem bytesOf_append (left right : List (Nat × List UInt8)) : bytesOf (left ++ right) = bytesOf left ++ bytesOf right :=
  List.flatMap_append

/-- What fits comes out of the first buffer, the rest out of the others. -/
theorem remainingFrames_take {remaining : Nat} :
    (remainingFrames bytesPerFrame offset (buffer :: buffers)).take remaining =
      ((buffer.frames bytesPerFrame).drop offset).take (min remaining (buffer.count bytesPerFrame - offset)) ++
        (remainingFrames bytesPerFrame 0 buffers).take (remaining - min remaining (buffer.count bytesPerFrame - offset)) := by
  have hlength : ((buffer.frames bytesPerFrame).drop offset).length = buffer.count bytesPerFrame - offset := by
    rw [List.length_drop, PlayoutBuffer.frames, framesFrom_length]
  rw [remainingFrames_zero, remainingFrames, List.take_append, hlength]
  congr 1
  · rw [← hlength, ← List.take_take, List.take_length]
  · congr 1
    omega

theorem copyFrames_ends {remaining : Nat} {bytes : List UInt8} (hbytes : bytes.length < 2 ^ 63) :
    Ends (fun out => out = bytes ++ bytesOf ((remainingFrames bytesPerFrame offset buffers).take remaining) ∧
      out.length < 2 ^ 63) Rejected (copyFrames bytesPerFrame remaining offset bytes buffers) := by
  induction buffers generalizing remaining offset bytes with
  | nil =>
    refine ⟨?_, hbytes⟩
    rw [remainingFrames, List.take_nil]
    exact (List.append_nil bytes).symm
  | cons buffer buffers ih =>
    have hcount := count_mul_le bytesPerFrame buffer
    have hsized := buffer.sized
    unfold copyFrames
    refine .ite (fun hdone => ?_) fun hmore => .ite (fun hpassed => ?_) fun hleft => ?_
    · rw [hdone, List.take_zero]
      exact ⟨(List.append_nil bytes).symm, hbytes⟩
    · have hnone : buffer.count bytesPerFrame - offset = 0 := by omega
      rw [remainingFrames_take, hnone, Nat.min_zero, List.take_zero, List.nil_append, Nat.sub_zero]
      exact ih hbytes
    · have hroom : (offset + min remaining (buffer.count bytesPerFrame - offset)) * bytesPerFrame ≤
          buffer.chunk.bytes.length := (Nat.mul_le_mul_right _ (by omega)).trans hcount
      rw [Nat.add_mul] at hroom
      rw [minus_eq (by omega), ok_bind]
      dsimp only
      rw [u64_eq (by omega), ok_bind, u64_eq (by omega), ok_bind, slice_eq hroom, ok_bind]
      unfold insert
      by_cases hsize : bytes.length + ((buffer.chunk.bytes.drop (offset * bytesPerFrame)).take
          (min remaining (buffer.count bytesPerFrame - offset) * bytesPerFrame)).length < 2 ^ 63
      · rw [if_pos hsize, ok_bind, minus_eq (Nat.min_le_left _ _), ok_bind, remainingFrames_take, bytesOf_append,
          frames_drop_take (Nat.min_le_right _ _), ← List.append_assoc]
        exact ih (by rwa [List.length_append])
      · rw [if_neg hsize]
        exact nofun

theorem findFirst_ok {previousEnd : Nat} (h : Ordered bytesPerFrame previousEnd buffers) :
    findFirst bytesPerFrame cursorFrame buffers =
      .ok ((upcoming bytesPerFrame cursorFrame buffers).map fun buffer =>
        (cursorFrame - buffer.startFrame.toNat, ahead bytesPerFrame cursorFrame buffers)) := by
  induction buffers generalizing previousEnd with
  | nil => rfl
  | cons buffer buffers ih =>
    obtain ⟨-, hlast, hrest⟩ := h
    unfold findFirst upcoming ahead
    rw [u64_eq hlast, ok_bind]
    by_cases hahead : cursorFrame < buffer.startFrame.toNat + buffer.count bytesPerFrame
    · have hhere : buffer.isAhead bytesPerFrame cursorFrame = true := decide_eq_true hahead
      rw [if_neg (by omega), List.find?_cons_of_pos hhere, List.dropWhile_cons_of_neg (by simp [hhere]), Option.map_some]
      by_cases hinside : cursorFrame > buffer.startFrame.toNat
      · rw [if_pos hinside, minus_eq (by omega), ok_bind]
      · have hzero : cursorFrame - buffer.startFrame.toNat = 0 := by omega
        rw [if_neg hinside, hzero]
    · have hpassed : buffer.isAhead bytesPerFrame cursorFrame = false := decide_eq_false hahead
      rw [if_pos (by omega), List.find?_cons_of_neg (by simp [hpassed]), List.dropWhile_cons_of_pos (by simp [hpassed])]
      exact ih hrest

/-- What is ahead begins with the upcoming buffer. -/
theorem ahead_eq {n cursor : Nat} {buffer : PlayoutBuffer} (h : upcoming n cursor buffers = some buffer) :
    ∃ rest, ahead n cursor buffers = buffer :: rest := by
  induction buffers with
  | nil => cases h
  | cons first buffers ih =>
    unfold upcoming at h
    unfold ahead
    by_cases hahead : first.isAhead n cursor = true
    · rw [List.find?_cons_of_pos hahead] at h
      cases h
      exact ⟨buffers, List.dropWhile_cons_of_neg (by simp [hahead])⟩
    · rw [List.find?_cons_of_neg hahead] at h
      rw [List.dropWhile_cons_of_pos (by simpa using hahead)]
      exact ih h

/-- The frames from the cursor on, read off the buffers that are ahead. -/
theorem available_ahead (h : Ordered bytesPerFrame 0 buffers) (cursor : Nat) :
    available bytesPerFrame cursor buffers =
      ((upcoming bytesPerFrame cursor buffers).map fun buffer =>
        remainingFrames bytesPerFrame (cursor - buffer.startFrame.toNat) (ahead bytesPerFrame cursor buffers)).getD [] := by
  have hfirst : findFirst bytesPerFrame cursor buffers = .ok _ := findFirst_ok h
  have hfound := (findFirst_ends h).value hfirst
  cases hupcoming : upcoming bytesPerFrame cursor buffers with
  | none =>
    rw [hupcoming] at hfound
    exact hfound
  | some buffer =>
    rw [hupcoming] at hfound
    exact hfound.1

theorem copyFrames_ok {remaining offset : Nat} {bytes : List UInt8}
    (h : bytes.length + (bytesOf ((remainingFrames bytesPerFrame offset buffers).take remaining)).length < 2 ^ 63) :
    copyFrames bytesPerFrame remaining offset bytes buffers =
      .ok (bytes ++ bytesOf ((remainingFrames bytesPerFrame offset buffers).take remaining)) := by
  induction buffers generalizing remaining offset bytes with
  | nil =>
    rw [copyFrames, remainingFrames, List.take_nil]
    exact congrArg Except.ok (List.append_nil bytes).symm
  | cons buffer buffers ih =>
    have hcount := count_mul_le bytesPerFrame buffer
    have hsized := buffer.sized
    unfold copyFrames
    by_cases hdone : remaining = 0
    · rw [if_pos hdone, hdone, List.take_zero]
      exact congrArg Except.ok (List.append_nil bytes).symm
    rw [if_neg hdone]
    rw [remainingFrames_take, bytesOf_append] at h ⊢
    by_cases hpassed : offset ≥ buffer.count bytesPerFrame
    · have hnone : buffer.count bytesPerFrame - offset = 0 := by omega
      rw [hnone, Nat.min_zero, List.take_zero, Nat.sub_zero] at h ⊢
      rw [if_pos hpassed]
      exact ih h
    · have hroom : (offset + min remaining (buffer.count bytesPerFrame - offset)) * bytesPerFrame ≤
          buffer.chunk.bytes.length := (Nat.mul_le_mul_right _ (by omega)).trans hcount
      rw [Nat.add_mul] at hroom
      rw [frames_drop_take (Nat.min_le_right _ _)] at h ⊢
      rw [List.length_append, ← Nat.add_assoc] at h
      rw [if_neg hpassed, minus_eq (by omega), ok_bind]
      dsimp only
      rw [u64_eq (by omega), ok_bind, u64_eq (by omega), ok_bind, slice_eq hroom, ok_bind, insert, if_pos (by omega),
        ok_bind, minus_eq (Nat.min_le_left _ _), ok_bind, ← List.append_assoc]
      exact ih (by rwa [List.length_append])

end Copy

section Whole

variable {bytesPerFrame cursorFrame : Nat} {buffers : List PlayoutBuffer} {frame : Nat × List UInt8}

theorem whole_of_available (h : frame ∈ available bytesPerFrame cursorFrame buffers) :
    frame.2.length = bytesPerFrame := by
  obtain ⟨buffer, -, hframe⟩ := List.mem_flatMap.mp (List.mem_filter.mp h).1
  exact whole_of_mem (count_mul_le bytesPerFrame buffer) hframe

theorem bytesOf_length {frames : List (Nat × List UInt8)} (h : ∀ frame ∈ frames, frame.2.length = bytesPerFrame) :
    (bytesOf frames).length = frames.length * bytesPerFrame := by
  induction frames with
  | nil => exact (Nat.zero_mul _).symm
  | cons frame frames ih =>
    rw [bytesOf, List.flatMap_cons, ← bytesOf, List.length_append, h frame List.mem_cons_self,
      ih fun other hother => h other (List.mem_cons_of_mem _ hother), List.length_cons, Nat.succ_mul, Nat.add_comm]

end Whole

/-- `⌈rate * fade_ms / 1000⌉`. -/
def fadeFrames (format : AudioFormat) (fadeMs : UInt32) : Nat := format.sampleRate.toNat * fadeMs.toNat ⌈/⌉ 1000

/-- The frames to be faded. -/
def selected (buffers : List PlayoutBuffer) (format : AudioFormat) (cursorFrame : UInt64) (fadeMs : UInt32) :
    List (Nat × List UInt8) :=
  (available (format.channels.toNat * 2) cursorFrame.toNat buffers).take (fadeFrames format fadeMs)

/-- What `selectFrames` gives: the frames, if there are any. -/
def Selected (buffers : List PlayoutBuffer) (format : AudioFormat) (cursorFrame : UInt64) (fadeMs : UInt32) :
    Option (UInt64 × List UInt8) → Prop
  | none => available (format.channels.toNat * 2) cursorFrame.toNat buffers = []
  | some (_, bytes) => bytes = bytesOf (selected buffers format cursorFrame fadeMs) ∧ bytes.length < 2 ^ 63 ∧
    available (format.channels.toNat * 2) cursorFrame.toNat buffers ≠ [] ∧
    selected buffers format cursorFrame fadeMs ≠ [] ∧ 0 < format.channels.toNat

theorem scaled_lt (rate ms : UInt32) : rate.toNat * ms.toNat + 999 < 2 ^ 64 := by
  have hrate := rate.toNat_lt
  have hms := ms.toNat_lt
  have hproduct : rate.toNat * ms.toNat ≤ (2 ^ 32 - 1) * (2 ^ 32 - 1) := Nat.mul_le_mul (by omega) (by omega)
  omega

theorem fadeFrames_eq (format : AudioFormat) (fadeMs : UInt32) :
    fadeFrames format fadeMs = (format.sampleRate.toNat * fadeMs.toNat + 999) / 1000 := by
  rw [fadeFrames, Nat.ceilDiv_eq_add_pred_div]
  rfl

theorem fadeFrames_pos {format : AudioFormat} {fadeMs : UInt32} (hrate : format.sampleRate ≠ 0) (hms : fadeMs ≠ 0) :
    fadeFrames format fadeMs ≠ 0 := by
  have hproduct : format.sampleRate.toNat * fadeMs.toNat ≠ 0 :=
    Nat.mul_ne_zero (fun h => hrate (UInt32.toNat_inj.mp h)) fun h => hms (UInt32.toNat_inj.mp h)
  rw [fadeFrames_eq]
  omega

theorem selected_length (buffers : List PlayoutBuffer) (format : AudioFormat) (cursorFrame : UInt64) (fadeMs : UInt32) :
    (bytesOf (selected buffers format cursorFrame fadeMs)).length =
      (selected buffers format cursorFrame fadeMs).length * (format.channels.toNat * 2) :=
  bytesOf_length fun _ hframe => whole_of_available (List.mem_of_mem_take hframe)

/-- The fade has frames where the stream has some at or after the cursor. -/
theorem selected_eq_nil_iff {buffers : List PlayoutBuffer} {format : AudioFormat} {cursorFrame : UInt64} {fadeMs : UInt32}
    (hrate : format.sampleRate ≠ 0) (hms : fadeMs ≠ 0) : selected buffers format cursorFrame fadeMs = [] ↔
      available (format.channels.toNat * 2) cursorFrame.toNat buffers = [] := by
  rw [selected, List.take_eq_nil_iff]
  exact or_iff_right (fadeFrames_pos hrate hms)

theorem isEmpty_bytesOf_selected {buffers : List PlayoutBuffer} {format : AudioFormat} {cursorFrame : UInt64}
    {fadeMs : UInt32} (hchannels : 0 < format.channels.toNat) :
    (bytesOf (selected buffers format cursorFrame fadeMs)).isEmpty = true ↔
      selected buffers format cursorFrame fadeMs = [] := by
  rw [List.isEmpty_iff, ← List.length_eq_zero_iff, selected_length, Nat.mul_eq_zero, List.length_eq_zero_iff]
  exact or_iff_left (by omega)

theorem selectFrames_ends (buffers : List PlayoutBuffer) (format : AudioFormat) (cursorFrame : UInt64) {fadeMs : UInt32}
    (hms : fadeMs ≠ 0) :
    Ends (fun found => Stream format buffers ∧ Selected buffers format cursorFrame fadeMs found) Rejected
      (selectFrames buffers format cursorFrame fadeMs) := by
  unfold selectFrames
  apply Ends.bind frameBytes_ends
  intro bytesPerFrame hframe
  have hsample := hframe.2.1
  have hrate := hframe.2.2.1
  rw [hframe.1, u64_eq (scaled_lt _ _), ok_bind]
  dsimp only
  rw [← fadeFrames_eq, if_neg (fadeFrames_pos hrate hms)]
  refine checkFormats_ends.bind fun _ hcomplete => (checkOrder_ends none).bind fun _ hordered => ?_
  have hstream : Stream format buffers := ⟨hsample, hrate, hframe.2.2.2, hcomplete, hordered⟩
  refine (findFirst_ends hordered).bind fun found hfound => ?_
  match found, hfound with
  | none, hnone => exact ⟨hstream, hnone⟩
  | some (offset, []), hempty => exact (hempty.2 rfl).elim
  | some (offset, buffer :: rest), hfound =>
    refine (copyFrames_ends (by decide)).bind fun bytes hbytes => ?_
    rw [List.nil_append, ← hfound.1, ← selected] at hbytes
    obtain ⟨rfl, hfits⟩ := hbytes
    refine .ite (fun hempty => ⟨hstream, ?_⟩) fun hnonempty => ⟨hstream, rfl, hfits, ?_, ?_⟩
    · rw [isEmpty_bytesOf_selected hstream.channels_pos] at hempty
      exact (selected_eq_nil_iff hrate hms).mp hempty
    · rwa [isEmpty_bytesOf_selected hstream.channels_pos, selected_eq_nil_iff hrate hms] at hnonempty
    · rw [isEmpty_bytesOf_selected hstream.channels_pos] at hnonempty
      exact ⟨hnonempty, hstream.channels_pos⟩

/-- A stream whose tail fits a vector is accepted; the chunk found is that of the upcoming buffer. -/
theorem selectFrames_ok {buffers : List PlayoutBuffer} {format : AudioFormat} {cursorFrame : UInt64} {fadeMs : UInt32}
    (h : Stream format buffers) (hms : fadeMs ≠ 0)
    (hfits : (bytesOf (selected buffers format cursorFrame fadeMs)).length < 2 ^ 63) :
    selectFrames buffers format cursorFrame fadeMs =
      .ok (if selected buffers format cursorFrame fadeMs = [] then none
        else (upcoming (format.channels.toNat * 2) cursorFrame.toNat buffers).map fun buffer =>
          (buffer.chunk.requestId, bytesOf (selected buffers format cursorFrame fadeMs))) := by
  unfold selectFrames
  rw [frameBytes_ok h, ok_bind, u64_eq (scaled_lt _ _), ok_bind]
  dsimp only
  rw [← fadeFrames_eq, if_neg (fadeFrames_pos h.rate hms), checkFormats_ok h.complete, ok_bind, checkOrder_ok none h.ordered,
    ok_bind, findFirst_ok h.ordered, ok_bind]
  cases hupcoming : upcoming (format.channels.toNat * 2) cursorFrame.toNat buffers with
  | none => simp
  | some buffer =>
    obtain ⟨rest, hahead⟩ := ahead_eq hupcoming
    have hselected : selected buffers format cursorFrame fadeMs =
        (remainingFrames (format.channels.toNat * 2) (cursorFrame.toNat - buffer.startFrame.toNat) (buffer :: rest)).take
          (fadeFrames format fadeMs) := by
      rw [selected, available_ahead h.ordered, hupcoming, hahead]
      rfl
    rw [Option.map_some, Option.map_some, hahead]
    dsimp only
    rw [copyFrames_ok (by rwa [← hselected, List.length_nil, Nat.zero_add]), ok_bind, List.nil_append, ← hselected]
    by_cases hnone : selected buffers format cursorFrame fadeMs = []
    · rw [if_pos hnone, if_pos ((isEmpty_bytesOf_selected h.channels_pos).mpr hnone)]
    · rw [if_neg hnone, if_neg (mt (isEmpty_bytesOf_selected h.channels_pos).mp hnone)]

/-! ## The fade -/

/-- A gain is finite and small, and zero for the last frame. -/
theorem gain_ends {frame frames : Nat} (h : frame < frames) (hframes : frames < 2 ^ 64) :
    ∃ x, gain frame frames = .ok (.finite x) ∧ x.AtMost 8 ∧ (frame + 1 = frames → x.AtMost 0) := by
  unfold gain
  by_cases hone : frames = 1
  · obtain ⟨x, hx, hbound⟩ := Binary64.ofInt_atMost (n := 0) (by decide)
    rw [if_pos hone, hx]
    exact ⟨x, rfl, hbound.mono (by decide), fun _ => hbound⟩
  · rw [if_neg hone, minus_eq (by omega), ok_bind, minus_eq (by omega), ok_bind]
    obtain ⟨x, hx, hsmall⟩ := Binary64.ofInt_atMost (n := (frames - 1 - frame : Nat)) (by omega)
    obtain ⟨y, hy, -⟩ := Binary64.ofInt_atMost (n := (frames - 1 : Nat)) (by omega)
    have hlarge : (frames - 1) * y.denominator ≤ 2 * (y.numerator * 1) :=
      Binary64.le_ofRatio Nat.one_pos (by omega) hy
    have hpositive : 0 < y.numerator := by
      have := Nat.mul_pos (show 0 < frames - 1 by omega) y.denominator_pos
      omega
    have hmantissa : y.mantissa ≠ 0 := by
      intro hzero
      rw [Binary64.Finite.numerator, hzero, Nat.zero_mul] at hpositive
      exact Nat.lt_irrefl 0 hpositive
    rw [Int.natAbs_natCast] at hsmall
    -- The quotient of two roundings that are off by a factor of two.
    have hratio (c : Nat) (hc : 2 * (frames - 1 - frame) * 2 ≤ c * (frames - 1)) :
        x.numerator * y.denominator ≤ c * (x.denominator * y.numerator) := by
      refine Nat.le_of_mul_le_mul_right (c := 2) ?_ (by decide)
      refine Nat.le_of_mul_le_mul_right (c := frames - 1) ?_ (by omega)
      calc x.numerator * y.denominator * 2 * (frames - 1)
          ≤ 2 * (frames - 1 - frame) * x.denominator * y.denominator * 2 * (frames - 1) := by
            gcongr
            exact hsmall
        _ = 2 * (frames - 1 - frame) * 2 * x.denominator * ((frames - 1) * y.denominator) := by ac_rfl
        _ ≤ c * (frames - 1) * x.denominator * (2 * (y.numerator * 1)) := by gcongr
        _ = c * (x.denominator * y.numerator) * 2 * (frames - 1) := by
          rw [Nat.mul_one]
          ac_rfl
    obtain ⟨z, hz, hbound⟩ := Binary64.Finite.div_atMost hpositive (hratio 4 (by omega)) (by decide)
    refine ⟨z, ?_, hbound, fun hlast => ?_⟩
    · rw [hx, hy, Binary64.div, if_neg hmantissa, hz]
    · obtain ⟨z', hz', hzero⟩ := Binary64.Finite.div_atMost hpositive (hratio 0 (by omega)) (by decide)
      rw [hz] at hz'
      cases hz'
      exact hzero

theorem shapeSample_ends {x : Binary64.Finite} (hx : x.AtMost 8) (sample : Int16) :
    ∃ value, shapeSample (.finite x) sample = .ok value ∧ (x.AtMost 0 → value = 0) := by
  have hsample : sample.toInt.natAbs ≤ 2 ^ 15 := by
    have hlow := sample.le_toInt
    have hhigh := sample.toInt_lt
    omega
  obtain ⟨y, hy, hsmall⟩ := Binary64.ofInt_atMost (n := sample.toInt) (by omega)
  have hsmall := hsmall.mono (Nat.mul_le_mul_left 2 hsample)
  obtain ⟨z, hz, hbound⟩ := Binary64.Finite.mul_atMost hsmall hx (by decide)
  have hrounded := Binary64.Finite.natAbs_lround hbound
  have hproduct : (Binary64.ofInt sample.toInt).mul (.finite x) = .finite z := by
    rw [hy]
    exact hz
  unfold shapeSample
  rw [hproduct, lround, if_pos (by omega), ok_bind]
  refine ⟨_, rfl, fun hzero => ?_⟩
  obtain ⟨z', hz', hzero⟩ := Binary64.Finite.mul_atMost hsmall hzero (by decide)
  rw [hz] at hz'
  cases hz'
  have hnone := Binary64.Finite.natAbs_lround hzero
  rw [Int.natAbs_eq_zero.mp (by omega : z.lround.natAbs = 0)]
  rfl

/-- What a sample becomes as one of frame `frame` of `frames`. -/
def faded (sample : Int16) (frame frames : Nat) : Int16 :=
  ((gain frame frames).bind (shapeSample · sample)).toOption.getD 0

theorem faded_eq {frame frames : Nat} {x : Binary64.Finite} {sample value : Int16}
    (hgain : gain frame frames = .ok (.finite x)) (hvalue : shapeSample (.finite x) sample = .ok value) :
    faded sample frame frames = value := by
  unfold faded
  rw [hgain, Except.bind, hvalue]
  rfl

/-- The last frame is silent. -/
theorem faded_last {frame frames : Nat} (h : frame + 1 = frames) (hframes : frames < 2 ^ 64) (sample : Int16) :
    faded sample frame frames = 0 := by
  obtain ⟨x, hgain, hbound, hlast⟩ := gain_ends (by omega : frame < frames) hframes
  obtain ⟨value, hvalue, hzero⟩ := shapeSample_ends hbound sample
  rw [faded_eq hgain hvalue]
  exact hzero (hlast h)

/-- A loop whose steps all go through. -/
theorem foldlM_ok {α β ε : Type} {f : β → α → Except ε β} {g : β → α → β} {I : β → Prop} {l : List α}
    (hstep : ∀ b, I b → ∀ a ∈ l, f b a = .ok (g b a) ∧ I (g b a)) {b : β} (hb : I b) :
    l.foldlM f b = .ok (l.foldl g b) ∧ I (l.foldl g b) := by
  induction l generalizing b with
  | nil => exact ⟨rfl, hb⟩
  | cons a l ih =>
    obtain ⟨hfirst, hnext⟩ := hstep b hb a List.mem_cons_self
    rw [List.foldlM_cons, hfirst, ok_bind, List.foldl_cons]
    exact ih (fun b hb a ha => hstep b hb a (List.mem_cons_of_mem _ ha)) hnext

theorem storeSample_length (bytes : List UInt8) (offset : Nat) (sample : Int16) :
    (storeSample bytes offset sample).length = bytes.length := by
  unfold storeSample
  rw [List.length_set, List.length_set]

theorem shapeFrame_eq {frame frames channels size : Nat} {bytes : List UInt8} (hframe : frame < frames)
    (hsize : frames * (channels * 2) ≤ size) (hsmall : size < 2 ^ 64) (hframes : frames < 2 ^ 64)
    (hbytes : bytes.length = size) :
    shapeFrame frames channels (channels * 2) bytes frame =
        .ok (TerminalFade.fadeFrame faded frames channels (channels * 2) bytes frame) ∧
      (TerminalFade.fadeFrame faded frames channels (channels * 2) bytes frame).length = size := by
  obtain ⟨x, hgain, hbound, -⟩ := gain_ends hframe hframes
  have hend : (frame + 1) * (channels * 2) ≤ size := (Nat.mul_le_mul_right _ hframe).trans hsize
  rw [Nat.succ_mul] at hend
  unfold shapeFrame
  rw [hgain, ok_bind]
  refine foldlM_ok (I := fun bytes : List UInt8 => bytes.length = size) (fun bytes hbytes channel hchannel => ?_) hbytes
  have hchannel := List.mem_range.mp hchannel
  have hoffset : frame * (channels * 2) + channel * 2 + 2 ≤ size := by omega
  obtain ⟨value, hvalue, -⟩ := shapeSample_ends hbound (loadSample bytes (frame * (channels * 2) + channel * 2))
  unfold shapeChannel
  rw [u64_eq (by omega), ok_bind, if_pos (by omega), hvalue, ok_bind]
  dsimp only
  rw [faded_eq hgain hvalue]
  exact ⟨rfl, (storeSample_length _ _ _).trans hbytes⟩

theorem fade_eq {channels frames : Nat} {bytes : List UInt8} (hchannels : 0 < channels)
    (hlength : bytes.length = frames * (channels * 2)) (hsmall : bytes.length < 2 ^ 64) :
    fade channels (channels * 2) bytes = .ok (TerminalFade.shapeFrames faded channels frames frames 0 bytes) := by
  have hcount : bytes.length / (channels * 2) = frames := by
    rw [hlength]
    exact Nat.mul_div_cancel _ (by omega)
  have hframes : frames ≤ bytes.length := by
    rw [hlength]
    exact Nat.le_mul_of_pos_right _ (by omega)
  unfold fade
  dsimp only
  rw [hcount]
  obtain ⟨hfold, -⟩ := foldlM_ok (I := fun done : List UInt8 => done.length = bytes.length)
    (f := shapeFrame frames channels (channels * 2)) (l := List.range frames)
    (fun done hdone frame hframe =>
      shapeFrame_eq (List.mem_range.mp hframe) hlength.ge hsmall (by omega) hdone) (b := bytes) rfl
  have hloop : (List.range' 0 frames).foldl (TerminalFade.fadeFrame faded frames channels (channels * 2)) ([] ++ bytes) =
      [] ++ TerminalFade.shapeFrames faded channels frames frames 0 bytes :=
    TerminalFade.foldl_frames faded (Nat.zero_mul _).symm hlength
  rw [← List.range_eq_range', List.nil_append, List.nil_append] at hloop
  rw [hfold, hloop]

section Silence

variable {shape : Int16 → Nat → Nat → Int16} {frame frames channels : Nat} {bytes : List UInt8}

theorem shapeSamples_zero (hzero : ∀ sample, shape sample frame frames = 0) (hlength : bytes.length = channels * 2) :
    TerminalFade.shapeSamples shape frame frames channels bytes = List.replicate (channels * 2) 0 := by
  induction channels generalizing bytes with
  | zero =>
    rw [List.length_eq_zero_iff.mp (by omega : bytes.length = 0)]
    rfl
  | succ channels ih =>
    match bytes, hlength with
    | [], h | [_], h =>
      simp only [List.length_cons, List.length_nil] at h
      omega
    | low :: high :: bytes, h =>
      have hrest : bytes.length = channels * 2 := by
        simp only [List.length_cons] at h
        omega
      rw [TerminalFade.shapeSamples, hzero, ih hrest, Nat.succ_mul]
      rfl

/-- The last of the frames, when it is shaped to nothing. -/
theorem shapeFrames_last {count : Nat} (hzero : ∀ sample, shape sample (frame + count) frames = 0)
    (hlength : bytes.length = (count + 1) * (channels * 2)) :
    (TerminalFade.shapeFrames shape channels frames (count + 1) frame bytes).drop (count * (channels * 2)) =
      List.replicate (channels * 2) 0 := by
  induction count generalizing frame bytes with
  | zero =>
    rw [Nat.zero_add, Nat.one_mul] at hlength
    rw [Nat.zero_mul, List.drop_zero, TerminalFade.shapeFrames, TerminalFade.shapeFrames,
      List.drop_eq_nil_of_le hlength.le, List.append_nil, List.take_of_length_le hlength.le]
    exact shapeSamples_zero hzero hlength
  | succ count ih =>
    rw [Nat.succ_mul] at hlength
    have htake : (TerminalFade.shapeSamples shape frame frames channels (bytes.take (channels * 2))).length =
        channels * 2 := by
      rw [TerminalFade.shapeSamples_length]
      exact List.length_take_of_le (by omega)
    have hdrop : (bytes.drop (channels * 2)).length = (count + 1) * (channels * 2) := by
      rw [List.length_drop]
      omega
    rw [TerminalFade.shapeFrames, Nat.succ_mul, Nat.add_comm, ← List.drop_drop, List.drop_left' htake]
    refine ih (fun sample => ?_) hdrop
    rw [Nat.add_right_comm]
    exact hzero sample

end Silence

/-! ## The function -/

/-- The format that the buffers share. -/
def formatOf (buffers : List PlayoutBuffer) : AudioFormat := (buffers.head?.map (·.chunk.format)).getD {}

/-- The tail that begins in a buffer: the selected frames, faded. -/
def fadedTail (buffers : List PlayoutBuffer) (cursorFrame : UInt64) (fadeMs : UInt32) (first : PlayoutBuffer) : PcmChunk :=
  let format := formatOf buffers
  let frames := selected buffers format cursorFrame fadeMs
  { requestId := first.chunk.requestId
    format := format
    bytes := TerminalFade.shapeFrames faded format.channels.toNat frames.length frames.length 0 (bytesOf frames) }

/-- The selected frames, faded to silence. -/
structure FadeOf (buffers : List PlayoutBuffer) (cursorFrame : UInt64) (fadeMs : UInt32) (chunk : PcmChunk) : Prop where
  format : chunk.format = formatOf buffers
  bytes : chunk.bytes = TerminalFade.shapeFrames faded chunk.format.channels.toNat
    (selected buffers chunk.format cursorFrame fadeMs).length
    (selected buffers chunk.format cursorFrame fadeMs).length 0
    (bytesOf (selected buffers chunk.format cursorFrame fadeMs))
  silent : chunk.bytes.drop (((selected buffers chunk.format cursorFrame fadeMs).length - 1) *
    (chunk.format.channels.toNat * 2)) = List.replicate (chunk.format.channels.toNat * 2) 0

/-- The lists that the function accepts: streams whose tail fits a vector, and any list where
    no fade is asked for. -/
def Taken (buffers : List PlayoutBuffer) (cursorFrame : UInt64) (fadeMs : UInt32) : Prop :=
  fadeMs = 0 ∨ buffers = [] ∨ Stream (formatOf buffers) buffers ∧
    (bytesOf (selected buffers (formatOf buffers) cursorFrame fadeMs)).length < 2 ^ 63

theorem makePlayoutCursorFade_ends (buffers : List PlayoutBuffer) (cursorFrame : UInt64) (fadeMs : UInt32) :
    Ends (fun result =>
      (result = none ↔ fadeMs = 0 ∨
        available ((formatOf buffers).channels.toNat * 2) cursorFrame.toNat buffers = []) ∧
      ∀ chunk, result = some chunk → FadeOf buffers cursorFrame fadeMs chunk)
      Rejected (makePlayoutCursorFade buffers cursorFrame fadeMs) := by
  unfold makePlayoutCursorFade
  cases buffers with
  | nil => exact ⟨⟨fun _ => .inr rfl, fun _ => rfl⟩, nofun⟩
  | cons buffer buffers =>
    refine .ite (fun hms => ⟨⟨fun _ => .inl hms, fun _ => rfl⟩, nofun⟩) fun hms => ?_
    dsimp only
    refine (selectFrames_ends (buffer :: buffers) buffer.chunk.format cursorFrame hms).bind fun found hfound => ?_
    match found, hfound.2 with
    | none, hnone => exact ⟨⟨fun _ => .inr hnone, fun _ => rfl⟩, nofun⟩
    | some (requestId, bytes), hsome =>
      obtain ⟨rfl, hsmall, havailable, hframes, hchannels⟩ := hsome
      have hlength := selected_length (buffer :: buffers) buffer.chunk.format cursorFrame fadeMs
      have hcount := List.length_pos_iff.mpr hframes
      dsimp only
      rw [fade_eq hchannels hlength (by omega), ok_bind]
      refine ⟨⟨nofun, fun hnone => ?_⟩, fun chunk hchunk => ?_⟩
      · exact (hnone.elim hms havailable).elim
      · cases hchunk
        refine ⟨rfl, rfl, ?_⟩
        obtain ⟨count, hsucc⟩ := Nat.exists_eq_add_one_of_ne_zero hcount.ne'
        have hbelow : count + 1 < 2 ^ 64 := by
          have := Nat.le_mul_of_pos_right (count + 1) (show 0 < buffer.chunk.format.channels.toNat * 2 by omega)
          rw [hsucc] at hlength
          omega
        dsimp only
        rw [hsucc] at hlength ⊢
        refine shapeFrames_last (fun sample => ?_) hlength
        rw [Nat.zero_add]
        exact faded_last rfl hbelow sample

theorem taken_of_ok {buffers : List PlayoutBuffer} {cursorFrame : UInt64} {fadeMs : UInt32} {result : Option PcmChunk}
    (h : makePlayoutCursorFade buffers cursorFrame fadeMs = .ok result) : Taken buffers cursorFrame fadeMs := by
  by_cases hms : fadeMs = 0
  · exact .inl hms
  cases buffers with
  | nil => exact .inr (.inl rfl)
  | cons buffer buffers =>
    unfold makePlayoutCursorFade at h
    dsimp only at h
    rw [if_neg hms] at h
    obtain ⟨found, hfound, -⟩ := exists_of_bind h
    obtain ⟨hstream, hselected⟩ := (selectFrames_ends _ _ _ hms).value hfound
    refine .inr (.inr ⟨hstream, ?_⟩)
    cases found with
    | none =>
      have hnone := (selected_eq_nil_iff hstream.rate hms).mpr hselected
      rw [formatOf, List.head?_cons, Option.map_some, Option.getD_some, hnone]
      decide
    | some found =>
      obtain ⟨hbytes, hfits, -⟩ := hselected
      rwa [hbytes] at hfits

/-- The result for every cursor: the faded tail that begins in the upcoming buffer. -/
theorem makePlayoutCursorFade_ok {buffers : List PlayoutBuffer} {cursorFrame : UInt64} {fadeMs : UInt32}
    (h : Stream (formatOf buffers) buffers) (hms : fadeMs ≠ 0)
    (hfits : (bytesOf (selected buffers (formatOf buffers) cursorFrame fadeMs)).length < 2 ^ 63) :
    makePlayoutCursorFade buffers cursorFrame fadeMs =
      .ok (if selected buffers (formatOf buffers) cursorFrame fadeMs = [] then none
        else (upcoming ((formatOf buffers).channels.toNat * 2) cursorFrame.toNat buffers).map
          (fadedTail buffers cursorFrame fadeMs)) := by
  unfold makePlayoutCursorFade
  cases buffers with
  | nil => simp [upcoming]
  | cons buffer buffers =>
    have hformat : formatOf (buffer :: buffers) = buffer.chunk.format := rfl
    rw [hformat] at h hfits ⊢
    have hlength := selected_length (buffer :: buffers) buffer.chunk.format cursorFrame fadeMs
    dsimp only
    rw [if_neg hms, selectFrames_ok h hms hfits, ok_bind]
    by_cases hnone : selected (buffer :: buffers) buffer.chunk.format cursorFrame fadeMs = []
    · rw [if_pos hnone, if_pos hnone]
    rw [if_neg hnone, if_neg hnone]
    cases hupcoming : upcoming (buffer.chunk.format.channels.toNat * 2) cursorFrame.toNat (buffer :: buffers) with
    | none => rfl
    | some first =>
      rw [Option.map_some, Option.map_some]
      dsimp only
      rw [fade_eq h.channels_pos hlength (by omega), ok_bind]
      rfl

theorem ok_of_taken {buffers : List PlayoutBuffer} {cursorFrame : UInt64} {fadeMs : UInt32}
    (h : Taken buffers cursorFrame fadeMs) : ∃ result, makePlayoutCursorFade buffers cursorFrame fadeMs = .ok result := by
  by_cases hms : fadeMs = 0
  · unfold makePlayoutCursorFade
    cases buffers with
    | nil => exact ⟨_, rfl⟩
    | cons buffer buffers => exact ⟨_, if_pos hms⟩
  · rcases h with hzero | rfl | ⟨hstream, hfits⟩
    · exact absurd hzero hms
    · exact ⟨_, rfl⟩
    · exact ⟨_, makePlayoutCursorFade_ok hstream hms hfits⟩

/-- The function accepts the streams whose tail fits a vector; it takes the frames at or after
    the cursor, and nothing if there are none or no fade is asked for; it never leaves a buffer
    or the width of an integer. -/
theorem cursor_fade_selects (buffers : List PlayoutBuffer) (cursorFrame : UInt64) (fadeMs : UInt32) :
    Ends (fun result =>
      (result = none ↔ fadeMs = 0 ∨
        available ((formatOf buffers).channels.toNat * 2) cursorFrame.toNat buffers = []) ∧
      ∀ chunk, result = some chunk → FadeOf buffers cursorFrame fadeMs chunk)
      Rejected (makePlayoutCursorFade buffers cursorFrame fadeMs) ∧
    ((∃ result, makePlayoutCursorFade buffers cursorFrame fadeMs = .ok result) ↔ Taken buffers cursorFrame fadeMs) :=
  ⟨makePlayoutCursorFade_ends buffers cursorFrame fadeMs, fun ⟨_, h⟩ => taken_of_ok h, ok_of_taken⟩

/-- A cursor in a gap after an empty buffer: the two frames behind the gap. -/
example : makePlayoutCursorFade
    [⟨{ bytes := [100, 0] }, 5, by decide⟩, ⟨{}, 7, by decide⟩, ⟨{ bytes := [8, 0, 9, 0] }, 9, by decide⟩] 6 1 =
      .ok (some { bytes := [8, 0, 0, 0] }) := by decide +kernel

end QwenTtsBridge.Audio.PlayoutCursor
