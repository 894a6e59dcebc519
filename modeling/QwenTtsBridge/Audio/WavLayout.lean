/-
  QwenTtsBridge.Audio.WavLayout — what the reader of `Audio.WavReader` makes of a well-formed
  RIFF/WAVE file.

  `WavLayout`: one `fmt ` chunk and one `data` chunk in either order, other chunks before and
  between them, anything after them; a chunk of odd size is followed by one more byte. The
  size in the RIFF header is any: the reader does not look at it.

  `readMono24kWav_layout`: of such a file in mono 24 kHz PCM16 the reader gives the samples
  of the data. `loop_eq`: on every file its loop takes at most one turn for each eight bytes,
  and one more.
-/

import QwenTtsBridge.Audio.WavReader

namespace QwenTtsBridge.Audio.WavReader

open QwenTtsBridge.Lib.LittleEndian QwenTtsBridge.Protocol.Control

/-! ## Turns of the loop -/

inductive Turn where
  | stop (result : Except CppString (Option WavFormat × List UInt8))
  | next (format : Option WavFormat) (data input : List UInt8)

/-- One turn: the condition of the loop, then its body. -/
def turn (format : Option WavFormat) (data input : List UInt8) : Turn :=
  if format.isSome ∧ data ≠ [] then .stop (.ok (format, data))
  else if input = [] then .stop (.ok (format, data))
  else if input.length < 8 then .stop (fail "truncated WAV chunk header")
  else
    let size := readLe 4 (input.drop 4)
    let body := input.drop 8
    let next := body.drop (size + size % 2)
    if maxChunkSize < size then .stop (fail "reference WAV chunk is too large")
    else if input.take 4 = CppString.lit "fmt " then
      if size < 16 then .stop (fail "reference WAV fmt chunk is too small")
      else if body.length < size then .stop (fail "truncated WAV fmt chunk")
      else .next (some (readFormat body)) data next
    else if input.take 4 = CppString.lit "data" then
      if body.length < size then .stop (fail "truncated WAV data chunk")
      else .next format (body.take size) next
    else .next format data next

/-- At most `count` turns. -/
def loop : Nat → Option WavFormat → List UInt8 → List UInt8 → Option (Except CppString (Option WavFormat × List UInt8))
  | 0, _, _, _ => none
  | count + 1, format, data, input =>
    match turn format data input with
    | .stop result => some result
    | .next format data input => loop count format data input

section Turns

variable {format format' : Option WavFormat} {data data' input input' : List UInt8}

theorem readChunks_turn : readChunks format data input =
    match turn format data input with
    | .stop result => result
    | .next format data input => readChunks format data input := by
  rw [readChunks]
  unfold turn
  dsimp only
  repeat' split
  all_goals simp_all

theorem turn_shrinks (h : turn format data input = .next format' data' input') : input'.length + 8 ≤ input.length := by
  unfold turn at h
  dsimp only at h
  repeat' split at h
  all_goals cases h
  all_goals
    simp only [List.length_drop]
    omega

theorem loop_eq {count : Nat} (h : input.length / 8 < count) :
    loop count format data input = some (readChunks format data input) := by
  induction count generalizing format data input with
  | zero => omega
  | succ count ih =>
    rw [loop, readChunks_turn]
    cases hturn : turn format data input with
    | stop result => rfl
    | next format' data' input' =>
      have hshrinks := turn_shrinks hturn
      exact ih (by omega)

end Turns

/-! ## Chunks -/

/-- A chunk with the byte that pads it if its size is odd. -/
def chunkBytes (id body : List UInt8) (pad : UInt8) : List UInt8 :=
  id ++ (writeLe 4 body.length ++ (body ++ if body.length % 2 = 1 then [pad] else []))

/-- A chunk that is neither `fmt ` nor `data`. -/
structure Ancillary where
  id : List UInt8
  body : List UInt8
  pad : UInt8
  four : id.length = 4
  other : id ≠ CppString.lit "fmt " ∧ id ≠ CppString.lit "data"
  fits : body.length ≤ maxChunkSize

def Ancillary.bytes (chunk : Ancillary) : List UInt8 := chunkBytes chunk.id chunk.body chunk.pad

section Chunks

variable {format : Option WavFormat} {data id body rest : List UInt8} {pad : UInt8}

theorem turn_chunk (hmore : ¬ (format.isSome ∧ data ≠ [])) (hid : id.length = 4) (hbody : body.length ≤ maxChunkSize) :
    turn format data (chunkBytes id body pad ++ rest) =
      if id = CppString.lit "fmt " then
        if body.length < 16 then .stop (fail "reference WAV fmt chunk is too small")
        else .next (some (readFormat body)) data rest
      else if id = CppString.lit "data" then .next format body rest
      else .next format data rest := by
  have hlimit : body.length < 256 ^ 4 := Nat.lt_of_le_of_lt hbody (by decide)
  -- The parts that the turn takes the chunk apart into.
  let padding : List UInt8 := if body.length % 2 = 1 then [pad] else []
  have hpadding : padding.length = body.length % 2 := by
    unfold padding
    split <;> simp only [List.length_cons, List.length_nil] <;> omega
  have hinput : chunkBytes id body pad ++ rest = id ++ (writeLe 4 body.length ++ (body ++ (padding ++ rest))) := by
    simp only [chunkBytes, List.append_assoc, padding]
  have hafter : (chunkBytes id body pad ++ rest).drop 4 = writeLe 4 body.length ++ (body ++ (padding ++ rest)) := by
    rw [hinput, List.drop_left' hid]
  have hbodyAt : (chunkBytes id body pad ++ rest).drop 8 = body ++ (padding ++ rest) := by
    rw [show 8 = 4 + 4 from rfl, ← List.drop_drop, hafter, List.drop_left' (writeLe_length _ _)]
  have hsize : readLe 4 ((chunkBytes id body pad ++ rest).drop 4) = body.length := by
    rw [hafter, readLe_writeLe_of_lt hlimit]
  have hnext : ((chunkBytes id body pad ++ rest).drop 8).drop (body.length + body.length % 2) = rest := by
    rw [hbodyAt, ← List.append_assoc, List.drop_left']
    rw [List.length_append, hpadding]
  have hlength : 8 ≤ (chunkBytes id body pad ++ rest).length := by
    rw [hinput]
    simp only [List.length_append, writeLe_length, hid]
    omega
  have htag : (chunkBytes id body pad ++ rest).take 4 = id := by
    rw [hinput, List.take_left' hid]
  have hformat (h : 16 ≤ body.length) : readFormat (body ++ (padding ++ rest)) = readFormat body := by
    unfold readFormat
    simp only [List.drop_append_of_le_length (show 2 ≤ body.length by omega),
      List.drop_append_of_le_length (show 4 ≤ body.length by omega),
      List.drop_append_of_le_length (show 14 ≤ body.length by omega)]
    rw [readLe_append (by omega), readLe_append, readLe_append, readLe_append]
    all_goals
      rw [List.length_drop]
      omega
  unfold turn
  dsimp only
  rw [if_neg hmore, if_neg (List.ne_nil_of_length_pos (by omega)), if_neg (by omega), hsize, if_neg (by omega), htag, hnext,
    hbodyAt]
  have hwhole : ¬ (body ++ (padding ++ rest)).length < body.length := by
    rw [List.length_append]
    omega
  by_cases hfmt : id = CppString.lit "fmt "
  · rw [if_pos hfmt, if_pos hfmt]
    by_cases hsmall : body.length < 16
    · rw [if_pos hsmall, if_pos hsmall]
    · rw [if_neg hsmall, if_neg hsmall, if_neg hwhole, hformat (by omega)]
  · rw [if_neg hfmt, if_neg hfmt, if_neg hwhole, List.take_left]

theorem readChunks_done (hformat : format.isSome) (hdata : data ≠ []) (input : List UInt8) :
    readChunks format data input = .ok (format, data) := by
  rw [readChunks, if_pos ⟨hformat, hdata⟩]

theorem readChunks_ancillary (hmore : ¬ (format.isSome ∧ data ≠ [])) (chunks : List Ancillary) :
    readChunks format data (chunks.flatMap Ancillary.bytes ++ rest) = readChunks format data rest := by
  induction chunks with
  | nil => rfl
  | cons chunk chunks ih =>
    rw [List.flatMap_cons, List.append_assoc, readChunks_turn, Ancillary.bytes, turn_chunk hmore chunk.four chunk.fits,
      if_neg chunk.other.1, if_neg chunk.other.2]
    exact ih

theorem readChunks_fmt (hmore : ¬ (format.isSome ∧ data ≠ [])) (hsmall : 16 ≤ body.length)
    (hbody : body.length ≤ maxChunkSize) :
    readChunks format data (chunkBytes (CppString.lit "fmt ") body pad ++ rest) =
      readChunks (some (readFormat body)) data rest := by
  rw [readChunks_turn, turn_chunk hmore (by decide) hbody, if_pos rfl, if_neg (by omega)]

theorem readChunks_data (hmore : ¬ (format.isSome ∧ data ≠ [])) (hbody : body.length ≤ maxChunkSize) :
    readChunks format data (chunkBytes (CppString.lit "data") body pad ++ rest) = readChunks format body rest := by
  rw [readChunks_turn, turn_chunk hmore (by decide) hbody, if_neg (by decide), if_pos rfl]

end Chunks

/-! ## Files -/

structure WavLayout where
  riffSize : List UInt8
  before : List Ancillary := []
  between : List Ancillary := []
  fmt : List UInt8
  fmtPad : UInt8 := 0
  data : List UInt8
  dataPad : UInt8 := 0
  formatFirst : Bool := true
  trailing : List UInt8 := []
  four : riffSize.length = 4
  fmtFits : 16 ≤ fmt.length ∧ fmt.length ≤ maxChunkSize
  dataFits : data ≠ [] ∧ data.length ≤ maxChunkSize

namespace WavLayout

def fmtChunk (layout : WavLayout) : List UInt8 := chunkBytes (CppString.lit "fmt ") layout.fmt layout.fmtPad

def dataChunk (layout : WavLayout) : List UInt8 := chunkBytes (CppString.lit "data") layout.data layout.dataPad

def chunks (layout : WavLayout) : List UInt8 :=
  layout.before.flatMap Ancillary.bytes ++
    ((if layout.formatFirst then layout.fmtChunk else layout.dataChunk) ++
      (layout.between.flatMap Ancillary.bytes ++
        ((if layout.formatFirst then layout.dataChunk else layout.fmtChunk) ++ layout.trailing)))

def bytes (layout : WavLayout) : List UInt8 :=
  CppString.lit "RIFF" ++ (layout.riffSize ++ (CppString.lit "WAVE" ++ layout.chunks))

/-- The `fmt ` chunk says mono 24 kHz PCM16. -/
def Mono24kPcm16 (layout : WavLayout) : Prop := readFormat layout.fmt = ⟨1, 1, 24000, 16⟩

theorem readChunks_chunks (layout : WavLayout) :
    readChunks none [] layout.chunks = .ok (some (readFormat layout.fmt), layout.data) := by
  have hnothing : ¬ ((none : Option WavFormat).isSome ∧ ([] : List UInt8) ≠ []) := by simp
  obtain ⟨hsmall, hfmt⟩ := layout.fmtFits
  obtain ⟨hdata, hfits⟩ := layout.dataFits
  unfold chunks
  rw [readChunks_ancillary hnothing]
  cases layout.formatFirst with
  | true =>
    have hformat : ¬ ((some (readFormat layout.fmt)).isSome ∧ ([] : List UInt8) ≠ []) := by simp
    rw [if_pos rfl, if_pos rfl, fmtChunk, dataChunk, readChunks_fmt hnothing hsmall hfmt, readChunks_ancillary hformat,
      readChunks_data hformat hfits, readChunks_done rfl hdata]
  | false =>
    have hformat : ¬ ((none : Option WavFormat).isSome ∧ layout.data ≠ []) := by simp
    rw [if_neg Bool.false_ne_true, if_neg Bool.false_ne_true, fmtChunk, dataChunk, readChunks_data hnothing hfits,
      readChunks_ancillary hformat, readChunks_fmt hformat hsmall hfmt, readChunks_done rfl hdata]

theorem readMono24kWav_layout {layout : WavLayout} (h : layout.Mono24kPcm16) :
    readMono24kWav layout.bytes =
      if layout.data.length % 2 ≠ 0 then fail "reference WAV contains a partial PCM16 sample"
      else .ok (pcm16Samples layout.data) := by
  have hriff : layout.bytes.take 4 = CppString.lit "RIFF" := List.take_left' rfl
  have hafter : layout.bytes.drop 8 = CppString.lit "WAVE" ++ layout.chunks := by
    rw [show 8 = 4 + 4 from rfl, ← List.drop_drop, bytes, List.drop_left' (by rfl), List.drop_left' layout.four]
  have hchunks : layout.bytes.drop 12 = layout.chunks := by
    rw [show 12 = 8 + 4 from rfl, ← List.drop_drop, hafter]
    rfl
  have hlength : ¬ layout.bytes.length < 12 := by
    unfold bytes
    simp only [List.length_append, layout.four]
    show ¬ 4 + (4 + (4 + _)) < 12
    omega
  have hmagic : ¬ (layout.bytes.take 4 ≠ CppString.lit "RIFF" ∨ (layout.bytes.drop 8).take 4 ≠ CppString.lit "WAVE") := by
    rw [hriff, hafter, List.take_left' (by rfl)]
    simp
  unfold readMono24kWav
  rw [if_neg hlength, if_neg hmagic, hchunks, readChunks_chunks]
  dsimp only
  rw [if_neg layout.dataFits.1, show readFormat layout.fmt = _ from h, if_neg (by simp)]
  rfl

end WavLayout

end QwenTtsBridge.Audio.WavReader
