/-
  QwenTtsBridge.Audio.WavWriter — the WAV file writer (`audio/wav_writer.cpp`).

  The file is an `OutputStream`: any operation on it may fail, and none after one that has.
  A call is `write_pcm` or `close`; the destructor closes too. Sizes are natural numbers.

  `wav_writing_and_reading_agree`: after any calls, the file of a closed writer is 44 bytes of
  header and the PCM of the calls that returned, with its sizes, and the native worker's
  reader gives the samples back if there are any and they take at most 1 GiB; what the reader
  makes of other files is `Audio.WavLayout`. A file without samples is one that the reader
  refuses (`a_file_without_samples_is_refused`).
-/

import QwenTtsBridge.Audio.WavLayout
import QwenTtsBridge.Lib.Outcome
import QwenTtsBridge.Lib.OutputStream

namespace QwenTtsBridge.Audio

open QwenTtsBridge.Lib QwenTtsBridge.Lib.LittleEndian QwenTtsBridge.Protocol.Control

/-! ## Model -/

structure WavWriter where
  file : OutputStream := {}
  path : CppString
  sampleRate : UInt32
  channels : UInt16
  bitsPerSample : UInt16
  blockAlign : Nat
  dataSize : Nat := 0
  closed : Bool := true
  deriving DecidableEq, Repr

namespace WavWriter

/-- A pointer with a size. -/
inductive PcmData where
  | null (size : Nat)
  | bytes (data : List UInt8)
  deriving DecidableEq, Repr

def PcmData.size : PcmData → Nat
  | .null size => size
  | .bytes data => data.length

def PcmData.data : PcmData → List UInt8
  | .null _ => []
  | .bytes data => data

def kPcmFormat : Nat := 1

def kFmtChunkSize : Nat := 16

def kRiffSizeWithoutData : Nat := 36

/-- The largest `uint32`. -/
def maxU32 : Nat := 2 ^ 32 - 1

/-- The data size up to which the RIFF size fits 32 bits. -/
def maxDataSize : Nat := maxU32 - kRiffSizeWithoutData

def isSupportedBitsPerSample (value : UInt16) : Bool := value = 8 ∨ value = 16 ∨ value = 24 ∨ value = 32

def thrown {α : Type} (what : String) : Except CppString α := .error (CppString.lit what)

def checkedU32 (value : Nat) (name : String) : Except CppString Nat :=
  if value > maxU32 then .error (CppString.lit name ++ CppString.lit " exceeds uint32 range") else .ok value

section Operations

variable (faults : Nat → Option Nat) (w : WavWriter)

def ensureStreamOk (action : String) : Except CppString Unit :=
  if w.file.failed then .error (CppString.lit "failed to " ++ CppString.lit action ++ CppString.lit ": " ++ w.path)
  else .ok ()

def byteRate : Nat := w.sampleRate.toNat * w.blockAlign

/-- What `write_header` writes, piece by piece. -/
def headerPieces (riffSize byteRate dataSize : Nat) : List (List UInt8) :=
  [CppString.lit "RIFF", writeLe 4 riffSize, CppString.lit "WAVE", CppString.lit "fmt ", writeLe 4 kFmtChunkSize,
    writeLe 2 kPcmFormat, writeLe 2 w.channels.toNat, writeLe 4 w.sampleRate.toNat, writeLe 4 byteRate,
    writeLe 2 w.blockAlign, writeLe 2 w.bitsPerSample.toNat, CppString.lit "data", writeLe 4 dataSize]

def writeHeader (dataSize : Nat) : Except CppString WavWriter := do
  let byteRate ← checkedU32 w.byteRate "byte rate"
  let riffSize ← checkedU32 (kRiffSizeWithoutData + dataSize) "RIFF chunk size"
  .ok { w with file := w.file.writeAll faults (w.headerPieces riffSize byteRate dataSize) }

/-- The constructor; `opens` is whether the file could be opened. -/
def make (opens : Bool) (path : CppString) (sampleRate : UInt32) (channels bitsPerSample : UInt16) :
    Except CppString WavWriter :=
  if path = [] then thrown "output WAV path is empty"
  else if sampleRate = 0 then thrown "sample rate must be greater than zero"
  else if channels = 0 then thrown "channel count must be greater than zero"
  else if !isSupportedBitsPerSample bitsPerSample then thrown "bits per sample must be 8, 16, 24, or 32"
  else
    let blockAlign := channels.toNat * (bitsPerSample.toNat / 8)
    if blockAlign = 0 ∨ blockAlign > 2 ^ 16 - 1 then thrown "WAV block alignment exceeds uint16 range"
    else if !opens then .error (CppString.lit "failed to open WAV file: " ++ path)
    else do
      let w : WavWriter := { path, sampleRate, channels, bitsPerSample, blockAlign, closed := false }
      let w ← w.writeHeader faults 0
      w.ensureStreamOk "write WAV header"
      .ok w

def writePcm (pcm : PcmData) : WavWriter × Except CppString Unit :=
  if w.closed then (w, thrown "cannot write PCM to a closed WAV file")
  else if pcm = .null pcm.size ∧ pcm.size ≠ 0 then (w, thrown "PCM data pointer is null")
  else if pcm.size = 0 then (w, .ok ())
  else if pcm.size % w.blockAlign ≠ 0 then (w, thrown "PCM chunk does not contain complete sample frames")
  else if w.dataSize > maxDataSize ∨ pcm.size > maxDataSize - w.dataSize then
    (w, thrown "WAV file would exceed the RIFF 4 GiB limit")
  else
    let w := { w with file := w.file.write faults pcm.data }
    match w.ensureStreamOk "write PCM data" with
    | .error e => (w, .error e)
    | .ok () => ({ w with dataSize := w.dataSize + pcm.size }, .ok ())

def patchHeader : WavWriter × Except CppString Unit :=
  match checkedU32 w.dataSize "WAV data size" with
  | .error e => (w, .error e)
  | .ok dataSize =>
    let w := { w with file := w.file.seekp faults 4 }
    match checkedU32 (kRiffSizeWithoutData + dataSize) "RIFF chunk size" with
    | .error e => (w, .error e)
    | .ok riffSize =>
      let file := w.file.write faults (writeLe 4 riffSize)
      let file := (file.seekp faults 40).write faults (writeLe 4 dataSize)
      let w := { w with file := file.seekEnd faults }
      (w, w.ensureStreamOk "patch WAV header")

def close : WavWriter × Except CppString Unit :=
  if w.closed then (w, .ok ())
  else
    match w.patchHeader faults with
    | (w, .error e) => (w, .error e)
    | (w, .ok ()) =>
      let w := { w with file := w.file.flush faults }
      match w.ensureStreamOk "flush WAV file" with
      | .error e => (w, .error e)
      | .ok () => ({ w with closed := true }, .ok ())

end Operations

/-! ### Runs -/

inductive Call where
  | writePcm (pcm : PcmData)
  | close
  deriving DecidableEq, Repr

section Runs

variable (faults : Nat → Option Nat)

def reply (w : WavWriter) : Call → WavWriter × Except CppString Unit
  | .writePcm pcm => w.writePcm faults pcm
  | .close => w.close faults

def after (w : WavWriter) (calls : List Call) : WavWriter :=
  calls.foldl (fun w call => (w.reply faults call).1) w

/-- The PCM of a call that returns. -/
def acceptedBy (w : WavWriter) : Call → List UInt8
  | .writePcm pcm => if (w.writePcm faults pcm).2 = .ok () then pcm.data else []
  | .close => []

/-- The PCM of the calls that returned. -/
def accepted (w : WavWriter) : List Call → List UInt8
  | [] => []
  | call :: calls => w.acceptedBy faults call ++ (w.reply faults call).1.accepted calls

end Runs

/-! ## The header -/

section Header

variable (w : WavWriter)

/-- The header of a file with `dataSize` bytes of PCM. -/
def header (dataSize : Nat) : List UInt8 :=
  (w.headerPieces (kRiffSizeWithoutData + dataSize) w.byteRate dataSize).flatten

/-- The body of the `fmt ` chunk. -/
def formatBytes : List UInt8 :=
  writeLe 2 kPcmFormat ++ (writeLe 2 w.channels.toNat ++ (writeLe 4 w.sampleRate.toNat ++ (writeLe 4 w.byteRate ++
    (writeLe 2 w.blockAlign ++ writeLe 2 w.bitsPerSample.toNat))))

/-- What stands between the two sizes. -/
def betweenSizes : List UInt8 :=
  CppString.lit "WAVE" ++ (CppString.lit "fmt " ++ (writeLe 4 kFmtChunkSize ++ (w.formatBytes ++ CppString.lit "data")))

theorem header_eq (dataSize : Nat) : w.header dataSize =
    CppString.lit "RIFF" ++ (writeLe 4 (kRiffSizeWithoutData + dataSize) ++ (w.betweenSizes ++ writeLe 4 dataSize)) := by
  simp only [header, headerPieces, betweenSizes, formatBytes, List.flatten_cons, List.flatten_nil, List.append_nil,
    List.append_assoc]

theorem formatBytes_length : w.formatBytes.length = 16 := by
  simp only [formatBytes, List.length_append, writeLe_length]

theorem betweenSizes_length : w.betweenSizes.length = 32 := by
  simp only [betweenSizes, List.length_append, writeLe_length, formatBytes_length]
  rfl

theorem header_length (dataSize : Nat) : (w.header dataSize).length = 44 := by
  rw [header_eq]
  simp only [List.length_append, writeLe_length, betweenSizes_length]
  rfl

end Header

/-! ## One call -/

section Calls

variable {faults : Nat → Option Nat} {w : WavWriter} {pcm : PcmData}

theorem ensureStreamOk_of_good {action : String} (h : w.file.failed = false) : w.ensureStreamOk action = .ok () := by
  unfold ensureStreamOk
  rw [if_neg (by simp [h])]

theorem ensureStreamOk_of_failed {action : String} (h : w.file.failed = true) :
    ∃ e, w.ensureStreamOk action = .error e := by
  unfold ensureStreamOk
  rw [if_pos h]
  exact ⟨_, rfl⟩

theorem good_of_ensureStreamOk {action : String} (h : w.ensureStreamOk action = .ok ()) : w.file.failed = false := by
  cases hfailed : w.file.failed with
  | true =>
    obtain ⟨e, he⟩ : ∃ e, w.ensureStreamOk action = .error e := ensureStreamOk_of_failed hfailed
    rw [he] at h
    cases h
  | false => rfl

theorem checkedU32_eq {value : Nat} {name : String} (h : value ≤ maxU32) : checkedU32 value name = .ok value :=
  if_neg (Nat.not_lt.mpr h)

theorem fits_of_le {n : Nat} (h : n ≤ maxDataSize) : n ≤ maxU32 ∧ kRiffSizeWithoutData + n ≤ maxU32 := by
  unfold maxDataSize maxU32 kRiffSizeWithoutData at *
  omega

/-- What a `write_pcm` can do. -/
inductive Written (faults : Nat → Option Nat) (w : WavWriter) (pcm : PcmData) : WavWriter × Except CppString Unit → Prop
  | rejected (e : CppString) : Written faults w pcm (w, .error e)
  | empty : pcm.data = [] → Written faults w pcm (w, .ok ())
  | broken (e : CppString) : (w.file.write faults pcm.data).failed = true → w.closed = false →
      Written faults w pcm ({ w with file := w.file.write faults pcm.data }, .error e)
  | written : w.closed = false → pcm.data.length % w.blockAlign = 0 → w.dataSize + pcm.data.length ≤ maxDataSize →
      (w.file.write faults pcm.data).failed = false →
      Written faults w pcm
        ({ w with file := w.file.write faults pcm.data, dataSize := w.dataSize + pcm.data.length }, .ok ())

theorem writePcm_written : Written faults w pcm (w.writePcm faults pcm) := by
  unfold writePcm
  by_cases hclosed : w.closed = true
  · rw [if_pos hclosed]
    exact .rejected _
  rw [if_neg hclosed]
  by_cases hnull : pcm = .null pcm.size ∧ pcm.size ≠ 0
  · rw [if_pos hnull]
    exact .rejected _
  rw [if_neg hnull]
  by_cases hempty : pcm.size = 0
  · rw [if_pos hempty]
    refine .empty ?_
    cases pcm with
    | null size => rfl
    | bytes data => exact List.length_eq_zero_iff.mp hempty
  rw [if_neg hempty]
  have hsize : pcm.size = pcm.data.length := by
    cases pcm with
    | null size => exact (hnull ⟨rfl, hempty⟩).elim
    | bytes data => rfl
  by_cases hframes : pcm.size % w.blockAlign ≠ 0
  · rw [if_pos hframes]
    exact .rejected _
  rw [if_neg hframes]
  by_cases hlimit : w.dataSize > maxDataSize ∨ pcm.size > maxDataSize - w.dataSize
  · rw [if_pos hlimit]
    exact .rejected _
  rw [if_neg hlimit]
  dsimp only
  have hopen : w.closed = false := by simpa using hclosed
  cases hfailed : (w.file.write faults pcm.data).failed with
  | true =>
    obtain ⟨e, he⟩ : ∃ e, ({ w with file := w.file.write faults pcm.data } : WavWriter).ensureStreamOk "write PCM data" =
      .error e := ensureStreamOk_of_failed hfailed
    rw [he]
    exact .broken e hfailed hopen
  | false =>
    have hok : ({ w with file := w.file.write faults pcm.data } : WavWriter).ensureStreamOk "write PCM data" = .ok () :=
      ensureStreamOk_of_good hfailed
    rw [hok]
    dsimp only
    rw [hsize] at hframes hlimit ⊢
    exact .written hopen (not_not.mp hframes) (by omega) hfailed

/-- The file once the header is patched. -/
def patched (faults : Nat → Option Nat) (w : WavWriter) : OutputStream :=
  ((((w.file.seekp faults 4).write faults (writeLe 4 (kRiffSizeWithoutData + w.dataSize))).seekp faults 40).write faults
    (writeLe 4 w.dataSize)).seekEnd faults

/-- What a `close` can do. -/
inductive Closed (faults : Nat → Option Nat) (w : WavWriter) : WavWriter × Except CppString Unit → Prop
  | already : w.closed = true → Closed faults w (w, .ok ())
  | broken (e : CppString) (file : OutputStream) : (file = w.patched faults ∨ file = (w.patched faults).flush faults) →
      file.failed = true → w.closed = false → Closed faults w ({ w with file := file }, .error e)
  | closed : w.closed = false → ((w.patched faults).flush faults).failed = false →
      Closed faults w ({ w with file := (w.patched faults).flush faults, closed := true }, .ok ())

theorem patchHeader_eq (h : w.dataSize ≤ maxDataSize) : w.patchHeader faults =
    ({ w with file := w.patched faults },
      ({ w with file := w.patched faults } : WavWriter).ensureStreamOk "patch WAV header") := by
  unfold patchHeader
  rw [checkedU32_eq (fits_of_le h).1]
  dsimp only
  rw [checkedU32_eq (fits_of_le h).2]
  rfl

theorem close_closed (h : w.dataSize ≤ maxDataSize) : Closed faults w (w.close faults) := by
  unfold close
  by_cases hclosed : w.closed = true
  · rw [if_pos hclosed]
    exact .already hclosed
  have hopen : w.closed = false := by simpa using hclosed
  rw [if_neg hclosed, patchHeader_eq h]
  cases hpatched : (w.patched faults).failed with
  | true =>
    obtain ⟨e, he⟩ : ∃ e, ({ w with file := w.patched faults } : WavWriter).ensureStreamOk "patch WAV header" = .error e :=
      ensureStreamOk_of_failed hpatched
    rw [he]
    exact .broken e _ (.inl rfl) hpatched hopen
  | false =>
    have hok : ({ w with file := w.patched faults } : WavWriter).ensureStreamOk "patch WAV header" = .ok () :=
      ensureStreamOk_of_good hpatched
    rw [hok]
    dsimp only
    cases hflushed : ((w.patched faults).flush faults).failed with
    | true =>
      obtain ⟨e, he⟩ : ∃ e, ({ w with file := (w.patched faults).flush faults } : WavWriter).ensureStreamOk "flush WAV file" =
        .error e := ensureStreamOk_of_failed hflushed
      rw [he]
      exact .broken e _ (.inr rfl) hflushed hopen
    | false =>
      have hok : ({ w with file := (w.patched faults).flush faults } : WavWriter).ensureStreamOk "flush WAV file" =
        .ok () := ensureStreamOk_of_good hflushed
      rw [hok]
      exact .closed hopen hflushed

/-! ## Every run -/

/-- What holds of a writer that has accepted `done`. -/
structure Holds (w : WavWriter) (done : List UInt8) : Prop where
  size : w.dataSize = done.length
  limit : done.length ≤ maxDataSize
  aligned : done.length % w.blockAlign = 0
  writing : w.closed = false → w.file.At (w.header 0 ++ done) (w.header 0 ++ done).length
  finished : w.closed = true → w.file.contents = w.header done.length ++ done

variable {done : List UInt8}

/-- A stream that has failed says nothing. -/
theorem Holds.broken (h : Holds w done) {file : OutputStream} (hfailed : file.failed = true) (hopen : w.closed = false) :
    Holds { w with file := file } done := by
  refine ⟨h.size, h.limit, h.aligned, fun _ hgood => ?_, fun hclosed => ?_⟩
  · rw [hfailed] at hgood
    cases hgood
  · rw [hopen] at hclosed
    cases hclosed

theorem Holds.writePcm (h : Holds w done) :
    Holds (w.writePcm faults pcm).1 (done ++ if (w.writePcm faults pcm).2 = .ok () then pcm.data else []) := by
  have hcases : Written faults w pcm (w.writePcm faults pcm) := writePcm_written
  generalize w.writePcm faults pcm = result at hcases
  cases hcases with
  | rejected e =>
    rw [if_neg (by simp), List.append_nil]
    exact h
  | empty hempty =>
    rw [if_pos rfl, hempty, List.append_nil]
    exact h
  | broken e hfailed hopen =>
    rw [if_neg (by simp), List.append_nil]
    exact h.broken hfailed hopen
  | written hopen hframes hlimit hgood =>
    rw [if_pos rfl]
    have hsize := h.size
    refine ⟨?_, ?_, ?_, fun _ => ?_, fun hclosed => ?_⟩
    · rw [List.length_append, ← hsize]
    · rw [List.length_append]
      omega
    · rw [List.length_append, Nat.add_mod, h.aligned, hframes]
      exact Nat.zero_mod _
    · have happend : (w.file.write faults pcm.data).At (w.header 0 ++ done ++ pcm.data) _ := (h.writing hopen).append pcm.data
      rw [List.append_assoc] at happend
      exact happend
    · rw [hopen] at hclosed
      cases hclosed

/-- The header with its two sizes and the data. -/
def fileBytes (w : WavWriter) (riffSize dataSize : Nat) (done : List UInt8) : List UInt8 :=
  CppString.lit "RIFF" ++ (writeLe 4 riffSize ++ (w.betweenSizes ++ (writeLe 4 dataSize ++ done)))

theorem header_append (dataSize : Nat) :
    w.header dataSize ++ done = w.fileBytes (kRiffSizeWithoutData + dataSize) dataSize done := by
  rw [header_eq, fileBytes]
  simp only [List.append_assoc]

theorem overwrite_riffSize (old new dataSize : Nat) :
    overwrite (w.fileBytes old dataSize done) 4 (writeLe 4 new) = w.fileBytes new dataSize done :=
  overwrite_middle rfl (by rw [writeLe_length, writeLe_length])

theorem overwrite_dataSize (riffSize old new : Nat) :
    overwrite (w.fileBytes riffSize old done) 40 (writeLe 4 new) = w.fileBytes riffSize new done := by
  have hsplit (n : Nat) : w.fileBytes riffSize n done =
      CppString.lit "RIFF" ++ (writeLe 4 riffSize ++ w.betweenSizes) ++ (writeLe 4 n ++ done) := by
    rw [fileBytes]
    simp only [List.append_assoc]
  have hbefore : (CppString.lit "RIFF" ++ (writeLe 4 riffSize ++ w.betweenSizes)).length = 40 := by
    simp only [List.length_append, writeLe_length, betweenSizes_length]
    rfl
  rw [hsplit, hsplit]
  exact overwrite_middle hbefore (by rw [writeLe_length, writeLe_length])

theorem Holds.patched (h : Holds w done) (hopen : w.closed = false) :
    (w.patched faults).At (w.header done.length ++ done) (w.header done.length ++ done).length := by
  have hstart := h.writing hopen
  have hriff : ((w.file.seekp faults 4).write faults (writeLe 4 (kRiffSizeWithoutData + w.dataSize))).At _ _ :=
    (hstart.seekp 4).write _
  rw [header_append, overwrite_riffSize] at hriff
  have hdata : ((((w.file.seekp faults 4).write faults (writeLe 4 (kRiffSizeWithoutData + w.dataSize))).seekp faults 40).write
    faults (writeLe 4 w.dataSize)).At _ _ := (hriff.seekp 40).write _
  rw [overwrite_dataSize, ← header_append, h.size] at hdata
  rw [← h.size] at hdata ⊢
  exact hdata.seekEnd

theorem Holds.close (h : Holds w done) : Holds (w.close faults).1 done := by
  have hcases : Closed faults w (w.close faults) := close_closed (h.size ▸ h.limit)
  generalize w.close faults = result at hcases
  cases hcases with
  | already hclosed => exact h
  | broken e file _ hfailed hopen => exact h.broken hfailed hopen
  | closed hopen hgood =>
    refine ⟨h.size, h.limit, h.aligned, nofun, fun _ => ?_⟩
    exact ((h.patched hopen).flush hgood).1

/-- What a call leaves alone. -/
structure SameFormat (w w' : WavWriter) : Prop where
  header : w'.header = w.header
  blockAlign : w'.blockAlign = w.blockAlign

theorem reply_sameFormat (h : w.dataSize ≤ maxDataSize) (call : Call) : SameFormat w (w.reply faults call).1 := by
  cases call with
  | writePcm pcm =>
    have hcases : Written faults w pcm (w.reply faults (.writePcm pcm)) := writePcm_written
    generalize w.reply faults (.writePcm pcm) = result at hcases
    cases hcases <;> exact ⟨rfl, rfl⟩
  | close =>
    have hcases : Closed faults w (w.reply faults .close) := close_closed h
    generalize w.reply faults .close = result at hcases
    cases hcases <;> exact ⟨rfl, rfl⟩

theorem Holds.reply (h : Holds w done) (call : Call) : Holds (w.reply faults call).1 (done ++ w.acceptedBy faults call) := by
  cases call with
  | writePcm pcm => exact h.writePcm
  | close =>
    rw [acceptedBy, List.append_nil]
    exact h.close

theorem Holds.after (h : Holds w done) (calls : List Call) :
    Holds (w.after faults calls) (done ++ w.accepted faults calls) ∧ SameFormat w (w.after faults calls) := by
  induction calls generalizing w done with
  | nil =>
    rw [accepted, List.append_nil]
    exact ⟨h, rfl, rfl⟩
  | cons call calls ih =>
    have hsame : SameFormat w (w.reply faults call).1 := reply_sameFormat (h.size ▸ h.limit) call
    obtain ⟨hrest, hheader, halign⟩ := ih (h.reply call)
    rw [List.append_assoc] at hrest
    exact ⟨hrest, hheader.trans hsame.header, halign.trans hsame.blockAlign⟩

/-! ### Without faults -/

theorem patched_good (hfaults : ∀ n, faults n = none) (h : w.file.failed = false) : (w.patched faults).failed = false := by
  have hriff : ((w.file.seekp faults 4).write faults (writeLe 4 (kRiffSizeWithoutData + w.dataSize))).failed = false :=
    OutputStream.write_good hfaults (OutputStream.move_good hfaults h 4) _
  exact OutputStream.move_good hfaults
    (OutputStream.write_good hfaults (OutputStream.move_good hfaults hriff 40) _) _

theorem close_good (hfaults : ∀ n, faults n = none) (hlimit : w.dataSize ≤ maxDataSize) (h : w.file.failed = false) :
    (w.close faults).1.file.failed = false ∧ (w.close faults).2 = .ok () ∧ (w.close faults).1.closed = true := by
  have hpatched : (w.patched faults).failed = false := patched_good hfaults h
  have hcases : Closed faults w (w.close faults) := close_closed hlimit
  generalize w.close faults = result at hcases
  cases hcases with
  | already hclosed => exact ⟨h, rfl, hclosed⟩
  | broken e file hfile hfailed _ =>
    have hgood : file.failed = false := by
      rcases hfile with rfl | rfl
      · exact hpatched
      · exact OutputStream.move_good hfaults hpatched _
    rw [hgood] at hfailed
    cases hfailed
  | closed _ hgood => exact ⟨hgood, rfl, rfl⟩

theorem reply_good (hfaults : ∀ n, faults n = none) (hlimit : w.dataSize ≤ maxDataSize) (h : w.file.failed = false)
    (call : Call) : (w.reply faults call).1.file.failed = false := by
  cases call with
  | writePcm pcm =>
    have hwrite : (w.file.write faults pcm.data).failed = false := OutputStream.write_good hfaults h _
    have hcases : Written faults w pcm (w.reply faults (.writePcm pcm)) := writePcm_written
    generalize w.reply faults (.writePcm pcm) = result at hcases
    cases hcases with
    | rejected e => exact h
    | empty _ => exact h
    | broken e hfailed _ => exact hwrite
    | written _ _ _ hgood => exact hgood
  | close => exact (close_good hfaults hlimit h).1

theorem after_good (hfaults : ∀ n, faults n = none) (hholds : Holds w done) (h : w.file.failed = false)
    (calls : List Call) : (w.after faults calls).file.failed = false := by
  induction calls generalizing w done with
  | nil => exact h
  | cons call calls ih => exact ih (hholds.reply call) (reply_good hfaults (hholds.size ▸ hholds.limit) h call)

/-! ### The constructor -/

variable {opens : Bool} {path : CppString} {sampleRate : UInt32} {channels bitsPerSample : UInt16}

/-- The writer that the constructor gives, before its header is written. -/
def opened (path : CppString) (sampleRate : UInt32) (channels bitsPerSample : UInt16) : WavWriter :=
  { path, sampleRate, channels, bitsPerSample, blockAlign := channels.toNat * (bitsPerSample.toNat / 8), closed := false }

/-- The file with its first header. -/
def openedFile (faults : Nat → Option Nat) (w : WavWriter) : OutputStream :=
  w.file.writeAll faults (w.headerPieces (kRiffSizeWithoutData + 0) w.byteRate 0)

theorem writeHeader_eq {w' : WavWriter} (h : w.writeHeader faults 0 = .ok w') :
    w' = { w with file := w.openedFile faults } := by
  unfold writeHeader at h
  obtain ⟨byteRate, hrate, h⟩ := exists_of_bind h
  obtain ⟨riffSize, hriff, h⟩ := exists_of_bind h
  unfold checkedU32 at hrate hriff
  split at hrate
  · cases hrate
  split at hriff
  · cases hriff
  cases hrate
  cases hriff
  cases h
  rfl

theorem make_eq (h : make faults opens path sampleRate channels bitsPerSample = .ok w) :
    w = { opened path sampleRate channels bitsPerSample with
      file := (opened path sampleRate channels bitsPerSample).openedFile faults } ∧ w.file.failed = false := by
  unfold make at h
  dsimp only at h
  repeat' split at h
  all_goals first | cases h | skip
  obtain ⟨written, hwritten, h⟩ := exists_of_bind h
  obtain ⟨⟨⟩, hok, h⟩ := exists_of_bind h
  cases h
  exact ⟨writeHeader_eq hwritten, good_of_ensureStreamOk hok⟩

theorem make_holds (h : make faults opens path sampleRate channels bitsPerSample = .ok w) : Holds w [] := by
  obtain ⟨hw, -⟩ := make_eq h
  rw [hw]
  refine ⟨rfl, Nat.zero_le _, Nat.zero_mod _, fun _ => ?_, nofun⟩
  have hempty : (opened path sampleRate channels bitsPerSample).file.At [] ([] : List UInt8).length := fun _ => ⟨rfl, rfl⟩
  rw [List.append_nil]
  exact hempty.writeAll _

end Calls

/-! ## The file -/

/-- 44 bytes, then the PCM; the sizes are those of the file and of the PCM. -/
structure WavFile (file pcm : List UInt8) : Prop where
  split : ∃ header, header.length = 44 ∧ file = header ++ pcm
  riffSize : readLe 4 (file.drop 4) = file.length - 8
  dataSize : readLe 4 (file.drop 40) = pcm.length

section File

variable {faults : Nat → Option Nat} {w : WavWriter} {done : List UInt8}

theorem wavFile (h : done.length ≤ maxDataSize) : WavFile (w.header done.length ++ done) done := by
  have hsmall : kRiffSizeWithoutData + done.length < 256 ^ 4 := by
    have := (fits_of_le h).2
    unfold maxU32 at this
    omega
  refine ⟨⟨_, w.header_length _, rfl⟩, ?_, ?_⟩
  · rw [List.length_append, header_length, header_append, fileBytes, List.drop_left' (by rfl), readLe_writeLe_of_lt hsmall]
    unfold kRiffSizeWithoutData
    omega
  · have hsplit : w.header done.length ++ done =
        CppString.lit "RIFF" ++ (writeLe 4 (kRiffSizeWithoutData + done.length) ++ w.betweenSizes) ++
          (writeLe 4 done.length ++ done) := by
      rw [header_eq]
      simp only [List.append_assoc]
    have hbefore : (CppString.lit "RIFF" ++ (writeLe 4 (kRiffSizeWithoutData + done.length) ++ w.betweenSizes)).length =
        40 := by
      simp only [List.length_append, writeLe_length, betweenSizes_length]
      rfl
    rw [hsplit, List.drop_left' hbefore, readLe_writeLe_of_lt (by omega)]

/-- The file as the reader takes it apart. -/
def layout (w : WavWriter) (done : List UInt8) (hdone : done ≠ [] ∧ done.length ≤ WavReader.maxChunkSize) :
    WavReader.WavLayout where
  riffSize := writeLe 4 (kRiffSizeWithoutData + done.length)
  fmt := w.formatBytes
  data := done
  four := writeLe_length _ _
  fmtFits := by
    rw [formatBytes_length]
    decide
  dataFits := hdone

theorem layout_bytes (hdone : done ≠ [] ∧ done.length ≤ WavReader.maxChunkSize) (heven : done.length % 2 = 0) :
    (w.layout done hdone).bytes = w.header done.length ++ done := by
  have hodd : ¬ done.length % 2 = 1 := by omega
  have hsixteen : ¬ 16 % 2 = 1 := by decide
  rw [header_append, fileBytes]
  unfold WavReader.WavLayout.bytes WavReader.WavLayout.chunks WavReader.WavLayout.fmtChunk WavReader.WavLayout.dataChunk
    WavReader.chunkBytes layout betweenSizes
  simp only [if_pos, if_neg hodd, if_neg hsixteen, List.flatMap_nil, List.nil_append, List.append_nil, List.append_assoc,
    formatBytes_length, kFmtChunkSize]

theorem reads_back (hdone : done ≠ [] ∧ done.length ≤ WavReader.maxChunkSize)
    (heven : done.length % 2 = 0) (hformat : (w.layout done hdone).Mono24kPcm16) :
    WavReader.readMono24kWav (w.header done.length ++ done) = .ok (WavReader.pcm16Samples done) := by
  rw [← layout_bytes hdone heven, WavReader.WavLayout.readMono24kWav_layout hformat]
  exact if_neg (not_not.mpr heven)

/-- The format of a writer for the native worker's reader. -/
theorem mono24kPcm16_of_make {opens : Bool} {path : CppString} (h : make faults opens path 24000 1 16 = .ok w)
    (hdone : done ≠ [] ∧ done.length ≤ WavReader.maxChunkSize) : (w.layout done hdone).Mono24kPcm16 := by
  obtain ⟨hw, -⟩ := make_eq h
  have hformat : w.formatBytes = (opened [] 24000 1 16).formatBytes := by
    rw [hw]
    rfl
  unfold WavReader.WavLayout.Mono24kPcm16 layout
  dsimp only
  rw [hformat]
  decide

end File

/-- A closed writer has left a WAV file of the PCM that it accepted; the reader takes any
    well-formed file apart, in a bounded number of turns, so also that one. -/
theorem wav_writing_and_reading_agree :
    (∀ faults opens path sampleRate channels bitsPerSample w,
      make faults opens path sampleRate channels bitsPerSample = .ok w → ∀ calls,
        (∀ pcm e, ((w.after faults calls).writePcm faults pcm).2 = .error e →
          ((w.after faults calls).writePcm faults pcm).1 = w.after faults calls ∨
            ((w.after faults calls).writePcm faults pcm).1.file.failed = true) ∧
        ((w.after faults calls).closed = true →
          WavFile (w.after faults calls).file.contents (w.accepted faults calls)) ∧
        ((∀ n, faults n = none) →
          ((w.after faults calls).close faults).2 = .ok () ∧ ((w.after faults calls).close faults).1.closed = true)) ∧
    (∀ layout : WavReader.WavLayout, layout.Mono24kPcm16 → WavReader.readMono24kWav layout.bytes =
      if layout.data.length % 2 ≠ 0 then WavReader.fail "reference WAV contains a partial PCM16 sample"
      else .ok (WavReader.pcm16Samples layout.data)) ∧
    (∀ faults opens path w, make faults opens path 24000 1 16 = .ok w → ∀ calls,
      (w.after faults calls).closed = true → w.accepted faults calls ≠ [] →
      (w.accepted faults calls).length ≤ WavReader.maxChunkSize →
        WavReader.readMono24kWav (w.after faults calls).file.contents =
          .ok (WavReader.pcm16Samples (w.accepted faults calls))) ∧
    (∀ format data input,
      WavReader.loop (input.length / 8 + 1) format data input = some (WavReader.readChunks format data input)) := by
  refine ⟨fun faults opens path sampleRate channels bitsPerSample w hmake calls => ⟨fun pcm e herror => ?_, fun hclosed => ?_,
    fun hfaults => ?_⟩, fun layout hlayout => WavReader.WavLayout.readMono24kWav_layout hlayout,
    fun faults opens path w hmake calls hclosed hsome hfits => ?_, fun format data input => WavReader.loop_eq (Nat.lt_succ_self _)⟩
  · have hcases : Written faults (w.after faults calls) pcm ((w.after faults calls).writePcm faults pcm) := writePcm_written
    generalize (w.after faults calls).writePcm faults pcm = result at hcases herror
    cases hcases with
    | rejected e => exact .inl rfl
    | broken e hfailed _ => exact .inr hfailed
    | empty _ | written _ _ _ _ => cases herror
  · obtain ⟨hholds, -⟩ : Holds (w.after faults calls) ([] ++ w.accepted faults calls) ∧ _ := (make_holds hmake).after calls
    rw [List.nil_append] at hholds
    rw [hholds.finished hclosed]
    exact wavFile hholds.limit
  · have hgood : (w.after faults calls).file.failed = false :=
      after_good hfaults (make_holds hmake) (make_eq hmake).2 calls
    obtain ⟨hholds, -⟩ : Holds (w.after faults calls) ([] ++ w.accepted faults calls) ∧ _ := (make_holds hmake).after calls
    exact (close_good hfaults (hholds.size ▸ hholds.limit) hgood).2
  · obtain ⟨hholds, hsame⟩ : Holds (w.after faults calls) ([] ++ w.accepted faults calls) ∧ _ := (make_holds hmake).after calls
    rw [List.nil_append] at hholds
    have halign : w.blockAlign = 2 := by
      rw [(make_eq hmake).1]
      rfl
    have heven := hholds.aligned
    rw [hsame.blockAlign, halign] at heven
    rw [hholds.finished hclosed, hsame.header]
    exact reads_back ⟨hsome, hfits⟩ heven (mono24kPcm16_of_make hmake ⟨hsome, hfits⟩)

/-! ### Two files -/

/-- A writer of mono 24 kHz PCM16, when nothing fails. -/
def fresh : Except CppString WavWriter := make (fun _ => none) true (CppString.lit "a.wav") 24000 1 16

/-- The writer leaves a file that the reader refuses. -/
theorem a_file_without_samples_is_refused :
    (fresh.map fun w => ((w.after (fun _ => none) [.close]).closed,
      WavReader.readMono24kWav (w.after (fun _ => none) [.close]).file.contents)) =
        .ok (true, WavReader.fail "reference WAV is missing fmt or data") := by decide +kernel

example : (fresh.map fun w => WavReader.readMono24kWav
    (w.after (fun _ => none) [.writePcm (.bytes [0, 64]), .writePcm (.bytes [1]), .close]).file.contents) =
      .ok (.ok [0x3F000000]) := by decide +kernel

end WavWriter

end QwenTtsBridge.Audio
