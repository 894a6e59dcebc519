/-
  QwenTtsBridge.Audio.WavReader — the reference audio of the native worker
  (`native/qwentts/wav_reader.cpp`).

  A file is its bytes. Seeking past the end of a stream succeeds, and the next read finds
  nothing. A `float` is its 32 bits.

  `readMono24kWav_length`: a chunk declares at most 1 GiB, so however large the file is, at
  most 2^29 samples come out, which fit the ABI's `int`.
  `units_ofPcm16`: the `float` of a 16-bit sample is its value over 32768, exactly.
-/

import QwenTtsBridge.Lib.LittleEndian
import QwenTtsBridge.Protocol.Control

namespace QwenTtsBridge.Audio.WavReader

open QwenTtsBridge.Lib.LittleEndian QwenTtsBridge.Protocol.Control

/-! ## Single precision -/

/-- The bits of a `float`. -/
abbrev Binary32 := UInt32

/-- `static_cast<float>(raw) / 32768.0F`, which is exact: with `magnitude = 2^e + rest` the
    number is `2^(e - 15) + rest * 2^-15`. -/
def ofPcm16 (raw : Nat) : Binary32 :=
  let negative := 0x8000 ≤ raw
  let magnitude := if negative then 0x10000 - raw else raw
  if magnitude = 0 then 0
  else
    let e := magnitude.log2
    UInt32.ofNat ((if negative then 2 ^ 31 else 0) + (e + 112) * 2 ^ 23 + (magnitude - 2 ^ e) * 2 ^ (23 - e))

def isFinite (x : Binary32) : Bool := x >>> 23 &&& 0xFF != 0xFF

/-- `std::clamp(x, -1.0F, 1.0F)` of a finite number. -/
def clampUnit (x : Binary32) : Binary32 :=
  if 0x3F800000 < x &&& 0x7FFFFFFF then (x &&& 0x80000000) ||| 0x3F800000 else x

example : ofPcm16 0x4000 = 0x3F000000 ∧ ofPcm16 0x8000 = 0xBF800000 ∧ ofPcm16 0xFFFF = 0xB8000000 := by decide

/-! ## The reader -/

structure WavFormat where
  format : Nat
  channels : Nat
  sampleRate : Nat
  bitsPerSample : Nat
  deriving DecidableEq, Repr

def readFormat (bytes : List UInt8) : WavFormat where
  format := readLe 2 bytes
  channels := readLe 2 (bytes.drop 2)
  sampleRate := readLe 4 (bytes.drop 4)
  bitsPerSample := readLe 2 (bytes.drop 14)

def fail {α : Type} (what : String) : Except CppString α := .error (CppString.lit what)

def maxChunkSize : Nat := 1024 * 1024 * 1024

/-- The loop over the chunks, with the format and the data found so far. -/
def readChunks (format : Option WavFormat) (data : List UInt8) (input : List UInt8) :
    Except CppString (Option WavFormat × List UInt8) :=
  if format.isSome ∧ data ≠ [] then .ok (format, data)
  else if input = [] then .ok (format, data)
  else if input.length < 8 then fail "truncated WAV chunk header"
  else
    let size := readLe 4 (input.drop 4)
    let body := input.drop 8
    let next := body.drop (size + size % 2)
    if maxChunkSize < size then fail "reference WAV chunk is too large"
    else if input.take 4 = CppString.lit "fmt " then
      if size < 16 then fail "reference WAV fmt chunk is too small"
      else if body.length < size then fail "truncated WAV fmt chunk"
      else readChunks (some (readFormat body)) data next
    else if input.take 4 = CppString.lit "data" then
      if body.length < size then fail "truncated WAV data chunk"
      else readChunks format (body.take size) next
    else readChunks format data next
termination_by input.length
decreasing_by all_goals simp only [List.length_drop]; omega

def pcm16Samples : List UInt8 → List Binary32
  | low :: high :: rest => ofPcm16 (readLe 2 [low, high]) :: pcm16Samples rest
  | _ => []

def float32Samples : List UInt8 → List Binary32
  | a :: b :: c :: d :: rest => UInt32.ofNat (readLe 4 [a, b, c, d]) :: float32Samples rest
  | _ => []

def decodeSamples (format : WavFormat) (data : List UInt8) : Except CppString (List Binary32) :=
  if format.format = 1 ∧ format.bitsPerSample = 16 then
    if data.length % 2 ≠ 0 then fail "reference WAV contains a partial PCM16 sample" else .ok (pcm16Samples data)
  else if format.format = 3 ∧ format.bitsPerSample = 32 then
    if data.length % 4 ≠ 0 then fail "reference WAV contains a partial float32 sample"
    else if !(float32Samples data).all isFinite then fail "reference WAV contains a non-finite sample"
    else .ok ((float32Samples data).map clampUnit)
  else fail "reference WAV must use PCM16 or IEEE float32 samples"

/-- `read_mono_24k_wav` of a file that could be opened. -/
def readMono24kWav (file : List UInt8) : Except CppString (List Binary32) :=
  if file.length < 12 then fail "truncated WAV header"
  else if file.take 4 ≠ CppString.lit "RIFF" ∨ (file.drop 8).take 4 ≠ CppString.lit "WAVE" then
    fail "reference audio must be a RIFF/WAVE file"
  else
    match readChunks none [] (file.drop 12) with
    | .error e => .error e
    | .ok (none, _) => fail "reference WAV is missing fmt or data"
    | .ok (some format, data) =>
      if data = [] then fail "reference WAV is missing fmt or data"
      else if format.channels ≠ 1 ∨ format.sampleRate ≠ 24000 then fail "reference WAV must be mono 24000 Hz"
      else decodeSamples format data

/-- `append_reference_trailing_silence` of half a second. -/
def appendReferenceTrailingSilence (samples : List Binary32) : List Binary32 := samples ++ List.replicate 12000 0

/-! ## PCM16 is exact -/

/-- The value of a finite `float`, in units of the least one, `2^-149`. -/
def units (x : Binary32) : Int :=
  let exponent : Nat := x.toNat / 2 ^ 23 % 2 ^ 8
  let fraction : Nat := x.toNat % 2 ^ 23
  let magnitude : Nat := if exponent = 0 then fraction else (2 ^ 23 + fraction) * 2 ^ (exponent - 1)
  if 2 ^ 31 ≤ x.toNat then -magnitude else magnitude

def magnitude (raw : Nat) : Nat := if 0x8000 ≤ raw then 0x10000 - raw else raw

/-- The fields of a sample's bits: the leading bit of the magnitude gives the exponent, and the
    bits after it are the fraction. -/
theorem ofPcm16_fields {raw : Nat} (hlt : raw < 2 ^ 16) (hraw : raw ≠ 0) : ∃ e fraction, e ≤ 15 ∧ fraction < 2 ^ 23 ∧
    (e = 15 → fraction = 0) ∧ 2 ^ 23 + fraction = magnitude raw * 2 ^ (23 - e) ∧
    (ofPcm16 raw).toNat = (if 0x8000 ≤ raw then 2 ^ 31 else 0) + (e + 112) * 2 ^ 23 + fraction := by
  have hne : magnitude raw ≠ 0 := by
    unfold magnitude
    split <;> omega
  have hle : magnitude raw ≤ 2 ^ 15 := by
    unfold magnitude
    split <;> omega
  have hword : ofPcm16 raw = UInt32.ofNat ((if 0x8000 ≤ raw then 2 ^ 31 else 0) + ((magnitude raw).log2 + 112) * 2 ^ 23 +
      (magnitude raw - 2 ^ (magnitude raw).log2) * 2 ^ (23 - (magnitude raw).log2)) := by
    unfold magnitude at hne ⊢
    unfold ofPcm16
    simp only [if_neg hne]
  have hlow : 2 ^ (magnitude raw).log2 ≤ magnitude raw := Nat.log2_self_le hne
  have hhigh : magnitude raw < 2 ^ ((magnitude raw).log2 + 1) := Nat.lt_log2_self
  have he : (magnitude raw).log2 ≤ 15 := (Nat.pow_le_pow_iff_right (by omega)).mp (hlow.trans hle)
  generalize (magnitude raw).log2 = e at *
  have hone : 2 ^ e * 2 ^ (23 - e) = 2 ^ 23 := by
    rw [← Nat.pow_add, Nat.add_sub_cancel' (by omega)]
  have htwo : magnitude raw * 2 ^ (23 - e) < 2 ^ 24 := by
    calc
      magnitude raw * 2 ^ (23 - e) < 2 ^ (e + 1) * 2 ^ (23 - e) := Nat.mul_lt_mul_of_pos_right hhigh (Nat.two_pow_pos _)
      _ = 2 ^ 23 * 2 := by rw [Nat.pow_succ, Nat.mul_right_comm, hone]
  have hleast : 2 ^ e * 2 ^ (23 - e) ≤ magnitude raw * 2 ^ (23 - e) := Nat.mul_le_mul_right _ hlow
  have hfraction : (magnitude raw - 2 ^ e) * 2 ^ (23 - e) = magnitude raw * 2 ^ (23 - e) - 2 ^ 23 := by
    rw [Nat.sub_mul, hone]
  refine ⟨e, magnitude raw * 2 ^ (23 - e) - 2 ^ 23, he, by omega, fun htop => ?_, by omega, ?_⟩
  · subst htop
    have hexact : magnitude raw = 2 ^ 15 := Nat.le_antisymm hle hlow
    rw [hexact]
    rfl
  · have hsize : UInt32.size = 2 ^ 32 := rfl
    rw [hword, hfraction, UInt32.toNat_ofNat_of_lt' ?_]
    split <;> omega

theorem toInt_ofNat16 {raw : Nat} (hlt : raw < 2 ^ 16) :
    (Int16.ofNat raw).toInt = if 0x8000 ≤ raw then -(magnitude raw : Int) else magnitude raw := by
  have hsize : Int16.size = 2 ^ 16 := rfl
  rw [Int16.toInt_ofNat', Int.bmod_def, hsize]
  unfold magnitude
  split <;> split <;> omega

/-- No bit of a sample is lost. -/
theorem units_ofPcm16 {raw : Nat} (hlt : raw < 2 ^ 16) : units (ofPcm16 raw) = (Int16.ofNat raw).toInt * 2 ^ 134 := by
  by_cases hraw : raw = 0
  · subst hraw
    rfl
  obtain ⟨e, fraction, he, hfraction, -, hvalue, hword⟩ := ofPcm16_fields hlt hraw
  have hexponent : (ofPcm16 raw).toNat / 2 ^ 23 % 2 ^ 8 = e + 112 := by
    rw [hword]
    split <;> omega
  have hrest : (ofPcm16 raw).toNat % 2 ^ 23 = fraction := by
    rw [hword]
    split <;> omega
  have hsign : 2 ^ 31 ≤ (ofPcm16 raw).toNat ↔ 0x8000 ≤ raw := by
    rw [hword]
    split <;> omega
  have hscaled : (2 ^ 23 + fraction) * 2 ^ (e + 112 - 1) = magnitude raw * 2 ^ 134 := by
    rw [hvalue, Nat.mul_assoc, ← Nat.pow_add]
    congr 2
    omega
  unfold units
  simp only [hexponent, hrest, hsign, if_neg (Nat.succ_ne_zero _), hscaled]
  rw [toInt_ofNat16 hlt]
  split <;> simp

/-- A sample is in the range of a clamp. -/
theorem clampUnit_ofPcm16 {raw : Nat} (hlt : raw < 2 ^ 16) : clampUnit (ofPcm16 raw) = ofPcm16 raw := by
  by_cases hraw : raw = 0
  · subst hraw
    rfl
  obtain ⟨e, fraction, he, hfraction, htop, -, hword⟩ := ofPcm16_fields hlt hraw
  refine if_neg ?_
  rw [UInt32.lt_iff_toNat_lt, UInt32.toNat_and]
  show ¬ 0x3F800000 < (ofPcm16 raw).toNat &&& (2 ^ 31 - 1)
  rw [Nat.and_two_pow_sub_one_eq_mod, hword]
  split <;> omega

/-- The samples of PCM16 bytes. -/
def pcm16 : List UInt8 → List Int
  | low :: high :: rest => (Int16.ofNat (readLe 2 [low, high])).toInt :: pcm16 rest
  | _ => []

theorem units_pcm16Samples (data : List UInt8) : (pcm16Samples data).map units = (pcm16 data).map (· * 2 ^ 134) := by
  fun_induction pcm16Samples data with
  | case1 low high rest ih => rw [List.map_cons, units_ofPcm16 (readLe_lt 2 _), ih, pcm16, List.map_cons]
  | case2 data hshort =>
    unfold pcm16
    split
    · exact absurd rfl (hshort _ _ _)
    · rfl

theorem pcm16Samples_append {data : List UInt8} (heven : data.length % 2 = 0) (rest : List UInt8) :
    pcm16Samples (data ++ rest) = pcm16Samples data ++ pcm16Samples rest := by
  fun_induction pcm16Samples data with
  | case1 low high data ih =>
    have hless : data.length % 2 = 0 := by
      simp only [List.length_cons] at heven
      omega
    rw [List.cons_append, List.cons_append, pcm16Samples, ih hless, List.cons_append]
  | case2 data hshort =>
    cases data with
    | nil => rfl
    | cons low data =>
      cases data with
      | nil => cases heven
      | cons high data => exact absurd rfl (hshort _ _ _)

/-! ## How much audio there is -/

theorem readChunks_length {format format' : Option WavFormat} {data data' input : List UInt8}
    (hdata : data.length ≤ maxChunkSize) (h : readChunks format data input = .ok (format', data')) :
    data'.length ≤ maxChunkSize := by
  fun_induction readChunks format data input with
  | case1 | case2 =>
    cases h
    exact hdata
  | case3 | case4 | case5 | case6 | case8 => cases h
  | case7 format data input _ _ _ _ _ _ _ _ _ _ ih => exact ih hdata h
  | case9 format data input _ _ _ size body _ hsize _ _ _ ih =>
    refine ih ?_ h
    rw [List.length_take]
    omega
  | case10 format data input _ _ _ _ _ _ _ _ _ ih => exact ih hdata h

theorem pcm16Samples_length (data : List UInt8) : (pcm16Samples data).length ≤ data.length / 2 := by
  fun_induction pcm16Samples data with
  | case1 low high rest ih =>
    simp only [List.length_cons]
    omega
  | case2 => exact Nat.zero_le _

theorem float32Samples_length (data : List UInt8) : (float32Samples data).length ≤ data.length / 4 := by
  fun_induction float32Samples data with
  | case1 a b c d rest ih =>
    simp only [List.length_cons]
    omega
  | case2 => exact Nat.zero_le _

theorem decodeSamples_length {format : WavFormat} {data : List UInt8} {samples : List Binary32}
    (h : decodeSamples format data = .ok samples) : samples.length ≤ data.length / 2 := by
  unfold decodeSamples at h
  split at h
  · split at h
    · cases h
    · cases h
      exact pcm16Samples_length data
  split at h
  · split at h
    · cases h
    split at h
    · cases h
    · cases h
      rw [List.length_map]
      have := float32Samples_length data
      omega
  · cases h

theorem readMono24kWav_length {file : List UInt8} {samples : List Binary32} (h : readMono24kWav file = .ok samples) :
    samples.length ≤ 2 ^ 29 := by
  unfold readMono24kWav at h
  split at h
  · cases h
  split at h
  · cases h
  split at h
  · cases h
  · cases h
  · rename_i format data hchunks
    split at h
    · cases h
    split at h
    · cases h
    have hdata := readChunks_length (Nat.zero_le _) hchunks
    have hsamples := decodeSamples_length h
    simp only [maxChunkSize] at hdata
    omega

end QwenTtsBridge.Audio.WavReader
