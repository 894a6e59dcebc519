/-
  QwenTtsBridge.Audio.TerminalFade — `TerminalFadePostProcessor`
  (`audio/terminal_fade_post_processor.cpp`).

  The processor holds back the last `hold_bytes_` bytes it was given; at the end these are
  faded and followed by silence, unless the stream ends in an error. `size_t` values are
  natural numbers, sample positions and counts have the source's widths. What a sample is
  scaled to (`lround` of a product, clamped) is a parameter, `shape sample frame frames`.

  `fade_ignores_chunking`: what comes out is a function of the bytes that went in
  (`expected`), however they were cut into chunks, and the chunks that come out have the
  sample positions that go with it. `Ready` is what holds between two chunks.
-/

import QwenTtsBridge.Audio.PostProcessor

namespace QwenTtsBridge.Audio.TerminalFade

open QwenTtsBridge.Protocol.Control QwenTtsBridge.Lib

/-! ## Model -/

def maxDurationMs : UInt32 := 600000

def thrown (what : String) : Exception := .std (CppString.lit what)

def formatsMatch (left right : AudioFormat) : Bool :=
  left.sampleFormat = right.sampleFormat ∧ left.sampleRate = right.sampleRate ∧ left.channels = right.channels

/-- `rate * ms + 500` fits 64 bits for all rates and durations. -/
def durationSamples (format : AudioFormat) (durationMs : UInt32) : Nat :=
  (format.sampleRate.toNat * durationMs.toNat + 500) / 1000

/-- The second check of the source compares a 64-bit number with the largest `size_t`. -/
def checkedDurationBytes (format : AudioFormat) (frameBytes : Nat) (durationMs : UInt32) : Except Exception Nat :=
  if frameBytes ≠ 0 ∧ durationSamples format durationMs > (2 ^ 64 - 1) / frameBytes then
    .error (thrown "audio terminal duration is too large")
  else .ok (durationSamples format durationMs * frameBytes)

structure TerminalFadeOptions where
  fadeMs : UInt32 := 15
  completionSilenceMs : UInt32 := 85
  cancellationSilenceMs : UInt32 := 0
  deriving DecidableEq, Repr

structure TerminalFadePostProcessor where
  options : TerminalFadeOptions
  format : Option AudioFormat := none
  requestId : UInt64 := 0
  frameBytes : Nat := 0
  holdBytes : Nat := 0
  pendingFirstSample : UInt64 := 0
  pendingSampleCount : UInt64 := 0
  receivedAudio : Bool := false
  finished : Bool := false
  pending : List UInt8 := []
  deriving DecidableEq, Repr

namespace TerminalFadePostProcessor

/-- The constructor. -/
def make (options : TerminalFadeOptions) : Except Exception TerminalFadePostProcessor :=
  if options.fadeMs > maxDurationMs ∨ options.completionSilenceMs > maxDurationMs ∨
      options.cancellationSilenceMs > maxDurationMs then
    .error (thrown "audio terminal durations must not exceed 600000 ms")
  else .ok { options }

def validateChunk (p : TerminalFadePostProcessor) (format : AudioFormat) (chunk : PcmChunk) : Except Exception Unit :=
  if ¬ formatsMatch format chunk.format then .error (thrown "audio format changed inside a post-processed stream")
  else if p.requestId ≠ chunk.requestId then .error (thrown "request ID changed inside a post-processed stream")
  else if chunk.bytes.length % p.frameBytes ≠ 0 then
    .error (thrown "PCM chunk does not contain complete sample frames")
  else if chunk.sampleCount ≠ 0 ∧ chunk.sampleCount.toNat ≠ chunk.bytes.length / p.frameBytes then
    .error (thrown "PCM chunk sample_count does not match its payload")
  else if p.receivedAudio ∧ chunk.sampleCount ≠ 0 ∧ chunk.firstSample ≠ p.pendingFirstSample + p.pendingSampleCount then
    .error (thrown "PCM chunk sample timeline is not contiguous")
  else .ok ()

/-- What it has set when it throws stays set. -/
def configure (p : TerminalFadePostProcessor) (chunk : PcmChunk) : TerminalFadePostProcessor × Except Exception Unit :=
  if chunk.format.sampleFormat ≠ CppString.lit "s16le" then
    (p, .error (thrown "terminal fade post-processor supports only s16le PCM"))
  else if chunk.format.sampleRate = 0 ∨ chunk.format.channels = 0 then
    (p, .error (thrown "terminal fade post-processor requires a valid PCM format"))
  else
    let p := { p with
      format := some chunk.format, requestId := chunk.requestId, frameBytes := chunk.format.channels.toNat * 2 }
    match checkedDurationBytes chunk.format p.frameBytes p.options.fadeMs with
    | .error e => (p, .error e)
    | .ok holdBytes =>
      let p := { p with holdBytes }
      (p, p.validateChunk chunk.format chunk)

def outputFrom (p : TerminalFadePostProcessor) (format : AudioFormat) (bytes : List UInt8) : PcmChunk where
  requestId := p.requestId
  format := format
  firstSample := p.pendingFirstSample
  sampleCount := UInt32.ofNat (bytes.length / p.frameBytes)
  bytes := bytes

/-- `process` on a checked chunk that is not empty. -/
def hold (p : TerminalFadePostProcessor) (format : AudioFormat) (chunk : PcmChunk) :
    TerminalFadePostProcessor × List PcmChunk :=
  let chunkSamples :=
    if chunk.sampleCount ≠ 0 then chunk.sampleCount.toUInt64 else UInt64.ofNat (chunk.bytes.length / p.frameBytes)
  let p := { p with
    receivedAudio := true
    pendingFirstSample := if p.pending.isEmpty then chunk.firstSample else p.pendingFirstSample
    pendingSampleCount := p.pendingSampleCount + chunkSamples
    pending := p.pending ++ chunk.bytes }
  if p.pending.length ≤ p.holdBytes then (p, [])
  else
    let emittedBytes := p.pending.length - p.holdBytes
    let output := p.outputFrom format (p.pending.take emittedBytes)
    ({ p with
      pending := p.pending.drop emittedBytes
      pendingFirstSample := p.pendingFirstSample + output.sampleCount.toUInt64
      pendingSampleCount := p.pendingSampleCount - min p.pendingSampleCount output.sampleCount.toUInt64 }, [output])

def check (p : TerminalFadePostProcessor) (chunk : PcmChunk) : TerminalFadePostProcessor × Except Exception Unit :=
  match p.format with
  | none => p.configure chunk
  | some format => (p, p.validateChunk format chunk)

def process (p : TerminalFadePostProcessor) (chunk : PcmChunk) :
    TerminalFadePostProcessor × Except Exception (List PcmChunk) :=
  if p.finished then (p, .ok [])
  else
    match p.check chunk with
    | (p, .error e) => (p, .error e)
    | (p, .ok ()) =>
      if chunk.bytes.isEmpty then (p, .ok [])
      else
        -- `check` has set the format.
        let result := p.hold (p.format.getD {}) chunk
        (result.1, .ok result.2)

end TerminalFadePostProcessor

/-! ### The fade -/

def loadSample (pending : List UInt8) (offset : Nat) : Int16 :=
  ((pending.getD offset 0).toUInt16 ||| ((pending.getD (offset + 1) 0).toUInt16 <<< 8)).toInt16

def storeSample (pending : List UInt8) (offset : Nat) (sample : Int16) : List UInt8 :=
  (pending.set offset sample.toUInt16.toUInt8).set (offset + 1) (sample.toUInt16 >>> 8).toUInt8

section Shape

variable (shape : Int16 → Nat → Nat → Int16)

/-- The inner loop: the channels of one frame. -/
def fadeFrame (frames channels frameBytes : Nat) (pending : List UInt8) (frame : Nat) : List UInt8 :=
  (List.range channels).foldl (fun pending channel =>
    let offset := frame * frameBytes + channel * 2
    storeSample pending offset (shape (loadSample pending offset) frame frames)) pending

def TerminalFadePostProcessor.applyFade (p : TerminalFadePostProcessor) (format : AudioFormat) :
    TerminalFadePostProcessor :=
  if p.pending.isEmpty ∨ p.options.fadeMs = 0 then p
  else
    let frames := p.pending.length / p.frameBytes
    { p with pending := (List.range frames).foldl (fadeFrame shape frames format.channels.toNat p.frameBytes) p.pending }

def TerminalFadeOptions.silenceMs (options : TerminalFadeOptions) : AudioTerminalReason → UInt32
  | .completed => options.completionSilenceMs
  | .cancelled => options.cancellationSilenceMs
  | .error => 0

/-- `finish` of a stream with audio. -/
def TerminalFadePostProcessor.release (p : TerminalFadePostProcessor) (format : AudioFormat) (reason : AudioTerminalReason) :
    TerminalFadePostProcessor × Except Exception (List PcmChunk) :=
  let p := if reason = .error then p else p.applyFade shape format
  match checkedDurationBytes format p.frameBytes (p.options.silenceMs reason) with
  | .error e => (p, .error e)
  | .ok padding =>
    let bytes := p.pending ++ List.replicate padding 0
    ({ p with pending := [] }, .ok (if bytes.isEmpty then [] else [p.outputFrom format bytes]))

def TerminalFadePostProcessor.finish (p : TerminalFadePostProcessor) (reason : AudioTerminalReason) :
    TerminalFadePostProcessor × Except Exception (List PcmChunk) :=
  if p.finished then (p, .ok [])
  else
    let p := { p with finished := true }
    match p.receivedAudio, p.format with
    | true, some format => p.release shape format reason
    | _, _ => ({ p with pending := [] }, .ok [])

/-- The processor as a stage of a chain. -/
def processor (p : TerminalFadePostProcessor) : Processor where
  State := TerminalFadePostProcessor
  state := p
  onInput := TerminalFadePostProcessor.process
  onEnd := TerminalFadePostProcessor.finish shape

end Shape

/-! ## What comes out -/

section Shaped

variable (shape : Int16 → Nat → Nat → Int16)

/-- The first `channels` samples, as samples of frame `frame` of `frames`. -/
def shapeSamples (frame frames : Nat) : Nat → List UInt8 → List UInt8
  | channels + 1, low :: high :: bytes =>
    let sample := shape (low.toUInt16 ||| (high.toUInt16 <<< 8)).toInt16 frame frames
    sample.toUInt16.toUInt8 :: (sample.toUInt16 >>> 8).toUInt8 :: shapeSamples frame frames channels bytes
  | _, bytes => bytes

/-- `count` frames from frame `frame` of `frames` on. -/
def shapeFrames (channels frames : Nat) : Nat → Nat → List UInt8 → List UInt8
  | 0, _, bytes => bytes
  | count + 1, frame, bytes =>
    shapeSamples shape frame frames channels (bytes.take (channels * 2)) ++
      shapeFrames channels frames count (frame + 1) (bytes.drop (channels * 2))

def frameBytes (format : AudioFormat) : Nat := format.channels.toNat * 2

/-- The bytes that come out when the bytes `input` have gone in. -/
def expected (options : TerminalFadeOptions) (format : AudioFormat) (reason : AudioTerminalReason) (input : List UInt8) :
    List UInt8 :=
  if input = [] then []
  else if reason = .error then input
  else
    let n := min (input.length / frameBytes format) (durationSamples format options.fadeMs)
    let kept := input.length - n * frameBytes format
    input.take kept ++ shapeFrames shape format.channels.toNat n n 0 (input.drop kept) ++
      List.replicate (durationSamples format (options.silenceMs reason) * frameBytes format) 0

/-! ### The loops of the fade -/

theorem storeSample_at {pre rest : List UInt8} {low high : UInt8} {offset : Nat} (h : pre.length = offset) (sample : Int16) :
    storeSample (pre ++ low :: high :: rest) offset sample =
      pre ++ sample.toUInt16.toUInt8 :: (sample.toUInt16 >>> 8).toUInt8 :: rest := by
  subst h
  simp [storeSample]

theorem loadSample_at {pre rest : List UInt8} {low high : UInt8} {offset : Nat} (h : pre.length = offset) :
    loadSample (pre ++ low :: high :: rest) offset = (low.toUInt16 ||| (high.toUInt16 <<< 8)).toInt16 := by
  subst h
  simp [loadSample]

theorem shapeSamples_append {frame frames channels : Nat} {bytes rest : List UInt8} (h : bytes.length = channels * 2) :
    shapeSamples shape frame frames channels (bytes ++ rest) = shapeSamples shape frame frames channels bytes ++ rest := by
  induction channels generalizing bytes with
  | zero =>
    obtain rfl := List.length_eq_zero_iff.mp (by omega : bytes.length = 0)
    rfl
  | succ channels ih =>
    match bytes, h with
    | [], h => simp at h
    | [_], h =>
      simp only [List.length_cons, List.length_nil] at h
      omega
    | low :: high :: bytes, h =>
      have hlength : bytes.length = channels * 2 := by
        simp only [List.length_cons] at h
        omega
      simp only [List.cons_append, shapeSamples, ih hlength]

theorem shapeSamples_length (frame frames channels : Nat) (bytes : List UInt8) :
    (shapeSamples shape frame frames channels bytes).length = bytes.length := by
  induction channels generalizing bytes with
  | zero => rfl
  | succ channels ih =>
    match bytes with
    | [] => rfl
    | [_] => rfl
    | low :: high :: bytes => simp only [shapeSamples, List.length_cons, ih]

/-- The channels from `first` on: before them stands what is done. -/
theorem foldl_channels {frame frames base first channels : Nat} {pre rest : List UInt8} (hpre : pre.length = base + first * 2)
    (hrest : channels * 2 ≤ rest.length) :
    (List.range' first channels).foldl (fun pending channel =>
      storeSample pending (base + channel * 2) (shape (loadSample pending (base + channel * 2)) frame frames)) (pre ++ rest) =
        pre ++ shapeSamples shape frame frames channels rest := by
  induction channels generalizing first pre rest with
  | zero => cases rest <;> rfl
  | succ channels ih =>
    match rest, hrest with
    | [], hrest => simp at hrest
    | [_], hrest =>
      simp only [List.length_cons, List.length_nil] at hrest
      omega
    | low :: high :: rest, hrest =>
      simp only [List.range'_succ, List.foldl_cons]
      rw [loadSample_at hpre, storeSample_at hpre, shapeSamples]
      rw [List.length_cons, List.length_cons] at hrest
      have hnext (low high : UInt8) := @ih (first + 1) (pre ++ [low, high]) rest
        (by rw [List.length_append, hpre]; simp only [List.length_cons, List.length_nil]; omega) (by omega)
      simpa using hnext _ _

theorem fadeFrame_eq {frame frames channels : Nat} {pre rest : List UInt8} (hpre : pre.length = frame * (channels * 2))
    (hrest : channels * 2 ≤ rest.length) : fadeFrame shape frames channels (channels * 2) (pre ++ rest) frame =
      pre ++ shapeSamples shape frame frames channels rest := by
  unfold fadeFrame
  rw [List.range_eq_range']
  exact foldl_channels shape (by omega) hrest

theorem foldl_frames {frame frames channels count : Nat} {pre rest : List UInt8} (hpre : pre.length = frame * (channels * 2))
    (hrest : rest.length = count * (channels * 2)) :
    (List.range' frame count).foldl (fadeFrame shape frames channels (channels * 2)) (pre ++ rest) =
      pre ++ shapeFrames shape channels frames count frame rest := by
  induction count generalizing frame pre rest with
  | zero => rfl
  | succ count ih =>
    have hsize : channels * 2 ≤ rest.length := by
      rw [hrest, Nat.succ_mul]
      exact Nat.le_add_left _ _
    simp only [List.range'_succ, List.foldl_cons]
    rw [fadeFrame_eq shape hpre hsize, shapeFrames]
    have htake : (rest.take (channels * 2)).length = channels * 2 := List.length_take_of_le hsize
    conv_lhs => rw [← List.take_append_drop (channels * 2) rest]
    rw [shapeSamples_append shape htake, ← List.append_assoc]
    have hdone : (pre ++ shapeSamples shape frame frames channels (rest.take (channels * 2))).length =
        (frame + 1) * (channels * 2) := by
      rw [List.length_append, shapeSamples_length, htake, hpre, Nat.succ_mul]
    have hleft : (rest.drop (channels * 2)).length = count * (channels * 2) := by
      rw [List.length_drop, hrest, Nat.succ_mul, Nat.add_sub_cancel]
    rw [ih hdone hleft, List.append_assoc]

theorem applyFade_eq {p : TerminalFadePostProcessor} {format : AudioFormat} {frames : Nat}
    (hbytes : p.frameBytes = frameBytes format) (hpositive : 0 < frameBytes format)
    (hlength : p.pending.length = frames * frameBytes format) (hfade : p.options.fadeMs = 0 → p.pending = []) :
    p.applyFade shape format =
      { p with pending := shapeFrames shape format.channels.toNat frames frames 0 p.pending } := by
  unfold TerminalFadePostProcessor.applyFade
  by_cases hnone : p.pending = []
  · have hzero : frames = 0 := by
      rw [hnone, List.length_nil] at hlength
      exact (Nat.mul_eq_zero.mp hlength.symm).resolve_right (Nat.ne_of_gt hpositive)
    rw [if_pos (.inl (List.isEmpty_iff.mpr hnone)), hzero]
    rfl
  · have hsome : ¬ (p.pending.isEmpty = true ∨ p.options.fadeMs = 0) := by
      rintro (hempty | hzero)
      · exact hnone (List.isEmpty_iff.mp hempty)
      · exact hnone (hfade hzero)
    have hframes : p.pending.length / p.frameBytes = frames := by
      rw [hlength, hbytes, Nat.mul_div_cancel _ hpositive]
    rw [if_neg hsome]
    dsimp only
    rw [hframes, hbytes, List.range_eq_range']
    have hloop : (List.range' 0 frames).foldl (fadeFrame shape frames format.channels.toNat (frameBytes format))
        ([] ++ p.pending) = [] ++ shapeFrames shape format.channels.toNat frames frames 0 p.pending :=
      foldl_frames shape (Nat.zero_mul _).symm hlength
    rw [List.nil_append, List.nil_append] at hloop
    rw [hloop]

end Shaped

/-! ## Between two chunks -/

/-- The chunks of a stream of whole frames with a contiguous timeline. -/
def IsStream (requestId : UInt64) (format : AudioFormat) : UInt64 → List PcmChunk → Prop
  | _, [] => True
  | position, chunk :: chunks =>
    (chunk.requestId = requestId ∧ chunk.format = format ∧ chunk.firstSample = position ∧
      chunk.bytes.length % frameBytes format = 0 ∧
      (chunk.sampleCount = 0 ∨ chunk.sampleCount.toNat = chunk.bytes.length / frameBytes format)) ∧
    IsStream requestId format (position + UInt64.ofNat (chunk.bytes.length / frameBytes format)) chunks

/-- One range of samples from `position` on, chunk after chunk. -/
def Contiguous (format : AudioFormat) : UInt64 → List PcmChunk → Prop
  | _, [] => True
  | position, chunk :: chunks =>
    (chunk.firstSample = position ∧ chunk.sampleCount.toNat = chunk.bytes.length / frameBytes format) ∧
    Contiguous format (position + chunk.sampleCount.toUInt64) chunks

def payload (chunks : List PcmChunk) : List UInt8 := chunks.flatMap PcmChunk.bytes

theorem frames_of_mod {n fb : Nat} (h : n % fb = 0) : n = n / fb * fb :=
  (Nat.div_mul_cancel (Nat.dvd_of_mod_eq_zero h)).symm

theorem toUInt64_ofNat {n : Nat} (h : n < 2 ^ 32) : (UInt32.ofNat n).toUInt64 = UInt64.ofNat n := by
  apply UInt64.toNat_inj.mp
  rw [UInt32.toNat_toUInt64, UInt32.toNat_ofNat_of_lt' h, UInt64.toNat_ofNat_of_lt' (Nat.lt_trans h (by decide))]

theorem toNat_sub_min {a : UInt64} {n rest : Nat} (h : a.toNat = n + rest) (hn : n < 2 ^ 32) :
    (a - min a (UInt64.ofNat n)).toNat = rest := by
  have hlt : (UInt64.ofNat n).toNat = n := UInt64.toNat_ofNat_of_lt' (Nat.lt_trans hn (by decide))
  have hle : UInt64.ofNat n ≤ a := by
    rw [UInt64.le_iff_toNat_le, hlt, h]
    exact Nat.le_add_right _ _
  have hmin : min a (UInt64.ofNat n) = UInt64.ofNat n := by
    show (if a ≤ UInt64.ofNat n then a else UInt64.ofNat n) = UInt64.ofNat n
    split
    · rename_i hge
      exact UInt64.le_antisymm hge hle
    · rfl
  rw [hmin, UInt64.toNat_sub_of_le _ _ hle, hlt, h, Nat.add_sub_cancel_left]

section Stream

variable {options : TerminalFadeOptions} {requestId : UInt64} {format : AudioFormat} {start : UInt64}
  {p : TerminalFadePostProcessor} {seen emitted : List UInt8} {total : Nat} {chunk : PcmChunk} {chunks : List PcmChunk}

/-- Of `total` frames the last `held` are held back, and `released` have come out. -/
def held (options : TerminalFadeOptions) (format : AudioFormat) (total : Nat) : Nat :=
  min total (durationSamples format options.fadeMs)

def released (options : TerminalFadeOptions) (format : AudioFormat) (total : Nat) : Nat :=
  total - held options format total

/-- After the `total` frames `seen`, of which `emitted` have come out. -/
structure Ready (options : TerminalFadeOptions) (requestId : UInt64) (format : AudioFormat) (start : UInt64) (total : Nat)
    (seen emitted : List UInt8) (p : TerminalFadePostProcessor) : Prop where
  sameOptions : p.options = options
  sameFormat : p.format = some format
  sameRequest : p.requestId = requestId
  frame : p.frameBytes = frameBytes format
  hold : p.holdBytes = durationSamples format options.fadeMs * frameBytes format
  running : p.finished = false
  received : p.receivedAudio = decide (total ≠ 0)
  split : emitted ++ p.pending = seen
  size : seen.length = total * frameBytes format
  kept : p.pending.length = held options format total * frameBytes format
  count : p.pendingSampleCount.toNat = held options format total
  first : total ≠ 0 →
    p.pendingFirstSample = start + UInt64.ofNat (released options format total)

/-- A chunk of `frames` frames that stands at `position`. -/
structure Fits (requestId : UInt64) (format : AudioFormat) (position : UInt64) (frames : Nat) (chunk : PcmChunk) : Prop where
  request : chunk.requestId = requestId
  sameFormat : chunk.format = format
  first : chunk.firstSample = position
  size : chunk.bytes.length = frames * frameBytes format
  count : chunk.sampleCount = 0 ∨ chunk.sampleCount.toNat = frames

theorem Ready.validateChunk (h : Ready options requestId format start total seen emitted p) {frames : Nat}
    (hpositive : 0 < frameBytes format) (hchunk : Fits requestId format (start + UInt64.ofNat total) frames chunk) :
    p.validateChunk format chunk = .ok () := by
  have hdiv : chunk.bytes.length / p.frameBytes = frames := by
    rw [hchunk.size, h.frame, Nat.mul_div_cancel _ hpositive]
  have hmod : chunk.bytes.length % p.frameBytes = 0 := by
    rw [hchunk.size, h.frame, Nat.mul_mod_left]
  have hformat : formatsMatch format chunk.format = true := by simp [formatsMatch, hchunk.sameFormat]
  have hcount : ¬ (chunk.sampleCount ≠ 0 ∧ chunk.sampleCount.toNat ≠ chunk.bytes.length / p.frameBytes) := by
    rintro ⟨hne, hne'⟩
    rw [hdiv] at hne'
    exact hne' (hchunk.count.resolve_left hne)
  have htimeline : ¬ (p.receivedAudio = true ∧ chunk.sampleCount ≠ 0 ∧
      chunk.firstSample ≠ p.pendingFirstSample + p.pendingSampleCount) := by
    rintro ⟨hreceived, -, hne⟩
    rw [h.received, decide_eq_true_iff] at hreceived
    refine hne ?_
    have hheld : p.pendingSampleCount = UInt64.ofNat (held options format total) := by
      rw [← h.count, UInt64.ofNat_toNat]
    have hsum : released options format total + held options format total = total :=
      Nat.sub_add_cancel (Nat.min_le_left _ _)
    rw [hchunk.first, h.first hreceived, hheld, UInt64.add_assoc, ← UInt64.ofNat_add, hsum]
  unfold TerminalFadePostProcessor.validateChunk
  rw [if_neg (by simp [hformat]), if_neg (by simp [h.sameRequest, hchunk.request]), if_neg (by simp [hmod]),
    if_neg hcount, if_neg htimeline]

theorem Ready.firstSample (h : Ready options requestId format start total seen emitted p) (hpositive : 0 < frameBytes format)
    (hfirst : chunk.firstSample = start + UInt64.ofNat total) :
    (if p.pending.isEmpty then chunk.firstSample else p.pendingFirstSample) =
      start + UInt64.ofNat (released options format total) := by
  by_cases hnone : p.pending = []
  · have hzero : held options format total = 0 := by
      have hkept := h.kept
      rw [hnone, List.length_nil] at hkept
      exact (Nat.mul_eq_zero.mp hkept.symm).resolve_right (Nat.ne_of_gt hpositive)
    rw [if_pos (List.isEmpty_iff.mpr hnone), hfirst, released, hzero, Nat.sub_zero]
  · have htotal : total ≠ 0 := by
      rintro rfl
      have hkept := h.kept
      rw [held, Nat.zero_min, Nat.zero_mul] at hkept
      exact hnone (List.length_eq_zero_iff.mp hkept)
    rw [if_neg (by simpa using hnone), h.first htotal]

theorem Ready.hold_step (h : Ready options requestId format start total seen emitted p) {frames : Nat}
    (hpositive : 0 < frameBytes format) (hchunk : Fits requestId format (start + UInt64.ofNat total) frames chunk)
    (hframes : frames ≠ 0) (hshort : total + frames < 2 ^ 32) :
    ∃ p' output, p.hold format chunk = (p', output) ∧
      Ready options requestId format start (total + frames) (seen ++ chunk.bytes) (emitted ++ payload output) p' ∧
      ∀ later, Contiguous format (start + UInt64.ofNat (released options format (total + frames))) later →
        Contiguous format (start + UInt64.ofNat (released options format total)) (output ++ later) := by
  have hsamples : (if chunk.sampleCount ≠ 0 then chunk.sampleCount.toUInt64 else UInt64.ofNat (chunk.bytes.length / p.frameBytes)) =
      UInt64.ofNat frames := by
    split
    · rename_i hne
      rw [← hchunk.count.resolve_left hne]
      apply UInt64.toNat_inj.mp
      simp
    · rw [hchunk.size, h.frame, Nat.mul_div_cancel _ hpositive]
  have hcount : (p.pendingSampleCount + UInt64.ofNat frames).toNat =
      held options format total + frames := by
    rw [UInt64.toNat_add, h.count, UInt64.toNat_ofNat_of_lt' (Nat.lt_trans (by omega : frames < 2 ^ 32) (by decide))]
    exact Nat.mod_eq_of_lt (by unfold held; omega)
  have hlength : (p.pending ++ chunk.bytes).length =
      (held options format total + frames) * frameBytes format := by
    rw [List.length_append, h.kept, hchunk.size, Nat.add_mul]
  have hfirst := h.firstSample hpositive hchunk.first
  have hsize : (seen ++ chunk.bytes).length = (total + frames) * frameBytes format := by
    rw [List.length_append, h.size, hchunk.size, Nat.add_mul]
  have hsplit : emitted ++ (p.pending ++ chunk.bytes) = seen ++ chunk.bytes := by rw [← List.append_assoc, h.split]
  have hreceived : true = decide (total + frames ≠ 0) := by simp [hframes]
  unfold TerminalFadePostProcessor.hold
  dsimp only
  rw [hsamples, hfirst]
  by_cases hroom : (p.pending ++ chunk.bytes).length ≤ p.holdBytes
  · -- all of it is held back
    have hmin : held options format total + frames ≤ durationSamples format options.fadeMs := by
      rw [hlength, h.hold] at hroom
      exact Nat.le_of_mul_le_mul_right hroom hpositive
    have hall : held options format (total + frames) = held options format total + frames := by
      unfold held at hmin ⊢
      omega
    have hnone : released options format (total + frames) = released options format total := by
      unfold released held at *
      omega
    rw [if_pos hroom]
    refine ⟨_, [], rfl, ⟨h.sameOptions, h.sameFormat, h.sameRequest, h.frame, h.hold, h.running, hreceived, ?_, hsize,
      ?_, ?_, fun _ => ?_⟩, fun later hlater => ?_⟩
    · rw [show emitted ++ payload [] = emitted from List.append_nil _]
      exact hsplit
    · rw [hall]
      exact hlength
    · rw [hall]
      exact hcount
    · rw [hnone]
    · rwa [hnone] at hlater
  · -- the oldest frames come out
    have hmin : durationSamples format options.fadeMs < held options format total + frames := by
      rw [hlength, h.hold] at hroom
      exact Nat.lt_of_not_le fun hle => hroom (Nat.mul_le_mul_right _ hle)
    have hall : held options format (total + frames) = durationSamples format options.fadeMs := by
      unfold held at hmin ⊢
      omega
    obtain ⟨n, hn⟩ : ∃ n, held options format total + frames = n + durationSamples format options.fadeMs :=
      ⟨_, (Nat.sub_add_cancel (Nat.le_of_lt hmin)).symm⟩
    have hposition : released options format (total + frames) = released options format total + n := by
      unfold released
      rw [hall]
      unfold held at hn ⊢
      omega
    have hsmall : n < 2 ^ 32 := by
      unfold held at hn
      omega
    have hbytes : (p.pending ++ chunk.bytes).length - p.holdBytes = n * frameBytes format := by
      rw [hlength, h.hold, hn, Nat.add_mul, Nat.add_sub_cancel]
    have htake : ((p.pending ++ chunk.bytes).take (n * frameBytes format)).length = n * frameBytes format := by
      rw [List.length_take, hlength, hn, Nat.add_mul]
      omega
    have hout : UInt32.ofNat (((p.pending ++ chunk.bytes).take (n * frameBytes format)).length / p.frameBytes) =
        UInt32.ofNat n := by
      rw [htake, h.frame, Nat.mul_div_cancel _ hpositive]
    have hmoved := toUInt64_ofNat hsmall
    rw [if_neg hroom, hbytes]
    refine ⟨_, _, rfl, ⟨h.sameOptions, h.sameFormat, h.sameRequest, h.frame, h.hold, h.running, hreceived, ?_, hsize,
      ?_, ?_, fun _ => ?_⟩, fun later hlater => ⟨⟨rfl, ?_⟩, ?_⟩⟩
    · show emitted ++ (((p.pending ++ chunk.bytes).take (n * frameBytes format)) ++ []) ++
        (p.pending ++ chunk.bytes).drop (n * frameBytes format) = seen ++ chunk.bytes
      rw [List.append_nil, List.append_assoc, List.take_append_drop, hsplit]
    · rw [hall, List.length_drop, hlength, hn, Nat.add_mul, Nat.add_sub_cancel_left]
    · show (_ - min _ (UInt32.ofNat _).toUInt64).toNat = _
      rw [hout, hmoved, hall]
      exact toNat_sub_min (hcount.trans hn) hsmall
    · show _ + (UInt32.ofNat _).toUInt64 = _
      rw [hout, hmoved, hposition, UInt64.ofNat_add, UInt64.add_assoc]
    · show (UInt32.ofNat _).toNat = _
      rw [hout, UInt32.toNat_ofNat_of_lt' hsmall]
      show n = ((p.pending ++ chunk.bytes).take (n * frameBytes format)).length / frameBytes format
      rw [htake, Nat.mul_div_cancel _ hpositive]
    · show Contiguous format (_ + (UInt32.ofNat _).toUInt64) later
      rw [hout, hmoved, UInt64.add_assoc, ← UInt64.ofNat_add, ← hposition]
      exact hlater

/-- One chunk, also an empty one. -/
theorem Ready.process_step (h : Ready options requestId format start total seen emitted p) {frames : Nat}
    (hpositive : 0 < frameBytes format) (hchunk : Fits requestId format (start + UInt64.ofNat total) frames chunk)
    (hshort : total + frames < 2 ^ 32) :
    ∃ p' output, p.process chunk = (p', .ok output) ∧
      Ready options requestId format start (total + frames) (seen ++ chunk.bytes) (emitted ++ payload output) p' ∧
      ∀ later, Contiguous format (start + UInt64.ofNat (released options format (total + frames))) later →
        Contiguous format (start + UInt64.ofNat (released options format total)) (output ++ later) := by
  have hcheck : p.check chunk = (p, .ok ()) := by
    unfold TerminalFadePostProcessor.check
    rw [h.sameFormat]
    exact Prod.ext rfl (h.validateChunk hpositive hchunk)
  unfold TerminalFadePostProcessor.process
  rw [if_neg (by simp [h.running]), hcheck]
  dsimp only
  by_cases hnone : chunk.bytes = []
  · have hzero : frames = 0 := by
      have hsize := hchunk.size
      rw [hnone, List.length_nil] at hsize
      exact (Nat.mul_eq_zero.mp hsize.symm).resolve_right (Nat.ne_of_gt hpositive)
    subst hzero
    rw [if_pos (List.isEmpty_iff.mpr hnone), hnone, Nat.add_zero, List.append_nil]
    refine ⟨p, [], rfl, ?_, fun later hlater => hlater⟩
    rw [show emitted ++ payload [] = emitted from List.append_nil _]
    exact h
  · have hframes : frames ≠ 0 := by
      rintro rfl
      have hsize := hchunk.size
      rw [Nat.zero_mul] at hsize
      exact hnone (List.length_eq_zero_iff.mp hsize)
    obtain ⟨p', output, hhold, hready, hlater⟩ := h.hold_step hpositive hchunk hframes hshort
    rw [if_neg (by simpa using hnone), h.sameFormat, Option.getD_some, hhold]
    exact ⟨p', output, rfl, hready, hlater⟩

theorem fits_of_stream {position : UInt64} (hstream : IsStream requestId format position (chunk :: chunks)) :
    ∃ frames, Fits requestId format position frames chunk ∧
      IsStream requestId format (position + UInt64.ofNat frames) chunks := by
  obtain ⟨⟨hrequest, hformat, hfirst, hmod, hcount⟩, hrest⟩ := hstream
  exact ⟨chunk.bytes.length / frameBytes format, ⟨hrequest, hformat, hfirst, frames_of_mod hmod, hcount⟩, hrest⟩

end Stream

section Run

variable (shape : Int16 → Nat → Nat → Int16) {options : TerminalFadeOptions} {requestId : UInt64} {format : AudioFormat}
  {start : UInt64} {p : TerminalFadePostProcessor} {seen emitted : List UInt8} {total : Nat} {chunks : List PcmChunk}

/-- All chunks of a stream. -/
theorem Ready.feed (h : Ready options requestId format start total seen emitted p) (hpositive : 0 < frameBytes format)
    (hstream : IsStream requestId format (start + UInt64.ofNat total) chunks)
    (hshort : seen.length + (payload chunks).length < 2 ^ 32 * frameBytes format) :
    ∃ p' output total', (processor shape p).feed chunks = (processor shape p', .ok output) ∧
      Ready options requestId format start total' (seen ++ payload chunks) (emitted ++ payload output) p' ∧
      ∀ later, Contiguous format (start + UInt64.ofNat (released options format total')) later →
        Contiguous format (start + UInt64.ofNat (released options format total)) (output ++ later) := by
  induction chunks generalizing p total seen emitted with
  | nil =>
    refine ⟨p, [], total, rfl, ?_, fun later hlater => hlater⟩
    rw [show payload [] = [] from rfl, List.append_nil, List.append_nil]
    exact h
  | cons chunk chunks ih =>
    obtain ⟨frames, hchunk, hrest⟩ := fits_of_stream hstream
    have hpayload : payload (chunk :: chunks) = chunk.bytes ++ payload chunks := rfl
    rw [hpayload, List.length_append] at hshort
    have htotal : total + frames < 2 ^ 32 := by
      rw [h.size, hchunk.size, ← Nat.add_assoc, ← Nat.add_mul] at hshort
      exact Nat.lt_of_mul_lt_mul_right (Nat.lt_of_le_of_lt (Nat.le_add_right _ _) hshort)
    obtain ⟨p₁, first, hprocess, hready, hfirst⟩ := h.process_step hpositive hchunk htotal
    rw [UInt64.add_assoc, ← UInt64.ofNat_add] at hrest
    obtain ⟨p', second, total', hfeed, hready', hsecond⟩ := ih hready hrest (by rw [List.length_append]; omega)
    refine ⟨p', first ++ second, total', Transducer.feed_cons_ok.mpr ⟨processor shape p₁, first, second, ?_, hfeed, rfl⟩, ?_,
      fun later hlater => ?_⟩
    · exact Prod.ext (congrArg (processor shape) (Prod.ext_iff.mp hprocess).1) (Prod.ext_iff.mp hprocess).2
    · rw [hpayload, ← List.append_assoc, show payload (first ++ second) = payload first ++ payload second from
        List.flatMap_append, ← List.append_assoc]
      exact hready'
    · rw [List.append_assoc]
      exact hfirst _ (hsecond later hlater)

/-- The code's own check of a duration. -/
def DurationFits (format : AudioFormat) (durationMs : UInt32) : Prop :=
  durationSamples format durationMs ≤ (2 ^ 64 - 1) / frameBytes format

theorem checkedDurationBytes_ok {durationMs : UInt32} (h : DurationFits format durationMs) :
    checkedDurationBytes format (frameBytes format) durationMs = .ok (durationSamples format durationMs * frameBytes format) :=
  if_neg fun hlarge => Nat.not_lt.mpr h hlarge.2

theorem shapeFrames_length (channels frames count frame : Nat) (bytes : List UInt8) :
    (shapeFrames shape channels frames count frame bytes).length = bytes.length := by
  induction count generalizing frame bytes with
  | zero => rfl
  | succ count ih =>
    rw [shapeFrames, List.length_append, ih, shapeSamples_length, ← List.length_append, List.take_append_drop]

/-- Nothing comes out of a processor that has finished. -/
def Done (p : TerminalFadePostProcessor) : Prop :=
  (∀ chunk, p.process chunk = (p, .ok [])) ∧ ∀ reason, p.finish shape reason = (p, .ok [])

theorem done_of_finished (h : p.finished = true) : Done shape p := ⟨fun _ => if_pos h, fun _ => if_pos h⟩

theorem contiguous_last {position : UInt64} {frames : Nat} {bytes : List UInt8} (hpositive : 0 < frameBytes format)
    (hframe : p.frameBytes = frameBytes format) (hlength : bytes.length = frames * frameBytes format)
    (hshort : frames < 2 ^ 32) (hfirst : p.pendingFirstSample = position) :
    Contiguous format position (if bytes.isEmpty then [] else [p.outputFrom format bytes]) := by
  split
  · trivial
  · refine ⟨⟨hfirst, ?_⟩, trivial⟩
    have hdiv : bytes.length / frameBytes format = frames := by rw [hlength, Nat.mul_div_cancel _ hpositive]
    show (UInt32.ofNat (bytes.length / p.frameBytes)).toNat = bytes.length / frameBytes format
    rw [hframe, hdiv, UInt32.toNat_ofNat_of_lt' hshort]

theorem payload_last {bytes : List UInt8} :
    payload (if bytes.isEmpty then [] else [p.outputFrom format bytes]) = bytes := by
  split
  · rename_i hempty
    exact (List.isEmpty_iff.mp hempty).symm
  · exact List.append_nil _

/-- What `finish` makes of the bytes that were held back. -/
def tailOf (channels frames : Nat) (reason : AudioTerminalReason) (pending : List UInt8) : List UInt8 :=
  if reason = .error then pending else shapeFrames shape channels frames frames 0 pending

theorem release_eq {frames : Nat} (hframe : p.frameBytes = frameBytes format) (hpositive : 0 < frameBytes format)
    (hoptions : p.options = options) (hlength : p.pending.length = frames * frameBytes format)
    (hfade : options.fadeMs = 0 → p.pending = []) {reason : AudioTerminalReason}
    (hfits : DurationFits format (options.silenceMs reason)) :
    let bytes := tailOf shape format.channels.toNat frames reason p.pending ++
      List.replicate (durationSamples format (options.silenceMs reason) * frameBytes format) 0
    p.release shape format reason =
      ({ p with pending := [] }, .ok (if bytes.isEmpty then [] else [p.outputFrom format bytes])) := by
  have hshaped : (if reason = .error then p else p.applyFade shape format) =
      { p with pending := tailOf shape format.channels.toNat frames reason p.pending } := by
    unfold tailOf
    split
    · rfl
    · rw [← hoptions] at hfade
      exact applyFade_eq shape hframe hpositive hlength hfade
  have hpadding : checkedDurationBytes format p.frameBytes (p.options.silenceMs reason) =
      .ok (durationSamples format (options.silenceMs reason) * frameBytes format) := by
    rw [hframe, hoptions]
    exact checkedDurationBytes_ok hfits
  unfold TerminalFadePostProcessor.release
  rw [hshaped]
  dsimp only
  rw [hpadding]
  rfl

theorem Ready.finish_eq (h : Ready options requestId format start total seen emitted p) (hpositive : 0 < frameBytes format)
    (htotal : total ≠ 0) {reason : AudioTerminalReason} (hfits : DurationFits format (options.silenceMs reason)) :
    let bytes := tailOf shape format.channels.toNat (held options format total) reason p.pending ++
      List.replicate (durationSamples format (options.silenceMs reason) * frameBytes format) 0
    p.finish shape reason = ({ p with finished := true, pending := [] },
      .ok (if bytes.isEmpty then [] else [p.outputFrom format bytes])) := by
  have hfade : options.fadeMs = 0 → p.pending = [] := by
    intro hzero
    have hheld : held options format total = 0 := by simp [held, durationSamples, hzero]
    have hkept := h.kept
    rw [hheld, Nat.zero_mul] at hkept
    exact List.length_eq_zero_iff.mp hkept
  have hreceived : p.receivedAudio = true := by simp [h.received, htotal]
  have hfinish : p.finish shape reason = ({ p with finished := true } : TerminalFadePostProcessor).release shape format reason := by
    obtain ⟨-, hformat, -⟩ := h
    cases p
    cases hreceived
    cases hformat
    exact if_neg (by simp_all)
  rw [hfinish]
  exact release_eq shape (p := { p with finished := true }) h.frame hpositive h.sameOptions h.kept hfade hfits

theorem tailOf_length (channels frames : Nat) (reason : AudioTerminalReason) (pending : List UInt8) :
    (tailOf shape channels frames reason pending).length = pending.length := by
  unfold tailOf
  split
  · rfl
  · exact shapeFrames_length shape _ _ _ _ _

/-- The whole output in terms of what was held back. -/
theorem Ready.expected_eq (h : Ready options requestId format start total seen emitted p) (hpositive : 0 < frameBytes format)
    (htotal : total ≠ 0) (reason : AudioTerminalReason) :
    emitted ++ (tailOf shape format.channels.toNat (held options format total) reason p.pending ++
      List.replicate (durationSamples format (options.silenceMs reason) * frameBytes format) 0) =
        expected shape options format reason seen := by
  have hseen : seen ≠ [] := by
    intro hnone
    have hsize := h.size
    rw [hnone, List.length_nil] at hsize
    exact htotal ((Nat.mul_eq_zero.mp hsize.symm).resolve_right (Nat.ne_of_gt hpositive))
  have hdiv : seen.length / frameBytes format = total := by rw [h.size, Nat.mul_div_cancel _ hpositive]
  have hemitted : seen.length - held options format total * frameBytes format = emitted.length := by
    have hsplit := congrArg List.length h.split
    rw [List.length_append, h.kept] at hsplit
    omega
  unfold expected tailOf
  rw [if_neg hseen]
  split
  · rename_i herror
    have hsilence : durationSamples format (options.silenceMs reason) = 0 := by
      rw [herror]
      simp [durationSamples, TerminalFadeOptions.silenceMs]
    rw [hsilence, Nat.zero_mul, List.replicate_zero, List.append_nil, h.split]
  · dsimp only
    rw [hdiv, ← held, hemitted, ← h.split, List.take_left', List.drop_left', List.append_assoc]
    · rfl
    · rfl

/-- The end of the stream. -/
theorem Ready.finish_step (h : Ready options requestId format start total seen emitted p) (hpositive : 0 < frameBytes format)
    {reason : AudioTerminalReason} (hfits : DurationFits format (options.silenceMs reason))
    (hshort : held options format total + durationSamples format (options.silenceMs reason) < 2 ^ 32) :
    ∃ ended tail, p.finish shape reason = (ended, .ok tail) ∧
      emitted ++ payload tail = expected shape options format reason seen ∧
      Contiguous format (start + UInt64.ofNat (released options format total)) tail ∧ Done shape ended := by
  by_cases htotal : total = 0
  · subst htotal
    have hseen : seen = [] := by
      have hsize := h.size
      rw [Nat.zero_mul] at hsize
      exact List.length_eq_zero_iff.mp hsize
    have hemitted : emitted = [] := by
      have hsplit := h.split
      rw [hseen] at hsplit
      exact (List.append_eq_nil_iff.mp hsplit).1
    have hreceived : p.receivedAudio = false := by simp [h.received]
    refine ⟨{ p with finished := true, pending := [] }, [], ?_, ?_, trivial, done_of_finished shape rfl⟩
    · unfold TerminalFadePostProcessor.finish
      rw [if_neg (by simp [h.running])]
      dsimp only
      rw [hreceived]
    · rw [hseen, hemitted]
      rfl
  · refine ⟨_, _, h.finish_eq shape hpositive htotal hfits, ?_, ?_, done_of_finished shape rfl⟩
    · rw [payload_last]
      exact h.expected_eq shape hpositive htotal reason
    · have hlength : (tailOf shape format.channels.toNat (held options format total) reason p.pending ++
          List.replicate (durationSamples format (options.silenceMs reason) * frameBytes format) 0).length =
            (held options format total + durationSamples format (options.silenceMs reason)) * frameBytes format := by
        rw [List.length_append, List.length_replicate, tailOf_length, h.kept, Nat.add_mul]
      exact contiguous_last hpositive h.frame hlength hshort (h.first htotal)

/-! ## The first chunk -/

/-- The state that `configure` leaves on the first chunk. -/
def configured (options : TerminalFadeOptions) (requestId : UInt64) (format : AudioFormat) : TerminalFadePostProcessor where
  options := options
  format := some format
  requestId := requestId
  frameBytes := frameBytes format
  holdBytes := durationSamples format options.fadeMs * frameBytes format

theorem ready_configured (start : UInt64) : Ready options requestId format start 0 [] [] (configured options requestId format) :=
  ⟨rfl, rfl, rfl, rfl, rfl, rfl, rfl, rfl, (Nat.zero_mul _).symm, by simp [held, configured], by simp [held, configured],
    fun h => (h rfl).elim⟩

/-- A format the processor takes. -/
structure Valid (format : AudioFormat) : Prop where
  encoding : format.sampleFormat = CppString.lit "s16le"
  rate : format.sampleRate ≠ 0
  channels : format.channels ≠ 0

theorem Valid.positive (h : Valid format) : 0 < frameBytes format := by
  have hchannels : format.channels.toNat ≠ 0 := fun hzero => h.channels (UInt32.toNat_inj.mp hzero)
  unfold frameBytes
  omega

theorem process_first {chunk : PcmChunk} (hvalid : Valid format) (hfits : DurationFits format options.fadeMs)
    (hrequest : chunk.requestId = requestId) (hformat : chunk.format = format) :
    ({ options } : TerminalFadePostProcessor).process chunk = (configured options requestId format).process chunk := by
  have hcheck : ({ options } : TerminalFadePostProcessor).check chunk =
      (configured options requestId format).check chunk := by
    show TerminalFadePostProcessor.configure _ _ = _
    unfold TerminalFadePostProcessor.configure
    subst hrequest hformat
    rw [if_neg (not_not_intro hvalid.encoding), if_neg (not_or.mpr ⟨hvalid.rate, hvalid.channels⟩)]
    dsimp only
    rw [← frameBytes, checkedDurationBytes_ok hfits]
    rfl
  unfold TerminalFadePostProcessor.process
  rw [hcheck]
  rfl

theorem feed_congr {p₁ p₂ : TerminalFadePostProcessor} {chunk : PcmChunk} (h : p₁.process chunk = p₂.process chunk) :
    (processor shape p₁).feed (chunk :: chunks) = (processor shape p₂).feed (chunk :: chunks) := by
  have hinput : (processor shape p₁).input chunk = (processor shape p₂).input chunk := by
    show (processor shape (p₁.process chunk).1, (p₁.process chunk).2) = (processor shape (p₂.process chunk).1, (p₂.process chunk).2)
    rw [h]
  simp only [Transducer.feed, hinput]

/-- A stream that has no chunk at all. -/
theorem finish_nothing (reason : AudioTerminalReason) : ∃ ended,
    ({ options } : TerminalFadePostProcessor).finish shape reason = (ended, .ok []) ∧ Done shape ended :=
  ⟨_, rfl, done_of_finished shape rfl⟩

theorem make_eq (h : TerminalFadePostProcessor.make options = .ok p) : p = { options } := by
  unfold TerminalFadePostProcessor.make at h
  split at h
  · cases h
  · cases h
    rfl

/-! ## The whole stream -/

theorem fade_ignores_chunking {reason : AudioTerminalReason} (hmake : TerminalFadePostProcessor.make options = .ok p)
    (hvalid : Valid format) (hstream : IsStream requestId format start chunks)
    (hfits : DurationFits format options.fadeMs ∧ DurationFits format (options.silenceMs reason))
    (hshort : (payload chunks).length / frameBytes format < 2 ^ 32)
    (hlast : held options format ((payload chunks).length / frameBytes format) +
      durationSamples format (options.silenceMs reason) < 2 ^ 32) :
    ∃ q output ended tail, (processor shape p).feed chunks = (processor shape q, .ok output) ∧
      q.finish shape reason = (ended, .ok tail) ∧
      payload (output ++ tail) = expected shape options format reason (payload chunks) ∧
      Contiguous format start (output ++ tail) ∧ Done shape ended := by
  rw [make_eq hmake]
  have hpositive := hvalid.positive
  match chunks, hstream, hshort, hlast with
  | [], _, _, _ =>
    obtain ⟨ended, hfinish, hdone⟩ := finish_nothing shape reason
    exact ⟨_, [], ended, [], rfl, hfinish, rfl, trivial, hdone⟩
  | chunk :: chunks, hstream, hshort, hlast =>
    have hready : Ready options requestId format start 0 [] [] (configured options requestId format) := ready_configured start
    have hlength : ([] : List UInt8).length + (payload (chunk :: chunks)).length < 2 ^ 32 * frameBytes format := by
      rw [List.length_nil, Nat.zero_add]
      exact (Nat.div_lt_iff_lt_mul hpositive).mp hshort
    have hstart : start + UInt64.ofNat 0 = start := UInt64.add_zero _
    obtain ⟨q, output, total, hfeed, hended, houtput⟩ := hready.feed shape hpositive (by rwa [hstart]) hlength
    rw [List.nil_append] at hended
    have htotal : (payload (chunk :: chunks)).length / frameBytes format = total := by
      rw [hended.size, Nat.mul_div_cancel _ hpositive]
    rw [htotal] at hlast
    obtain ⟨ended, tail, hfinish, hbytes, htail, hdone⟩ := hended.finish_step shape hpositive hfits.2 hlast
    refine ⟨q, output, ended, tail, ?_, hfinish, ?_, ?_, hdone⟩
    · -- the first call configures the processor
      have hfirst := process_first hvalid hfits.1 hstream.1.1 hstream.1.2.1
      rw [← hfeed]
      exact feed_congr shape hfirst
    · rw [show payload (output ++ tail) = payload output ++ payload tail from List.flatMap_append]
      exact hbytes
    · have hwhole := houtput tail htail
      rwa [released, held, Nat.zero_min, Nat.zero_sub, hstart] at hwhole

end Run

/-- The rounded product, where the gain is exact in binary. -/
def linearShape (sample : Int16) (frame frames : Nat) : Int16 :=
  let product := sample.toInt * (frames - 1 - frame : Nat)
  if frames = 1 then 0 else Int16.ofInt (product.sign * ((2 * product.natAbs + (frames - 1)) / (2 * (frames - 1)) : Nat))

def slowFormat : AudioFormat := { sampleRate := 200 }

/-- Three frames in two chunks, where the default fade holds three frames back. -/
theorem three_frames_fade_out : ∃ q output ended tail,
    (processor linearShape { options := {} }).feed [⟨7, slowFormat, [100, 0, 51, 0], 40, 2⟩, ⟨7, slowFormat, [249, 255], 42, 0⟩] =
        (processor linearShape q, .ok output) ∧
      q.finish linearShape .cancelled = (ended, .ok tail) ∧ payload (output ++ tail) = [100, 0, 26, 0, 0, 0] ∧
      Contiguous slowFormat 40 (output ++ tail) ∧ Done linearShape ended := by
  have hexpected : expected linearShape {} slowFormat .cancelled [100, 0, 51, 0, 249, 255] = [100, 0, 26, 0, 0, 0] := by
    decide +kernel
  have hstream : IsStream 7 slowFormat 40 [⟨7, slowFormat, [100, 0, 51, 0], 40, 2⟩, ⟨7, slowFormat, [249, 255], 42, 0⟩] :=
    ⟨⟨rfl, rfl, by decide, by decide, by decide⟩, ⟨rfl, rfl, by decide, by decide, by decide⟩, trivial⟩
  rw [← hexpected]
  exact fade_ignores_chunking linearShape (by decide) ⟨by decide, by decide, by decide⟩ hstream
    ⟨by unfold DurationFits; decide, by unfold DurationFits; decide⟩ (by decide) (by decide)

end QwenTtsBridge.Audio.TerminalFade
