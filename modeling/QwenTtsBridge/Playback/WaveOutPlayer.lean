/-
  QwenTtsBridge.Playback.WaveOutPlayer — the WinMM player (`playback/winmm_playback.cpp`).

  Threads call `enqueue`, `reset` and the rest at any time and each holds the mutex except
  where it sleeps: the wait for room in `enqueue`, the test hook and the wait for the
  device's buffers in `reset_locked`, the wait in `wait_until_idle`. A step is one stretch
  with the mutex held. A call that lets go of it is left in `waiting` and resumes later, or
  never, and any number of calls may wait.

  What the device answers and what the clock shows are an argument of the stretch
  (`Device`): the driver's errors, whether as much audio is queued as `kMaxQueuedAudioMs`
  (the source adds durations as doubles), whether a deadline has passed. A buffer finishes
  playing by a step of its own. `waveOutReset` stops the others: the driver gives some back
  at once, unplayed, and each of the rest by a step of its own, or never.

  The last four fields of the state are for the statements and the player does not read
  them: the resets begun (`turn`), the chunks admitted and what became of those that left
  the two queues.
-/

import QwenTtsBridge.Session.Event
import QwenTtsBridge.Protocol.Control
import QwenTtsBridge.Lib.Transition

namespace QwenTtsBridge.Playback.WaveOutPlayer

open QwenTtsBridge.Session QwenTtsBridge.Protocol.Control QwenTtsBridge.Lib.Transition

/-! ## Data -/

inductive SinkMode where
  | waveOut
  | disabled
  | mock
  deriving DecidableEq, Repr

inductive MockFailureStage where
  | prepare
  | write
  | unprepare
  | reset
  | close
  deriving DecidableEq, Repr

/-- The constructor's arguments. -/
structure Config where
  sinkMode : SinkMode := .waveOut
  prebufferChunks : Nat := 1
  mockFailAfterSubmissions : Option Nat := none
  mockFailureStage : MockFailureStage := .write
  deriving DecidableEq, Repr

structure PcmChunk where
  requestId : RequestId
  format : AudioFormat
  firstSample : UInt64
  bytes : List UInt8
  deriving DecidableEq, Repr

/-- The admission of a chunk: the epoch it was enqueued with, `playback_epoch_` when it was
    put in the queue, the resets begun by then, and whether no reset that moved the epoch
    there was still under way. -/
structure Admission where
  serial : Nat
  epoch : UInt64
  current : UInt64
  turn : Nat
  quiet : Bool
  deriving DecidableEq, Repr

/-- How a chunk left the queues; `discarded reset now`: by the reset of that turn when
    `now` resets had begun. -/
inductive Departure where
  | finished
  | orphaned
  | discarded (reset now : Nat)
  deriving DecidableEq, Repr

/-- What the driver has done with a buffer; `stopped` and `returned` are by a reset as in
    `discarded`. `WHDR_DONE` is set when it was played or returned. -/
inductive Header where
  | queued
  | played
  | stopped (reset now : Nat)
  | returned (reset now : Nat)
  deriving DecidableEq, Repr

structure Buffer where
  admission : Admission
  bytes : List UInt8
  requestId : RequestId
  utteranceFirstSample : UInt64
  frameCount : UInt64
  startFrame : UInt64 := 0
  header : Header := .queued
  prepared : Bool := false
  deriving DecidableEq, Repr

/-- A reset under way: `reset_epoch` and its turn. -/
structure Resetting where
  epoch : UInt64
  turn : Nat
  deriving DecidableEq, Repr

/-- A call that has let go of the mutex. -/
inductive Waiting where
  | enqueue (epoch : UInt64) (chunk : PcmChunk)
  | hook (reset : Resetting)
  | drain (reset : Resetting)
  | idle
  deriving DecidableEq, Repr

def Waiting.resetting? : Waiting → Option Resetting
  | .hook reset | .drain reset => some reset
  | .enqueue _ _ | .idle => none

structure St where
  handle : Bool
  format : AudioFormat
  buffers : List Buffer
  pendingBuffers : List Buffer
  orphanedBuffers : List Buffer
  pendingFormat : Option AudioFormat
  playbackEpoch : UInt64
  playbackStarted : Bool
  nextStreamFrame : UInt64
  lateAudioAfterTerminalCount : UInt64
  mockSubmissionCount : Nat
  mockFailureInjected : Bool
  resetWaitHook : Bool
  unhealthy : Bool
  unhealthyReason : String
  waiting : List Waiting
  turn : Nat
  admitted : List Admission
  gone : List (Admission × Departure)
  deriving DecidableEq, Repr

def init : St :=
  { handle := false, format := {}, buffers := [], pendingBuffers := [], orphanedBuffers := [], pendingFormat := none
    playbackEpoch := 1, playbackStarted := false, nextStreamFrame := 0, lateAudioAfterTerminalCount := 0
    mockSubmissionCount := 0, mockFailureInjected := false, resetWaitHook := false, unhealthy := false
    unhealthyReason := "", waiting := [], turn := 0, admitted := [], gone := [] }

/-- What the driver and the clock answer in one stretch; an error is its text. -/
structure Device where
  /-- `queued_audio_ahead_ms_locked() >= kMaxQueuedAudioMs`, before and after the reaping. -/
  throttled : Bool := false
  stillThrottled : Bool := false
  openError : Option String := none
  prepareError : Nat → Option String := fun _ => none
  writeError : Nat → Option String := fun _ => none
  unprepareError : Nat → Option String := fun _ => none
  resetError : Option String := none
  /-- The stopped buffers that the driver gives back within `waveOutReset`. -/
  givesBack : Nat → Bool := fun _ => true
  deadlinePassed : Bool := false
  /-- The computation of the interruption tail or the test hook throws. -/
  thrown : Option String := none

/-- A part of a stretch: it throws or goes on. -/
abbrev Result := Except String Unit × St

/-- A stretch: it throws, returns, or lets go of the mutex. -/
abbrev Stretch := Except String (Option Waiting) × St

def Result.andThen {α : Type} (r : Result) (next : St → Except String α × St) : Except String α × St :=
  match r with
  | (.ok _, s) => next s
  | (.error e, s) => (.error e, s)

/-! ## The functions that hold the mutex throughout -/

section Locked

variable (cfg : Config) (dev : Device) (s : St)

def throwIfUnhealthyLocked : Result :=
  if s.unhealthy then
    (.error (if s.unhealthyReason.isEmpty then "default audio playback is unhealthy" else s.unhealthyReason), s)
  else (.ok (), s)

def markUnhealthy (reason : String) : St := { s with unhealthy := true, unhealthyReason := reason }

def shouldInjectMockFailure (stage : MockFailureStage) : Bool × St :=
  match cfg.mockFailAfterSubmissions with
  | none => (false, s)
  | some submissions =>
    if s.mockFailureInjected ∨ cfg.mockFailureStage ≠ stage ∨ s.mockSubmissionCount < submissions then (false, s)
    else (true, { s with mockFailureInjected := true })

/-- `unprepare_header_or_fail_locked` of the buffer with the serial. -/
def unprepareHeaderOrFailLocked (serial : Nat) : Result :=
  if cfg.sinkMode = .mock then
    let (inject, s) := shouldInjectMockFailure cfg s .unprepare
    if inject then
      let reason := "injected mock waveOutUnprepareHeader failure"
      (.error reason, markUnhealthy s reason)
    else (.ok (), s)
  else
    match dev.unprepareError serial with
    | none => (.ok (), s)
    | some text =>
      let reason := "waveOutUnprepareHeader failed: " ++ text
      (.error reason, markUnhealthy s reason)

/-- Why a buffer leaves when it is done. -/
def Buffer.departure (b : Buffer) : Departure :=
  match b.header with
  | .stopped reset now | .returned reset now => .discarded reset now
  | .queued | .played => .finished

def Buffer.done (b : Buffer) : Bool :=
  match b.header with
  | .queued | .stopped _ _ => false
  | .played | .returned _ _ => true

/-- The loop of `reap_finished_locked`: `kept` are the buffers it has passed. -/
def reapFrom (kept : List Buffer) : List Buffer → St → Result
  | [], s => (.ok (), { s with buffers := kept })
  | b :: rest, s =>
    if !b.done then reapFrom (kept ++ [b]) rest s
    else
      let unprepared := if b.prepared then unprepareHeaderOrFailLocked cfg dev s b.admission.serial else (.ok (), s)
      match unprepared with
      | (.error e, s) => (.error e, { s with buffers := kept ++ b :: rest })
      | (.ok _, s) => reapFrom kept rest { s with gone := s.gone ++ [(b.admission, b.departure)] }

def reapFinishedLocked : Result := reapFrom cfg dev [] s.buffers s

def formatsMatch (left right : AudioFormat) : Bool :=
  left.sampleFormat == right.sampleFormat && left.sampleRate == right.sampleRate && left.channels == right.channels

def validatePendingFormatLocked (format : AudioFormat) : Result :=
  if cfg.sinkMode = .mock ∧ s.playbackStarted then
    if !formatsMatch s.format format then
      (.error "mock playback sink cannot change PCM format while audio is queued", s)
    else (.ok (), { s with pendingFormat := some format })
  else if s.handle then
    if !formatsMatch s.format format then
      (.error "default-device playback cannot change PCM format while audio is queued", s)
    else (.ok (), s)
  else if s.pendingFormat.any fun pending => !formatsMatch pending format then
    (.error "default-device playback cannot change PCM format while audio is buffered", s)
  else (.ok (), { s with pendingFormat := some format })

/-- A buffer goes to the sink. -/
def submit (b : Buffer) : St :=
  { s with
    buffers := s.buffers ++ [{ b with startFrame := s.nextStreamFrame, prepared := true, header := .queued }]
    nextStreamFrame := s.nextStreamFrame + b.frameCount
    playbackStarted := true }

/-- The loop of `flush_pending_locked` for the mock sink, over the pending buffers. -/
def flushMock : List Buffer → St → Result
  | [], s => (.ok (), { s with pendingBuffers := [], pendingFormat := none })
  | b :: rest, s =>
    let (inject, s) := shouldInjectMockFailure cfg s .prepare
    if inject then
      (.error "injected mock waveOutPrepareHeader failure", { s with pendingBuffers := b :: rest })
    else
      let (inject, s) := shouldInjectMockFailure cfg s .write
      if inject then
        (.error "injected mock waveOutWrite failure", { s with pendingBuffers := b :: rest })
      else flushMock rest { submit s b with mockSubmissionCount := s.mockSubmissionCount + 1 }

/-- The same for the device. A buffer whose header the driver does not give back after a
    failed write is kept aside. -/
def flushDevice : List Buffer → St → Result
  | [], s => (.ok (), { s with pendingBuffers := [], pendingFormat := none })
  | b :: rest, s =>
    match dev.prepareError b.admission.serial with
    | some text => (.error ("waveOutPrepareHeader failed: " ++ text), { s with pendingBuffers := b :: rest })
    | none =>
      match dev.writeError b.admission.serial with
      | none => flushDevice rest (submit s b)
      | some text =>
        match unprepareHeaderOrFailLocked cfg dev s b.admission.serial with
        | (.ok _, s) =>
          (.error ("waveOutWrite failed: " ++ text), { s with pendingBuffers := { b with prepared := false } :: rest })
        | (.error e, s) =>
          (.error e, { s with
            pendingBuffers := rest
            orphanedBuffers := s.orphanedBuffers ++ [{ b with prepared := true }]
            gone := s.gone ++ [(b.admission, .orphaned)] })

def openOrValidateLocked (format : AudioFormat) : Result :=
  if s.handle then
    if !formatsMatch s.format format then
      (.error "default-device playback cannot change PCM format while audio is queued", s)
    else (.ok (), s)
  else
    match dev.openError with
    | some text => (.error ("waveOutOpen failed: " ++ text), s)
    | none => (.ok (), { s with handle := true, format := format })

def flushPendingLocked : Result :=
  if s.pendingBuffers.isEmpty then (.ok (), s)
  else if !s.handle && s.pendingFormat.isNone then (.error "missing PCM format for buffered playback", s)
  else if cfg.sinkMode = .mock then
    flushMock cfg s.pendingBuffers { s with format := s.pendingFormat.getD s.format }
  else
    Result.andThen (openOrValidateLocked dev s (if s.handle then s.format else s.pendingFormat.getD s.format))
      fun s => flushDevice cfg dev s.pendingBuffers s

end Locked

/-! ## Calls -/

section Calls

variable (cfg : Config) (dev : Device)

/-- No reset that moved the epoch to where it is now is under way. -/
def St.quiet (s : St) : Bool :=
  s.waiting.all fun w => match w.resetting? with
    | some reset => reset.epoch != s.playbackEpoch
    | none => true

def pcmFrameBytes (format : AudioFormat) : Nat := format.channels.toNat * 2

/-- The chunk is put in the queue. -/
def pushPending (epoch : UInt64) (chunk : PcmChunk) (s : St) : St :=
  let admission : Admission := ⟨s.admitted.length, epoch, s.playbackEpoch, s.turn, s.quiet⟩
  { s with
    pendingBuffers := s.pendingBuffers ++
      [{ admission := admission, bytes := chunk.bytes, requestId := chunk.requestId
         utteranceFirstSample := chunk.firstSample
         frameCount := UInt64.ofNat (chunk.bytes.length / pcmFrameBytes chunk.format) }]
    admitted := s.admitted ++ [admission] }

/-- What `enqueue` does after its wait for room. -/
def admitChunk (epoch : UInt64) (chunk : PcmChunk) (s : St) : Stretch :=
  Result.andThen (reapFinishedLocked cfg dev s) fun s =>
  Result.andThen (validatePendingFormatLocked cfg s chunk.format) fun s =>
    if chunk.bytes.length % pcmFrameBytes chunk.format ≠ 0 then
      (.error "PCM buffer does not contain complete frames", s)
    else
      let s := pushPending epoch chunk s
      if s.playbackStarted ∨ cfg.prebufferChunks ≤ s.pendingBuffers.length then
        Result.andThen (flushPendingLocked cfg dev s) fun s => (.ok none, s)
      else (.ok none, s)

/-- The head of the loop of `enqueue`. -/
def enqueueLoop (epoch : UInt64) (chunk : PcmChunk) (s : St) : Stretch :=
  if s.playbackStarted ∧ dev.throttled then
    Result.andThen (reapFinishedLocked cfg dev s) fun s =>
      if dev.stillThrottled then (.ok (some (.enqueue epoch chunk)), s) else admitChunk cfg dev epoch chunk s
  else admitChunk cfg dev epoch chunk s

/-- `playback_epoch != playback_epoch_`: the audio is late. -/
def enqueueInEpoch (epoch : UInt64) (chunk : PcmChunk) (s : St) : Stretch :=
  if epoch ≠ s.playbackEpoch then
    (.ok none, { s with lateAudioAfterTerminalCount := s.lateAudioAfterTerminalCount + 1 })
  else enqueueLoop cfg dev epoch chunk s

def enqueue (epoch : UInt64) (chunk : PcmChunk) (s : St) : Stretch :=
  if cfg.sinkMode = .disabled then (.ok none, s)
  else if chunk.format.sampleFormat ≠ CppString.lit "s16le" then
    (.error "default-device playback requires s16le PCM", s)
  else if chunk.format.sampleRate = 0 ∨ chunk.format.channels = 0 ∨ 65535 < chunk.format.channels then
    (.error "invalid PCM format for default-device playback", s)
  else if chunk.bytes.isEmpty then (.ok none, s)
  else Result.andThen (throwIfUnhealthyLocked s) (enqueueInEpoch cfg dev epoch chunk)

/-- `++playback_epoch_`, past 0. -/
def nextEpoch (epoch : UInt64) : UInt64 := if epoch + 1 = 0 then epoch + 1 + 1 else epoch + 1

/-- The pending buffers are dropped (`clear_pending_locked`) by the reset. -/
def clearPendingLocked (reset : Resetting) (s : St) : St :=
  { s with
    pendingBuffers := []
    pendingFormat := none
    gone := s.gone ++ s.pendingBuffers.map fun b => (b.admission, .discarded reset.turn s.turn) }

/-- `buffers_.clear()`. -/
def clearBuffers (reset : Resetting) (s : St) : St :=
  { s with
    buffers := []
    gone := s.gone ++ s.buffers.map fun b => (b.admission, .discarded reset.turn s.turn) }

/-- The end of `reset_locked`, when it drops what is pending. -/
def finishReset (reset : Resetting) (s : St) : Stretch :=
  (.ok none, { clearPendingLocked reset s with playbackStarted := false, nextStreamFrame := 0 })

def Buffer.stop (reset : Resetting) (now : Nat) (b : Buffer) : Buffer :=
  if b.header = .queued then { b with header := .stopped reset.turn now } else b

def Buffer.giveBack (b : Buffer) : Buffer :=
  match b.header with
  | .stopped reset now => { b with header := .returned reset now }
  | .queued | .played | .returned _ _ => b

/-- `waveOutReset`: the driver stops every buffer it still has. -/
def stopBuffers (reset : Resetting) (s : St) : St :=
  { s with buffers := s.buffers.map fun b =>
      let b := b.stop reset s.turn
      if dev.givesBack b.admission.serial then b.giveBack else b }

/-- The head of the loop of `reset_locked`. -/
def drain (reset : Resetting) (s : St) : Stretch :=
  if s.buffers.isEmpty then finishReset reset s
  else
    Result.andThen (reapFinishedLocked cfg dev s) fun s =>
      if s.buffers.isEmpty then finishReset reset s
      else if dev.deadlinePassed then
        let reason := "timed out waiting for default audio device reset"
        (.error reason, markUnhealthy s reason)
      else (.ok (some (.drain reset)), s)

/-- `reset_locked` after the test hook. -/
def resetSink (reset : Resetting) (s : St) : Stretch :=
  match cfg.sinkMode with
  | .disabled => (.ok none, { s with nextStreamFrame := 0 })
  | .mock =>
    let (inject, s) := shouldInjectMockFailure cfg { s with mockSubmissionCount := 0 } .reset
    if inject then
      let reason := "injected mock waveOutReset failure"
      (.error reason, markUnhealthy s reason)
    else finishReset reset (clearBuffers reset s)
  | .waveOut =>
    if !s.handle then finishReset reset s
    else
      match dev.resetError with
      | some text =>
        let reason := "waveOutReset failed: " ++ text
        (.error reason, markUnhealthy s reason)
      | none => drain cfg dev reset (stopBuffers dev reset s)

def beginReset (s : St) : St := { s with playbackEpoch := nextEpoch s.playbackEpoch, turn := s.turn + 1 }

def resetLocked (s : St) : Stretch :=
  let s := beginReset s
  let reset : Resetting := ⟨s.playbackEpoch, s.turn⟩
  Result.andThen (throwIfUnhealthyLocked s) fun s =>
    if s.resetWaitHook then (.ok (some (.hook reset)), { s with resetWaitHook := false })
    else resetSink cfg dev reset s

def resetIfEpoch (expected : UInt64) (s : St) : Stretch :=
  if s.playbackEpoch ≠ expected then (.ok none, s) else resetLocked cfg dev s

/-- `interrupt_with_fade_locked`, without the tail and the diagnostics it returns. -/
def interruptWithFadeLocked (s : St) : Stretch :=
  Result.andThen (if cfg.sinkMode = .disabled then (.ok (), s) else reapFinishedLocked cfg dev s) fun s =>
    match dev.thrown with
    | some e => (.error e, s)
    | none => resetLocked cfg dev s

def interruptWithFadeIfEpoch (expected : UInt64) (s : St) : Stretch :=
  if s.playbackEpoch ≠ expected then (.ok none, s) else interruptWithFadeLocked cfg dev s

/-- The head of the loop of `wait_until_idle`. -/
def idleLoop (s : St) : Stretch :=
  if s.buffers.isEmpty then (.ok none, s)
  else
    Result.andThen (reapFinishedLocked cfg dev s) fun s =>
      if s.buffers.isEmpty then (.ok none, s)
      else if dev.deadlinePassed then (.error "timed out waiting for default audio playback", s)
      else (.ok (some .idle), s)

def waitUntilIdle (s : St) : Stretch :=
  if cfg.sinkMode = .disabled then (.ok none, s)
  else
    Result.andThen (throwIfUnhealthyLocked s) fun s =>
    Result.andThen (flushPendingLocked cfg dev s) (idleLoop cfg dev)

/-- A waiting call has the mutex again. An overtaken reset returns. -/
def resumeCall (w : Waiting) (s : St) : Stretch :=
  match w with
  | .enqueue epoch chunk => enqueueInEpoch cfg dev epoch chunk s
  | .hook reset =>
    match dev.thrown with
    | some e => (.error e, s)
    | none => if s.playbackEpoch ≠ reset.epoch then (.ok none, s) else resetSink cfg dev reset s
  | .drain reset => if s.playbackEpoch ≠ reset.epoch then (.ok none, s) else drain cfg dev reset s
  | .idle => idleLoop cfg dev s

end Calls

/-! ## Runs -/

inductive Ev where
  | enqueue (epoch : UInt64) (chunk : PcmChunk) (dev : Device)
  | reset (dev : Device)
  | resetIfEpoch (expected : UInt64) (dev : Device)
  | interruptWithFade (dev : Device)
  | interruptWithFadeIfEpoch (expected : UInt64) (dev : Device)
  | waitUntilIdle (dev : Device)
  | setResetWaitHook
  /-- The call that waits at this place of the list takes the mutex again. -/
  | resume (index : Nat) (dev : Device)
  /-- The sink has played the buffer with the serial. -/
  | played (serial : Nat)
  /-- The driver gives back the buffer with the serial if that was stopped. -/
  | returned (serial : Nat)

/-- The end of a stretch: a call that has let go of the mutex waits. -/
def commit (r : Stretch) : St :=
  match r with
  | (.ok (some w), s) => { s with waiting := s.waiting ++ [w] }
  | (_, s) => s

def Buffer.play (serial : Nat) (b : Buffer) : Buffer :=
  if b.admission.serial = serial ∧ b.header = .queued then { b with header := .played } else b

def Buffer.giveBackIf (serial : Nat) (b : Buffer) : Buffer := if b.admission.serial = serial then b.giveBack else b

def step (cfg : Config) (s : St) : Ev → Option St
  | .enqueue epoch chunk dev => some (commit (enqueue cfg dev epoch chunk s))
  | .reset dev => some (commit (resetLocked cfg dev s))
  | .resetIfEpoch expected dev => some (commit (resetIfEpoch cfg dev expected s))
  | .interruptWithFade dev => some (commit (interruptWithFadeLocked cfg dev s))
  | .interruptWithFadeIfEpoch expected dev => some (commit (interruptWithFadeIfEpoch cfg dev expected s))
  | .waitUntilIdle dev => some (commit (waitUntilIdle cfg dev s))
  | .setResetWaitHook => some { s with resetWaitHook := true }
  | .resume index dev =>
    (s.waiting[index]?).map fun w =>
      commit (resumeCall cfg dev w { s with waiting := s.waiting.eraseIdx index })
  | .played serial => some { s with buffers := s.buffers.map (Buffer.play serial) }
  | .returned serial => some { s with buffers := s.buffers.map (Buffer.giveBackIf serial) }

abbrev Reachable (cfg : Config) := Reach (step cfg) anyStep init

end QwenTtsBridge.Playback.WaveOutPlayer
