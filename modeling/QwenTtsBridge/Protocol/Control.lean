/-
  QwenTtsBridge.Protocol.Control — the control and error messages of protocol v1 as the C++
  side holds them (`protocol/control/control_messages.hpp`, `data/audio_types.hpp`).

  A `std::string` is its bytes.
-/

import QwenTtsBridge.Protocol.Frame
import QwenTtsBridge.Lib.Binary64

namespace QwenTtsBridge.Protocol.Control

open QwenTtsBridge.Lib

/-- A `std::string`. -/
abbrev CppString := List UInt8

/-- A literal of the source; all of them are ASCII. -/
def CppString.lit (s : String) : CppString := s.toList.map fun c => UInt8.ofNat c.toNat

structure AudioFormat where
  sampleFormat : CppString := CppString.lit "s16le"
  sampleRate : UInt32 := 24000
  channels : UInt32 := 1
  deriving DecidableEq, Repr

structure WorkerCapabilities where
  streaming : Bool := false
  cancellation : Bool := false
  instructions : Bool := false
  voiceClone : Bool := false
  samplingOverrides : Bool := false
  deterministicSeed : Bool := false
  voiceCloneStreaming : Bool := false
  voiceProfiles : Bool := false
  deriving DecidableEq, Repr

structure SynthesisSamplingOptions where
  temperature : Option Binary64 := none
  topK : Option UInt32 := none
  topP : Option Binary64 := none
  repetitionPenalty : Option Binary64 := none
  doSample : Option Bool := none
  deriving DecidableEq, Repr

structure SynthesizeMessage where
  text : CppString := []
  language : CppString := CppString.lit "auto"
  speaker : CppString := []
  instruction : CppString := []
  voiceId : CppString := []
  referenceAudioPath : CppString := []
  referenceText : CppString := []
  xVectorOnly : Bool := false
  hasSeed : Bool := false
  seed : UInt64 := 0
  sampling : SynthesisSamplingOptions := {}
  output : AudioFormat := {}
  deriving DecidableEq, Repr

structure ReadyMessage where
  workerVersion : CppString := []
  sessionId : CppString := []
  hasWarmedUp : Bool := false
  warmedUp : Bool := false
  capabilities : WorkerCapabilities := {}
  voiceIds : List CppString := []
  deriving DecidableEq, Repr

structure GenerationTrace where
  terminationReason : CppString := []
  hitEos : Bool := false
  hitMaxSeqLen : Bool := false
  hitMaxNewTokens : Bool := false
  codecFrameCount : UInt64 := 0
  generatedSteps : UInt64 := 0
  emittedSteps : UInt64 := 0
  terminalStepIndex : UInt64 := 0
  deriving DecidableEq, Repr

structure CompletedMessage where
  hasExecutionOutcome : Bool := false
  executionOutcome : CppString := []
  hasGenerationTrace : Bool := false
  generationTrace : GenerationTrace := {}
  deriving DecidableEq, Repr

inductive ControlMessage where
  | hello (clientName clientVersion : CppString)
  | synthesize (m : SynthesizeMessage)
  | cancel
  | ping (hasSequence : Bool) (sequence : UInt64)
  | shutdown (mode : CppString)
  | ready (m : ReadyMessage)
  | queued (hasPosition : Bool) (position : UInt32)
  | started (audioFormat : AudioFormat)
  | completed (m : CompletedMessage)
  | cancelled
  | pong (hasSequence : Bool) (sequence : UInt64)
  | shutdownAck
  deriving DecidableEq, Repr

structure ErrorMessage where
  category : CppString
  code : CppString
  message : CppString
  deriving DecidableEq, Repr

def ErrorMessage.lit (category code message : String) : ErrorMessage :=
  ⟨CppString.lit category, CppString.lit code, CppString.lit message⟩

end QwenTtsBridge.Protocol.Control
