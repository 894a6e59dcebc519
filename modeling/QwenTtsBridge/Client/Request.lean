/-
  QwenTtsBridge.Client.Request — what `QwenTtsClient::synthesize_async` does with a request
  before it takes the client's mutex (`client/qwen_tts_client.cpp`).

  The text goes through the configured hook (`prepareText`), is checked, and becomes a
  control message. The hooks are user code: a call may give any result, so it is a
  parameter (`Hooks`). Of a callback set only matters which callbacks are there.

  `PreparedText` is kept without the frontend's own fields, which nothing here reads.
-/

import QwenTtsBridge.Session.Event

namespace QwenTtsBridge.Client

open QwenTtsBridge.Protocol.Control QwenTtsBridge.Session

/-! ## Data -/

structure TtsError where
  requestId : RequestId := 0
  category : CppString := []
  code : CppString := []
  message : CppString := []
  deriving DecidableEq, Repr

def makeLocalError (requestId : RequestId) (category code message : String) : TtsError :=
  ⟨requestId, CppString.lit category, CppString.lit code, CppString.lit message⟩

structure TtsRequest where
  id : RequestId := 0
  text : CppString := []
  language : CppString := CppString.lit "auto"
  speaker : CppString := []
  instruction : CppString := []
  voiceId : CppString := []
  referenceAudioPath : CppString := []
  referenceText : CppString := []
  xVectorOnly : Bool := false
  hasSeed : Bool := false
  seed : UInt64 := 0
  sampling : SynthesisSamplingOptions := {}
  output : AudioFormat := {}
  deriving DecidableEq, Repr

structure PreparedText where
  originalText : CppString := []
  effectiveText : CppString := []
  utf8Bytes : Nat := 0
  nonSpaceUtf8Bytes : Nat := 0
  wasModified : Bool := false
  deriving DecidableEq, Repr

structure TtsCompletion where
  executionOutcome : CppString := []
  hasGenerationTrace : Bool := false
  generationTrace : GenerationTrace := {}
  deriving DecidableEq, Repr

/-- Which callbacks of the set are not empty. -/
structure TtsCallbacks where
  onTextPrepared : Bool := true
  onAudio : Bool := true
  onTiming : Bool := true
  onCompleted : Bool := true
  onCompletionMetadata : Bool := true
  onCancelled : Bool := true
  onError : Bool := true
  deriving DecidableEq, Repr

/-! ## UTF-8 -/

/-- The lead byte's share of the code point and its number of continuation bytes. -/
def utf8Lead (lead : UInt8) : Option (Nat × Nat) :=
  if lead ≤ 0x7F then some (lead.toNat, 0)
  else if 0xC2 ≤ lead ∧ lead ≤ 0xDF then some (lead.toNat % 0x20, 1)
  else if 0xE0 ≤ lead ∧ lead ≤ 0xEF then some (lead.toNat % 0x10, 2)
  else if 0xF0 ≤ lead ∧ lead ≤ 0xF4 then some (lead.toNat % 0x08, 3)
  else none

/-- `code_point << 6 | continuation & 0x3F`. -/
def utf8Append (codePoint : Nat) (continuation : UInt8) : Nat := codePoint * 64 + continuation.toNat % 0x40

def isScalarOfWidth (codePoint continuationCount : Nat) : Bool :=
  !((continuationCount == 2 && codePoint < 0x800) || (continuationCount == 3 && codePoint < 0x10000)
    || codePoint > 0x10FFFF || (0xD800 ≤ codePoint && codePoint ≤ 0xDFFF))

/-- `is_valid_utf8`; the fuel is the number of bytes. -/
def isValidUtf8Aux : Nat → CppString → Bool
  | _, [] => true
  | 0, _ :: _ => false
  | fuel + 1, lead :: rest =>
    match utf8Lead lead with
    | none => false
    | some (_, 0) => isValidUtf8Aux fuel rest
    | some (bits, count) =>
      let tail := rest.take count
      tail.length == count && tail.all (fun b => b &&& 0xC0 == 0x80)
        && isScalarOfWidth (tail.foldl utf8Append bits) count && isValidUtf8Aux fuel (rest.drop count)

def isValidUtf8 (value : CppString) : Bool := isValidUtf8Aux value.length value

def isUnicodeSpace (codePoint : Nat) : Bool :=
  codePoint ∈ [0x0009, 0x000A, 0x000B, 0x000C, 0x000D, 0x0020, 0x00A0, 0x1680]
    || (0x2000 ≤ codePoint && codePoint ≤ 0x200A)
    || codePoint ∈ [0x2028, 0x2029, 0x202F, 0x205F, 0x3000]

/-- `count_non_space_utf8_bytes`, of a text that `isValidUtf8` accepts; the fuel is the number
    of bytes. -/
def countNonSpaceUtf8BytesAux : Nat → CppString → Nat
  | 0, _ | _, [] => 0
  | fuel + 1, lead :: rest =>
    match utf8Lead lead with
    | none => (if isUnicodeSpace lead.toNat then 0 else 1) + countNonSpaceUtf8BytesAux fuel rest
    | some (bits, count) =>
      (if isUnicodeSpace ((rest.take count).foldl utf8Append bits) then 0 else count + 1)
        + countNonSpaceUtf8BytesAux fuel (rest.drop count)

def countNonSpaceUtf8Bytes (value : CppString) : Nat := countNonSpaceUtf8BytesAux value.length value

/-! ## Text preparation -/

def refreshPreparedTextMetrics (prepared : PreparedText) : PreparedText :=
  { prepared with
    utf8Bytes := prepared.effectiveText.length
    nonSpaceUtf8Bytes := countNonSpaceUtf8Bytes prepared.effectiveText
    wasModified := prepared.originalText != prepared.effectiveText }

/-- An exception of a hook: a `std::exception` with its text, or anything else. -/
inductive HookException where
  | exception (what : CppString)
  | unknown
  deriving DecidableEq, Repr

/-- What `options_.text_preparer` (returned value, `prepared` and `error`) and
    `options_.text_preprocessor` give for this call. -/
structure Hooks where
  textPreparer : Option (Except HookException (Bool × PreparedText × TtsError)) := none
  textPreprocessor : Option (Except HookException CppString) := none

def preprocessingFailed (requestId : RequestId) : HookException → TtsError
  | .exception what =>
    { makeLocalError requestId "client_error" "text_preprocessing_failed" "" with
      message := CppString.lit "text preprocessing failed: " ++ what }
  | .unknown =>
    makeLocalError requestId "client_error" "text_preprocessing_failed" "text preprocessing failed: unknown exception"

def prepareText (hooks : Hooks) (request : TtsRequest) : Except TtsError PreparedText :=
  match hooks.textPreparer with
  | some (.error e) => .error (preprocessingFailed request.id e)
  | some (.ok (false, _, error)) =>
    .error (if error.code.isEmpty then
      makeLocalError request.id "client_error" "text_preprocessing_failed" "structured text preparation failed"
    else error)
  | some (.ok (true, prepared, _)) =>
    if prepared.originalText ≠ request.text then
      .error (makeLocalError request.id "client_error" "prepared_text_mismatch"
        "structured text preparation returned a mismatched source text")
    else if !isValidUtf8 prepared.effectiveText then
      .error (makeLocalError request.id "client_error" "invalid_utf8_text" "text preparation returned invalid UTF-8")
    else if prepared.effectiveText.isEmpty then
      .error (makeLocalError request.id "request_error" "empty_text" "synthesis text is empty after preprocessing")
    else .ok (refreshPreparedTextMetrics prepared)
  | none =>
    match hooks.textPreprocessor.getD (.ok request.text) with
    | .error e => .error (preprocessingFailed request.id e)
    | .ok processedText =>
      if !isValidUtf8 processedText then
        .error (makeLocalError request.id "client_error" "invalid_utf8_text" "text preprocessing returned invalid UTF-8")
      else if processedText.isEmpty then
        .error (makeLocalError request.id "request_error" "empty_text" "synthesis text is empty after preprocessing")
      else .ok (refreshPreparedTextMetrics { originalText := request.text, effectiveText := processedText })

def toControlMessage (request : TtsRequest) : SynthesizeMessage where
  text := request.text
  language := request.language
  speaker := request.speaker
  instruction := request.instruction
  voiceId := request.voiceId
  referenceAudioPath := request.referenceAudioPath
  referenceText := request.referenceText
  xVectorOnly := request.xVectorOnly
  hasSeed := request.hasSeed
  seed := request.seed
  sampling := request.sampling
  output := request.output

/-- What `synthesize_async` found before it takes the mutex. -/
inductive Submission where
  /-- `on_error`, when there is one, gets the error, and the call returns zero. -/
  | refused (error : TtsError)
  /-- The message does not encode: the call returns zero. -/
  | unencodable
  | submit (requestedId : RequestId) (message : SynthesizeMessage) (prepared : PreparedText)

/-- `synthesize_async(PreparedTtsRequest, TtsCallbacks)` up to the mutex; `encodes` tells
    whether `encode_control_message` succeeds. -/
def submitPrepared (encodes : ControlMessage → Bool) (request : TtsRequest) (prepared : PreparedText) : Submission :=
  if prepared.originalText ≠ request.text then
    .refused (makeLocalError request.id "client_error" "prepared_text_mismatch"
      "prepared text does not match the request source text")
  else if prepared.effectiveText.isEmpty || !isValidUtf8 prepared.effectiveText then
    .refused (makeLocalError request.id "client_error" "invalid_prepared_text"
      "prepared text must be non-empty valid UTF-8")
  else
    let prepared := refreshPreparedTextMetrics prepared
    let message := toControlMessage { request with text := prepared.effectiveText }
    if encodes (.synthesize message) then .submit request.id message prepared else .unencodable

/-- `synthesize_async(TtsRequest, TtsCallbacks)` up to the mutex. -/
def submit (encodes : ControlMessage → Bool) (hooks : Hooks) (request : TtsRequest) : Submission :=
  match prepareText hooks request with
  | .error e => .refused e
  | .ok prepared => submitPrepared encodes request prepared

end QwenTtsBridge.Client
