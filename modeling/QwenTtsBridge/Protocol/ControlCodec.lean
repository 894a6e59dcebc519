/-
  QwenTtsBridge.Protocol.ControlCodec — the JSON codec of control and error payloads
  (`protocol/control/*.cpp`).

  A failed decode or encode is a `ControlCodecError` and its diagnostic. Readers that
  fill an out parameter return it, and those with a `present` flag return an option; a
  chain of `||` stops at the first that fails.
-/

import QwenTtsBridge.Protocol.Json

namespace QwenTtsBridge.Protocol.Control

open QwenTtsBridge.Lib

inductive ControlMessageDirection where
  | clientToWorker
  | workerToClient
  deriving DecidableEq, Repr

inductive ControlMessageType where
  | hello
  | synthesize
  | cancel
  | ping
  | shutdown
  | ready
  | queued
  | started
  | completed
  | cancelled
  | pong
  | shutdownAck
  deriving DecidableEq, Repr

def controlMessageType : ControlMessage → ControlMessageType
  | .hello _ _ => .hello
  | .synthesize _ => .synthesize
  | .cancel => .cancel
  | .ping _ _ => .ping
  | .shutdown _ => .shutdown
  | .ready _ => .ready
  | .queued _ _ => .queued
  | .started _ => .started
  | .completed _ => .completed
  | .cancelled => .cancelled
  | .pong _ _ => .pong
  | .shutdownAck => .shutdownAck

inductive ControlCodecError where
  | invalidJson
  | payloadNotObject
  | missingMessageType
  | invalidMessageType
  | unknownMessageType
  | invalidMessageDirection
  | missingRequiredField
  | invalidFieldType
  | forbiddenField
  | unknownField
  | encodeFailed
  deriving DecidableEq, Repr

def controlCodecErrorCode : ControlCodecError → CppString
  | .invalidJson => CppString.lit "invalid_json"
  | .payloadNotObject => CppString.lit "payload_not_object"
  | .missingMessageType => CppString.lit "missing_message_type"
  | .invalidMessageType => CppString.lit "invalid_message_type"
  | .unknownMessageType => CppString.lit "unknown_message_type"
  | .invalidMessageDirection => CppString.lit "invalid_message_direction"
  | .missingRequiredField => CppString.lit "missing_required_field"
  | .invalidFieldType => CppString.lit "invalid_field_type"
  | .forbiddenField => CppString.lit "invalid_field_type"
  | .unknownField => CppString.lit "unknown_field"
  | .encodeFailed => CppString.lit "internal_error"

abbrev Codec (α : Type) := Except (ControlCodecError × CppString) α

/-! ## Validation (`control_validation.cpp`) -/

def invalidField {α : Type} (diagnostic : CppString) : Codec α := .error (.invalidFieldType, diagnostic)

def validateNonEmptyString (value : CppString) (name : String) : Codec Unit :=
  if !value.isEmpty then .ok () else invalidField (CppString.lit "field must not be empty: " ++ CppString.lit name)

def validateAudioFormat (format : AudioFormat) (name : String) : Codec Unit := do
  validateNonEmptyString format.sampleFormat (name ++ ".sample_format")
  if format.sampleRate = 0 then invalidField (CppString.lit (name ++ ".sample_rate must be greater than zero"))
  else if format.channels = 0 then invalidField (CppString.lit (name ++ ".channels must be greater than zero"))
  else .ok ()

/-- `std::isfinite(value)` and the bounds, for an optional that has a value. -/
def within (bounds : Binary64.Finite → Bool) : Option Binary64 → Bool
  | none => true
  | some (.finite x) => bounds x
  | some _ => false

def validateSynthesisSampling (options : SynthesisSamplingOptions) : Codec Unit :=
  if !within (fun x => !x.leInt 0 && x.leInt 2) options.temperature then
    invalidField (CppString.lit "sampling.temperature must be finite and in the interval (0, 2]")
  else if options.topK = some 0 then invalidField (CppString.lit "sampling.top_k must be greater than zero")
  else if !within (fun x => !x.leInt 0 && x.leInt 1) options.topP then
    invalidField (CppString.lit "sampling.top_p must be finite and in the interval (0, 1]")
  else if !within (fun x => !x.ltInt 1 && x.leInt 2) options.repetitionPenalty then
    invalidField (CppString.lit "sampling.repetition_penalty must be finite and in the interval [1, 2]")
  else .ok ()

def validateSynthesize (m : SynthesizeMessage) : Codec Unit := do
  validateNonEmptyString m.text "text"
  if m.referenceAudioPath.isEmpty && (!m.referenceText.isEmpty || m.xVectorOnly) then
    invalidField (CppString.lit "reference_text and x_vector_only require reference_audio_path")
  else if !m.voiceId.isEmpty && (!m.referenceAudioPath.isEmpty || !m.referenceText.isEmpty || m.xVectorOnly) then
    invalidField (CppString.lit "voice_id cannot be combined with direct reference-audio fields")
  else do
    validateSynthesisSampling m.sampling
    validateAudioFormat m.output "output"

def validateControlMessage : ControlMessage → Codec Unit
  | .hello clientName clientVersion => do
    validateNonEmptyString clientName "client_name"
    validateNonEmptyString clientVersion "client_version"
  | .synthesize m => validateSynthesize m
  | .shutdown mode =>
    if mode = CppString.lit "cancel" then .ok () else invalidField (CppString.lit "unsupported shutdown mode")
  | .ready m => do
    validateNonEmptyString m.workerVersion "worker_version"
    validateNonEmptyString m.sessionId "session_id"
  | .queued hasPosition position =>
    if !hasPosition || position > 0 then .ok ()
    else invalidField (CppString.lit "position must be greater than zero")
  | .started audioFormat => validateAudioFormat audioFormat "audio_format"
  | _ => .ok ()

def validateErrorMessage (m : ErrorMessage) : Codec Unit := do
  validateNonEmptyString m.category "category"
  validateNonEmptyString m.code "code"
  validateNonEmptyString m.message "message"

/-! ## Messages to JSON (`control_encode.cpp`, `control_json.cpp`) -/

/-- A field, under a name of the source. -/
def Json.field (v : Json) (name : String) : Option Json := v.find (CppString.lit name)

namespace JsonObject

def fields (pairs : List (String × Json)) : JsonObject := ofPairs (pairs.map fun p => (CppString.lit p.1, p.2))

def put (object : JsonObject) (name : String) (value : Json) : JsonObject := object.set (CppString.lit name) value

/-- `if (condition) { out[name] = value; }`. -/
def putIf (object : JsonObject) (condition : Bool) (name : String) (value : Json) : JsonObject :=
  if condition then object.put name value else object

/-- The same for a `std::optional`. -/
def putSome {α : Type} (object : JsonObject) (name : String) (value : Option α) (toJson : α → Json) : JsonObject :=
  match value with
  | some x => object.put name (toJson x)
  | none => object

end JsonObject

def Json.lit (s : String) : Json := .string (CppString.lit s)

def Json.ofU32 (n : UInt32) : Json := .numberUnsigned n.toUInt64

def audioFormatToJson (format : AudioFormat) : JsonObject :=
  .fields [("sample_format", .string format.sampleFormat), ("sample_rate", .ofU32 format.sampleRate),
    ("channels", .ofU32 format.channels)]

def synthesisSamplingToJson (options : SynthesisSamplingOptions) : JsonObject :=
  let out : JsonObject := []
  let out := out.putSome "temperature" options.temperature .numberFloat
  let out := out.putSome "top_k" options.topK .ofU32
  let out := out.putSome "top_p" options.topP .numberFloat
  let out := out.putSome "repetition_penalty" options.repetitionPenalty .numberFloat
  out.putSome "do_sample" options.doSample .boolean

def capabilitiesToJson (c : WorkerCapabilities) : JsonObject :=
  .fields [("streaming", .boolean c.streaming), ("cancellation", .boolean c.cancellation),
    ("instructions", .boolean c.instructions), ("voice_clone", .boolean c.voiceClone),
    ("sampling_overrides", .boolean c.samplingOverrides), ("deterministic_seed", .boolean c.deterministicSeed),
    ("voice_clone_streaming", .boolean c.voiceCloneStreaming), ("voice_profiles", .boolean c.voiceProfiles)]

def synthesizeToJson (m : SynthesizeMessage) : JsonObject :=
  let out := JsonObject.fields [("message_type", .lit "synthesize"), ("text", .string m.text),
    ("language", .string m.language), ("instruction", .string m.instruction),
    ("output", .object (audioFormatToJson m.output))]
  let out := out.putIf (!m.speaker.isEmpty) "speaker" (.string m.speaker)
  let out := out.putIf (!m.voiceId.isEmpty) "voice_id" (.string m.voiceId)
  let out := out.putIf (!m.referenceAudioPath.isEmpty) "reference_audio_path" (.string m.referenceAudioPath)
  let out := out.putIf (!m.referenceText.isEmpty) "reference_text" (.string m.referenceText)
  let out := out.putIf m.xVectorOnly "x_vector_only" (.boolean true)
  let out := out.putIf m.hasSeed "seed" (.numberUnsigned m.seed)
  let sampling := synthesisSamplingToJson m.sampling
  out.putIf (!sampling.isEmpty) "sampling" (.object sampling)

def readyToJson (m : ReadyMessage) : JsonObject :=
  let out := JsonObject.fields [("message_type", .lit "ready"), ("worker_version", .string m.workerVersion),
    ("session_id", .string m.sessionId), ("capabilities", .object (capabilitiesToJson m.capabilities))]
  let out := out.putIf m.hasWarmedUp "warmed_up" (.boolean m.warmedUp)
  out.putIf (!m.voiceIds.isEmpty) "voice_ids" (.array (m.voiceIds.map .string))

def generationTraceToJson (t : GenerationTrace) : JsonObject :=
  .fields [("termination_reason", .string t.terminationReason), ("hit_eos", .boolean t.hitEos),
    ("hit_max_seq_len", .boolean t.hitMaxSeqLen), ("hit_max_new_tokens", .boolean t.hitMaxNewTokens),
    ("codec_frame_count", .numberUnsigned t.codecFrameCount), ("generated_steps", .numberUnsigned t.generatedSteps),
    ("emitted_steps", .numberUnsigned t.emittedSteps), ("terminal_step_index", .numberUnsigned t.terminalStepIndex)]

def completedToJson (m : CompletedMessage) : JsonObject :=
  let out := JsonObject.fields [("message_type", .lit "completed")]
  let out := out.putIf m.hasExecutionOutcome "execution_outcome" (.string m.executionOutcome)
  out.putIf m.hasGenerationTrace "generation_trace" (.object (generationTraceToJson m.generationTrace))

def controlMessageToJson : ControlMessage → JsonObject
  | .hello clientName clientVersion =>
    .fields [("message_type", .lit "hello"), ("client_name", .string clientName),
      ("client_version", .string clientVersion)]
  | .synthesize m => synthesizeToJson m
  | .cancel => .fields [("message_type", .lit "cancel")]
  | .ping hasSequence sequence =>
    (JsonObject.fields [("message_type", .lit "ping")]).putIf hasSequence "sequence" (.numberUnsigned sequence)
  | .shutdown mode => .fields [("message_type", .lit "shutdown"), ("mode", .string mode)]
  | .ready m => readyToJson m
  | .queued hasPosition position =>
    (JsonObject.fields [("message_type", .lit "queued")]).putIf hasPosition "position" (.ofU32 position)
  | .started audioFormat =>
    .fields [("message_type", .lit "started"), ("audio_format", .object (audioFormatToJson audioFormat))]
  | .completed m => completedToJson m
  | .cancelled => .fields [("message_type", .lit "cancelled")]
  | .pong hasSequence sequence =>
    (JsonObject.fields [("message_type", .lit "pong")]).putIf hasSequence "sequence" (.numberUnsigned sequence)
  | .shutdownAck => .fields [("message_type", .lit "shutdown_ack")]

def errorMessageToJson (m : ErrorMessage) : JsonObject :=
  .fields [("message_type", .lit "error"), ("category", .string m.category), ("code", .string m.code),
    ("message", .string m.message)]

/-- `what()`, or the text for what is no `std::exception`. -/
def JsonException.diagnostic (unknownText : String) : JsonException → CppString
  | .parseError what | .typeError what | .exception what => what
  | .unknown => CppString.lit unknownText

def encodeJsonPayload (lib : JsonLibrary) (object : JsonObject) : Codec CppString :=
  match lib.dump (.object object) with
  | .ok text => .ok text
  | .error e => .error (.encodeFailed, e.diagnostic "unknown JSON encode error")

def encodeControlMessage (lib : JsonLibrary) (m : ControlMessage) : Codec CppString := do
  validateControlMessage m
  encodeJsonPayload lib (controlMessageToJson m)

def encodeErrorMessage (lib : JsonLibrary) (m : ErrorMessage) : Codec CppString := do
  validateErrorMessage m
  encodeJsonPayload lib (errorMessageToJson m)

/-! ## Readers (`control_json.cpp`) -/

def missing {α : Type} (name : String) : Codec α :=
  .error (.missingRequiredField, CppString.lit "missing required field: " ++ CppString.lit name)

def wrongField {α : Type} (text name : String) : Codec α := invalidField (CppString.lit text ++ CppString.lit name)

def asString (v : Json) (name : String) : Codec CppString :=
  match v with
  | .string s => .ok s
  | _ => wrongField "field must be a string: " name

def asBool (v : Json) (name : String) : Codec Bool :=
  match v with
  | .boolean b => .ok b
  | _ => wrongField "field must be a bool: " name

def readRequiredString (object : Json) (name : String) : Codec CppString :=
  match object.field name with
  | none => missing name
  | some v => asString v name

/-- An absent field leaves `out` as it is. -/
def readOptionalString (object : Json) (name : String) (out : CppString) : Codec CppString :=
  match object.field name with
  | none => .ok out
  | some v => asString v name

def nonEmptyString : Json → Option CppString
  | .string [] => none
  | .string s => some s
  | _ => none

def readOptionalStringArray (object : Json) (name : String) (out : List CppString) : Codec (List CppString) :=
  match object.field name with
  | none => .ok out
  | some (.array items) =>
    match items.mapM nonEmptyString with
    | some strings => .ok strings
    | none => wrongField "field must contain non-empty strings: " name
  | some _ => wrongField "field must be an array: " name

def readOptionalBool (object : Json) (name : String) : Codec (Option Bool) :=
  match object.field name with
  | none => .ok none
  | some v => some <$> asBool v name

def readRequiredBool (object : Json) (name : String) : Codec Bool :=
  match object.field name with
  | none => missing name
  | some v => asBool v name

def jsonToU64 : Json → Option UInt64
  | .numberUnsigned n => some n
  | .numberInteger n => if n < 0 then none else some n.toUInt64
  | _ => none

def readOptionalU64 (object : Json) (name : String) : Codec (Option UInt64) :=
  match object.field name with
  | none => .ok none
  | some v =>
    match jsonToU64 v with
    | some n => .ok (some n)
    | none => wrongField "field must be a non-negative integer: " name

def readOptionalU32 (object : Json) (name : String) : Codec (Option UInt32) := do
  match ← readOptionalU64 object name with
  | none => .ok none
  | some n => if n.toNat > 2 ^ 32 - 1 then wrongField "field exceeds uint32 range: " name else .ok (some n.toUInt32)

def readRequiredU32 (object : Json) (name : String) : Codec UInt32 := do
  match ← readOptionalU32 object name with
  | none => missing name
  | some n => .ok n

def readRequiredU64 (object : Json) (name : String) : Codec UInt64 :=
  match object.field name with
  | none => missing name
  | some (.numberUnsigned n) => .ok n
  | some _ => wrongField "field must be an unsigned integer: " name

def readAudioFormat (object : Json) : Codec AudioFormat :=
  if !object.isObject then invalidField (CppString.lit "audio format must be an object")
  else do
    let sampleFormat ← readRequiredString object "sample_format"
    let sampleRate ← readRequiredU32 object "sample_rate"
    let channels ← readRequiredU32 object "channels"
    validateAudioFormat { sampleFormat, sampleRate, channels } "audio_format"
    pure { sampleFormat, sampleRate, channels }

def readOptionalAudioFormat (object : Json) (name : String) (out : AudioFormat) : Codec AudioFormat :=
  match object.field name with
  | none => .ok out
  | some v => readAudioFormat v

def readRequiredAudioFormat (object : Json) (name : String) : Codec AudioFormat :=
  match object.field name with
  | none => missing name
  | some v => readAudioFormat v

/-- `get<double>()` of a number. -/
def jsonToDouble : Json → Option Binary64
  | .numberInteger n => some (Binary64.ofInt n.toInt)
  | .numberUnsigned n => some (Binary64.ofInt n.toNat)
  | .numberFloat x => some x
  | _ => none

def readOptionalFiniteDouble (object : Json) (name : String) : Codec (Option Binary64) :=
  match object.field name with
  | none => .ok none
  | some v =>
    match jsonToDouble v with
    | some (.finite x) => .ok (some (.finite x))
    | _ => wrongField "field must be a finite number: " name

def rejectUnknownFields (fields : List (CppString × Json)) (allowed : List String) (objectName : String) : Codec Unit :=
  match fields.find? fun p => !(allowed.map CppString.lit).contains p.1 with
  | some p => .error (.unknownField, CppString.lit objectName ++ CppString.lit " contains unknown field: " ++ p.1)
  | none => .ok ()

def readOptionalSynthesisSampling (object : Json) (name : String) : Codec SynthesisSamplingOptions :=
  match object.field name with
  | none => .ok {}
  | some (.object fields) => do
    rejectUnknownFields fields ["temperature", "top_k", "top_p", "repetition_penalty", "do_sample"] name
    let temperature ← readOptionalFiniteDouble (.object fields) "temperature"
    let topK ← readOptionalU32 (.object fields) "top_k"
    let topP ← readOptionalFiniteDouble (.object fields) "top_p"
    let repetitionPenalty ← readOptionalFiniteDouble (.object fields) "repetition_penalty"
    let doSample ← readOptionalBool (.object fields) "do_sample"
    pure { temperature, topK, topP, repetitionPenalty, doSample }
  | some _ => wrongField "field must be an object: " name

def readGenerationTrace (trace : Json) : Codec GenerationTrace :=
  if !trace.isObject then invalidField (CppString.lit "generation_trace must be an object")
  else do
    let terminationReason ← readRequiredString trace "termination_reason"
    let hitEos ← readRequiredBool trace "hit_eos"
    let hitMaxSeqLen ← readRequiredBool trace "hit_max_seq_len"
    let hitMaxNewTokens ← readRequiredBool trace "hit_max_new_tokens"
    let codecFrameCount ← readRequiredU64 trace "codec_frame_count"
    let generatedSteps ← readRequiredU64 trace "generated_steps"
    let emittedSteps ← readRequiredU64 trace "emitted_steps"
    let terminalStepIndex ← readRequiredU64 trace "terminal_step_index"
    pure { terminationReason, hitEos, hitMaxSeqLen, hitMaxNewTokens, codecFrameCount, generatedSteps, emittedSteps,
           terminalStepIndex }

def readCompletedMessage (object : Json) : Codec CompletedMessage := do
  let executionOutcome ← readOptionalString object "execution_outcome" []
  let out : CompletedMessage := { hasExecutionOutcome := (object.field "execution_outcome").isSome, executionOutcome }
  match object.field "generation_trace" with
  | none => .ok out
  | some trace => do
    let generationTrace ← readGenerationTrace trace
    pure { out with hasGenerationTrace := true, generationTrace }

def readCapabilities (object : Json) : Codec WorkerCapabilities :=
  match object.field "capabilities" with
  | none => missing "capabilities"
  | some value =>
    if !value.isObject then wrongField "field must be an object: " "capabilities"
    else do
      let streaming ← readRequiredBool value "streaming"
      let cancellation ← readRequiredBool value "cancellation"
      let instructions ← readRequiredBool value "instructions"
      let voiceClone ← readRequiredBool value "voice_clone"
      let samplingOverrides ← readOptionalBool value "sampling_overrides"
      let deterministicSeed ← readOptionalBool value "deterministic_seed"
      let voiceCloneStreaming ← readOptionalBool value "voice_clone_streaming"
      let voiceProfiles ← readOptionalBool value "voice_profiles"
      pure { streaming, cancellation, instructions, voiceClone,
             samplingOverrides := samplingOverrides.getD false, deterministicSeed := deterministicSeed.getD false,
             voiceCloneStreaming := voiceCloneStreaming.getD false, voiceProfiles := voiceProfiles.getD false }

/-! ## JSON to messages (`control_decode.cpp`, `error_codec.cpp`) -/

def clientToWorkerMessages : List String := ["hello", "synthesize", "cancel", "ping", "shutdown"]

def workerToClientMessages : List String :=
  ["ready", "queued", "started", "completed", "cancelled", "pong", "shutdown_ack"]

def isOneOf (types : List String) (type : CppString) : Bool := (types.map CppString.lit).contains type

def directionAllows (type : CppString) : ControlMessageDirection → Bool
  | .clientToWorker => isOneOf clientToWorkerMessages type
  | .workerToClient => isOneOf workerToClientMessages type

def readSynthesizeMessage (object : Json) : Codec SynthesizeMessage := do
  let text ← readRequiredString object "text"
  let language ← readOptionalString object "language" (CppString.lit "auto")
  let speaker ← readOptionalString object "speaker" []
  let instruction ← readOptionalString object "instruction" []
  let voiceId ← readOptionalString object "voice_id" []
  let referenceAudioPath ← readOptionalString object "reference_audio_path" []
  let referenceText ← readOptionalString object "reference_text" []
  let xVectorOnly ← readOptionalBool object "x_vector_only"
  let seed ← readOptionalU64 object "seed"
  let sampling ← readOptionalSynthesisSampling object "sampling"
  let output ← readOptionalAudioFormat object "output" {}
  pure { text, language, speaker, instruction, voiceId, referenceAudioPath, referenceText,
         xVectorOnly := xVectorOnly.getD false, hasSeed := seed.isSome, seed := seed.getD 0, sampling, output }

def readReadyMessage (object : Json) : Codec ReadyMessage := do
  let workerVersion ← readRequiredString object "worker_version"
  let sessionId ← readRequiredString object "session_id"
  let warmedUp ← readOptionalBool object "warmed_up"
  let voiceIds ← readOptionalStringArray object "voice_ids" []
  let capabilities ← readCapabilities object
  pure { workerVersion, sessionId, hasWarmedUp := warmedUp.isSome, warmedUp := warmedUp.getD false, capabilities, voiceIds }

/-- The message that was read, once it passes `validate_control_message`. -/
def validated (m : ControlMessage) : Codec ControlMessage := do
  validateControlMessage m
  pure m

def decodeKnownControlMessage (object : Json) (type : CppString) : Codec ControlMessage :=
  if type = CppString.lit "hello" then do
    let clientName ← readRequiredString object "client_name"
    let clientVersion ← readRequiredString object "client_version"
    validated (.hello clientName clientVersion)
  else if type = CppString.lit "synthesize" then do
    validated (.synthesize (← readSynthesizeMessage object))
  else if type = CppString.lit "cancel" then .ok .cancel
  else if type = CppString.lit "ping" then do
    let sequence ← readOptionalU64 object "sequence"
    pure (.ping sequence.isSome (sequence.getD 0))
  else if type = CppString.lit "shutdown" then do
    let mode ← readOptionalString object "mode" (CppString.lit "cancel")
    if mode ≠ CppString.lit "cancel" then invalidField (CppString.lit "unsupported shutdown mode")
    else pure (.shutdown mode)
  else if type = CppString.lit "ready" then do
    validated (.ready (← readReadyMessage object))
  else if type = CppString.lit "queued" then do
    let position ← readOptionalU32 object "position"
    validated (.queued position.isSome (position.getD 0))
  else if type = CppString.lit "started" then do
    validated (.started (← readRequiredAudioFormat object "audio_format"))
  else if type = CppString.lit "completed" then do
    pure (.completed (← readCompletedMessage object))
  else if type = CppString.lit "cancelled" then .ok .cancelled
  else if type = CppString.lit "pong" then do
    let sequence ← readOptionalU64 object "sequence"
    pure (.pong sequence.isSome (sequence.getD 0))
  else if type = CppString.lit "shutdown_ack" then .ok .shutdownAck
  else .error (.unknownMessageType, CppString.lit "unknown message_type")

def hasForbiddenHeaderField (object : Json) : Bool :=
  (object.field "protocol_version").isSome || (object.field "request_id").isSome

def decodeControlObject (object : Json) (direction : ControlMessageDirection) : Codec ControlMessage :=
  if !object.isObject then .error (.payloadNotObject, CppString.lit "control payload must be a JSON object")
  else if hasForbiddenHeaderField object then
    .error (.forbiddenField, CppString.lit "control payload must not contain protocol_version or request_id")
  else match object.field "message_type" with
    | none => .error (.missingMessageType, CppString.lit "missing message_type")
    | some (.string type) =>
      if !(isOneOf clientToWorkerMessages type || isOneOf workerToClientMessages type) then
        .error (.unknownMessageType, CppString.lit "unknown message_type: " ++ type)
      else if !directionAllows type direction then
        .error (.invalidMessageDirection, CppString.lit "message_type is not valid for this direction: " ++ type)
      else decodeKnownControlMessage object type
    | some _ => .error (.invalidMessageType, CppString.lit "message_type must be a string")

/-- The `catch` clauses around `Json::parse`; nothing after it throws. -/
def parsePayload (lib : JsonLibrary) (payload : CppString) : Codec Json :=
  match lib.parse payload with
  | .ok value => .ok value
  | .error (.typeError what) => .error (.invalidFieldType, what)
  | .error e => .error (.invalidJson, e.diagnostic "unknown JSON decode error")

def decodeControlMessage (lib : JsonLibrary) (payload : CppString) (direction : ControlMessageDirection) :
    Codec ControlMessage := do
  decodeControlObject (← parsePayload lib payload) direction

def decodeErrorObject (object : Json) : Codec ErrorMessage :=
  if !object.isObject then .error (.payloadNotObject, CppString.lit "error payload must be a JSON object")
  else if hasForbiddenHeaderField object then
    .error (.forbiddenField, CppString.lit "error payload must not contain protocol_version or request_id")
  else match object.field "message_type" with
    | none => .error (.missingMessageType, CppString.lit "missing message_type")
    | some (.string type) =>
      if type ≠ CppString.lit "error" then
        .error (.unknownMessageType, CppString.lit "error_json must use message_type=error")
      else do
        let category ← readRequiredString object "category"
        let code ← readRequiredString object "code"
        let message ← readRequiredString object "message"
        validateErrorMessage ⟨category, code, message⟩
        pure ⟨category, code, message⟩
    | some _ => .error (.invalidMessageType, CppString.lit "message_type must be a string")

def decodeErrorMessage (lib : JsonLibrary) (payload : CppString) : Codec ErrorMessage := do
  decodeErrorObject (← parsePayload lib payload)

end QwenTtsBridge.Protocol.Control
