/-
  QwenTtsBridge.Worker.NativeRobustness — what `handle_frame` of the native worker sends, with
  the encoders that `send_control`, `send_error` and `make_frame` call.

  A message that cannot be encoded is a `fail_fatal`, and a payload over the limit of its
  frame an exception that nothing catches. Neither is guarded against: a refusal quotes
  what it refuses, so a client's payload decides about both (`Quotes`, `LacksVoice`).

  Proved: `frame_is_answered_iff` — over every worker state, every engine and every frame,
  the worker stays up exactly when what it quotes is UTF-8 and short enough. The writer is
  taken to be healthy.
-/

import Mathlib.Data.Nat.Digits.Lemmas
import QwenTtsBridge.Protocol.Diagnostics
import QwenTtsBridge.Worker.NativeAdmission
import QwenTtsBridge.Worker.NativeFrame

namespace QwenTtsBridge.Worker.NativeServer

open QwenTtsBridge.Protocol.Control QwenTtsBridge.Protocol.Framing QwenTtsBridge.Lib QwenTtsBridge.Lib.Transition

/-! ## Sending -/

inductive Sent where
  | handed (bytes : Bytes)
  | failFatal
  /-- `make_frame` throws. -/
  | throws
  deriving DecidableEq, Repr

/-- `writer_->send(make_frame(type, request_id, payload))`. -/
def sendFrame (type : FrameType) (id : RequestId) (payload : Bytes) : Sent :=
  match encodeFrame type.value (UInt64.ofNat id) payload with
  | .ok bytes => .handed bytes
  | .error _ => .throws

def sendPayload (type : FrameType) (id : RequestId) : Codec CppString → Sent
  | .ok payload => sendFrame type id payload
  | .error _ => .failFatal

/-- `send_control`, `send_error`, and the audio of the engine thread. -/
def OutFrame.send (lib : JsonLibrary) : OutFrame → Sent
  | .control id m => sendPayload .controlJson id (encodeControlMessage lib m)
  | .error id e => sendPayload .errorJson id (encodeErrorMessage lib e)
  | .audioPcm id pcm => sendFrame .audioPcm id pcm

/-- The frames that `handle_frame` sends, those of `request_shutdown` included. -/
def sends (cfg : Config) (s : St) (stale : Bool) (input : Input) : List OutFrame :=
  let s' := handleFrame cfg s stale input
  match s'.reader with
  | .requestShutdown sendAck :: rest =>
    let s' := { s' with reader := rest }
    replies s' (requestShutdown s' sendAck)
  | _ => replies s s'

/-! ## The engine (`native_engine.cpp`) -/

/-- What `handle_hello` and `handle_synthesize` ask the engine; `voiceProfiles` are the keys of
    `voice_profiles_`. -/
structure NativeEngine where
  loaded : Bool := true
  engineVersion : CppString
  warmedUp : Bool := true
  voiceProfiles : List CppString := []

namespace NativeEngine

def supportsOutput (format : AudioFormat) : Bool :=
  format.sampleFormat = CppString.lit "s16le" ∧ format.sampleRate = 24000 ∧ format.channels = 1

def validateRequest (engine : NativeEngine) (request : SynthesizeMessage) : Option ValidationError :=
  if !engine.loaded then some (.other (CppString.lit "native engine is not loaded"))
  else if request.text.isEmpty then some (.invalidArgument (CppString.lit "text must not be empty"))
  else if !supportsOutput request.output then
    some (.invalidArgument (CppString.lit "native qwentts worker supports only mono 24000 Hz s16le output"))
  else if !request.voiceId.isEmpty && !engine.voiceProfiles.contains request.voiceId then
    some (.invalidArgument (CppString.lit "unknown native voice_id profile: " ++ request.voiceId))
  else if !request.voiceId.isEmpty && (!request.referenceAudioPath.isEmpty || !request.referenceText.isEmpty ||
      request.xVectorOnly || !request.speaker.isEmpty) then
    some (.invalidArgument (CppString.lit "voice_id cannot be combined with direct reference or speaker fields"))
  else if request.xVectorOnly && request.referenceAudioPath.isEmpty then
    some (.invalidArgument (CppString.lit "x_vector_only requires reference_audio_path"))
  else if !request.referenceText.isEmpty && request.referenceAudioPath.isEmpty then
    some (.invalidArgument (CppString.lit "reference_text requires reference_audio_path"))
  else if !request.referenceAudioPath.isEmpty && !request.speaker.isEmpty then
    some (.invalidArgument (CppString.lit "reference_audio_path and speaker are mutually exclusive"))
  else if request.hasSeed && request.seed.toNat > 2 ^ 63 - 1 then
    some (.invalidArgument (CppString.lit "seed exceeds the qwentts signed 64-bit range"))
  else none

def capabilities (engine : NativeEngine) : WorkerCapabilities where
  streaming := true
  cancellation := true
  instructions := true
  voiceClone := true
  samplingOverrides := true
  deterministicSeed := true
  voiceCloneStreaming := true
  voiceProfiles := !engine.voiceProfiles.isEmpty

/-- `std::sort` of the keys. -/
def voiceIds (engine : NativeEngine) : List CppString := engine.voiceProfiles.mergeSort fun a b => decide (a ≤ b)

/-- The message of `handle_hello`, with the process id and the ticks of `make_session_id`. -/
def ready (engine : NativeEngine) (processId : UInt32) (ticks : UInt64) : ReadyMessage where
  workerVersion := CppString.lit "0.2.0-native-qwentts/" ++ engine.engineVersion
  sessionId := CppString.lit "native-" ++ decimalText processId.toNat ++ CppString.lit "-" ++ decimalText ticks.toNat
  hasWarmedUp := true
  warmedUp := engine.warmedUp
  capabilities := engine.capabilities
  voiceIds := engine.voiceIds

def config (engine : NativeEngine) (processId : UInt32) (ticks : UInt64) (maxAdmittedRequests : Nat) : Config where
  maxAdmittedRequests
  ready := engine.ready processId ticks
  validateRequest := engine.validateRequest

end NativeEngine

/-! ## What can be sent -/

section Send

variable {lib : JsonLibrary} (hlib : lib.Serializes) (id : RequestId)

theorem sendFrame_iff (type : FrameType) (payload : Bytes) :
    (∃ bytes, sendFrame type id payload = .handed bytes) ↔ payload.length ≤ maxPayloadSize type.value := by
  rw [← encodeFrame_ok_iff type (UInt64.ofNat id) payload]
  unfold sendFrame
  cases encodeFrame type.value (UInt64.ofNat id) payload with
  | ok bytes => exact ⟨fun _ => ⟨bytes, rfl⟩, fun _ => ⟨bytes, rfl⟩⟩
  | error e => exact ⟨nofun, nofun⟩

include hlib in
/-- A validated message is sent when its strings are UTF-8 and its text fits the frame. -/
theorem sendPayload_iff (type : FrameType) (validation : Codec Unit) (object : JsonObject) :
    (∃ bytes, sendPayload type id (do validation; encodeJsonPayload lib object) = .handed bytes) ↔
      validation = .ok () ∧ (Json.object object).isUtf8 = true ∧
        (Json.object object).bytes lib.floatText ≤ maxPayloadSize type.value := by
  cases validation with
  | error e => exact ⟨nofun, fun h => nomatch h.1⟩
  | ok u =>
    change (∃ bytes, sendPayload type id (encodeJsonPayload lib object) = .handed bytes) ↔ _
    cases hpayload : encodeJsonPayload lib object with
    | error e =>
      refine ⟨nofun, fun h => ?_⟩
      have hok := (encodeJsonPayload_ok hlib).mpr ⟨h.2.1, rfl⟩
      rw [hpayload] at hok
      cases hok
    | ok payload =>
      obtain ⟨hutf8, rfl⟩ := (encodeJsonPayload_ok hlib).mp hpayload
      exact (sendFrame_iff id type _).trans ⟨fun h => ⟨rfl, hutf8, h⟩, fun h => h.2.2⟩

theorem validateNonEmptyString_ok (value : CppString) (name : String) :
    validateNonEmptyString value name = .ok () ↔ value ≠ [] := by
  unfold validateNonEmptyString
  cases value with
  | nil => exact ⟨nofun, fun h => absurd rfl h⟩
  | cons b rest => exact ⟨fun _ => List.cons_ne_nil b rest, fun _ => rfl⟩

theorem codec_andThen_ok (x y : Codec Unit) : (do x; y) = .ok () ↔ x = .ok () ∧ y = .ok () := by
  cases x with
  | error e => exact ⟨nofun, fun h => nomatch h.1⟩
  | ok u => exact ⟨fun h => ⟨rfl, h⟩, fun h => h.2⟩

include hlib in
theorem send_error_iff (e : ErrorMessage) : (∃ bytes, (OutFrame.error id e).send lib = .handed bytes) ↔
    (e.category ≠ [] ∧ e.code ≠ [] ∧ e.message ≠ []) ∧
      (isUtf8 e.category && isUtf8 e.code && isUtf8 e.message) = true ∧
      errorPayloadBytes e ≤ ProtocolLimits.maxErrorPayloadBytes := by
  have hvalid : validateErrorMessage e = .ok () ↔ e.category ≠ [] ∧ e.code ≠ [] ∧ e.message ≠ [] := by
    unfold validateErrorMessage
    rw [codec_andThen_ok, codec_andThen_ok, validateNonEmptyString_ok, validateNonEmptyString_ok,
      validateNonEmptyString_ok]
  rw [← hvalid, ← utf8_error, ← bytes_error lib.floatText]
  exact sendPayload_iff hlib id .errorJson (validateErrorMessage e) (errorMessageToJson e)

include hlib in
theorem send_control_iff (m : ControlMessage) : (∃ bytes, (OutFrame.control id m).send lib = .handed bytes) ↔
    validateControlMessage m = .ok () ∧ (Json.object (controlMessageToJson m)).isUtf8 = true ∧
      (Json.object (controlMessageToJson m)).bytes lib.floatText ≤ ProtocolLimits.maxControlPayloadBytes :=
  sendPayload_iff hlib id .controlJson (validateControlMessage m) (controlMessageToJson m)

/-- An error whose texts are all of the source. -/
def TerseError (e : ErrorMessage) : Prop := Terse e.category ∧ Terse e.code ∧ Terse e.message

instance (e : ErrorMessage) : Decidable (TerseError e) := inferInstanceAs (Decidable (_ ∧ _))

include hlib in
theorem send_terse {e : ErrorMessage} (h : TerseError e) : ∃ bytes, (OutFrame.error id e).send lib = .handed bytes := by
  obtain ⟨hcategory, hcode, hmessage⟩ := h
  refine (send_error_iff hlib id e).mpr ⟨⟨hcategory.1, hcode.1, hmessage.1⟩, ?_, terse_errorPayload hcategory hcode hmessage⟩
  rw [isUtf8_of_isAscii hcategory.2.1, isUtf8_of_isAscii hcode.2.1, isUtf8_of_isAscii hmessage.2.1]
  rfl

/-! Control messages with a number at most. -/

theorem length_decimalText {n k : Nat} (h : n < 10 ^ k) (hk : 0 < k) : (decimalText n).length ≤ k := by
  unfold decimalText
  split
  · exact hk
  · rw [List.length_reverse, List.length_map]
    exact (Nat.digits_length_le_iff (by decide) n).mpr h

/-- The entries of such a message. -/
def countedEntries (type name : String) (value : Option UInt64) : List (String × Option Json) :=
  [("message_type", some (.lit type)), (name, value.map .numberUnsigned)]

/-- The types and the names of these messages. -/
def countedNames : List (String × String) := [("pong", "sequence"), ("queued", "position"), ("cancelled", "none")]

theorem countedNames_ok : ∀ p ∈ countedNames, Short 16 (CppString.lit p.1) ∧ Short 16 (CppString.lit p.2) ∧
    Distinct ["message_type", p.2] ∧ Plain ["message_type", p.2] := by decide +kernel

theorem counted_fits {type name : String} (h : (type, name) ∈ countedNames) (value : Option UInt64)
    (floatText : Binary64 → CppString) :
    (Json.object (JsonObject.fields (present (countedEntries type name value)))).isUtf8 = true ∧
      (Json.object (JsonObject.fields (present (countedEntries type name value)))).bytes floatText ≤
        ProtocolLimits.maxControlPayloadBytes := by
  obtain ⟨htype, hname, hdistinct, hplain⟩ := countedNames_ok _ h
  have hnumber : (Option.map Json.numberUnsigned value).all Json.isUtf8 = true := by cases value <;> rfl
  refine ⟨?_, ?_⟩
  · rw [Json.isUtf8, countedEntries, fieldsUtf8_present (by exact hdistinct) (by exact hplain)]
    simp only [List.all_cons, List.all_nil, hnumber, Option.all_some, Json.lit, Json.isUtf8, isUtf8_of_isAscii htype.1,
      Bool.and_true]
  · rw [countedEntries, bytes_present floatText (by exact hdistinct)]
    have h1 := quotedBytes_le (CppString.lit type)
    have h2 := quotedBytes_le (CppString.lit name)
    have h3 : (CppString.lit type).length ≤ 16 := htype.2
    have h4 : (CppString.lit name).length ≤ 16 := hname.2
    have h5 : quotedBytes (CppString.lit "message_type") = 14 := by decide
    have h6 : optionalBytes floatText name (value.map .numberUnsigned) ≤ quotedBytes (CppString.lit name) + 22 := by
      cases value with
      | none => exact Nat.zero_le _
      | some n =>
        have hlt : n.toNat < 10 ^ 20 := Nat.lt_trans n.toNat_lt (by decide)
        have hdigits := length_decimalText hlt (by decide)
        have hbytes := bytes_numberUnsigned floatText n
        simp only [Option.map_some, optionalBytes, Option.elim_some, entryBytes]
        omega
    have hmax : ProtocolLimits.maxControlPayloadBytes = 1048576 := rfl
    simp only [List.map_cons, List.map_nil, List.sum_cons, List.sum_nil]
    simp only [optionalBytes, Option.elim_some, Json.lit, bytes_string, entryBytes] at h6 ⊢
    omega

theorem pongToJson_eq (hasSequence : Bool) (sequence : UInt64) : controlMessageToJson (.pong hasSequence sequence) =
    JsonObject.fields (present (countedEntries "pong" "sequence" (if hasSequence then some sequence else none))) := by
  rw [fields_present]
  simp only [controlMessageToJson, JsonObject.fields_eq, List.foldl_cons, List.foldl_nil, putIf_eq, countedEntries]
  cases hasSequence <;> rfl

theorem queuedToJson_eq (hasPosition : Bool) (position : UInt32) : controlMessageToJson (.queued hasPosition position) =
    JsonObject.fields (present (countedEntries "queued" "position"
      (if hasPosition then some position.toUInt64 else none))) := by
  rw [fields_present]
  simp only [controlMessageToJson, JsonObject.fields_eq, List.foldl_cons, List.foldl_nil, putIf_eq, countedEntries]
  cases hasPosition <;> rfl

theorem cancelledToJson_eq : controlMessageToJson .cancelled =
    JsonObject.fields (present (countedEntries "cancelled" "none" none)) := rfl

/-- A reply that does not depend on what was received beyond numbers. -/
inductive OutFrame.Plain : OutFrame → Prop
  | error (id : RequestId) {e : ErrorMessage} : TerseError e → Plain (.error id e)
  | pong (id : RequestId) (hasSequence : Bool) (sequence : UInt64) : Plain (.control id (.pong hasSequence sequence))
  | queued (id : RequestId) {position : UInt32} : position > 0 → Plain (.control id (.queued true position))
  | cancelled (id : RequestId) : Plain (.control id .cancelled)

include hlib in
theorem OutFrame.Plain.sent {f : OutFrame} (h : f.Plain) : ∃ bytes, f.send lib = .handed bytes := by
  cases h with
  | error id hterse => exact send_terse hlib id hterse
  | pong id hasSequence sequence =>
    refine (send_control_iff hlib id _).mpr ⟨rfl, ?_⟩
    rw [pongToJson_eq]
    exact counted_fits (by decide) _ lib.floatText
  | queued id hposition =>
    refine (send_control_iff hlib id _).mpr ⟨if_pos (by simpa using hposition), ?_⟩
    rw [queuedToJson_eq]
    exact counted_fits (by decide) _ lib.floatText
  | cancelled id =>
    refine (send_control_iff hlib id _).mpr ⟨rfl, ?_⟩
    rw [cancelledToJson_eq]
    exact counted_fits (by decide) _ lib.floatText

end Send

/-! ## What a frame is answered with -/

/-- `validate_request` comes to the voice of the request and does not have it. -/
def NativeEngine.LacksVoice (engine : NativeEngine) (request : SynthesizeMessage) : Prop :=
  engine.loaded = true ∧ request.text ≠ [] ∧ NativeEngine.supportsOutput request.output = true ∧
    request.voiceId ≠ [] ∧ request.voiceId ∉ engine.voiceProfiles

/-- What the refusal of such a request says: the voice as far as `what()` shows it. -/
def unknownVoiceText (voiceId : CppString) : CppString :=
  CppString.lit "unknown native voice_id profile: " ++ what voiceId

theorem what_append {fixed : CppString} (h : fixed.all (· ≠ 0) = true) (rest : CppString) :
    what (fixed ++ rest) = fixed ++ what rest := List.takeWhile_append_of_pos fun _ hb => List.all_eq_true.mp h _ hb

theorem validate_of_lacksVoice {engine : NativeEngine} {request : SynthesizeMessage} (h : engine.LacksVoice request) :
    engine.validateRequest request =
      some (.invalidArgument (CppString.lit "unknown native voice_id profile: " ++ request.voiceId)) := by
  obtain ⟨hloaded, htext, houtput, hvoice, hlacks⟩ := h
  have hcontains : engine.voiceProfiles.contains request.voiceId = false := by
    rw [← Bool.not_eq_true, List.contains_iff_mem]
    exact hlacks
  unfold NativeEngine.validateRequest
  rw [if_neg (by simp [hloaded]), if_neg (by simpa using htext), if_neg (by simp [houtput]),
    if_pos (by rw [hcontains]; simpa using hvoice)]

theorem unknownVoice_failure (voiceId : CppString) :
    validationFailure (.invalidArgument (CppString.lit "unknown native voice_id profile: " ++ voiceId)) =
      ⟨CppString.lit "request_error",
        if contains (unknownVoiceText voiceId) (CppString.lit "output") then CppString.lit "unsupported_audio_format"
        else CppString.lit "invalid_native_request",
        unknownVoiceText voiceId⟩ := by
  have htext : what (CppString.lit "unknown native voice_id profile: " ++ voiceId) = unknownVoiceText voiceId :=
    what_append rfl voiceId
  simp only [validationFailure, htext]

theorem validationFailure_terse {text : CppString} (h : Terse (what text)) :
    TerseError (validationFailure (.invalidArgument text)) := by
  have hcategory : Terse (CppString.lit "request_error") := by decide
  refine ⟨hcategory, ?_, h⟩
  change Terse (if _ then _ else _)
  split <;> decide

/-- The other refusals of a request have texts of the source. -/
theorem validate_cases {engine : NativeEngine} {request : SynthesizeMessage} {e : ValidationError}
    (h : engine.validateRequest request = some e) : TerseError (validationFailure e) ∨ engine.LacksVoice request := by
  unfold NativeEngine.validateRequest at h
  split at h
  · cases h
    exact .inl ⟨by decide, by decide, by decide⟩
  rename_i hloaded
  split at h
  · cases h
    exact .inl (validationFailure_terse (by decide))
  rename_i htext
  split at h
  · cases h
    exact .inl (validationFailure_terse (by decide))
  rename_i houtput
  split at h
  · rename_i hvoice
    simp only [Bool.and_eq_true, Bool.not_eq_true', List.isEmpty_eq_false_iff] at hvoice
    refine .inr ⟨by simpa using hloaded, by simpa using htext, by simpa using houtput, hvoice.1, ?_⟩
    rw [← List.contains_iff_mem, hvoice.2]
    exact Bool.false_ne_true
  split at h
  · cases h
    exact .inl (validationFailure_terse (by decide))
  split at h
  · cases h
    exact .inl (validationFailure_terse (by decide))
  split at h
  · cases h
    exact .inl (validationFailure_terse (by decide))
  split at h
  · cases h
    exact .inl (validationFailure_terse (by decide))
  split at h
  · cases h
    exact .inl (validationFailure_terse (by decide))
  · cases h

section Sends

variable {cfg : Config} {s s' : St} {rest : List Act} {stale : Bool} {input : Input}

/-- A frame that is answered by acts on top of the reader's. -/
theorem sends_of_acts (acts : List Act) (hr : s.reader = .readLoop :: rest)
    (h : (handleFrame cfg s stale input).reader = acts ++ s.reader) (hacts : ∀ a ∈ acts, a.isReply = true) :
    sends cfg s stale input = acts.filterMap Act.frame? := by
  rw [← replies_of_reader h]
  unfold sends
  dsimp only
  split
  · rename_i sendAck rest' hshutdown
    rw [h, hr] at hshutdown
    cases acts with
    | nil => cases hshutdown
    | cons a acts =>
      have ha := hacts a List.mem_cons_self
      rw [(List.cons.inj hshutdown).1] at ha
      cases ha
  · rfl

theorem sends_error {id : RequestId} {e : ErrorMessage} (hr : s.reader = .readLoop :: rest)
    (h : handleFrame cfg s stale input = sendError s id e) : sends cfg s stale input = [.error id e] := by
  refine sends_of_acts [.send (.error id e)] hr ?_ fun a ha => ?_
  · rw [h]
    rfl
  · rw [List.mem_singleton.mp ha]
    rfl

/-- `request_shutdown` tells the requests that it drops. -/
theorem requestShutdown_replies (s : St) (sendAck : Bool) :
    ∀ f ∈ replies s (requestShutdown s sendAck), ∃ id, f = .control id .cancelled := by
  by_cases hrequested : s.shutdownRequested = true
  · have hreader : (requestShutdown s sendAck).reader = [] ++ s.reader := by
      unfold requestShutdown
      rw [if_pos (by exact hrequested)]
      rfl
    rw [replies_of_reader hreader]
    intro f hf
    cases hf
  · have hreader : (requestShutdown s sendAck).reader =
        (s.tables.shutdown.2.map (fun id => Act.send (.control id .cancelled)) ++
          [.shutdownTerminalsEnqueued, .returned s.tables.shutdown.2]) ++ s.reader := by
      unfold requestShutdown
      rw [if_neg (by exact hrequested)]
      rfl
    rw [replies_of_reader hreader, List.filterMap_append, List.filterMap_map]
    intro f hf
    rcases List.mem_append.mp hf with hf | hf
    · obtain ⟨id, _, hid⟩ := List.mem_filterMap.mp hf
      cases hid
      exact ⟨id, rfl⟩
    · cases hf

theorem sends_shutdown (h : handleFrame cfg s stale input = { s with reader := .requestShutdown true :: s.reader.tail }) :
    ∀ f ∈ sends cfg s stale input, ∃ id, f = .control id .cancelled := by
  unfold sends
  rw [h]
  exact requestShutdown_replies _ true

/-- A `hello` that is answered with `ready`. -/
def Greets (s : St) (id : RequestId) (m : ControlMessage) : Prop :=
  (∃ clientName clientVersion, m = .hello clientName clientVersion) ∧ id = 0 ∧ s.helloSeen = false ∧
    s.shutdownRequested = false

/-- A request that gets as far as `validate_request`, which refuses it. -/
def Invalid (cfg : Config) (s : St) (id : RequestId) (m : ControlMessage) (e : ValidationError) : Prop :=
  ∃ request, m = .synthesize request ∧ s.readySent = true ∧ id ≠ 0 ∧ cfg.validateRequest request = some e

theorem handleFrame_of_ready (hready : s.readySent = true) (id : RequestId) (request : SynthesizeMessage) :
    handleFrame cfg s stale (.message id (.synthesize request)) = handleSynthesize cfg s id request := by
  unfold handleFrame
  dsimp only
  rw [if_neg (by simp [hready])]

theorem invalid_sends {id : RequestId} {m : ControlMessage} {e : ValidationError} (hr : s.reader = .readLoop :: rest)
    (h : Invalid cfg s id m e) : sends cfg s stale (.message id m) = [.error id (validationFailure e)] := by
  obtain ⟨request, rfl, hready, hid, hinvalid⟩ := h
  refine sends_error hr ?_
  rw [handleFrame_of_ready hready, handleSynthesize, if_neg hid, hinvalid]

theorem greets_sends {id : RequestId} {m : ControlMessage} (hr : s.reader = .readLoop :: rest) (h : Greets s id m) :
    sends cfg s stale (.message id m) = [.control 0 (.ready cfg.ready)] := by
  obtain ⟨⟨clientName, clientVersion, rfl⟩, rfl, hhello, hshutdown⟩ := h
  have hframe : handleFrame cfg s stale (.message 0 (.hello clientName clientVersion)) =
      push { s with helloSeen := true, readySent := true } [.send (.control 0 (.ready cfg.ready))] := by
    unfold handleFrame handleHello
    dsimp only
    rw [if_neg (by simp [needsReady]), if_neg (by simp [hhello, hshutdown])]
  refine sends_of_acts [.send (.control 0 (.ready cfg.ready))] hr ?_ fun a ha => ?_
  · rw [hframe]
    rfl
  · rw [List.mem_singleton.mp ha]
    rfl

/-- The one frame of a handler that pushes it. -/
theorem plain_of_push {f : OutFrame} (hr : s.reader = .readLoop :: rest) (hf : f.Plain)
    (h : (handleFrame cfg s stale input).reader = .send f :: s.reader) : ∀ g ∈ sends cfg s stale input, g.Plain := by
  have hreply : (Act.send f).isReply = true := by
    cases hf <;> rfl
  have hsends : sends cfg s stale input = [f] := by
    refine sends_of_acts [.send f] hr h fun a ha => ?_
    rw [List.mem_singleton.mp ha]
    exact hreply
  intro g hg
  rw [hsends] at hg
  rw [List.mem_singleton.mp hg]
  exact hf

theorem plain_of_error {id : RequestId} {e : ErrorMessage} (hr : s.reader = .readLoop :: rest) (he : TerseError e)
    (h : handleFrame cfg s stale input = sendError s id e) : ∀ g ∈ sends cfg s stale input, g.Plain := by
  refine plain_of_push hr (.error id he) ?_
  rw [h]
  rfl

theorem plain_of_quiet (hr : s.reader = .readLoop :: rest)
    (h : (handleFrame cfg s stale input).reader = s.reader) : ∀ g ∈ sends cfg s stale input, g.Plain := by
  have hsends := sends_of_acts [] hr h fun _ ha => (List.not_mem_nil ha).elim
  intro g hg
  rw [hsends] at hg
  cases hg

theorem handleFrame_notReady {id : RequestId} {m : ControlMessage} (h : (!s.readySent && needsReady m) = true) :
    handleFrame cfg s stale (.message id m) =
      sendError s id (.lit "protocol_error" "invalid_session_state" "native worker is not ready") := by
  unfold handleFrame
  dsimp only
  rw [if_pos h]

/-- A request is refused by the engine, or answered plainly. -/
theorem synthesize_sends (hr : s.reader = .readLoop :: rest) (hpending : s.tables.pending.length ≤ 65536)
    (id : RequestId) (request : SynthesizeMessage) :
    (∃ e, Invalid cfg s id (.synthesize request) e) ∨
      ∀ f ∈ sends cfg s stale (.message id (.synthesize request)), f.Plain := by
  by_cases hready : s.readySent = true
  · have hframe : handleFrame cfg s stale (.message id (.synthesize request)) = handleSynthesize cfg s id request :=
      handleFrame_of_ready hready id request
    unfold handleSynthesize at hframe
    split at hframe
    · exact .inr (plain_of_error hr (by decide) hframe)
    rename_i hid
    split at hframe
    · rename_i e hinvalid
      exact .inl ⟨e, request, rfl, hready, hid, hinvalid⟩
    refine .inr ?_
    unfold admission at hframe
    split at hframe
    · exact plain_of_error hr (by decide) hframe
    split at hframe
    · exact plain_of_error hr (by decide) hframe
    split at hframe
    · exact plain_of_error hr (by decide) hframe
    · have hlength : (s.tables.accept id request).pending.length = s.tables.pending.length + 1 := by
        simp [Tables.accept]
      have hposition : UInt32.ofNat (s.tables.accept id request).pending.length > 0 := by
        rw [hlength, gt_iff_lt, UInt32.lt_iff_toNat_lt, UInt32.toNat_ofNat_of_lt' (by simp [UInt32.size]; omega)]
        exact Nat.succ_pos _
      refine plain_of_push hr (.queued id hposition) ?_
      rw [hframe]
      rfl
  · refine .inr (plain_of_error hr (by decide) (handleFrame_notReady ?_))
    simp [hready, needsReady]

theorem cancel_sends (hr : s.reader = .readLoop :: rest) (id : RequestId) :
    ∀ f ∈ sends cfg s stale (.message id .cancel), f.Plain := by
  by_cases hready : s.readySent = true
  · have hframe : handleFrame cfg s stale (.message id .cancel) = handleCancel s id stale := by
      unfold handleFrame
      dsimp only
      rw [if_neg (by simp [hready])]
    unfold handleCancel at hframe
    split at hframe
    · exact plain_of_error hr (by decide) hframe
    split at hframe
    · split at hframe
      · exact plain_of_error hr (by decide) hframe
      · exact plain_of_quiet hr (by rw [hframe])
    dsimp only at hframe
    split at hframe
    · exact plain_of_quiet hr (by rw [hframe])
    split at hframe
    · exact plain_of_quiet hr (by rw [hframe])
    split at hframe
    · intro f hf
      have hacts : (handleFrame cfg s stale (.message id .cancel)).reader =
          [.send (.control id .cancelled), .returned [id]] ++ s.reader := by
        rw [hframe]
        rfl
      rw [sends_of_acts _ hr hacts (by
        intro a ha
        rcases List.mem_pair.mp ha with rfl | rfl <;> rfl)] at hf
      rw [List.mem_singleton.mp hf]
      exact .cancelled id
    · intro f hf
      have hacts : (handleFrame cfg s stale (.message id .cancel)).reader = [.returned [id]] ++ s.reader := by
        rw [hframe]
        rfl
      rw [sends_of_acts _ hr hacts (by
        intro a ha
        rw [List.mem_singleton.mp ha]
        rfl)] at hf
      cases hf
  · exact plain_of_error hr (by decide) (handleFrame_notReady (by simp [hready, needsReady]))

theorem message_sends (hr : s.reader = .readLoop :: rest) (hpending : s.tables.pending.length ≤ 65536)
    (id : RequestId) (m : ControlMessage) :
    Greets s id m ∨ (∃ e, Invalid cfg s id m e) ∨ ∀ f ∈ sends cfg s stale (.message id m), f.Plain := by
  have hrefused : (∀ hnot : ¬ (!s.readySent && needsReady m) = true,
        handleFrame cfg s stale (.message id m) = sendError s id
          (.lit "protocol_error" "invalid_message_direction" "message is not accepted by the native worker")) →
      ∀ f ∈ sends cfg s stale (.message id m), f.Plain := by
    intro h
    by_cases hnot : (!s.readySent && needsReady m) = true
    · exact plain_of_error hr (by decide) (handleFrame_notReady hnot)
    · exact plain_of_error hr (by decide) (h hnot)
  cases m with
  | hello clientName clientVersion =>
    have hframe : handleFrame cfg s stale (.message id (.hello clientName clientVersion)) = handleHello cfg s id := by
      unfold handleFrame
      dsimp only
      rw [if_neg (by simp [needsReady])]
    unfold handleHello at hframe
    split at hframe
    · exact .inr (.inr (plain_of_error hr (by decide) hframe))
    · rename_i hgreets
      simp only [not_or, not_not, Bool.not_eq_true] at hgreets
      exact .inl ⟨⟨clientName, clientVersion, rfl⟩, hgreets⟩
  | synthesize request => exact .inr (synthesize_sends hr hpending id request)
  | cancel => exact .inr (.inr (cancel_sends hr id))
  | ping hasSequence sequence =>
    have hframe : handleFrame cfg s stale (.message id (.ping hasSequence sequence)) =
        handlePing s id hasSequence sequence := by
      unfold handleFrame
      dsimp only
      rw [if_neg (by simp [needsReady])]
    refine .inr (.inr ?_)
    unfold handlePing at hframe
    split at hframe
    · exact plain_of_error hr (by decide) hframe
    · exact plain_of_push hr (.pong 0 hasSequence sequence) (by rw [hframe]; rfl)
  | shutdown mode =>
    have hframe : handleFrame cfg s stale (.message id (.shutdown mode)) = handleShutdown s id mode := by
      unfold handleFrame
      dsimp only
      rw [if_neg (by simp [needsReady])]
    refine .inr (.inr ?_)
    unfold handleShutdown at hframe
    split at hframe
    · exact plain_of_error hr (by decide) hframe
    · intro f hf
      obtain ⟨id, rfl⟩ := sends_shutdown hframe f hf
      exact .cancelled id
  | ready | queued | started | completed | cancelled | pong | shutdownAck =>
    refine .inr (.inr (hrefused fun hnot => ?_))
    unfold handleFrame
    dsimp only
    rw [if_neg hnot]

end Sends

/-! ## The frames that the worker survives -/

/-- A text can be carried by an error: it is there, what it quotes is UTF-8, and it fits. -/
def Carries (category code fixed quoted : CppString) : Prop :=
  fixed ++ quoted ≠ [] ∧ isUtf8 quoted = true ∧
    errorPayloadBytes ⟨category, code, fixed ++ quoted⟩ ≤ ProtocolLimits.maxErrorPayloadBytes

/-- The conditions on a control frame of the client: the first is about what is quoted of a payload
    that is refused, the second about the voice of a request, the third about the engine that
    `ready` describes. -/
structure FrameFits (lib : JsonLibrary) (engine : NativeEngine) (processId : UInt32) (ticks : UInt64) (s : St)
    (frame : Frame) : Prop where
  quoted : ∀ code fixed quoted, Quotes lib frame.payload code fixed quoted →
    Carries (CppString.lit "protocol_error") (controlCodecErrorCode code) fixed quoted
  voice : ∀ request, decodeControlMessage lib frame.payload .clientToWorker = .ok (.synthesize request) →
    frameId frame ≠ 0 → s.readySent = true → engine.LacksVoice request →
    Carries (CppString.lit "request_error")
      (if contains (unknownVoiceText request.voiceId) (CppString.lit "output") then
        CppString.lit "unsupported_audio_format" else CppString.lit "invalid_native_request")
      (CppString.lit "unknown native voice_id profile: ") (what request.voiceId)
  ready : ∀ clientName clientVersion,
    decodeControlMessage lib frame.payload .clientToWorker = .ok (.hello clientName clientVersion) →
    frameId frame = 0 → s.helloSeen = false → s.shutdownRequested = false →
    isUtf8 engine.engineVersion = true ∧ (∀ id ∈ engine.voiceProfiles, isUtf8 id = true) ∧
      readyPayloadBytes (engine.ready processId ticks) ≤ ProtocolLimits.maxControlPayloadBytes

/-- An input that is refused: a frame of another type, a payload that is no message of a client, a
    request that the engine refuses, a cancel of a request that was never admitted. -/
inductive Refused (cfg : Config) (s : St) : Input → Prop
  | wrongType (id : RequestId) : Refused cfg s (.wrongType id)
  | undecodable (id : RequestId) (code diagnostic : CppString) : Refused cfg s (.undecodable id code diagnostic)
  | invalid {id : RequestId} {m : ControlMessage} {e : ValidationError} : Invalid cfg s id m e → Refused cfg s (.message id m)
  | unknownId {id : RequestId} : s.readySent = true → id ∉ s.tables.active → s.tables.acceptedIdHighWater < id →
      Refused cfg s (.message id .cancel)

/-- Everything that is sent is handed to the writer, and a refusal is one error frame. -/
structure Survives (lib : JsonLibrary) (cfg : Config) (s : St) (stale : Bool) (frame : Frame) : Prop where
  sent : ∀ f ∈ sends cfg s stale (inputOf lib frame), ∃ bytes, f.send lib = .handed bytes
  refusal : Refused cfg s (inputOf lib frame) →
    ∃ e bytes, sends cfg s stale (inputOf lib frame) = [.error (frameId frame) e] ∧
      (OutFrame.error (frameId frame) e).send lib = .handed bytes

section Survives

variable {lib : JsonLibrary} {cfg : Config} {s : St} {rest : List Act} {stale : Bool} {frame : Frame}

theorem isAscii_decimalText (n : Nat) : isAscii (decimalText n) = true := by
  unfold decimalText
  split
  · rfl
  · rw [isAscii, List.all_reverse, List.all_map, List.all_eq_true]
    intro d hd
    have hlt : d < 10 := Nat.digits_lt_base (by decide) hd
    have hsum : 48 + d < 256 := by omega
    simp only [Function.comp_apply, decide_eq_true_eq, UInt8.lt_iff_toNat_lt]
    rw [UInt8.toNat_ofNat_of_lt' (by simpa [UInt8.size] using hsum)]
    change 48 + d < 128
    omega

theorem isAscii_append {s t : CppString} (hs : isAscii s = true) (ht : isAscii t = true) : isAscii (s ++ t) = true := by
  rw [isAscii, List.all_append]
  exact Bool.and_eq_true_iff.mpr ⟨hs, ht⟩

/-- The `ready` of an engine, whose own texts it carries. -/
theorem send_ready_iff (hlib : lib.Serializes) (engine : NativeEngine) (processId : UInt32) (ticks : UInt64) :
    (∃ bytes, (OutFrame.control 0 (.ready (engine.ready processId ticks))).send lib = .handed bytes) ↔
      isUtf8 engine.engineVersion = true ∧ (∀ id ∈ engine.voiceProfiles, isUtf8 id = true) ∧
        readyPayloadBytes (engine.ready processId ticks) ≤ ProtocolLimits.maxControlPayloadBytes := by
  have hvalid : validateControlMessage (.ready (engine.ready processId ticks)) = .ok () := by
    refine (codec_andThen_ok _ _).mpr ⟨?_, ?_⟩
    · exact (validateNonEmptyString_ok _ _).mpr (List.cons_ne_nil _ _)
    · exact (validateNonEmptyString_ok _ _).mpr (List.cons_ne_nil _ _)
  have hversion : isUtf8 (engine.ready processId ticks).workerVersion = isUtf8 engine.engineVersion :=
    isUtf8_append_of_isAscii (by decide) _
  have hsession : isUtf8 (engine.ready processId ticks).sessionId = true := by
    refine isUtf8_of_isAscii (isAscii_append (isAscii_append (isAscii_append ?_ ?_) ?_) ?_)
    · decide
    · exact isAscii_decimalText _
    · decide
    · exact isAscii_decimalText _
  have hvoices : (engine.ready processId ticks).voiceIds.all isUtf8 = true ↔
      ∀ id ∈ engine.voiceProfiles, isUtf8 id = true := by
    rw [← List.all_eq_true]
    exact Eq.congr_left (List.mergeSort_perm engine.voiceProfiles _).all_eq
  have hutf8 := utf8_ready (engine.ready processId ticks)
  rw [hversion, hsession, Bool.and_true] at hutf8
  have hbytes := bytes_ready lib.floatText (engine.ready processId ticks)
  rw [send_control_iff hlib 0 _]
  change _ ∧ (Json.object (readyToJson _)).isUtf8 = true ∧ (Json.object (readyToJson _)).bytes _ ≤ _ ↔ _
  rw [hutf8, hbytes, Bool.and_eq_true, hvoices]
  exact ⟨fun h => ⟨h.2.1.1, h.2.1.2, h.2.2⟩, fun h => ⟨hvalid, ⟨h.1, h.2.1⟩, h.2.2⟩⟩

/-- An error whose text quotes, under a category and a code of the source. -/
theorem send_quoting_iff (hlib : lib.Serializes) (id : RequestId) {category code fixed quoted : CppString}
    (hcategory : Terse category) (hcode : Terse code) (hfixed : isAscii fixed = true) :
    (∃ bytes, (OutFrame.error id ⟨category, code, fixed ++ quoted⟩).send lib = .handed bytes) ↔
      Carries category code fixed quoted := by
  have hutf8 : isUtf8 (fixed ++ quoted) = isUtf8 quoted := isUtf8_append_of_isAscii hfixed quoted
  rw [send_error_iff hlib id _]
  simp only [isUtf8_of_isAscii hcategory.2.1, isUtf8_of_isAscii hcode.2.1, hutf8, Bool.true_and]
  exact ⟨fun h => ⟨h.1.2.2, h.2⟩, fun h => ⟨⟨hcategory.1, hcode.1, h.1⟩, h.2⟩⟩

theorem inputOf_refused (hcontrol : frame.header.frameType = FrameType.controlJson.value) {code : ControlCodecError}
    {text : CppString} (h : decodeControlMessage lib frame.payload .clientToWorker = .error (code, text)) :
    inputOf lib frame = .undecodable (frameId frame) (controlCodecErrorCode code) text := by
  unfold inputOf
  rw [if_neg (by simp [hcontrol]), h]

theorem inputOf_message (hcontrol : frame.header.frameType = FrameType.controlJson.value) {m : ControlMessage}
    (h : decodeControlMessage lib frame.payload .clientToWorker = .ok m) :
    inputOf lib frame = .message (frameId frame) m := by
  unfold inputOf
  rw [if_neg (by simp [hcontrol]), h]

/-- What is sent decides: a refusal is answered in any case. -/
theorem refused_sends (hr : s.reader = .readLoop :: rest) {input : Input} (h : Refused cfg s input) :
    ∃ e, sends cfg s stale input = [.error input.requestId e] := by
  cases h with
  | wrongType id => exact ⟨_, sends_error hr rfl⟩
  | undecodable id code diagnostic => exact ⟨_, sends_error hr rfl⟩
  | invalid hinvalid => exact ⟨_, invalid_sends hr hinvalid⟩
  | unknownId hready hactive hwater =>
    rename_i id
    have hid : id ≠ 0 := Nat.ne_of_gt (Nat.lt_of_le_of_lt (Nat.zero_le _) hwater)
    have hget : s.tables.get? id = none := by
      unfold Tables.get?
      rw [if_neg hactive]
    refine ⟨_, sends_error hr (e := .lit "request_error" "unknown_request_id" "request_id is not active") ?_⟩
    unfold handleFrame
    dsimp only
    rw [if_neg (by simp [hready]), handleCancel, if_neg hid, hget]
    exact if_pos hwater

theorem pending_le (b : Books cfg s.tables s.engine.hold) (hmax : cfg.maxAdmittedRequests ≤ 65536) :
    s.tables.pending.length ≤ 65536 :=
  calc s.tables.pending.length ≤ s.tables.active.length := (b.pendingNodup.subperm b.pendingActive).length_le
    _ ≤ cfg.maxAdmittedRequests := b.bound
    _ ≤ 65536 := hmax

theorem survives_iff (hr : s.reader = .readLoop :: rest) : Survives lib cfg s stale frame ↔
    ∀ f ∈ sends cfg s stale (inputOf lib frame), ∃ bytes, f.send lib = .handed bytes := by
  refine ⟨fun h => h.sent, fun h => ⟨h, fun hrefused => ?_⟩⟩
  obtain ⟨e, he⟩ : ∃ e, sends cfg s stale (inputOf lib frame) = [.error (inputOf lib frame).requestId e] :=
    refused_sends hr hrefused
  rw [inputOf_requestId] at he
  obtain ⟨bytes, hbytes⟩ := h (.error (frameId frame) e) (by rw [he]; exact List.mem_singleton_self _)
  exact ⟨e, bytes, he, hbytes⟩

/-- The frame's condition is enough. -/
theorem sent_of_fits (hlib : lib.Serializes) {engine : NativeEngine} {processId : UInt32} {ticks : UInt64}
    {maxAdmittedRequests : Nat} (hr : s.reader = .readLoop :: rest) (hpending : s.tables.pending.length ≤ 65536)
    (hcontrol : frame.header.frameType = FrameType.controlJson.value)
    (h : FrameFits lib engine processId ticks s frame) :
    ∀ f ∈ sends (engine.config processId ticks maxAdmittedRequests) s stale (inputOf lib frame),
      ∃ bytes, f.send lib = .handed bytes := by
  cases hdecode : decodeControlMessage lib frame.payload .clientToWorker with
  | error e =>
    obtain ⟨code, text⟩ := e
    rw [inputOf_refused hcontrol hdecode, sends_error hr rfl]
    intro f hf
    rw [List.mem_singleton.mp hf]
    have hcategory : Terse (CppString.lit "protocol_error") := by decide
    obtain hterse | ⟨fixed, quoted, hquotes, rfl⟩ := decode_refused hdecode
    · exact send_terse hlib _ ⟨hcategory, controlCodecErrorCode_terse code, hterse⟩
    · exact (send_quoting_iff hlib _ hcategory (controlCodecErrorCode_terse code) hquotes.isAscii_fixed).mpr
        (h.quoted code fixed quoted hquotes)
  | ok m =>
    rw [inputOf_message hcontrol hdecode]
    have hmessage : Greets s (frameId frame) m ∨ (∃ e, Invalid (engine.config processId ticks maxAdmittedRequests) s
        (frameId frame) m e) ∨ ∀ f ∈ sends (engine.config processId ticks maxAdmittedRequests) s stale
          (.message (frameId frame) m), f.Plain := message_sends hr hpending (frameId frame) m
    obtain hgreets | ⟨e, hinvalid⟩ | hplain := hmessage
    · rw [greets_sends hr hgreets]
      intro f hf
      rw [List.mem_singleton.mp hf]
      obtain ⟨⟨clientName, clientVersion, rfl⟩, hid, hhello, hshutdown⟩ := hgreets
      exact (send_ready_iff hlib engine processId ticks).mpr
        (h.ready clientName clientVersion hdecode hid hhello hshutdown)
    · rw [invalid_sends hr hinvalid]
      intro f hf
      rw [List.mem_singleton.mp hf]
      obtain ⟨request, rfl, hready, hid, hrefused⟩ := hinvalid
      obtain hterse | hlacks := validate_cases hrefused
      · exact send_terse hlib _ hterse
      · have hunknown := validate_of_lacksVoice hlacks
        rw [show engine.validateRequest request = some e from hrefused] at hunknown
        cases hunknown
        rw [unknownVoice_failure]
        exact (send_quoting_iff hlib _ (by decide) (by split <;> decide) (by decide)).mpr
          (h.voice request hdecode hid hready hlacks)
    · exact fun f hf => (hplain f hf).sent hlib

/-- And it is needed. -/
theorem fits_of_sent (hlib : lib.Serializes) {engine : NativeEngine} {processId : UInt32} {ticks : UInt64}
    {maxAdmittedRequests : Nat} (hr : s.reader = .readLoop :: rest)
    (hcontrol : frame.header.frameType = FrameType.controlJson.value)
    (h : ∀ f ∈ sends (engine.config processId ticks maxAdmittedRequests) s stale (inputOf lib frame),
      ∃ bytes, f.send lib = .handed bytes) : FrameFits lib engine processId ticks s frame where
  quoted code fixed quoted hquotes := by
    rw [inputOf_refused hcontrol hquotes.refused, sends_error hr rfl] at h
    exact (send_quoting_iff hlib _ (by decide) (controlCodecErrorCode_terse code) hquotes.isAscii_fixed).mp
      (h _ (List.mem_singleton_self _))
  voice request hdecode hid hready hlacks := by
    rw [inputOf_message hcontrol hdecode,
      invalid_sends hr ⟨request, rfl, hready, hid, validate_of_lacksVoice hlacks⟩, unknownVoice_failure] at h
    exact (send_quoting_iff hlib _ (by decide) (by split <;> decide) (by decide)).mp
      (h _ (List.mem_singleton_self _))
  ready clientName clientVersion hdecode hid hhello hshutdown := by
    rw [inputOf_message hcontrol hdecode,
      greets_sends hr ⟨⟨clientName, clientVersion, rfl⟩, hid, hhello, hshutdown⟩] at h
    exact (send_ready_iff hlib engine processId ticks).mp (h _ (List.mem_singleton_self _))

end Survives

/-- Over every state of the worker, every engine, every library that serialises and every frame:
    the worker stays up exactly when what the frame has it send can be encoded. -/
theorem frame_is_answered_iff {lib : JsonLibrary} (hlib : lib.Serializes) (engine : NativeEngine) (processId : UInt32)
    (ticks : UInt64) {maxAdmittedRequests : Nat} (hmax : maxAdmittedRequests ≤ 65536) {s : St}
    (hs : Reach (stepFailing (engine.config processId ticks maxAdmittedRequests)) anyStep init s)
    (hreads : s.reader.head? = some .readLoop) (stale : Bool) (frame : Frame) :
    Survives lib (engine.config processId ticks maxAdmittedRequests) s stale frame ↔
      (frame.header.frameType = FrameType.controlJson.value → FrameFits lib engine processId ticks s frame) := by
  obtain ⟨rest, hr⟩ := List.head?_eq_some_iff.mp hreads
  have hpending := pending_le (reach_books hmax hs) hmax
  rw [survives_iff hr]
  constructor
  · exact fun h hcontrol => fits_of_sent hlib hr hcontrol h
  · intro h
    by_cases hcontrol : frame.header.frameType = FrameType.controlJson.value
    · exact sent_of_fits hlib hr hpending hcontrol (h hcontrol)
    · have hinput : inputOf lib frame = .wrongType (frameId frame) := by
        unfold inputOf
        rw [if_pos hcontrol]
      rw [hinput, sends_error hr rfl]
      intro f hf
      rw [List.mem_singleton.mp hf]
      exact send_terse hlib _ (by decide)

def plainEngine : NativeEngine := { engineVersion := CppString.lit "1.0" }

/-- A control frame under no request. -/
def controlFrame (payload : Bytes) : Frame := ⟨{ payloadSize := UInt32.ofNat payload.length }, payload⟩

theorem plain_diagnostic_is_answered : Survives (.reading []) (plainEngine.config 1 0 4) init true
    (controlFrame (CppString.lit "x")) := by
  refine (frame_is_answered_iff (JsonLibrary.reading_serializes []) plainEngine 1 0 (by decide) .init rfl true
    (controlFrame (CppString.lit "x"))).mpr fun _ => ⟨?_, ?_, ?_⟩
  · intro code fixed quoted hquotes
    cases hquotes with
    | invalidJson hparse _ =>
      cases hparse
      have hterse : Terse (CppString.lit "syntax error") := by decide
      exact ⟨hterse.1, isUtf8_of_isAscii hterse.2.1, terse_errorPayload (by decide) (by decide) hterse⟩
    | typeError hparse => cases hparse
    | unknownType hparse => cases hparse
    | unknownOption hparse => cases hparse
  · intro request hdecode
    cases hdecode
  · intro clientName clientVersion hdecode
    cases hdecode

/-- The message of the real library about a string with an ill-formed byte, up to what it read. -/
def illFormedText : CppString :=
  CppString.lit "[json.exception.parse_error.101] parse error at line 1, column 2: syntax error while parsing value - invalid string: ill-formed UTF-8 byte; last read: '"

/-- A library that finds such a string in every text. -/
def quotingLibrary : JsonLibrary where
  parse text := .error (.parseError (illFormedText ++ (text ++ CppString.lit "'")))
  dump v := if v.isUtf8 then .ok (v.text fun _ => []) else .error (.typeError (CppString.lit "invalid UTF-8 byte"))
  floatText _ := []

theorem quotingLibrary_serializes : quotingLibrary.Serializes where
  utf8 v hv := if_pos hv
  illFormed v hv := ⟨_, if_neg (by rw [hv]; decide)⟩

/-- A quote and the byte `0xFF`: the diagnostic has that byte in it, and so no error can carry it. -/
theorem an_invalid_byte_is_fatal :
    ¬ ∀ lib : JsonLibrary, lib.Serializes → ∀ (engine : NativeEngine) (processId : UInt32) (ticks : UInt64)
      (maxAdmittedRequests : Nat), maxAdmittedRequests ≤ 65536 → ∀ s : St,
      Reach (stepFailing (engine.config processId ticks maxAdmittedRequests)) anyStep init s →
      s.reader.head? = some .readLoop → ∀ (stale : Bool) (frame : Frame), Encodable frame.header frame.payload →
      Survives lib (engine.config processId ticks maxAdmittedRequests) s stale frame := by
  intro h
  have hsurvives := h quotingLibrary quotingLibrary_serializes plainEngine 1 0 4 (by decide) init .init rfl true
    (controlFrame [0x22, 0xFF]) ⟨rfl, rfl, rfl, rfl, rfl, by decide⟩
  have hfits : FrameFits quotingLibrary plainEngine 1 0 init (controlFrame [0x22, 0xFF]) :=
    fits_of_sent quotingLibrary_serializes rfl rfl hsurvives.sent
  have hcarries := hfits.quoted _ _ _ (.invalidJson rfl nofun)
  have hutf8 : isUtf8 (illFormedText ++ [0x22, 0xFF, 0x27]) = false := by
    rw [isUtf8_append_of_isAscii (by decide +kernel)]
    decide
  exact Bool.false_ne_true (hutf8.symm.trans hcarries.2.1)

end QwenTtsBridge.Worker.NativeServer
