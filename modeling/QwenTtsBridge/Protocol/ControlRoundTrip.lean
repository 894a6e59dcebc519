/-
  QwenTtsBridge.Protocol.ControlRoundTrip — what a decoder makes of an encoded message.

  Proved (`decode_encode_iff`): an encoded control message decodes, in its own direction,
  to itself without the fields whose flag is off, exactly when it is no `ready` with an
  empty voice id: `validate_control_message` lets that one pass and
  `read_optional_string_array` does not. An encoded error decodes to itself.
-/

import QwenTtsBridge.Protocol.ControlCodec

namespace QwenTtsBridge.Protocol.Control

open QwenTtsBridge.Lib

/-! ## Fields of a built object -/

namespace JsonObject

theorem fields_eq (pairs : List (String × Json)) : fields pairs = pairs.foldl (fun out p => put out p.1 p.2) [] := by
  rw [fields, ofPairs, List.foldl_map]
  rfl

theorem field_put (object : JsonObject) (name : String) (value : Json) (key : String) :
    (Json.object (object.put name value)).field key =
      if CppString.lit key = CppString.lit name then some value else (Json.object object).field key :=
  Json.find_set _ _ _ _

theorem field_putIf (object : JsonObject) (c : Bool) (name : String) (value : Json) (key : String) :
    (Json.object (object.putIf c name value)).field key =
      if CppString.lit key = CppString.lit name ∧ c = true then some value else (Json.object object).field key := by
  cases c <;> simp [putIf, field_put]

theorem field_putSome {α : Type} (object : JsonObject) (name : String) (value : Option α) (toJson : α → Json)
    (key : String) :
    (Json.object (object.putSome name value toJson)).field key =
      if CppString.lit key = CppString.lit name then (value.map toJson).or ((Json.object object).field key)
      else (Json.object object).field key := by
  cases value <;> simp [putSome, field_put]

@[simp] theorem field_empty (key : String) : (Json.object []).field key = none := rfl

end JsonObject

open JsonObject

/-! ## Readers, by what the field holds -/

section Readers

variable {object : Json} {name : String}

theorem readRequiredString_of {s : CppString} (h : object.field name = some (.string s)) :
    readRequiredString object name = .ok s := by
  rw [readRequiredString, h]
  rfl

theorem readOptionalString_of {s : Option CppString} (h : object.field name = s.map .string) (out : CppString) :
    readOptionalString object name out = .ok (s.getD out) := by
  rw [readOptionalString, h]
  cases s <;> rfl

theorem readRequiredBool_of {b : Bool} (h : object.field name = some (.boolean b)) :
    readRequiredBool object name = .ok b := by
  rw [readRequiredBool, h]
  rfl

theorem readOptionalBool_of {b : Option Bool} (h : object.field name = b.map .boolean) :
    readOptionalBool object name = .ok b := by
  rw [readOptionalBool, h]
  cases b <;> rfl

theorem readRequiredU64_of {n : UInt64} (h : object.field name = some (.numberUnsigned n)) :
    readRequiredU64 object name = .ok n := by
  rw [readRequiredU64, h]

theorem readOptionalU64_of {n : Option UInt64} (h : object.field name = n.map .numberUnsigned) :
    readOptionalU64 object name = .ok n := by
  rw [readOptionalU64, h]
  cases n <;> rfl

theorem readOptionalU32_of {n : Option UInt32} (h : object.field name = n.map .ofU32) :
    readOptionalU32 object name = .ok n := by
  have h64 : object.field name = (n.map UInt32.toUInt64).map .numberUnsigned := by
    rw [h, Option.map_map]
    rfl
  rw [readOptionalU32, readOptionalU64_of h64]
  cases n with
  | none => rfl
  | some n =>
    have hlt := n.toNat_lt
    have hsmall : ¬ n.toUInt64.toNat > 2 ^ 32 - 1 := by
      rw [UInt32.toNat_toUInt64]
      omega
    show (if n.toUInt64.toNat > 2 ^ 32 - 1 then _ else _) = _
    rw [if_neg hsmall, UInt32.toUInt32_toUInt64]

theorem readRequiredU32_of {n : UInt32} (h : object.field name = some (.ofU32 n)) :
    readRequiredU32 object name = .ok n := by
  rw [readRequiredU32, readOptionalU32_of (n := some n) h]
  rfl

theorem readOptionalFiniteDouble_of {x : Option Binary64} {bounds : Binary64.Finite → Bool}
    (h : object.field name = x.map .numberFloat) (hx : within bounds x = true) :
    readOptionalFiniteDouble object name = .ok x := by
  rw [readOptionalFiniteDouble, h]
  cases x with
  | none => rfl
  | some x =>
    cases x with
    | finite x => rfl
    | nan => cases hx
    | infinity negative => cases hx

/-- The empty string is the one that is not accepted. -/
theorem mapM_nonEmptyString (strings : List CppString) :
    (strings.map Json.string).mapM nonEmptyString = if [] ∈ strings then none else some strings := by
  induction strings with
  | nil => rfl
  | cons s strings ih =>
    rw [List.map_cons, List.mapM_cons, ih]
    cases s with
    | nil => simp [nonEmptyString]
    | cons c s =>
      by_cases hmem : [] ∈ strings
      · simp [nonEmptyString, hmem]
      · simp [nonEmptyString, hmem]

end Readers

/-! ## Records -/

theorem validateNonEmptyString_iff {value : CppString} {n : String} :
    validateNonEmptyString value n = .ok () ↔ value ≠ [] := by
  cases value with
  | nil => simp [validateNonEmptyString, invalidField]
  | cons c value => simp [validateNonEmptyString]

/-- Neither side of the codec depends on what it calls the format. -/
theorem validateAudioFormat_iff {format : AudioFormat} {n : String} :
    validateAudioFormat format n = .ok () ↔
      format.sampleFormat ≠ [] ∧ format.sampleRate ≠ 0 ∧ format.channels ≠ 0 := by
  rw [validateAudioFormat, ← validateNonEmptyString_iff (n := n ++ ".sample_format")]
  cases hs : validateNonEmptyString format.sampleFormat (n ++ ".sample_format") with
  | error e => simp [bind, Except.bind]
  | ok u =>
    by_cases hrate : format.sampleRate = 0
    · simp [bind, Except.bind, hrate, invalidField]
    · by_cases hchannels : format.channels = 0
      · simp [bind, Except.bind, hrate, hchannels, invalidField]
      · simp [bind, Except.bind, hrate, hchannels]

/-- The fields of a written format. -/
structure AudioFormatFields (format : AudioFormat) (object : Json) : Prop where
  sampleFormat : object.field "sample_format" = some (.string format.sampleFormat)
  sampleRate : object.field "sample_rate" = some (.ofU32 format.sampleRate)
  channels : object.field "channels" = some (.ofU32 format.channels)

theorem audioFormatToJson_fields (format : AudioFormat) :
    AudioFormatFields format (.object (audioFormatToJson format)) := by
  constructor <;> simp +decide [audioFormatToJson, fields_eq, field_put]

theorem readAudioFormat_toJson {format : AudioFormat} {name : String} (h : validateAudioFormat format name = .ok ()) :
    readAudioFormat (.object (audioFormatToJson format)) = .ok format := by
  have hf := audioFormatToJson_fields format
  simp only [readAudioFormat, Json.isObject_object, Bool.not_true, Bool.false_eq_true, if_false,
    readRequiredString_of hf.sampleFormat, readRequiredU32_of hf.sampleRate, readRequiredU32_of hf.channels, bind,
    Except.bind, pure, Except.pure, (validateAudioFormat_iff (n := "audio_format")).mpr (validateAudioFormat_iff.mp h)]

theorem mem_putSome {α : Type} {object : JsonObject} {name : String} {value : Option α} {toJson : α → Json}
    {p : CppString × Json} (h : p ∈ object.putSome name value toJson) : p.1 = CppString.lit name ∨ p ∈ object := by
  cases value with
  | none => exact .inr h
  | some x =>
    rcases SortedMap.mem_insert h with rfl | h
    · exact .inl rfl
    · exact .inr h

def samplingNames : List String := ["temperature", "top_k", "top_p", "repetition_penalty", "do_sample"]

theorem mem_samplingToJson {options : SynthesisSamplingOptions} {p : CppString × Json}
    (h : p ∈ synthesisSamplingToJson options) : ∃ name ∈ samplingNames, p.1 = CppString.lit name := by
  rcases mem_putSome h with h | hp
  · exact ⟨_, by decide, h⟩
  rcases mem_putSome hp with h | hp
  · exact ⟨_, by decide, h⟩
  rcases mem_putSome hp with h | hp
  · exact ⟨_, by decide, h⟩
  rcases mem_putSome hp with h | hp
  · exact ⟨_, by decide, h⟩
  rcases mem_putSome hp with h | hp
  · exact ⟨_, by decide, h⟩
  · exact (List.not_mem_nil hp).elim

theorem rejectUnknownFields_sampling (options : SynthesisSamplingOptions) (name : String) :
    rejectUnknownFields (synthesisSamplingToJson options) samplingNames name = .ok () := by
  have hknown : (synthesisSamplingToJson options).find? (fun p => !((samplingNames.map CppString.lit).contains p.1)) =
      none := by
    rw [List.find?_eq_none]
    intro p hp
    obtain ⟨n, hn, hname⟩ := mem_samplingToJson hp
    simp only [hname, Bool.not_eq_true, Bool.not_eq_false', List.contains_iff_mem]
    exact List.mem_map_of_mem hn
  rw [rejectUnknownFields, hknown]

/-- What `validate_synthesis_sampling` asks. -/
structure SamplingFits (options : SynthesisSamplingOptions) : Prop where
  temperature : within (fun x => !x.leInt 0 && x.leInt 2) options.temperature = true
  topK : options.topK ≠ some 0
  topP : within (fun x => !x.leInt 0 && x.leInt 1) options.topP = true
  repetitionPenalty : within (fun x => !x.ltInt 1 && x.leInt 2) options.repetitionPenalty = true

theorem validateSynthesisSampling_iff {options : SynthesisSamplingOptions} :
    validateSynthesisSampling options = .ok () ↔ SamplingFits options := by
  unfold validateSynthesisSampling invalidField
  constructor
  · intro h
    split at h
    · cases h
    split at h
    · cases h
    split at h
    · cases h
    split at h
    · cases h
    rename_i h1 h2 h3 h4
    exact ⟨by simpa using h1, h2, by simpa using h3, by simpa using h4⟩
  · intro h
    rw [if_neg (by simp [h.temperature]), if_neg h.topK, if_neg (by simp [h.topP]),
      if_neg (by simp [h.repetitionPenalty])]

/-- The fields of written options. -/
structure SamplingFields (options : SynthesisSamplingOptions) (object : Json) : Prop where
  temperature : object.field "temperature" = options.temperature.map .numberFloat
  topK : object.field "top_k" = options.topK.map .ofU32
  topP : object.field "top_p" = options.topP.map .numberFloat
  repetitionPenalty : object.field "repetition_penalty" = options.repetitionPenalty.map .numberFloat
  doSample : object.field "do_sample" = options.doSample.map .boolean

theorem samplingToJson_fields (options : SynthesisSamplingOptions) :
    SamplingFields options (.object (synthesisSamplingToJson options)) := by
  constructor <;> simp +decide [synthesisSamplingToJson, field_putSome]

theorem readSampling_toJson {object : Json} {name : String} {options : SynthesisSamplingOptions}
    (hfield : object.field name = some (.object (synthesisSamplingToJson options))) (h : SamplingFits options) :
    readOptionalSynthesisSampling object name = .ok options := by
  have hf := samplingToJson_fields options
  have hknown : rejectUnknownFields (synthesisSamplingToJson options)
      ["temperature", "top_k", "top_p", "repetition_penalty", "do_sample"] name = .ok () :=
    rejectUnknownFields_sampling options name
  simp only [readOptionalSynthesisSampling, hfield, hknown,
    readOptionalFiniteDouble_of hf.temperature h.temperature, readOptionalU32_of hf.topK,
    readOptionalFiniteDouble_of hf.topP h.topP, readOptionalFiniteDouble_of hf.repetitionPenalty h.repetitionPenalty,
    readOptionalBool_of hf.doSample, bind, Except.bind, pure, Except.pure]

/-- Nothing is written for options that are all absent. -/
theorem sampling_of_isEmpty {options : SynthesisSamplingOptions} (h : (synthesisSamplingToJson options).isEmpty = true) :
    options = {} := by
  have hf := samplingToJson_fields options
  rw [List.isEmpty_iff.mp h] at hf
  obtain ⟨htemperature, htopK, htopP, hpenalty, hsample⟩ := hf
  simp only [field_empty, eq_comm, Option.map_eq_none_iff] at htemperature htopK htopP hpenalty hsample
  cases options
  simp_all

theorem readCapabilities_toJson {object : Json} {c : WorkerCapabilities}
    (hfield : object.field "capabilities" = some (.object (capabilitiesToJson c))) : readCapabilities object = .ok c := by
  have hb : ∀ name b, (Json.object (capabilitiesToJson c)).field name = some (.boolean b) →
      readOptionalBool (.object (capabilitiesToJson c)) name = .ok (some b) := by
    intro name b h
    exact readOptionalBool_of (b := some b) h
  have h1 : (Json.object (capabilitiesToJson c)).field "streaming" = some (.boolean c.streaming) := by
    simp +decide [capabilitiesToJson, fields_eq, field_put]
  have h2 : (Json.object (capabilitiesToJson c)).field "cancellation" = some (.boolean c.cancellation) := by
    simp +decide [capabilitiesToJson, fields_eq, field_put]
  have h3 : (Json.object (capabilitiesToJson c)).field "instructions" = some (.boolean c.instructions) := by
    simp +decide [capabilitiesToJson, fields_eq, field_put]
  have h4 : (Json.object (capabilitiesToJson c)).field "voice_clone" = some (.boolean c.voiceClone) := by
    simp +decide [capabilitiesToJson, fields_eq, field_put]
  have h5 : (Json.object (capabilitiesToJson c)).field "sampling_overrides" = some (.boolean c.samplingOverrides) := by
    simp +decide [capabilitiesToJson, fields_eq, field_put]
  have h6 : (Json.object (capabilitiesToJson c)).field "deterministic_seed" = some (.boolean c.deterministicSeed) := by
    simp +decide [capabilitiesToJson, fields_eq, field_put]
  have h7 : (Json.object (capabilitiesToJson c)).field "voice_clone_streaming" =
      some (.boolean c.voiceCloneStreaming) := by
    simp +decide [capabilitiesToJson, fields_eq, field_put]
  have h8 : (Json.object (capabilitiesToJson c)).field "voice_profiles" = some (.boolean c.voiceProfiles) := by
    simp +decide [capabilitiesToJson, fields_eq, field_put]
  simp only [readCapabilities, hfield, Json.isObject_object, Bool.not_true, Bool.false_eq_true, if_false,
    readRequiredBool_of h1, readRequiredBool_of h2, readRequiredBool_of h3, readRequiredBool_of h4, hb _ _ h5, hb _ _ h6,
    hb _ _ h7, hb _ _ h8, bind, Except.bind, pure, Except.pure, Option.getD_some]

theorem readGenerationTrace_toJson (t : GenerationTrace) :
    readGenerationTrace (.object (generationTraceToJson t)) = .ok t := by
  have h1 : (Json.object (generationTraceToJson t)).field "termination_reason" = some (.string t.terminationReason) := by
    simp +decide [generationTraceToJson, fields_eq, field_put]
  have h2 : (Json.object (generationTraceToJson t)).field "hit_eos" = some (.boolean t.hitEos) := by
    simp +decide [generationTraceToJson, fields_eq, field_put]
  have h3 : (Json.object (generationTraceToJson t)).field "hit_max_seq_len" = some (.boolean t.hitMaxSeqLen) := by
    simp +decide [generationTraceToJson, fields_eq, field_put]
  have h4 : (Json.object (generationTraceToJson t)).field "hit_max_new_tokens" = some (.boolean t.hitMaxNewTokens) := by
    simp +decide [generationTraceToJson, fields_eq, field_put]
  have h5 : (Json.object (generationTraceToJson t)).field "codec_frame_count" =
      some (.numberUnsigned t.codecFrameCount) := by
    simp +decide [generationTraceToJson, fields_eq, field_put]
  have h6 : (Json.object (generationTraceToJson t)).field "generated_steps" = some (.numberUnsigned t.generatedSteps) := by
    simp +decide [generationTraceToJson, fields_eq, field_put]
  have h7 : (Json.object (generationTraceToJson t)).field "emitted_steps" = some (.numberUnsigned t.emittedSteps) := by
    simp +decide [generationTraceToJson, fields_eq, field_put]
  have h8 : (Json.object (generationTraceToJson t)).field "terminal_step_index" =
      some (.numberUnsigned t.terminalStepIndex) := by
    simp +decide [generationTraceToJson, fields_eq, field_put]
  simp only [readGenerationTrace, Json.isObject_object, Bool.not_true, Bool.false_eq_true, if_false,
    readRequiredString_of h1, readRequiredBool_of h2, readRequiredBool_of h3, readRequiredBool_of h4,
    readRequiredU64_of h5, readRequiredU64_of h6, readRequiredU64_of h7, readRequiredU64_of h8, bind, Except.bind, pure,
    Except.pure]

/-! ## Messages -/

theorem field_flagged {α : Type} (c : Bool) (x : α) (toJson : α → Json) :
    (if c = true then some (toJson x) else none) = (if c = true then some x else none).map toJson := by
  cases c <;> rfl

/-- A string that is written only when it is not empty reads back as itself. -/
theorem getD_nonEmpty (s : CppString) : (if (!s.isEmpty) = true then some s else none).getD [] = s := by
  cases s <;> rfl

/-- The fields of a written `synthesize`. -/
structure SynthesizeFields (m : SynthesizeMessage) (object : Json) : Prop where
  text : object.field "text" = some (.string m.text)
  language : object.field "language" = some (.string m.language)
  instruction : object.field "instruction" = some (.string m.instruction)
  output : object.field "output" = some (.object (audioFormatToJson m.output))
  speaker : object.field "speaker" = if (!m.speaker.isEmpty) = true then some (.string m.speaker) else none
  voiceId : object.field "voice_id" = if (!m.voiceId.isEmpty) = true then some (.string m.voiceId) else none
  referenceAudioPath : object.field "reference_audio_path" =
    if (!m.referenceAudioPath.isEmpty) = true then some (.string m.referenceAudioPath) else none
  referenceText : object.field "reference_text" =
    if (!m.referenceText.isEmpty) = true then some (.string m.referenceText) else none
  xVectorOnly : object.field "x_vector_only" = if m.xVectorOnly = true then some (.boolean true) else none
  seed : object.field "seed" = if m.hasSeed = true then some (.numberUnsigned m.seed) else none
  sampling : object.field "sampling" =
    if (synthesisSamplingToJson m.sampling).isEmpty then none else some (.object (synthesisSamplingToJson m.sampling))

theorem synthesizeToJson_fields (m : SynthesizeMessage) : SynthesizeFields m (.object (synthesizeToJson m)) := by
  constructor <;> simp +decide [synthesizeToJson, fields_eq, field_put, field_putIf]

theorem readSynthesizeMessage_toJson {m : SynthesizeMessage} {n : String} (hs : SamplingFits m.sampling)
    (ho : validateAudioFormat m.output n = .ok ()) :
    readSynthesizeMessage (.object (synthesizeToJson m)) = .ok { m with seed := if m.hasSeed then m.seed else 0 } := by
  have hf := synthesizeToJson_fields m
  have hsampling : readOptionalSynthesisSampling (.object (synthesizeToJson m)) "sampling" = .ok m.sampling := by
    have hfield := hf.sampling
    by_cases hempty : (synthesisSamplingToJson m.sampling).isEmpty = true
    · rw [if_pos hempty] at hfield
      rw [readOptionalSynthesisSampling, hfield, sampling_of_isEmpty hempty]
    · rw [if_neg hempty] at hfield
      exact readSampling_toJson hfield hs
  simp only [readSynthesizeMessage, readRequiredString_of hf.text, readOptionalString_of (s := some m.language) hf.language,
    readOptionalString_of (hf.speaker.trans (field_flagged _ _ _)),
    readOptionalString_of (s := some m.instruction) hf.instruction,
    readOptionalString_of (hf.voiceId.trans (field_flagged _ _ _)),
    readOptionalString_of (hf.referenceAudioPath.trans (field_flagged _ _ _)),
    readOptionalString_of (hf.referenceText.trans (field_flagged _ _ _)),
    readOptionalBool_of (hf.xVectorOnly.trans (field_flagged _ _ _)),
    readOptionalU64_of (hf.seed.trans (field_flagged _ _ _)), hsampling, readOptionalAudioFormat, hf.output,
    readAudioFormat_toJson ho, bind, Except.bind, pure, Except.pure, Option.getD_some, getD_nonEmpty]
  cases hx : m.xVectorOnly <;> cases hc : m.hasSeed <;> cases m <;> simp_all

theorem readReadyMessage_toJson (m : ReadyMessage) :
    (readReadyMessage (.object (readyToJson m)) = .ok { m with warmedUp := m.hasWarmedUp && m.warmedUp }) ↔
      [] ∉ m.voiceIds := by
  have hversion : (Json.object (readyToJson m)).field "worker_version" = some (.string m.workerVersion) := by
    simp +decide [readyToJson, fields_eq, field_put, field_putIf]
  have hsession : (Json.object (readyToJson m)).field "session_id" = some (.string m.sessionId) := by
    simp +decide [readyToJson, fields_eq, field_put, field_putIf]
  have hwarmed : (Json.object (readyToJson m)).field "warmed_up" =
      (if m.hasWarmedUp = true then some m.warmedUp else none).map .boolean := by
    rw [← field_flagged]
    simp +decide [readyToJson, fields_eq, field_put, field_putIf]
  have hvoices : (Json.object (readyToJson m)).field "voice_ids" =
      if m.voiceIds.isEmpty then none else some (.array (m.voiceIds.map .string)) := by
    simp +decide [readyToJson, fields_eq, field_put, field_putIf]
  have hcapabilities : (Json.object (readyToJson m)).field "capabilities" =
      some (.object (capabilitiesToJson m.capabilities)) := by
    simp +decide [readyToJson, fields_eq, field_put, field_putIf]
  have hread : readOptionalStringArray (.object (readyToJson m)) "voice_ids" [] =
      if [] ∈ m.voiceIds then wrongField "field must contain non-empty strings: " "voice_ids" else .ok m.voiceIds := by
    rw [readOptionalStringArray, hvoices]
    by_cases hempty : m.voiceIds.isEmpty = true
    · rw [if_pos hempty, List.isEmpty_iff.mp hempty, if_neg List.not_mem_nil]
    · rw [if_neg hempty]
      by_cases hmem : [] ∈ m.voiceIds
      · simp only [mapM_nonEmptyString, if_pos hmem]
      · simp only [mapM_nonEmptyString, if_neg hmem]
  simp only [readReadyMessage, readRequiredString_of hversion, readRequiredString_of hsession, readOptionalBool_of hwarmed,
    hread, readCapabilities_toJson hcapabilities, bind, Except.bind, pure, Except.pure]
  by_cases hmem : [] ∈ m.voiceIds
  · simp [hmem, wrongField, invalidField]
  · cases hw : m.hasWarmedUp <;> cases m <;> simp_all

theorem readCompletedMessage_toJson (m : CompletedMessage) :
    readCompletedMessage (.object (completedToJson m)) =
      .ok { m with
        executionOutcome := if m.hasExecutionOutcome then m.executionOutcome else []
        generationTrace := if m.hasGenerationTrace then m.generationTrace else {} } := by
  have houtcome : (Json.object (completedToJson m)).field "execution_outcome" =
      (if m.hasExecutionOutcome = true then some m.executionOutcome else none).map .string := by
    rw [← field_flagged]
    simp +decide [completedToJson, fields_eq, field_put, field_putIf]
  have htrace : (Json.object (completedToJson m)).field "generation_trace" =
      if m.hasGenerationTrace then some (.object (generationTraceToJson m.generationTrace)) else none := by
    simp +decide [completedToJson, fields_eq, field_put, field_putIf]
  simp only [readCompletedMessage, readOptionalString_of houtcome, houtcome, htrace, bind, Except.bind]
  cases ho : m.hasExecutionOutcome <;> cases ht : m.hasGenerationTrace <;> cases m <;>
    simp_all [readGenerationTrace_toJson, pure, Except.pure]

/-! ## The round trip -/

/-- The value of `message_type`. -/
def ControlMessageType.name : ControlMessageType → String
  | .hello => "hello"
  | .synthesize => "synthesize"
  | .cancel => "cancel"
  | .ping => "ping"
  | .shutdown => "shutdown"
  | .ready => "ready"
  | .queued => "queued"
  | .started => "started"
  | .completed => "completed"
  | .cancelled => "cancelled"
  | .pong => "pong"
  | .shutdownAck => "shutdown_ack"

def ControlMessageType.direction : ControlMessageType → ControlMessageDirection
  | .hello | .synthesize | .cancel | .ping | .shutdown => .clientToWorker
  | _ => .workerToClient

/-- The message without the fields whose presence flag is off. -/
def ControlMessage.flagged : ControlMessage → ControlMessage
  | .synthesize m => .synthesize { m with seed := if m.hasSeed then m.seed else 0 }
  | .ping hasSequence sequence => .ping hasSequence (if hasSequence then sequence else 0)
  | .ready m => .ready { m with warmedUp := m.hasWarmedUp && m.warmedUp }
  | .queued hasPosition position => .queued hasPosition (if hasPosition then position else 0)
  | .completed m => .completed { m with
      executionOutcome := if m.hasExecutionOutcome then m.executionOutcome else []
      generationTrace := if m.hasGenerationTrace then m.generationTrace else {} }
  | .pong hasSequence sequence => .pong hasSequence (if hasSequence then sequence else 0)
  | m => m

/-- A `ready` names no empty voice id. -/
def ControlMessage.VoicesNamed : ControlMessage → Prop
  | .ready m => [] ∉ m.voiceIds
  | _ => True

theorem field_messageType (m : ControlMessage) :
    (Json.object (controlMessageToJson m)).field "message_type" = some (.lit (controlMessageType m).name) := by
  cases m <;> simp +decide [controlMessageToJson, synthesizeToJson, readyToJson, completedToJson, fields_eq, field_put,
    field_putIf, controlMessageType, ControlMessageType.name]

theorem hasForbiddenHeaderField_toJson (m : ControlMessage) :
    hasForbiddenHeaderField (.object (controlMessageToJson m)) = false := by
  cases m <;> simp +decide [hasForbiddenHeaderField, controlMessageToJson, synthesizeToJson, readyToJson, completedToJson,
    fields_eq, field_put, field_putIf]

theorem isOneOf_name (t : ControlMessageType) :
    (isOneOf clientToWorkerMessages (CppString.lit t.name) || isOneOf workerToClientMessages (CppString.lit t.name)) = true := by
  cases t <;> decide

theorem directionAllows_name (t : ControlMessageType) : directionAllows (CppString.lit t.name) t.direction = true := by
  cases t <;> decide

/-- The decoder gets as far as the fields of the message. -/
theorem decodeControlObject_toJson (m : ControlMessage) :
    decodeControlObject (.object (controlMessageToJson m)) (controlMessageType m).direction =
      decodeKnownControlMessage (.object (controlMessageToJson m)) (CppString.lit (controlMessageType m).name) := by
  simp only [decodeControlObject, Json.isObject_object, Bool.not_true, Bool.false_eq_true, if_false,
    hasForbiddenHeaderField_toJson, field_messageType, Json.lit, isOneOf_name, directionAllows_name]

theorem validateSynthesize_ok {m : SynthesizeMessage} (h : validateSynthesize m = .ok ()) :
    SamplingFits m.sampling ∧ validateAudioFormat m.output "output" = .ok () := by
  unfold validateSynthesize at h
  cases htext : validateNonEmptyString m.text "text" with
  | error e =>
    rw [htext] at h
    cases h
  | ok u =>
    rw [htext] at h
    simp only [bind, Except.bind, invalidField] at h
    split at h
    · cases h
    split at h
    · cases h
    cases hsampling : validateSynthesisSampling m.sampling with
    | error e =>
      rw [hsampling] at h
      cases h
    | ok u =>
      rw [hsampling] at h
      exact ⟨validateSynthesisSampling_iff.mp hsampling, h⟩

theorem validated_of {m : ControlMessage} (h : validateControlMessage m = .ok ()) : validated m = .ok m := by
  rw [validated, h]
  rfl

/-- The fields of a valid message decode to the message, but for the empty voice ids. -/
theorem decodeKnown_toJson {m : ControlMessage} (h : validateControlMessage m = .ok ()) :
    decodeKnownControlMessage (.object (controlMessageToJson m)) (CppString.lit (controlMessageType m).name) =
      .ok m.flagged ↔ m.VoicesNamed := by
  cases m with
  | hello clientName clientVersion =>
    have hname : (Json.object (controlMessageToJson (.hello clientName clientVersion))).field "client_name" =
        some (.string clientName) := by
      simp +decide [controlMessageToJson, fields_eq, field_put]
    have hversion : (Json.object (controlMessageToJson (.hello clientName clientVersion))).field "client_version" =
        some (.string clientVersion) := by
      simp +decide [controlMessageToJson, fields_eq, field_put]
    simp only [decodeKnownControlMessage, controlMessageType, ControlMessageType.name, if_true,
      readRequiredString_of hname, readRequiredString_of hversion, bind, Except.bind, validated_of h,
      ControlMessage.flagged, ControlMessage.VoicesNamed]
  | synthesize m =>
    obtain ⟨hs, ho⟩ := validateSynthesize_ok h
    simp +decide only [decodeKnownControlMessage, controlMessageType, ControlMessageType.name, controlMessageToJson,
      if_true, if_false, readSynthesizeMessage_toJson hs ho, bind, Except.bind, ControlMessage.flagged,
      ControlMessage.VoicesNamed]
    exact iff_true_intro (validated_of h)
  | cancel => exact iff_true_intro rfl
  | ping hasSequence sequence =>
    have hfield : (Json.object (controlMessageToJson (.ping hasSequence sequence))).field "sequence" =
        (if hasSequence = true then some sequence else none).map .numberUnsigned := by
      rw [← field_flagged]
      simp +decide [controlMessageToJson, fields_eq, field_put, field_putIf]
    simp +decide only [decodeKnownControlMessage, controlMessageType, ControlMessageType.name, if_true, if_false,
      readOptionalU64_of hfield, bind, Except.bind, pure, Except.pure, ControlMessage.flagged, ControlMessage.VoicesNamed]
    cases hasSequence <;> simp
  | shutdown mode =>
    have hmode : (Json.object (controlMessageToJson (.shutdown mode))).field "mode" = (some mode).map .string := by
      simp +decide [controlMessageToJson, fields_eq, field_put]
    have hcancel : mode = CppString.lit "cancel" := by
      by_contra hne
      rw [validateControlMessage, if_neg hne] at h
      cases h
    simp +decide only [decodeKnownControlMessage, controlMessageType, ControlMessageType.name, if_true, if_false,
      readOptionalString_of hmode, bind, Except.bind, Option.getD_some, ControlMessage.flagged, ControlMessage.VoicesNamed]
    simp [hcancel, pure, Except.pure]
  | ready m =>
    have hread := readReadyMessage_toJson m
    simp +decide only [decodeKnownControlMessage, controlMessageType, ControlMessageType.name, controlMessageToJson,
      if_true, if_false, bind, Except.bind, ControlMessage.flagged, ControlMessage.VoicesNamed]
    rw [← hread]
    constructor
    · intro hdecode
      cases hr : readReadyMessage (.object (readyToJson m)) with
      | error e =>
        rw [hr] at hdecode
        cases hdecode
      | ok m' =>
        rw [hr] at hdecode
        simp only [validated, bind, Except.bind] at hdecode
        split at hdecode
        · cases hdecode
        · simpa [pure, Except.pure] using hdecode
    · intro hr
      rw [hr]
      exact validated_of h
  | queued hasPosition position =>
    have hfield : (Json.object (controlMessageToJson (.queued hasPosition position))).field "position" =
        (if hasPosition = true then some position else none).map .ofU32 := by
      rw [← field_flagged]
      simp +decide [controlMessageToJson, fields_eq, field_put, field_putIf]
    simp +decide only [decodeKnownControlMessage, controlMessageType, ControlMessageType.name, if_true, if_false,
      readOptionalU32_of hfield, bind, Except.bind, ControlMessage.flagged, ControlMessage.VoicesNamed]
    cases hasPosition with
    | false => exact iff_true_intro rfl
    | true => exact iff_true_intro (validated_of h)
  | started audioFormat =>
    have hfield : (Json.object (controlMessageToJson (.started audioFormat))).field "audio_format" =
        some (.object (audioFormatToJson audioFormat)) := by
      simp +decide [controlMessageToJson, fields_eq, field_put]
    simp +decide only [decodeKnownControlMessage, controlMessageType, ControlMessageType.name, if_true, if_false,
      readRequiredAudioFormat, hfield, readAudioFormat_toJson h, bind, Except.bind, validated_of h,
      ControlMessage.flagged, ControlMessage.VoicesNamed]
  | completed m =>
    simp +decide only [decodeKnownControlMessage, controlMessageType, ControlMessageType.name, controlMessageToJson,
      if_true, if_false, readCompletedMessage_toJson, bind, Except.bind, pure, Except.pure, ControlMessage.flagged,
      ControlMessage.VoicesNamed]
  | cancelled => exact iff_true_intro rfl
  | pong hasSequence sequence =>
    have hfield : (Json.object (controlMessageToJson (.pong hasSequence sequence))).field "sequence" =
        (if hasSequence = true then some sequence else none).map .numberUnsigned := by
      rw [← field_flagged]
      simp +decide [controlMessageToJson, fields_eq, field_put, field_putIf]
    simp +decide only [decodeKnownControlMessage, controlMessageType, ControlMessageType.name, if_true, if_false,
      readOptionalU64_of hfield, bind, Except.bind, pure, Except.pure, ControlMessage.flagged, ControlMessage.VoicesNamed]
    cases hasSequence <;> simp
  | shutdownAck => exact iff_true_intro rfl

section Canonical

open Json

variable {object : JsonObject}

theorem canonical_fields {pairs : List (String × Json)} (h : ∀ p ∈ pairs, Canonical p.2) :
    Canonical (.object (JsonObject.fields pairs)) := by
  refine canonical_ofPairs fun p hp => ?_
  obtain ⟨q, hq, rfl⟩ := List.mem_map.mp hp
  exact h q hq

theorem canonical_putIf (hobject : Canonical (.object object)) (c : Bool) (name : String) {value : Json}
    (hvalue : Canonical value) : Canonical (.object (object.putIf c name value)) := by
  cases c with
  | false => exact hobject
  | true => exact canonical_set hobject _ hvalue

theorem canonical_putSome {α : Type} (hobject : Canonical (.object object)) (name : String) {value : Option α}
    {f : α → Json} (hvalue : ∀ x ∈ value, Canonical (f x)) :
    Canonical (.object (object.putSome name value f)) := by
  cases value with
  | none => exact hobject
  | some x => exact canonical_set hobject _ (hvalue x rfl)

theorem canonical_within {bounds : Binary64.Finite → Bool} {x : Option Binary64} (h : within bounds x = true) :
    ∀ y ∈ x, Canonical (.numberFloat y) := by
  rintro y rfl
  cases y with
  | finite y => exact .numberFloat y
  | nan => cases h
  | infinity negative => cases h

theorem canonical_audioFormat (format : AudioFormat) : Canonical (.object (audioFormatToJson format)) := by
  refine canonical_fields fun p hp => ?_
  simp only [List.mem_cons, List.not_mem_nil, or_false] at hp
  rcases hp with rfl | rfl | rfl
  · exact .string _
  · exact .numberUnsigned _
  · exact .numberUnsigned _

theorem canonical_sampling {options : SynthesisSamplingOptions} (h : SamplingFits options) :
    Canonical (.object (synthesisSamplingToJson options)) := by
  have htemperature := canonical_putSome canonical_empty "temperature" (canonical_within h.temperature)
  have htopK := canonical_putSome htemperature "top_k" (f := .ofU32) fun n (_ : n ∈ options.topK) => .numberUnsigned _
  have htopP := canonical_putSome htopK "top_p" (canonical_within h.topP)
  have hpenalty := canonical_putSome htopP "repetition_penalty" (canonical_within h.repetitionPenalty)
  exact canonical_putSome hpenalty "do_sample" fun b _ => .boolean b

theorem canonical_synthesize {m : SynthesizeMessage} (h : SamplingFits m.sampling) :
    Canonical (.object (synthesizeToJson m)) := by
  refine canonical_putIf ?_ _ _ (canonical_sampling h)
  refine canonical_putIf ?_ _ _ (.numberUnsigned _)
  refine canonical_putIf ?_ _ _ (.boolean _)
  refine canonical_putIf ?_ _ _ (.string _)
  refine canonical_putIf ?_ _ _ (.string _)
  refine canonical_putIf ?_ _ _ (.string _)
  refine canonical_putIf ?_ _ _ (.string _)
  refine canonical_fields fun p hp => ?_
  simp only [List.mem_cons, List.not_mem_nil, or_false] at hp
  rcases hp with rfl | rfl | rfl | rfl | rfl
  · exact .string _
  · exact .string _
  · exact .string _
  · exact .string _
  · exact canonical_audioFormat _

theorem canonical_ready (m : ReadyMessage) : Canonical (.object (readyToJson m)) := by
  refine canonical_putIf (canonical_putIf ?_ _ _ (.boolean _)) _ _ (.array fun v hv => ?_)
  · refine canonical_fields fun p hp => ?_
    simp only [List.mem_cons, List.not_mem_nil, or_false] at hp
    rcases hp with rfl | rfl | rfl | rfl
    · exact .string _
    · exact .string _
    · exact .string _
    · refine canonical_fields fun p hp => ?_
      simp only [List.mem_cons, List.not_mem_nil, or_false] at hp
      rcases hp with rfl | rfl | rfl | rfl | rfl | rfl | rfl | rfl <;> exact .boolean _
  · obtain ⟨s, -, rfl⟩ := List.mem_map.mp hv
    exact .string s

theorem canonical_completed (m : CompletedMessage) : Canonical (.object (completedToJson m)) := by
  refine canonical_putIf (canonical_putIf ?_ _ _ (.string _)) _ _ ?_
  · refine canonical_fields fun p hp => ?_
    rw [List.mem_singleton.mp hp]
    exact .string _
  · refine canonical_fields fun p hp => ?_
    simp only [List.mem_cons, List.not_mem_nil, or_false] at hp
    rcases hp with rfl | rfl | rfl | rfl | rfl | rfl | rfl | rfl
    · exact .string _
    · exact .boolean _
    · exact .boolean _
    · exact .boolean _
    · exact .numberUnsigned _
    · exact .numberUnsigned _
    · exact .numberUnsigned _
    · exact .numberUnsigned _

theorem canonical_toJson {m : ControlMessage} (h : validateControlMessage m = .ok ()) :
    Canonical (.object (controlMessageToJson m)) := by
  have hone : ∀ name, Canonical (.object (JsonObject.fields [("message_type", .lit name)])) := by
    intro name
    refine canonical_fields fun p hp => ?_
    rw [List.mem_singleton.mp hp]
    exact .string _
  cases m with
  | hello clientName clientVersion =>
    refine canonical_fields fun p hp => ?_
    simp only [List.mem_cons, List.not_mem_nil, or_false] at hp
    rcases hp with rfl | rfl | rfl <;> exact .string _
  | synthesize m => exact canonical_synthesize (validateSynthesize_ok h).1
  | cancel => exact hone _
  | ping hasSequence sequence => exact canonical_putIf (hone _) _ _ (.numberUnsigned _)
  | shutdown mode =>
    refine canonical_fields fun p hp => ?_
    simp only [List.mem_cons, List.not_mem_nil, or_false] at hp
    rcases hp with rfl | rfl <;> exact .string _
  | ready m => exact canonical_ready m
  | queued hasPosition position => exact canonical_putIf (hone _) _ _ (.numberUnsigned _)
  | started audioFormat =>
    refine canonical_fields fun p hp => ?_
    simp only [List.mem_cons, List.not_mem_nil, or_false] at hp
    rcases hp with rfl | rfl
    · exact .string _
    · exact canonical_audioFormat _
  | completed m => exact canonical_completed m
  | cancelled => exact hone _
  | pong hasSequence sequence => exact canonical_putIf (hone _) _ _ (.numberUnsigned _)
  | shutdownAck => exact hone _

theorem canonical_error (m : ErrorMessage) : Canonical (.object (errorMessageToJson m)) := by
  refine canonical_fields fun p hp => ?_
  simp only [List.mem_cons, List.not_mem_nil, or_false] at hp
  rcases hp with rfl | rfl | rfl | rfl <;> exact .string _

end Canonical

/-- What was encoded passed its validation and parses to what was dumped. -/
theorem parse_encoded {lib : JsonLibrary} (hlib : lib.ReadsBack) {object : JsonObject} {payload : CppString}
    (hobject : Json.Canonical (.object object)) (h : encodeJsonPayload lib object = .ok payload) :
    parsePayload lib payload = .ok (.object object) := by
  unfold encodeJsonPayload at h
  split at h
  · rename_i text hdump
    cases h
    rw [parsePayload, hlib _ _ hobject hdump]
  · cases h

theorem decodeErrorObject_toJson {m : ErrorMessage} (h : validateErrorMessage m = .ok ()) :
    decodeErrorObject (.object (errorMessageToJson m)) = .ok m := by
  have hforbidden : hasForbiddenHeaderField (.object (errorMessageToJson m)) = false := by
    simp +decide [hasForbiddenHeaderField, errorMessageToJson, fields_eq, field_put]
  have htype : (Json.object (errorMessageToJson m)).field "message_type" = some (.string (CppString.lit "error")) := by
    simp +decide [errorMessageToJson, fields_eq, field_put, Json.lit]
  have hcategory : (Json.object (errorMessageToJson m)).field "category" = some (.string m.category) := by
    simp +decide [errorMessageToJson, fields_eq, field_put]
  have hcode : (Json.object (errorMessageToJson m)).field "code" = some (.string m.code) := by
    simp +decide [errorMessageToJson, fields_eq, field_put]
  have hmessage : (Json.object (errorMessageToJson m)).field "message" = some (.string m.message) := by
    simp +decide [errorMessageToJson, fields_eq, field_put]
  simp only [decodeErrorObject, Json.isObject_object, Bool.not_true, Bool.false_eq_true, if_false, hforbidden, htype,
    ne_eq, not_true_eq_false, readRequiredString_of hcategory, readRequiredString_of hcode,
    readRequiredString_of hmessage, bind, Except.bind, h, pure, Except.pure]

theorem encodeControlMessage_ok {lib : JsonLibrary} {m : ControlMessage} {payload : CppString} :
    encodeControlMessage lib m = .ok payload ↔
      validateControlMessage m = .ok () ∧ encodeJsonPayload lib (controlMessageToJson m) = .ok payload := by
  unfold encodeControlMessage
  cases h : validateControlMessage m with
  | error e => simp [bind, Except.bind]
  | ok u => simp [bind, Except.bind]

theorem encodeErrorMessage_ok {lib : JsonLibrary} {m : ErrorMessage} {payload : CppString} :
    encodeErrorMessage lib m = .ok payload ↔
      validateErrorMessage m = .ok () ∧ encodeJsonPayload lib (errorMessageToJson m) = .ok payload := by
  unfold encodeErrorMessage
  cases h : validateErrorMessage m with
  | error e => simp [bind, Except.bind]
  | ok u => simp [bind, Except.bind]

/-- An encoded control message decodes to itself exactly when it is no `ready` with an empty
    voice id; an encoded error always does. -/
theorem decode_encode_iff (lib : JsonLibrary) (hlib : lib.ReadsBack) :
    (∀ m payload, encodeControlMessage lib m = .ok payload →
      (decodeControlMessage lib payload (controlMessageType m).direction = .ok m.flagged ↔ m.VoicesNamed)) ∧
    ∀ m payload, encodeErrorMessage lib m = .ok payload → decodeErrorMessage lib payload = .ok m := by
  constructor
  · intro m payload h
    obtain ⟨hvalid, hencoded⟩ := encodeControlMessage_ok.mp h
    have hparse := parse_encoded hlib (canonical_toJson hvalid) hencoded
    rw [← decodeKnown_toJson hvalid, ← decodeControlObject_toJson, decodeControlMessage, hparse]
    rfl
  · intro m payload h
    obtain ⟨hvalid, hencoded⟩ := encodeErrorMessage_ok.mp h
    have hparse := parse_encoded hlib (canonical_error m) hencoded
    rw [decodeErrorMessage, hparse]
    exact decodeErrorObject_toJson hvalid

open Classical in
/-- A library that writes and reads one value. -/
noncomputable def JsonLibrary.knowing (v : Json) (floatText : Binary64 → CppString := fun _ => []) : JsonLibrary where
  parse text := if text = v.text floatText then .ok v else .error (.parseError (CppString.lit "syntax error"))
  dump w := if w = v then .ok (v.text floatText) else .error (.typeError (CppString.lit "invalid UTF-8 byte"))
  floatText := floatText

section Knowing

variable (v : Json) {floatText : Binary64 → CppString}

theorem JsonLibrary.knowing_dump : (JsonLibrary.knowing v floatText).dump v = .ok (v.text floatText) := if_pos rfl

theorem JsonLibrary.knowing_parse : (JsonLibrary.knowing v floatText).parse (v.text floatText) = .ok v := if_pos rfl

theorem JsonLibrary.knowing_readsBack : (JsonLibrary.knowing v floatText).ReadsBack := by
  intro w text _ hdump
  simp only [knowing] at hdump ⊢
  split at hdump
  · rename_i hw
    cases hdump
    rw [hw, if_pos rfl]
  · cases hdump

end Knowing

/-- A request with a voice, a seed and some sampling options. -/
def seededVoice : SynthesizeMessage :=
  { text := [0xc3, 0xa4] ++ CppString.lit " \"?\"", language := CppString.lit "de", voiceId := CppString.lit "anna"
    hasSeed := true, seed := 7
    sampling := { temperature := some (.finite ⟨false, 2 ^ 52, -53, by decide⟩), topK := some 50, doSample := some false } }

/-- A worker with two voices. -/
def twoVoices : ReadyMessage :=
  { workerVersion := CppString.lit "0.2.0", sessionId := CppString.lit "s", hasWarmedUp := true, warmedUp := true
    capabilities := { streaming := true, voiceClone := true }, voiceIds := [CppString.lit "anna", CppString.lit "bob"] }

/-- The one number that is not an integer is 0.5. -/
def halfText (_ : Binary64) : CppString := CppString.lit "0.5"

def payloadOf (m : ControlMessage) : CppString := (Json.object (controlMessageToJson m)).text halfText

theorem messages_decode_to_themselves :
    decodeControlMessage (.knowing (.object (controlMessageToJson (.synthesize seededVoice))) halfText)
      (payloadOf (.synthesize seededVoice)) .clientToWorker = .ok (.synthesize seededVoice) ∧
    decodeControlMessage (.knowing (.object (controlMessageToJson (.ready twoVoices))) halfText)
      (payloadOf (.ready twoVoices)) .workerToClient = .ok (.ready twoVoices) := by
  have hencoded (m : ControlMessage) (hvalid : validateControlMessage m = .ok ()) :
      encodeControlMessage (.knowing (.object (controlMessageToJson m)) halfText) m = .ok (payloadOf m) := by
    rw [encodeControlMessage_ok, encodeJsonPayload, JsonLibrary.knowing_dump]
    exact ⟨hvalid, rfl⟩
  have hnamed : [] ∉ twoVoices.voiceIds := by decide
  exact ⟨((decode_encode_iff _ (JsonLibrary.knowing_readsBack _)).1 (.synthesize seededVoice) _ (hencoded _ rfl)).mpr trivial,
    ((decode_encode_iff _ (JsonLibrary.knowing_readsBack _)).1 (.ready twoVoices) _ (hencoded _ rfl)).mpr hnamed⟩

example : payloadOf (.synthesize seededVoice) =
    CppString.lit "\x7b\"instruction\":\"\",\"language\":\"de\",\"message_type\":\"synthesize\",\"output\":" ++
    CppString.lit "\x7b\"channels\":1,\"sample_format\":\"s16le\",\"sample_rate\":24000\x7d,\"sampling\":" ++
    CppString.lit "\x7b\"do_sample\":false,\"temperature\":0.5,\"top_k\":50\x7d,\"seed\":7,\"text\":\"" ++
    [0xc3, 0xa4] ++ CppString.lit " \\\"?\\\"\",\"voice_id\":\"anna\"\x7d" := by decide +kernel

/-- A worker that names an empty voice id. -/
def namelessVoice : ReadyMessage :=
  { workerVersion := CppString.lit "0.2.0", sessionId := CppString.lit "s", voiceIds := [[]] }

theorem an_empty_voice_id_is_encoded_and_not_decoded :
    ∃ lib : JsonLibrary, lib.ReadsBack ∧ ∃ payload, encodeControlMessage lib (.ready namelessVoice) = .ok payload ∧
      decodeControlMessage lib payload .workerToClient ≠ .ok (ControlMessage.ready namelessVoice).flagged := by
  have hvalid : validateControlMessage (.ready namelessVoice) = .ok () := rfl
  have hencoded : encodeJsonPayload (.knowing (.object (controlMessageToJson (.ready namelessVoice))))
      (controlMessageToJson (.ready namelessVoice)) =
        .ok ((Json.object (controlMessageToJson (.ready namelessVoice))).text fun _ => []) := by
    rw [encodeJsonPayload, JsonLibrary.knowing_dump]
  refine ⟨_, JsonLibrary.knowing_readsBack _, _, encodeControlMessage_ok.mpr ⟨hvalid, hencoded⟩, ?_⟩
  intro hdecode
  rw [decodeControlMessage, parse_encoded (JsonLibrary.knowing_readsBack _) (canonical_toJson hvalid) hencoded] at hdecode
  have hvoices := (decodeKnown_toJson hvalid).mp ((decodeControlObject_toJson _).symm.trans hdecode)
  exact hvoices List.mem_cons_self

end QwenTtsBridge.Protocol.Control
