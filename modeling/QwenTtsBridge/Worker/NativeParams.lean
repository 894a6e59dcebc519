/-
  QwenTtsBridge.Worker.NativeParams — the parameters that `NativeEngine::synthesize` hands to
  qwen.dll (`native/qwentts/native_engine.cpp`).

  The codec admits every string of UTF-8, NULs included, and every 32-bit `top_k`. The ABI
  takes C strings and a signed `int`. Between the two stand `validate_control_payload` and
  `validate_request`, which looks at the range of the seed and at nothing else of this kind.
  A C string is the memory it points into: the bytes of the `std::string` and a NUL.

  - `params_denote_iff`: the parameters denote the request exactly when no text that is
    passed holds a NUL and `top_k` is at most 2^31 - 1. Seeds and the number of samples are
    always right: the first because they are checked, the second because the WAV reader
    limits what it reads.
  qwen.dll (its default parameters, the extraction of a voice reference), the files and the
  conversion of doubles to floats are parameters.
-/

import Mathlib.Data.List.TakeWhile
import QwenTtsBridge.Audio.WavReader
import QwenTtsBridge.Worker.NativeRobustness

namespace QwenTtsBridge.Worker.NativeServer

open QwenTtsBridge.Audio.WavReader QwenTtsBridge.Protocol.Control QwenTtsBridge.Lib

/-! ## The ABI -/

/-- What `c_str()` points to. -/
def cStr (s : CppString) : List UInt8 := s ++ [0]

/-- What is read at a `const char*`; nothing at a null pointer. -/
def readCStr (pointer : Option (List UInt8)) : CppString := (pointer.getD []).takeWhile (· ≠ 0)

/-- `qt_voice_ref`. -/
structure VoiceRef where
  refSpkEmb : List Binary32
  refSpkDim : Int32
  refCodes : Option (List Int32)
  refT : Int32
  deriving DecidableEq, Repr

/-- `qt_tts_params`, without the callbacks. -/
structure TtsParams where
  eosGuardEnabled : Bool
  eosGuardStartRatio : Binary32
  eosGuardMaxRatio : Binary32
  eosGuardForceRatio : Binary32
  eosGuardMaxBoost : Binary32
  eosGuardVoiceMultiplier : Binary32
  eosGuardMinExpectedFrames : Int32
  eosGuardFramesPerTextToken : Int32
  text : Option (List UInt8)
  lang : Option (List UInt8)
  instruct : Option (List UInt8)
  speaker : Option (List UInt8)
  refAudio24k : Option (List Binary32)
  refNSamples : Int32
  refText : Option (List UInt8)
  dumpDir : Option (List UInt8)
  refSpkEmb : Option (List Binary32)
  refSpkDim : Int32
  refCodes : Option (List Int32)
  refT : Int32
  maxNewTokens : Int32
  seed : Int64
  temperature : Binary32
  subtalkerTemperature : Binary32
  topK : Int32
  subtalkerTopK : Int32
  topP : Binary32
  subtalkerTopP : Binary32
  repetitionPenalty : Binary32
  doSample : Bool
  subtalkerDoSample : Bool
  deriving DecidableEq, Repr

/-- The functions of qwen.dll that are called before `synthesize`. The default parameters are
    there if the call succeeds and reports the right ABI version; a failed extraction has a
    text. -/
structure QwenApi where
  ttsDefaultParams : Option TtsParams
  extractVoiceRef : List Binary32 → Int32 → Except CppString VoiceRef

/-! ## The engine -/

structure NativeEngineOptions where
  diagnosticDumpDir : CppString := []
  maxNewTokens : Int32 := 2048
  eosGuardEnabled : Bool := false
  eosGuardStartRatio : Binary32
  eosGuardMaxRatio : Binary32
  eosGuardForceRatio : Binary32
  eosGuardMaxBoost : Binary32
  eosGuardVoiceMultiplier : Binary32
  eosGuardMinExpectedFrames : Int32 := 24
  eosGuardFramesPerTextToken : Int32 := 4
  maxTextBytes : Int32 := 0
  precomputeVoiceRefs : Bool := false
  deriving DecidableEq, Repr

structure VoiceProfile where
  referenceText : CppString
  xVectorOnly : Bool
  referenceCacheKey : CppString
  deriving DecidableEq, Repr

/-- What `synthesize` reads of the engine; the maps are lists of their entries. -/
structure Synthesizer where
  loaded : Bool := true
  options : NativeEngineOptions
  voiceProfiles : List (CppString × VoiceProfile) := []
  voiceReferenceCache : List (CppString × VoiceRef) := []

structure SynthesisFailure where
  category : String
  code : String
  message : CppString
  deriving DecidableEq, Repr

/-- `voice_reference_cache_key`: FNV-1a over the path and the bytes of the samples. -/
def voiceReferenceCacheKey (path : CppString) (samples : List Binary32) : CppString :=
  let bytes := path ++ samples.flatMap fun x => LittleEndian.writeLe 4 x.toNat
  let hash := bytes.foldl (fun (hash : UInt64) byte => (hash ^^^ byte.toUInt64) * 1099511628211) 1469598103934665603
  path ++ CppString.lit ":" ++ decimalText samples.length ++ CppString.lit ":" ++ decimalText hash.toNat

namespace Synthesizer

/-- The part of the engine that `validate_request` reads. -/
def validator (e : Synthesizer) : NativeEngine where
  loaded := e.loaded
  engineVersion := []
  voiceProfiles := e.voiceProfiles.map (·.1)

def voiceProfile (e : Synthesizer) (request : SynthesizeMessage) : Option VoiceProfile :=
  if request.voiceId.isEmpty then none else e.voiceProfiles.lookup request.voiceId

def effectiveReferenceText (e : Synthesizer) (request : SynthesizeMessage) : CppString :=
  match e.voiceProfile request with
  | some profile => profile.referenceText
  | none => request.referenceText

def effectiveXVectorOnly (e : Synthesizer) (request : SynthesizeMessage) : Bool :=
  match e.voiceProfile request with
  | some profile => profile.xVectorOnly
  | none => request.xVectorOnly

/-- The reference is decoded, and followed by silence if there is a transcript. -/
def readReference (e : Synthesizer) (files : CppString → Option (List UInt8)) (request : SynthesizeMessage) :
    Except CppString (List Binary32) :=
  match files request.referenceAudioPath with
  | none => .error (CppString.lit "unable to open reference WAV: " ++ request.referenceAudioPath)
  | some file => do
    let samples ← readMono24kWav file
    if !e.effectiveXVectorOnly request && !(e.effectiveReferenceText request).isEmpty then
      pure (appendReferenceTrailingSilence samples)
    else pure samples

/-- `reference_audio` and `cached_reference`. -/
structure Reference where
  audio : List Binary32 := []
  cached : Option VoiceRef := none
  deriving DecidableEq, Repr

/-- The `try` block, with the cache after it. -/
def resolveReference (e : Synthesizer) (api : QwenApi) (files : CppString → Option (List UInt8))
    (request : SynthesizeMessage) : Except SynthesisFailure (Reference × List (CppString × VoiceRef)) :=
  match e.voiceProfile request with
  | some profile =>
    match e.voiceReferenceCache.lookup profile.referenceCacheKey with
    | none =>
      .error ⟨"worker_error", "voice_profile_not_ready", CppString.lit "native voice profile was not preloaded"⟩
    | some reference => .ok ({ cached := some reference }, e.voiceReferenceCache)
  | none =>
    if request.referenceAudioPath.isEmpty then .ok ({}, e.voiceReferenceCache)
    else
      match e.readReference files request with
      | .error what => .error ⟨"request_error", "invalid_reference_audio", what⟩
      | .ok audio =>
        if !e.options.precomputeVoiceRefs then .ok ({ audio }, e.voiceReferenceCache)
        else
          let key := voiceReferenceCacheKey request.referenceAudioPath audio
          match e.voiceReferenceCache.lookup key with
          | some reference => .ok ({ audio, cached := some reference }, e.voiceReferenceCache)
          | none =>
            match api.extractVoiceRef audio (Int32.ofNat audio.length) with
            | .error what => .error ⟨"model_error", "voice_reference_extract_failed", what⟩
            | .ok reference => .ok ({ audio, cached := some reference }, e.voiceReferenceCache ++ [(key, reference)])

/-- A string that is passed unless it is empty. -/
def optionalCStr (s : CppString) : Option (List UInt8) := if s.isEmpty then none else some (cStr s)

/-- The conditioning and the texts. -/
def withReference (e : Synthesizer) (request : SynthesizeMessage) (reference : Reference) (params : TtsParams) :
    TtsParams :=
  let params := { params with
    eosGuardEnabled := e.options.eosGuardEnabled
    eosGuardStartRatio := e.options.eosGuardStartRatio
    eosGuardMaxRatio := e.options.eosGuardMaxRatio
    eosGuardForceRatio := e.options.eosGuardForceRatio
    eosGuardMaxBoost := e.options.eosGuardMaxBoost
    eosGuardVoiceMultiplier := e.options.eosGuardVoiceMultiplier
    eosGuardMinExpectedFrames := e.options.eosGuardMinExpectedFrames
    eosGuardFramesPerTextToken := e.options.eosGuardFramesPerTextToken
    text := some (cStr request.text)
    lang := if request.language.isEmpty ∨ request.language = CppString.lit "auto" then none
      else some (cStr request.language)
    instruct := optionalCStr request.instruction
    speaker := optionalCStr request.speaker
    refAudio24k := if reference.cached.isNone ∧ !reference.audio.isEmpty then some reference.audio else none
    refNSamples := if reference.cached.isNone then Int32.ofNat reference.audio.length else 0
    refText := if e.effectiveXVectorOnly request ∨ (e.effectiveReferenceText request).isEmpty then none
      else some (cStr (e.effectiveReferenceText request))
    dumpDir := optionalCStr e.options.diagnosticDumpDir
    maxNewTokens := e.options.maxNewTokens }
  match reference.cached with
  | none => params
  | some cached =>
    let useCachedCodes := !e.effectiveXVectorOnly request && !(e.effectiveReferenceText request).isEmpty
    { params with
      refSpkEmb := some cached.refSpkEmb
      refSpkDim := cached.refSpkDim
      refCodes := if useCachedCodes then cached.refCodes else none
      refT := if useCachedCodes then cached.refT else 0 }

/-- The seed and the sampling; `narrow` converts a double to a float. -/
def withSampling (narrow : Binary64 → Binary32) (request : SynthesizeMessage) (params : TtsParams) : TtsParams :=
  let sampling := request.sampling
  let temperature := (sampling.temperature.map narrow).getD
  let topK := (sampling.topK.map UInt32.toInt32).getD
  let topP := (sampling.topP.map narrow).getD
  { params with
    seed := if request.hasSeed then request.seed.toInt64 else params.seed
    temperature := temperature params.temperature
    subtalkerTemperature := temperature params.subtalkerTemperature
    topK := topK params.topK
    subtalkerTopK := topK params.subtalkerTopK
    topP := topP params.topP
    subtalkerTopP := topP params.subtalkerTopP
    repetitionPenalty := (sampling.repetitionPenalty.map narrow).getD params.repetitionPenalty
    doSample := sampling.doSample.getD params.doSample
    subtalkerDoSample := sampling.doSample.getD params.subtalkerDoSample }

def refusal : ValidationError → SynthesisFailure
  | .invalidArgument what => ⟨"request_error", "invalid_native_request", what⟩
  | .other what => ⟨"worker_error", "worker_not_ready", what⟩

/-- `synthesize` up to the call of qwen.dll: the parameters, and the cache. -/
def synthesisParams (e : Synthesizer) (api : QwenApi) (files : CppString → Option (List UInt8))
    (narrow : Binary64 → Binary32) (request : SynthesizeMessage) :
    Except SynthesisFailure (TtsParams × List (CppString × VoiceRef)) :=
  match e.validator.validateRequest request with
  | some error => .error (refusal error)
  | none =>
    if 0 < e.options.maxTextBytes ∧ e.options.maxTextBytes.toInt < request.text.length then
      .error ⟨"resource_error", "sequence_capacity_exceeded",
        CppString.lit "native text preflight exceeds configured max-text-bytes; route to the safe/Python backend"⟩
    else
      match api.ttsDefaultParams with
      | none => .error ⟨"worker_error", "abi_mismatch", CppString.lit "qwen.dll returned incompatible TTS params"⟩
      | some defaults => do
        let (reference, cache) ← e.resolveReference api files request
        pure (withSampling narrow request (e.withReference request reference defaults), cache)

/-! ## What the parameters denote -/

/-- The samples that the request has handed over: none where a cached or an extracted
    reference stands in for them. -/
def requestedSamples (e : Synthesizer) (files : CppString → Option (List UInt8)) (request : SynthesizeMessage) :
    List Binary32 :=
  if (e.voiceProfile request).isSome ∨ request.referenceAudioPath.isEmpty ∨ e.options.precomputeVoiceRefs then []
  else
    match e.readReference files request with
    | .error _ => []
    | .ok audio => audio

/-- The parameters denote the request. `auto` and an x-vector-only reference pass no text. -/
structure Denotes (e : Synthesizer) (files : CppString → Option (List UInt8)) (request : SynthesizeMessage)
    (params : TtsParams) : Prop where
  text : readCStr params.text = request.text
  language : readCStr params.lang = if request.language = CppString.lit "auto" then [] else request.language
  instruction : readCStr params.instruct = request.instruction
  speaker : readCStr params.speaker = request.speaker
  referenceText : readCStr params.refText =
    if e.effectiveXVectorOnly request then [] else e.effectiveReferenceText request
  topK : ∀ k, request.sampling.topK = some k → params.topK.toInt = k.toNat ∧ 0 < params.topK.toInt
  seed : request.hasSeed = true → params.seed.toInt = request.seed.toNat
  samples : params.refAudio24k.getD [] = e.requestedSamples files request
  sampleCount : params.refNSamples.toInt = (e.requestedSamples files request).length

/-- Every text that is passed is one that a C string can hold, and `top_k` an `int`. -/
structure Representable (e : Synthesizer) (request : SynthesizeMessage) : Prop where
  text : 0 ∉ request.text
  language : request.language ≠ CppString.lit "auto" → 0 ∉ request.language
  instruction : 0 ∉ request.instruction
  speaker : 0 ∉ request.speaker
  referenceText : e.effectiveXVectorOnly request = false → 0 ∉ e.effectiveReferenceText request
  topK : ∀ k, request.sampling.topK = some k → k.toNat < 2 ^ 31

theorem readCStr_cStr (s : CppString) : readCStr (some (cStr s)) = s ↔ 0 ∉ s := by
  show (s ++ [0]).takeWhile (· ≠ 0) = s ↔ 0 ∉ s
  constructor
  · intro h hmem
    rw [← h] at hmem
    simpa using List.mem_takeWhile_imp hmem
  · intro h
    have hall : ∀ b ∈ s, decide (b ≠ 0) = true := fun b hb => decide_eq_true fun heq => h (heq ▸ hb)
    rw [List.takeWhile_append_of_pos hall]
    simp

theorem readCStr_optional (s : CppString) : readCStr (optionalCStr s) = s ↔ 0 ∉ s := by
  unfold optionalCStr
  split
  · rename_i hempty
    rw [List.isEmpty_iff.mp hempty]
    exact ⟨fun _ => List.not_mem_nil, fun _ => rfl⟩
  · exact readCStr_cStr s

theorem toInt32_toInt (k : UInt32) : k.toInt32.toInt = k.toNat ↔ k.toNat < 2 ^ 31 := by
  have hlt := k.toNat_lt
  have hcond : k.toInt32.toInt = if 2 * k.toNat < 2 ^ 32 then (k.toNat : Int) else k.toNat - (2 ^ 32 : Nat) :=
    BitVec.toInt_eq_toNat_cond k.toBitVec
  rw [hcond]
  split <;> omega

theorem toInt64_toInt {n : UInt64} (h : n.toNat < 2 ^ 63) : n.toInt64.toInt = n.toNat := by
  have hcond : n.toInt64.toInt = if 2 * n.toNat < 2 ^ 64 then (n.toNat : Int) else n.toNat - (2 ^ 64 : Nat) :=
    BitVec.toInt_eq_toNat_cond n.toBitVec
  rw [hcond, if_pos (by omega)]

/-! ## Proof -/

section Params

variable {e : Synthesizer} {api : QwenApi} {files : CppString → Option (List UInt8)} {narrow : Binary64 → Binary32}
variable {request : SynthesizeMessage} {defaults params : TtsParams} {cache : List (CppString × VoiceRef)}

theorem readReference_length {audio : List Binary32} (h : e.readReference files request = .ok audio) :
    audio.length < 2 ^ 31 := by
  unfold readReference at h
  split at h
  · cases h
  · obtain ⟨samples, hsamples, h⟩ := exists_of_bind h
    have hlength := readMono24kWav_length hsamples
    split at h
    · cases h
      rw [appendReferenceTrailingSilence, List.length_append, List.length_replicate]
      omega
    · cases h
      omega

theorem requestedSamples_length (e : Synthesizer) (files : CppString → Option (List UInt8))
    (request : SynthesizeMessage) : (e.requestedSamples files request).length < 2 ^ 31 := by
  unfold requestedSamples
  split
  · decide
  · split
    · decide
    · rename_i haudio
      exact readReference_length haudio

/-- The reference without a stand-in is the requested one. -/
theorem resolveReference_samples {reference : Reference}
    (h : e.resolveReference api files request = .ok (reference, cache)) :
    (if reference.cached.isNone then reference.audio else []) = e.requestedSamples files request := by
  unfold resolveReference at h
  unfold requestedSamples
  split at h
  · rename_i profile hprofile
    split at h
    · cases h
    · cases h
      simp [hprofile]
  · rename_i hprofile
    split at h
    · rename_i hempty
      cases h
      simp [hempty]
    · rename_i hpath
      split at h
      · cases h
      · rename_i audio haudio
        split at h
        · rename_i hprecompute
          cases h
          have hprecompute : e.options.precomputeVoiceRefs = false := by simpa using hprecompute
          simp [hprofile, hpath, hprecompute]
        · rename_i hprecompute
          have hprecompute : e.options.precomputeVoiceRefs = true := by simpa using hprecompute
          dsimp only at h
          split at h
          · cases h
            simp [hprecompute]
          · split at h
            · cases h
            · cases h
              simp [hprecompute]

/-- How the fields of the request are passed. -/
structure Mapped (e : Synthesizer) (request : SynthesizeMessage) (reference : Reference) (params : TtsParams) : Prop where
  text : params.text = some (cStr request.text)
  lang : params.lang = if request.language.isEmpty ∨ request.language = CppString.lit "auto" then none
    else some (cStr request.language)
  instruct : params.instruct = optionalCStr request.instruction
  speaker : params.speaker = optionalCStr request.speaker
  refText : params.refText = if e.effectiveXVectorOnly request ∨ (e.effectiveReferenceText request).isEmpty then none
    else some (cStr (e.effectiveReferenceText request))
  topK : ∀ k, request.sampling.topK = some k → params.topK = k.toInt32
  seed : request.hasSeed = true → params.seed = request.seed.toInt64
  refAudio24k : params.refAudio24k.getD [] = if reference.cached.isNone then reference.audio else []
  refNSamples : params.refNSamples = if reference.cached.isNone then Int32.ofNat reference.audio.length else 0

theorem mapped (reference : Reference) :
    Mapped e request reference (withSampling narrow request (e.withReference request reference defaults)) := by
  obtain ⟨audio, cached⟩ := reference
  have htopK (params : TtsParams) (k : UInt32) (hk : request.sampling.topK = some k) :
      (withSampling narrow request params).topK = k.toInt32 := by
    simp [withSampling, hk]
  have hseed (params : TtsParams) (h : request.hasSeed = true) :
      (withSampling narrow request params).seed = request.seed.toInt64 := by
    simp [withSampling, h]
  cases cached with
  | none =>
    refine ⟨rfl, rfl, rfl, rfl, rfl, htopK _, hseed _, ?_, rfl⟩
    cases audio <;> rfl
  | some cached => exact ⟨rfl, rfl, rfl, rfl, rfl, htopK _, hseed _, rfl, rfl⟩

theorem validateRequest_seed {engine : NativeEngine} (h : engine.validateRequest request = none)
    (hseed : request.hasSeed = true) : request.seed.toNat < 2 ^ 63 := by
  unfold NativeEngine.validateRequest at h
  repeat' split at h
  all_goals cases h
  rename_i hrange
  simp only [hseed, Bool.true_and, decide_eq_true_eq] at hrange
  omega

theorem synthesisParams_ok (h : e.synthesisParams api files narrow request = .ok (params, cache)) :
    e.validator.validateRequest request = none ∧
    ∃ reference, e.resolveReference api files request = .ok (reference, cache) ∧ Mapped e request reference params := by
  unfold synthesisParams at h
  split at h
  · cases h
  · rename_i hvalid
    split at h
    · cases h
    split at h
    · cases h
    · obtain ⟨⟨reference, cache'⟩, hreference, h⟩ := exists_of_bind h
      cases h
      exact ⟨hvalid, reference, hreference, mapped reference⟩

/-- A synthesis request, if the message is one, has been validated. -/
def Checked : ControlMessage → Prop
  | .synthesize request => validateSynthesize request = .ok ()
  | _ => True

theorem validated_checked (m : ControlMessage) : Yields Checked (validated m) := by
  unfold validated
  cases hvalid : validateControlMessage m with
  | error e => exact trivial
  | ok u =>
    cases m with
    | synthesize request => exact hvalid
    | _ => exact trivial

theorem decodeKnown_checked (object : Json) (type : CppString) :
    Yields Checked (decodeKnownControlMessage object type) := by
  unfold decodeKnownControlMessage
  refine .ite (fun _ => ?_) fun _ => ?_
  · refine (yields_any _).bind fun clientName _ => (yields_any _).bind fun clientVersion _ => ?_
    exact validated_checked _
  refine .ite (fun _ => ?_) fun _ => ?_
  · exact (yields_any _).bind fun request _ => validated_checked _
  refine .ite (fun _ => trivial) fun _ => ?_
  refine .ite (fun _ => ?_) fun _ => ?_
  · exact (yields_any _).bind fun sequence _ => trivial
  refine .ite (fun _ => ?_) fun _ => ?_
  · refine (yields_any _).bind fun mode _ => ?_
    exact .ite (fun _ => trivial) fun _ => trivial
  refine .ite (fun _ => ?_) fun _ => ?_
  · exact (yields_any _).bind fun ready _ => validated_checked _
  refine .ite (fun _ => ?_) fun _ => ?_
  · exact (yields_any _).bind fun position _ => validated_checked _
  refine .ite (fun _ => ?_) fun _ => ?_
  · exact (yields_any _).bind fun audioFormat _ => validated_checked _
  refine .ite (fun _ => ?_) fun _ => ?_
  · exact (yields_any _).bind fun completed _ => trivial
  refine .ite (fun _ => trivial) fun _ => ?_
  refine .ite (fun _ => ?_) fun _ => ?_
  · exact (yields_any _).bind fun sequence _ => trivial
  exact .ite (fun _ => trivial) fun _ => trivial

theorem decode_checked {lib : JsonLibrary} {payload : CppString} {direction : ControlMessageDirection}
    {m : ControlMessage} (h : decodeControlMessage lib payload direction = .ok m) : Checked m := by
  obtain ⟨object, -, hobject⟩ := exists_of_bind h
  unfold decodeControlObject at hobject
  split at hobject
  · cases hobject
  split at hobject
  · cases hobject
  split at hobject
  · cases hobject
  · split at hobject
    · cases hobject
    split at hobject
    · cases hobject
    · exact (decodeKnown_checked object _).value hobject
  · cases hobject

/-- A text that is passed unless there is a reason to pass none. -/
theorem readCStr_unless (s : CppString) (skipped : Prop) [Decidable skipped] :
    (readCStr (if skipped ∨ s.isEmpty then none else some (cStr s)) = if skipped then [] else s) ↔
      (¬ skipped → 0 ∉ s) := by
  by_cases hskipped : skipped
  · simp only [hskipped, true_or, if_true, not_true, false_implies, iff_true]
    rfl
  · simp only [hskipped, false_or, if_false, not_false_iff, true_implies]
    exact readCStr_optional s

end Params

theorem params_denote_iff {lib : JsonLibrary} {payload : CppString} {request : SynthesizeMessage} {e : Synthesizer}
    {api : QwenApi} {files : CppString → Option (List UInt8)} {narrow : Binary64 → Binary32} {params : TtsParams}
    {cache : List (CppString × VoiceRef)}
    (hdecode : decodeControlMessage lib payload .clientToWorker = .ok (.synthesize request))
    (h : e.synthesisParams api files narrow request = .ok (params, cache)) :
    Denotes e files request params ↔ Representable e request := by
  obtain ⟨hvalid, reference, hreference, hmapped⟩ := synthesisParams_ok h
  have hsamples := resolveReference_samples hreference
  have hlang : params.lang =
      if request.language = CppString.lit "auto" ∨ request.language.isEmpty then none else some (cStr request.language) := by
    rw [hmapped.lang]
    simp only [or_comm]
  have hlanguage := readCStr_unless request.language (request.language = CppString.lit "auto")
  have htext := readCStr_unless (e.effectiveReferenceText request) (e.effectiveXVectorOnly request = true)
  rw [← hlang] at hlanguage
  rw [← hmapped.refText, Bool.not_eq_true] at htext
  constructor
  · intro hd
    refine ⟨?_, hlanguage.mp hd.language, ?_, ?_, htext.mp hd.referenceText, fun k hk => ?_⟩
    · exact (readCStr_cStr _).mp (hmapped.text ▸ hd.text)
    · exact (readCStr_optional _).mp (hmapped.instruct ▸ hd.instruction)
    · exact (readCStr_optional _).mp (hmapped.speaker ▸ hd.speaker)
    · rw [← toInt32_toInt, ← hmapped.topK k hk]
      exact (hd.topK k hk).1
  · intro hr
    refine ⟨?_, hlanguage.mpr hr.language, ?_, ?_, htext.mpr hr.referenceText, fun k hk => ?_, fun hs => ?_, ?_, ?_⟩
    · rw [hmapped.text]
      exact (readCStr_cStr _).mpr hr.text
    · rw [hmapped.instruct]
      exact (readCStr_optional _).mpr hr.instruction
    · rw [hmapped.speaker]
      exact (readCStr_optional _).mpr hr.speaker
    · have hint : params.topK.toInt = k.toNat := by
        rw [hmapped.topK k hk]
        exact (toInt32_toInt k).mpr (hr.topK k hk)
      have hpos : k ≠ 0 := by
        rintro rfl
        exact (validateSynthesize_ok (decode_checked hdecode)).1.topK hk
      have hpos' : k.toNat ≠ 0 := fun h0 => hpos (UInt32.toNat_inj.mp h0)
      exact ⟨hint, by omega⟩
    · rw [hmapped.seed hs]
      exact toInt64_toInt (validateRequest_seed hvalid hs)
    · rw [hmapped.refAudio24k, hsamples]
    · have hlength := requestedSamples_length e files request
      rw [hmapped.refNSamples, ← hsamples]
      rw [← hsamples] at hlength
      split
      · rename_i hnone
        rw [if_pos hnone] at hlength
        exact Int32.toInt_ofNat_of_lt hlength
      · rfl

/-! ## Requests that arrive -/

section Sample

/-- A request as the client writes it is decoded. -/
theorem written_decodes {request : SynthesizeMessage} (hvalid : validateSynthesize request = .ok ())
    (hflagged : (ControlMessage.synthesize request).flagged = .synthesize request) :
    ∃ lib payload, decodeControlMessage lib payload .clientToWorker = .ok (.synthesize request) := by
  let m : ControlMessage := .synthesize request
  let written : Json := .object (controlMessageToJson m)
  refine ⟨JsonLibrary.reading [written], written.text fun _ => [], ?_⟩
  have hknown := (decodeKnown_toJson (m := m) hvalid).mpr trivial
  have hobject : decodeControlObject written .clientToWorker = .ok m := by
    rw [show (ControlMessageDirection.clientToWorker) = (controlMessageType m).direction from rfl,
      decodeControlObject_toJson, hknown, hflagged]
  rw [decodeControlMessage, parsePayload, JsonLibrary.reading_parse]
  exact hobject

/-- No voices, no files, and defaults that no request keeps. -/
def sampleSynthesizer : Synthesizer where
  options :=
    { eosGuardStartRatio := 0, eosGuardMaxRatio := 0, eosGuardForceRatio := 0, eosGuardMaxBoost := 0
      eosGuardVoiceMultiplier := 0 }

def sampleParams : TtsParams :=
  ⟨false, 0, 0, 0, 0, 0, 0, 0, none, none, none, none, none, 0, none, none, none, 0, none, 0, 0, -1, 0, 0, 50, 50, 0, 0,
    0, true, true⟩

def sampleApi : QwenApi where
  ttsDefaultParams := some sampleParams
  extractVoiceRef _ _ := .error []

/-- The text is "hi" and `top_k` 40. -/
def plainRequest : SynthesizeMessage := { text := [104, 105], sampling := { topK := some 40 } }

theorem a_plain_request_is_denoted :
    ∃ lib payload params cache, decodeControlMessage lib payload .clientToWorker = .ok (.synthesize plainRequest) ∧
      sampleSynthesizer.synthesisParams sampleApi (fun _ => none) (fun _ => 0) plainRequest = .ok (params, cache) ∧
      Denotes sampleSynthesizer (fun _ => none) plainRequest params := by
  obtain ⟨lib, payload, hdecode⟩ := written_decodes (show validateSynthesize plainRequest = .ok () by decide +kernel) rfl
  have hparams : sampleSynthesizer.synthesisParams sampleApi (fun _ => none) (fun _ => 0) plainRequest =
      .ok (withSampling (fun _ => 0) plainRequest (sampleSynthesizer.withReference plainRequest {} sampleParams), []) := by
    decide +kernel
  refine ⟨lib, payload, _, _, hdecode, hparams, (params_denote_iff hdecode hparams).mpr ?_⟩
  refine ⟨by decide, by decide, by decide, by decide, fun _ => by decide, fun k hk => ?_⟩
  cases hk
  decide

/-- The text is "a", a NUL and "b". -/
def cutRequest : SynthesizeMessage := { text := [97, 0, 98] }

def wideRequest : SynthesizeMessage := { text := [97], sampling := { topK := some 2147483648 } }

/-- Of "a", NUL, "b" the engine hears "a"; a `top_k` of 2^31 arrives as -2^31. -/
theorem a_nul_cuts_the_text :
    (∃ lib payload params cache, decodeControlMessage lib payload .clientToWorker = .ok (.synthesize cutRequest) ∧
      sampleSynthesizer.synthesisParams sampleApi (fun _ => none) (fun _ => 0) cutRequest = .ok (params, cache) ∧
      readCStr params.text = [97] ∧ ¬ Denotes sampleSynthesizer (fun _ => none) cutRequest params) ∧
    ∃ lib payload params cache, decodeControlMessage lib payload .clientToWorker = .ok (.synthesize wideRequest) ∧
      sampleSynthesizer.synthesisParams sampleApi (fun _ => none) (fun _ => 0) wideRequest = .ok (params, cache) ∧
      params.topK.toInt = -2147483648 ∧ ¬ Denotes sampleSynthesizer (fun _ => none) wideRequest params := by
  constructor
  · obtain ⟨lib, payload, hdecode⟩ := written_decodes (show validateSynthesize cutRequest = .ok () by decide +kernel) rfl
    have hparams : sampleSynthesizer.synthesisParams sampleApi (fun _ => none) (fun _ => 0) cutRequest =
        .ok (withSampling (fun _ => 0) cutRequest (sampleSynthesizer.withReference cutRequest {} sampleParams), []) := by
      decide +kernel
    refine ⟨lib, payload, _, _, hdecode, hparams, by decide +kernel, fun hd => ?_⟩
    exact absurd hd.text (by decide +kernel)
  · obtain ⟨lib, payload, hdecode⟩ := written_decodes (show validateSynthesize wideRequest = .ok () by decide +kernel) rfl
    have hparams : sampleSynthesizer.synthesisParams sampleApi (fun _ => none) (fun _ => 0) wideRequest =
        .ok (withSampling (fun _ => 0) wideRequest (sampleSynthesizer.withReference wideRequest {} sampleParams), []) := by
      decide +kernel
    refine ⟨lib, payload, _, _, hdecode, hparams, by decide +kernel, fun hd => ?_⟩
    exact absurd (hd.topK 2147483648 rfl).1 (by decide +kernel)

end Sample

end Synthesizer

end QwenTtsBridge.Worker.NativeServer
