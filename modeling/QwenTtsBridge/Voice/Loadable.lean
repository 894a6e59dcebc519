/-
  QwenTtsBridge.Voice.Loadable — when a prepared voice that passes the static check also loads
  (`verify_voice` of `voice_library.py`, `load_prepared_voice_reference`).

  A voice that is reported valid has a manifest in order (`Subject`, `Valid`), and its binding
  is one of the engine that the reader is built for (`Supported`). So the reader takes all of
  its identity, and what is left are the artifacts.

  - `verified_loads_iff`: a manifest that passes the check loads, for a context of the same
    identity, exactly when the fields that the reader is strict about are spelled as it wants
    them (`Strict`).
-/

import QwenTtsBridge.Voice.Twin
import QwenTtsBridge.Protocol.ControlRoundTrip
import QwenTtsBridge.Worker.PyMessages

namespace QwenTtsBridge.Voice.Loadable

open QwenTtsBridge.Lib QwenTtsBridge.Lib.WindowsPath QwenTtsBridge.Python QwenTtsBridge.Protocol.Control
open QwenTtsBridge.Interop QwenTtsBridge.Voice.Prepared QwenTtsBridge.Voice.Library
open QwenTtsBridge.Worker.PyServer (sampleInterpreter)

/-! ## The subject of the check -/

/-- What `verify_voice` finds on its way to the manifest. -/
structure Subject (py : Interpreter) (sha : Sha256) (machine : Machine) (registry : Value) (voiceId nativeProfile : PyStr)
    where
  rows : List Dict
  row : Dict
  audio : PyStr
  profile : NativeProfile
  binding : Binding
  reference : Dict
  value : PyStr
  path : List PyStr
  text : Bytes
  loadRows : loadVoiceRows py registry = .ok rows
  findRow : Library.findRow py rows voiceId = .ok row
  audioPath : rowAudioPath py machine row = .ok audio
  named : nativeProfile ≠ []
  paths : validateNativeReferencePaths machine row = .ok ()
  resolveProfile : machine.resolveNativeProfile nativeProfile = .ok profile
  bind : nativeBinding py sha profile nativeProfile = .ok binding
  select : selectNativeReference row binding.bindingKey nativeProfile = some (reference, false)
  manifestPath : str? reference "manifest_path" = some value
  resolve : resolveRegistryRelativePath machine value = .ok path
  file : machine.registry.tree path = some text

section Subject

variable {py : Interpreter} {sha : Sha256} {machine : Machine} {registry : Value} {voiceId nativeProfile : PyStr}

/-- The directory of the manifest. -/
def Subject.place (s : Subject py sha machine registry voiceId nativeProfile) : Place := machine.registry.parent s.path

theorem Subject.verifyVoice_eq (s : Subject py sha machine registry voiceId nativeProfile) :
    verifyVoice py sha machine registry voiceId nativeProfile =
      manifestStatus sha s.binding s.row py s.place (machine.files.file s.audio) (some s.text) := by
  unfold verifyVoice verifyRow verifyReference
  have hnamed : (!nativeProfile.isEmpty) = true := by simpa using s.named
  simp only [s.loadRows, s.findRow, s.audioPath, ok_bind, s.paths, s.resolveProfile, s.bind, s.select, s.manifestPath,
    s.resolve, s.file, hnamed]
  rfl

theorem manifestStatus_cases {py : Interpreter} {binding : Binding} {row : Dict} {place : Place}
    {audio file : Option Bytes} {status : Status} (h : manifestStatus sha binding row py place audio file = .ok status) :
    (∃ manifest, readJsonFileBounded py file maxManifestBytes = .ok (.dict manifest) ∧
      verifyManifest sha binding row place audio manifest = .ok true ∧ status = .preparedValid binding.bindingKey) ∨
    status = .preparedStale false ∨ ∃ error, status = .preparedCorrupt error := by
  unfold manifestStatus at h
  simp only at h
  split at h
  · rename_i houtcome
    cases h
    obtain ⟨value, hvalue, hmanifest⟩ := exists_of_bind houtcome
    split at hmanifest
    · exact .inl ⟨_, hvalue, hmanifest, rfl⟩
    · cases hmanifest
  · cases h
    exact .inr (.inl rfl)
  · split at h
    · cases h
      exact .inr (.inr ⟨_, rfl⟩)
    · cases h

end Subject

/-! ## The identity -/

/-- What a manifest that is valid has in it. -/
structure Valid (sha : Sha256) (binding : Binding) (row : Dict) (place : Place) (audio : Bytes) (manifest : Dict) : Prop
    where
  schema : int? manifest "schema_version" = some 1
  format : str? manifest "format" = some (PyStr.lit "qwen3-tts-native-voice-reference")
  source : str? manifest "source_wav_sha256" = some (hexdigest sha audio)
  recorded : recordsHash row (hexdigest sha audio) = true
  text : ∃ text, str? manifest "reference_text" = some text ∧ hasText row text = true
  flag : Dict.get? manifest (PyStr.lit "x_vector_only") = some (.bool (xVectorOnly row))
  engine : ∃ engine, dict? manifest "engine" = some engine ∧ str? engine "name" = some binding.engine ∧
    str? engine "commit" = some binding.engineCommit ∧ int? engine "abi_version" = some binding.qtAbiVersion
  models : ∃ models, dict? manifest "models" = some models ∧
    str? models "talker_sha256" = some binding.talkerSha256 ∧ str? models "codec_sha256" = some binding.codecSha256
  preprocessing : ∃ preprocessing, dict? manifest "preprocessing" = some preprocessing ∧
    int? preprocessing "version" = some 1 ∧ int? preprocessing "sample_rate" = some 24000 ∧
    int? preprocessing "channels" = some 1 ∧ str? preprocessing "sample_format" = some (PyStr.lit "float32") ∧
    int? preprocessing "icl_trailing_silence_samples" = some (if xVectorOnly row then 0 else 12000)
  artifacts : verifyPreparedArtifacts sha place manifest (xVectorOnly row) = .ok ()

section Valid

variable {sha : Sha256} {binding : Binding} {row : Dict} {place : Place} {audio : Option Bytes} {manifest : Dict}

theorem readSource_ok {source text : PyStr} {flag : Bool} (h : readSource manifest = .ok (source, text, flag)) :
    int? manifest "schema_version" = some 1 ∧
      str? manifest "format" = some (PyStr.lit "qwen3-tts-native-voice-reference") ∧
      str? manifest "source_wav_sha256" = some source ∧ str? manifest "reference_text" = some text ∧
      Dict.get? manifest (PyStr.lit "x_vector_only") = some (.bool flag) := by
  unfold readSource at h
  obtain ⟨_, hschema, h⟩ := exists_of_bind h
  obtain ⟨_, hformat, h⟩ := exists_of_bind h
  simp only [require_ok, beq_iff_eq] at hschema hformat
  split at h
  · cases h
  · rename_i source' hsource
    split at h
    · cases h
    · rename_i text' htext
      split at h
      · rename_i flag' hflag
        cases h
        exact ⟨hschema, hformat, (sha256?_some hsource).1, htext, hflag⟩
      · cases h

theorem readEngine_ok {name commit : PyStr} {abi : Int} (h : readEngine manifest = .ok (name, commit, abi)) :
    ∃ engine, dict? manifest "engine" = some engine ∧ str? engine "name" = some name ∧
      str? engine "commit" = some commit ∧ int? engine "abi_version" = some abi := by
  unfold readEngine at h
  split at h
  · cases h
  · rename_i engine hengine
    split at h
    · rename_i name' commit' abi' hname hcommit habi
      split at h
      · cases h
      · cases h
        exact ⟨engine, hengine, hname, hcommit, habi⟩
    · cases h

theorem readModels_ok {talker codec : PyStr} (h : readModels manifest = .ok (talker, codec)) :
    ∃ models, dict? manifest "models" = some models ∧ str? models "talker_sha256" = some talker ∧
      str? models "codec_sha256" = some codec := by
  unfold readModels at h
  split at h
  · cases h
  · rename_i models hmodels
    split at h
    · rename_i talker' codec' htalker hcodec
      cases h
      exact ⟨models, hmodels, (sha256?_some htalker).1, (sha256?_some hcodec).1⟩
    · cases h

theorem checkPreprocessing_ok (h : Library.checkPreprocessing row manifest = .ok ()) :
    ∃ preprocessing, dict? manifest "preprocessing" = some preprocessing ∧
      int? preprocessing "version" = some 1 ∧ int? preprocessing "sample_rate" = some 24000 ∧
      int? preprocessing "channels" = some 1 ∧ str? preprocessing "sample_format" = some (PyStr.lit "float32") ∧
      int? preprocessing "icl_trailing_silence_samples" = some (if xVectorOnly row then 0 else 12000) := by
  unfold Library.checkPreprocessing at h
  split at h
  · cases h
  · rename_i preprocessing hpreprocessing
    split at h
    · rename_i version rate channels silence hversion hrate hchannels hsilence
      simp only [require_ok, Bool.and_eq_true, beq_iff_eq] at h
      obtain ⟨⟨⟨⟨hv, hr⟩, hc⟩, hf⟩, hs⟩ := h
      subst hv hr hc hs
      exact ⟨preprocessing, hpreprocessing, hversion, hrate, hchannels, hf, hsilence⟩
    · cases h

theorem valid_of_verifyManifest (h : verifyManifest sha binding row place audio manifest = .ok true) :
    ∃ bytes, audio = some bytes ∧ Valid sha binding row place bytes manifest := by
  unfold verifyManifest at h
  obtain ⟨⟨source, text, flag⟩, hsource, h⟩ := exists_of_bind h
  obtain ⟨current, hcurrent, h⟩ := exists_of_bind h
  dsimp only at h
  split at h
  · cases h
  · rename_i hsame
    obtain ⟨⟨name, commit, abi⟩, hengine, h⟩ := exists_of_bind h
    dsimp only at h
    split at h
    · cases h
    · rename_i hsameEngine
      obtain ⟨⟨talker, codec⟩, hmodels, h⟩ := exists_of_bind h
      dsimp only at h
      split at h
      · cases h
      · rename_i hsameModels
        obtain ⟨_, hpreprocessing, h⟩ := exists_of_bind h
        obtain ⟨_, hartifacts, -⟩ := exists_of_bind h
        simp only [Bool.or_eq_true, bne_iff_ne, ne_eq, Bool.not_eq_true', not_or, not_not, Bool.not_eq_false] at hsame
        simp only [Bool.or_eq_true, bne_iff_ne, ne_eq, not_or, not_not] at hsameEngine hsameModels
        obtain ⟨⟨⟨rfl, hrecorded⟩, htext⟩, rfl⟩ := hsame
        obtain ⟨⟨rfl, rfl⟩, rfl⟩ := hsameEngine
        obtain ⟨rfl, rfl⟩ := hsameModels
        obtain ⟨hschema, hformat, hsource, htext', hflag⟩ := readSource_ok hsource
        cases audio with
        | none => cases hcurrent
        | some bytes =>
          cases hcurrent
          exact ⟨bytes, rfl, {
            schema := hschema
            format := hformat
            source := hsource
            recorded := hrecorded
            text := ⟨text, htext', htext⟩
            flag := hflag
            engine := readEngine_ok hengine
            models := readModels_ok hmodels
            preprocessing := checkPreprocessing_ok hpreprocessing
            artifacts := hartifacts }⟩

end Valid

/-- What the binding of a runtime that passes its check is. -/
structure Supported (sha : Sha256) (binding : Binding) : Prop where
  engine : binding.engine = PyStr.lit "qwentts.cpp"
  commit : binding.engineCommit ≠ []
  abi : binding.qtAbiVersion = 6
  talker : ∃ bytes, hexdigest sha bytes = binding.talkerSha256
  codec : ∃ bytes, hexdigest sha bytes = binding.codecSha256

theorem sha256File_ok {sha : Sha256} {file : Option Bytes} {hash : PyStr} (h : sha256File sha file = .ok hash) :
    ∃ bytes, hexdigest sha bytes = hash := by
  cases file with
  | none => cases h
  | some bytes =>
    cases h
    exact ⟨bytes, rfl⟩

theorem runtimeIdentity_some {value : Value} {d : Dict} {commit : PyStr} {abi : Int}
    (h : runtimeIdentity value = some (d, commit, abi)) : commit ≠ [] ∧ abi = 6 := by
  unfold runtimeIdentity at h
  split at h
  · split at h
    · split at h
      · rename_i hcond
        cases h
        simp only [Bool.and_eq_true, Bool.not_eq_true', List.isEmpty_eq_false_iff, beq_iff_eq] at hcond
        exact ⟨hcond.1.1.1.2, hcond.1.1.2⟩
      · cases h
    · cases h
  · cases h

theorem supported_of_nativeBinding {py : Interpreter} {sha : Sha256} {profile : NativeProfile} {nativeProfile : PyStr}
    {binding : Binding} (h : nativeBinding py sha profile nativeProfile = .ok binding) : Supported sha binding := by
  unfold nativeBinding at h
  obtain ⟨⟨commit, abi⟩, hidentity, h⟩ := exists_of_bind h
  obtain ⟨talker, htalker, h⟩ := exists_of_bind h
  obtain ⟨codec, hcodec, h⟩ := exists_of_bind h
  split at h
  · cases h
  · cases h
    have hboth : commit ≠ [] ∧ abi = 6 := by
      unfold loadRuntimeIdentity at hidentity
      split at hidentity
      · split at hidentity <;> cases hidentity
      · split at hidentity
        · cases hidentity
        · rename_i d commit' abi' hruntime
          split at hidentity
          · obtain ⟨_, -, hidentity⟩ := exists_of_bind hidentity
            obtain ⟨_, -, hidentity⟩ := exists_of_bind hidentity
            cases hidentity
            exact runtimeIdentity_some hruntime
          · cases hidentity
    exact ⟨rfl, hboth.1, hboth.2, sha256File_ok htalker, sha256File_ok hcodec⟩

/-- A context of this binding, row and recording. -/
structure Same (context : PreparedContext) (sha : Sha256) (binding : Binding) (row : Dict) (audio : Bytes) : Prop where
  engineCommit : Utf8.decode context.engineCommit = some binding.engineCommit
  abiVersion : context.abiVersion = binding.qtAbiVersion
  talkerSha256 : Utf8.decode context.talkerSha256 = some binding.talkerSha256
  codecSha256 : Utf8.decode context.codecSha256 = some binding.codecSha256
  sourceAudioSha256 : context.sourceAudioSha256 = sha.hex audio
  referenceText : ∃ text, Utf8.decode context.referenceText = some text ∧ hasText row text = true
  xVectorOnly : context.xVectorOnly = Library.xVectorOnly row

/-- The codebooks that a manifest declares; one that is x-vector only declares none. -/
structure Codebooks (context : PreparedContext) (manifest : Dict) : Prop where
  pos : 0 < context.numCodebooks
  declared : context.xVectorOnly = false → ∀ rvq, dict? manifest "rvq" = some rvq →
    int? rvq "codebooks" = some context.numCodebooks

theorem hasText_inj {row : Dict} {s t : PyStr} (hs : hasText row s = true) (ht : hasText row t = true) : s = t := by
  unfold hasText at hs ht
  split at hs
  · rename_i text htext
    rw [htext] at ht
    have hs' : text = s := by simpa using hs
    have ht' : text = t := by simpa using ht
    exact hs'.symm.trans ht'
  · cases hs

/-- Hashes are ASCII. -/
theorem length_of_decode_hash {s : CppString} {hash : PyStr} {sha : Sha256} {bytes : Bytes}
    (h : Utf8.decode s = some hash) (hhash : hexdigest sha bytes = hash) : s.length = 64 := by
  rw [Utf8.decode_injective h (hhash ▸ decode_hex sha bytes), length_hex]

section Identity

variable {sha : Sha256} {binding : Binding} {row : Dict} {place : Place} {audio : Bytes} {manifest : Dict}
  {context : PreparedContext} {fields : List (CppString × Json)}

theorem refuseIf_object (fields : List (CppString × Json)) (what : String) :
    refuseIf (!(Json.object fields).isObject) what = .ok () :=
  rfl

theorem at_object {name : String} {inner : List (CppString × Json)}
    (h : (Json.object fields).field name = some (.object inner)) : at_ (.object fields) name = .ok (.object inner) := by
  unfold at_
  rw [h]

theorem checkFormat_ok (hvalid : Valid sha binding row place audio manifest) (h : Twin fields manifest) :
    checkFormat (.object fields) = .ok () := by
  unfold checkFormat
  rw [refuseIf_object, ok_bind, show kSchemaVersion = 1 from rfl,
    h.expectInteger (by decide) hvalid.schema (by decide) (by decide), ok_bind,
    h.expectLit (by decide) hvalid.format (by decide) (by decide)]

theorem checkSource_ok (hvalid : Valid sha binding row place audio manifest)
    (hsame : Same context sha binding row audio) (h : Twin fields manifest) :
    checkSource context (.object fields) = .ok () := by
  obtain ⟨text, htext, hrowText⟩ := hvalid.text
  obtain ⟨contextText, hcontextText, hcontextRow⟩ := hsame.referenceText
  obtain ⟨s, hs, hdecode⟩ := h.string (by decide) htext
  have hsText : s = context.referenceText := by
    rw [hasText_inj hrowText hcontextRow] at hdecode
    exact Utf8.decode_injective hdecode hcontextText
  obtain ⟨flag, hflag, hflagDenotes, -⟩ := h.field (by decide) hvalid.flag
  have hstringValue : stringValue (.object fields) "reference_text" [] = .ok s := by
    unfold stringValue
    rw [hs]
  have hflagValue : Prepared.flagValue (.object fields) "x_vector_only" (!context.xVectorOnly) =
      .ok (Library.xVectorOnly row) := by
    unfold Prepared.flagValue
    rw [hflag]
    cases flag with
    | boolean b =>
      have hb : b = Library.xVectorOnly row := hflagDenotes
      rw [hb]
    | _ => exact hflagDenotes.elim
  unfold checkSource
  rw [hstringValue, ok_bind, refuseIf_false (by simp [hsText]), ok_bind, hflagValue, ok_bind,
    refuseIf_false (by simp [hsame.xVectorOnly]), ok_bind,
    h.expectString (by decide) hvalid.source (hexdigest_ne_nil sha audio)
      (hsame.sourceAudioSha256 ▸ decode_hex sha audio)]

theorem checkEngine_ok (hvalid : Valid sha binding row place audio manifest) (hsupported : Supported sha binding)
    (hsame : Same context sha binding row audio) (h : Twin fields manifest) :
    checkEngine context (.object fields) = .ok () := by
  obtain ⟨engine, hengine, hname, hcommit, habi⟩ := hvalid.engine
  obtain ⟨inner, hfield, htwin⟩ := h.object (by decide) hengine
  rw [hsupported.engine] at hname
  rw [← hsame.abiVersion] at habi
  have hsix : context.abiVersion = 6 := hsame.abiVersion.trans hsupported.abi
  unfold checkEngine
  rw [at_object hfield, ok_bind, refuseIf_object, ok_bind, htwin.expectLit (by decide) hname (by decide) (by decide),
    ok_bind, htwin.expectString (by decide) hcommit hsupported.commit hsame.engineCommit, ok_bind,
    htwin.expectInteger (by decide) habi (by omega) (by omega)]

theorem checkModels_ok (hvalid : Valid sha binding row place audio manifest) (hsupported : Supported sha binding)
    (hsame : Same context sha binding row audio) (h : Twin fields manifest) :
    checkModels context (.object fields) = .ok () := by
  obtain ⟨models, hmodels, htalker, hcodec⟩ := hvalid.models
  obtain ⟨inner, hfield, htwin⟩ := h.object (by decide) hmodels
  obtain ⟨talker, htalkerHash⟩ := hsupported.talker
  obtain ⟨codec, hcodecHash⟩ := hsupported.codec
  unfold checkModels
  rw [at_object hfield, ok_bind, refuseIf_object, ok_bind,
    htwin.expectString (by decide) htalker (htalkerHash ▸ hexdigest_ne_nil sha talker) hsame.talkerSha256, ok_bind,
    htwin.expectString (by decide) hcodec (hcodecHash ▸ hexdigest_ne_nil sha codec) hsame.codecSha256]

theorem checkPreprocessing_same (hvalid : Valid sha binding row place audio manifest)
    (hsame : Same context sha binding row audio) (h : Twin fields manifest) :
    Prepared.checkPreprocessing context (.object fields) = .ok () := by
  obtain ⟨preprocessing, hpreprocessing, hversion, hrate, hchannels, hformat, hsilence⟩ := hvalid.preprocessing
  obtain ⟨inner, hfield, htwin⟩ := h.object (by decide) hpreprocessing
  have hexpected : expectedSilence context = if Library.xVectorOnly row then 0 else 12000 := by
    unfold expectedSilence
    rw [hsame.xVectorOnly]
  unfold Prepared.checkPreprocessing
  rw [at_object hfield, ok_bind, refuseIf_object, ok_bind, show kPreprocessingVersion = 1 from rfl,
    htwin.expectInteger (by decide) hversion (by decide) (by decide), ok_bind, show kSampleRate = 24000 from rfl,
    htwin.expectInteger (by decide) hrate (by decide) (by decide), ok_bind,
    htwin.expectInteger (by decide) hchannels (by decide) (by decide), ok_bind, hexpected,
    htwin.expectInteger (by decide) hsilence (by split <;> decide) (by split <;> decide), ok_bind,
    htwin.expectLit (by decide) hformat (by decide) (by decide)]

theorem checkIdentity_ok (hvalid : Valid sha binding row place audio manifest) (hsupported : Supported sha binding)
    (hsame : Same context sha binding row audio) (h : Twin fields manifest) :
    checkIdentity context (.object fields) = .ok () := by
  unfold checkIdentity
  rw [checkFormat_ok hvalid h, ok_bind, checkSource_ok hvalid hsame h, ok_bind,
    checkEngine_ok hvalid hsupported hsame h, ok_bind, checkModels_ok hvalid hsupported hsame h, ok_bind,
    checkPreprocessing_same hvalid hsame h]

theorem validateContext_ok (hsupported : Supported sha binding) (hsame : Same context sha binding row audio)
    (hpos : 0 < context.numCodebooks) : validateContext context = .ok () := by
  obtain ⟨talker, htalker⟩ := hsupported.talker
  obtain ⟨codec, hcodec⟩ := hsupported.codec
  have hcommit : context.engineCommit ≠ [] := by
    intro hnil
    have hdecode := hsame.engineCommit
    rw [hnil] at hdecode
    exact hsupported.commit (Option.some.inj hdecode).symm
  have habi : context.abiVersion = 6 := hsame.abiVersion.trans hsupported.abi
  unfold validateContext
  refine refuseIf_false ?_ _
  rw [length_of_decode_hash hsame.talkerSha256 htalker, length_of_decode_hash hsame.codecSha256 hcodec,
    hsame.sourceAudioSha256, length_hex, habi]
  simpa [hcommit] using hpos

end Identity

/-! ## The manifest as a whole -/

/-- The manifest as Python reads it. -/
def manifestOf (py : Interpreter) (text : Bytes) : Dict :=
  match Utf8.decode text with
  | none => []
  | some s =>
    match loads py s with
    | .ok (.dict d) => d
    | _ => []

/-- The fields that the reader is strict about, spelled as it wants them. -/
structure Strict (manifest : Dict) (xVectorOnly : Bool) : Prop where
  speakerPath : ∀ speaker path, dict? manifest "speaker" = some speaker → str? speaker "path" = some path → Plain path
  rvqPath : xVectorOnly = false → ∀ rvq path, dict? manifest "rvq" = some rvq → str? rvq "path" = some path →
    Plain path
  bitsPerCode : xVectorOnly = false → ∀ rvq bits, dict? manifest "rvq" = some rvq →
    Dict.get? rvq (PyStr.lit "bits_per_code") = some bits → ∃ n, bits = .int n

theorem readJsonFileBounded_ok {py : Interpreter} {text : Bytes} {manifest : Dict}
    (h : readJsonFileBounded py (some text) maxManifestBytes = .ok (.dict manifest)) :
    text.length ≤ maxManifestBytes ∧ manifestOf py text = manifest ∧
      ∃ s, Utf8.decode text = some s ∧ loads py s = .ok (.dict manifest) := by
  unfold readJsonFileBounded at h
  dsimp only at h
  split at h
  · cases h
  · rename_i hlength
    split at h
    · cases h
    · rename_i s hs
      split at h
      · rename_i v hv
        cases h
        refine ⟨Nat.not_lt.mp hlength, ?_, s, hs, hv⟩
        unfold manifestOf
        rw [hs]
        dsimp only
        rw [hv]
      · cases h

theorem twin_of_agree {lib : JsonLibrary} {py : Interpreter} {text : Bytes} {s : PyStr} {manifest : Dict}
    (hagree : Agree lib py text) (hcanonical : ∀ v, lib.parse text = .ok v → v.Canonical)
    (hs : Utf8.decode text = some s) (hloads : loads py s = .ok (.dict manifest)) :
    ∃ fields, lib.parse text = .ok (.object fields) ∧ Twin fields manifest := by
  cases hagree with
  | refused hparse hnone =>
    obtain ⟨e, he⟩ := hnone s hs
    rw [hloads] at he
    cases he
  | value hparse hs' hloads' hdenotes =>
    rename_i v s' w
    rw [hs] at hs'
    cases hs'
    rw [hloads] at hloads'
    cases hloads'
    cases v with
    | object fields => exact ⟨fields, hparse, hdenotes, hcanonical _ hparse⟩
    | _ => exact hdenotes.elim

theorem verifySpeaker_path {sha : Sha256} {place : Place} {speaker : Dict} (h : verifySpeaker sha place speaker = .ok ()) :
    ∃ path, str? speaker "path" = some path := by
  unfold verifySpeaker at h
  split at h
  · obtain ⟨_, -, h⟩ := exists_of_bind h
    obtain ⟨_, -, h⟩ := exists_of_bind h
    split at h
    · cases h
    · split at h
      · cases h
      · rename_i path hpath
        exact ⟨path, hpath⟩
  · cases h

theorem verifyRvq_fields {sha : Sha256} {place : Place} {rvq : Dict} (h : verifyRvq sha place rvq = .ok ()) :
    (∃ path, str? rvq "path" = some path) ∧ ∃ bits, Dict.get? rvq (PyStr.lit "bits_per_code") = some bits := by
  unfold verifyRvq at h
  split at h
  · obtain ⟨_, -, h⟩ := exists_of_bind h
    split at h
    · rename_i path hash hpath hhash
      obtain ⟨_, hlayout, -⟩ := exists_of_bind h
      simp only [require_ok, Bool.and_eq_true] at hlayout
      refine ⟨⟨path, hpath⟩, ?_⟩
      cases hbits : Dict.get? rvq (PyStr.lit "bits_per_code") with
      | none =>
        rw [hbits] at hlayout
        exact absurd hlayout.1.1.1 (by decide)
      | some bits => exact ⟨bits, rfl⟩
    · cases h
  · cases h

section Rvq

variable {sha : Sha256} {place : Place} {context : PreparedContext} {manifest : Dict}
  {fields : List (CppString × Json)}

/-- The codes, of whichever mode, load exactly when they are spelled as the reader wants them. -/
theorem loadRvq_iff (h : Twin fields manifest) (hcodebooks : Codebooks context manifest)
    (hverified : verifyPreparedArtifacts sha place manifest context.xVectorOnly = .ok ()) :
    (∃ r, loadRvq sha place.tree context (.object fields) = .ok r) ↔
      (context.xVectorOnly = false → ∀ rvq path, dict? manifest "rvq" = some rvq → str? rvq "path" = some path →
        Plain path) ∧
      (context.xVectorOnly = false → ∀ rvq bits, dict? manifest "rvq" = some rvq →
        Dict.get? rvq (PyStr.lit "bits_per_code") = some bits → ∃ n, bits = .int n) := by
  unfold verifyPreparedArtifacts at hverified
  unfold loadRvq
  split at hverified
  · cases hverified
  · obtain ⟨_, -, hverified⟩ := exists_of_bind hverified
    cases hmode : context.xVectorOnly with
    | true =>
      rw [hmode] at hverified
      simp only [if_true] at hverified ⊢
      split at hverified
      · rename_i hnull
        obtain ⟨v, hv, hdenotes, -⟩ := h.field (by decide) hnull
        cases v with
        | null =>
          rw [hv]
          exact ⟨fun _ => ⟨nofun, nofun⟩, fun _ => ⟨_, rfl⟩⟩
        | _ => exact hdenotes.elim
      · cases hverified
    | false =>
      rw [hmode] at hverified
      simp only [Bool.false_eq_true, if_false] at hverified ⊢
      split at hverified
      · cases hverified
      · rename_i rvq hrvq
        obtain ⟨inner, hfield, htwin⟩ := h.object (by decide) hrvq
        obtain ⟨⟨path, hpath⟩, bits, hbits⟩ := verifyRvq_fields hverified
        rw [hfield]
        dsimp only
        rw [loadCodes_iff htwin hpath hbits (hcodebooks.declared hmode rvq hrvq) hverified]
        constructor
        · rintro ⟨hplain, hint⟩
          refine ⟨fun _ rvq' path' hrvq' hpath' => ?_, fun _ rvq' bits' hrvq' hbits' => ?_⟩
          · rw [hrvq] at hrvq'
            cases hrvq'
            rw [hpath] at hpath'
            cases hpath'
            exact hplain
          · rw [hrvq] at hrvq'
            cases hrvq'
            rw [hbits] at hbits'
            cases hbits'
            exact hint
        · rintro ⟨hplain, hint⟩
          exact ⟨hplain trivial rvq path hrvq hpath, hint trivial rvq bits hrvq hbits⟩

end Rvq

theorem readManifest_ok {lib : JsonLibrary} {text : Bytes} {root : Json} (hlength : text.length ≤ kMaxManifestBytes)
    (hparse : lib.parse text = .ok root) : readManifest lib (some text) = .ok root := by
  unfold readManifest
  dsimp only
  rw [if_neg (Nat.not_lt.mpr hlength), hparse]

section Main

variable {py : Interpreter} {sha : Sha256} {machine : Machine} {registry : Value} {voiceId nativeProfile key : PyStr}
  {lib : JsonLibrary} {context : PreparedContext} {audio : Bytes}

theorem verified_loads_iff (s : Subject py sha machine registry voiceId nativeProfile) (hagree : Agree lib py s.text)
    (hcanonical : ∀ v, lib.parse s.text = .ok v → v.Canonical)
    (haudio : machine.files.file s.audio = some audio) (hsame : Same context sha s.binding s.row audio)
    (hcodebooks : Codebooks context (manifestOf py s.text))
    (hvalid : verifyVoice py sha machine registry voiceId nativeProfile = .ok (.preparedValid key)) :
    (∃ data, loadPreparedVoiceReference lib sha context (some s.text) s.place.tree = .ok data) ↔
      Strict (manifestOf py s.text) context.xVectorOnly := by
  rw [s.verifyVoice_eq] at hvalid
  obtain ⟨manifest, hread, hverified, -⟩ | hstale | ⟨error, hcorrupt⟩ := manifestStatus_cases hvalid
  · obtain ⟨hlength, hmanifest, text, htext, hloads⟩ := readJsonFileBounded_ok hread
    rw [hmanifest] at hcodebooks ⊢
    obtain ⟨fields, hparse, htwin⟩ := twin_of_agree hagree hcanonical htext hloads
    rw [haudio] at hverified
    obtain ⟨bytes, hbytes, hfacts⟩ := valid_of_verifyManifest hverified
    cases hbytes
    have hsupported := supported_of_nativeBinding s.bind
    have hartifacts := hfacts.artifacts
    rw [← hsame.xVectorOnly] at hartifacts
    obtain ⟨speaker, hspeaker, hspeakerVerified⟩ : ∃ speaker, dict? manifest "speaker" = some speaker ∧
        verifySpeaker sha s.place speaker = .ok () := by
      unfold verifyPreparedArtifacts at hartifacts
      split at hartifacts
      · cases hartifacts
      · rename_i speaker hspeaker
        obtain ⟨_, hverify, -⟩ := exists_of_bind hartifacts
        exact ⟨speaker, hspeaker, hverify⟩
    obtain ⟨inner, hfield, hinner⟩ := htwin.object (by decide) hspeaker
    obtain ⟨path, hpath⟩ := verifySpeaker_path hspeakerVerified
    have hloadSpeaker := loadSpeaker_iff hinner hpath hspeakerVerified
    have hloadRvq := loadRvq_iff htwin hcodebooks hartifacts
    unfold loadPreparedVoiceReference
    rw [validateContext_ok hsupported hsame hcodebooks.pos, ok_bind, readManifest_ok hlength hparse, ok_bind,
      checkIdentity_ok hfacts hsupported hsame htwin, ok_bind, at_object hfield, ok_bind]
    constructor
    · rintro ⟨data, hdata⟩
      obtain ⟨r, hr, hdata⟩ := exists_of_bind hdata
      obtain ⟨q, hq, -⟩ := exists_of_bind hdata
      obtain ⟨hrvqPath, hbits⟩ := hloadRvq.mp ⟨q, hq⟩
      refine ⟨fun speaker' path' hspeaker' hpath' => ?_, hrvqPath, hbits⟩
      rw [hspeaker] at hspeaker'
      cases hspeaker'
      rw [hpath] at hpath'
      cases hpath'
      exact hloadSpeaker.mp ⟨r, hr⟩
    · intro hstrict
      obtain ⟨⟨embedding, speakerHash⟩, hr⟩ := hloadSpeaker.mpr (hstrict.speakerPath speaker path hspeaker hpath)
      obtain ⟨⟨codes, frames, rvqHash⟩, hq⟩ := hloadRvq.mpr ⟨hstrict.rvqPath, hstrict.bitsPerCode⟩
      rw [hr, ok_bind]
      dsimp only
      rw [hq, ok_bind]
      exact ⟨_, rfl⟩
  · cases hstale
  · cases hcorrupt

end Main

/-! ## A voice of one number -/

/-- The float 1. -/
def oneSpeaker : Bytes := [0, 0, 128, 63]

def speakerDigest : Bytes :=
  [224, 14, 94, 185, 68, 65, 130, 243, 82, 50, 51, 116, 239, 78, 8, 235,
    203, 120, 71, 37, 253, 212, 253, 97, 45, 119, 48, 84, 11, 62, 12, 140]

def wavDigest : Bytes :=
  [164, 15, 243, 213, 144, 15, 183, 105, 139, 140, 134, 80, 65, 52, 124, 180,
    158, 204, 237, 200, 249, 57, 69, 248, 150, 41, 173, 16, 74, 174, 204, 228]

def talkerDigest : Bytes :=
  [43, 251, 79, 234, 26, 38, 145, 62, 65, 141, 170, 51, 23, 93, 245, 27,
    57, 75, 66, 143, 17, 183, 209, 248, 132, 74, 248, 119, 183, 58, 197, 93]

def codecDigest : Bytes :=
  [164, 13, 61, 188, 254, 142, 185, 135, 191, 193, 180, 134, 236, 73, 78, 45,
    106, 26, 127, 3, 136, 254, 184, 137, 9, 1, 124, 42, 139, 148, 180, 244]

def dllDigest : Bytes :=
  [103, 242, 210, 37, 20, 98, 45, 27, 227, 12, 20, 238, 159, 60, 177, 4,
    80, 58, 21, 154, 51, 166, 86, 202, 145, 161, 149, 58, 169, 97, 100, 41]

def bindingDigest : Bytes :=
  [52, 116, 13, 191, 229, 93, 12, 236, 97, 107, 76, 106, 50, 227, 210, 163,
    252, 200, 124, 96, 68, 136, 116, 122, 183, 141, 126, 124, 132, 167, 255, 84]

/-- A digest as Python writes it. -/
def hexStr (digest : Bytes) : PyStr := (hexText digest).map UInt8.toNat

def oneBindingText : Bytes :=
  (Utf8.encode (bindingValue (PyStr.lit "p") (PyStr.lit "qwentts.cpp") (PyStr.lit "c0ffee") (hexStr talkerDigest)
    (hexStr codecDigest) 6).jsonText).getD []

/-- SHA-256 of these files. -/
def oneSha256 : Sha256 where
  digest bytes :=
    if bytes = oneSpeaker then speakerDigest
    else if bytes = CppString.lit "RIFF" then wavDigest
    else if bytes = CppString.lit "talker" then talkerDigest
    else if bytes = CppString.lit "codec" then codecDigest
    else if bytes = CppString.lit "qwen" then dllDigest
    else if bytes = oneBindingText then bindingDigest
    else List.replicate 32 0
  length_digest bytes := by split_ifs <;> decide

/-- A manifest without codes, whose speaker embedding has this path. -/
def oneManifest (path : String) : JsonObject := JsonObject.fields [
  ("schema_version", .numberUnsigned 1), ("format", .lit "qwen3-tts-native-voice-reference"),
  ("source_wav_sha256", .string (hexText wavDigest)), ("reference_text", .lit ""), ("x_vector_only", .boolean true),
  ("engine", .object (JsonObject.fields [
    ("name", .lit "qwentts.cpp"), ("commit", .lit "c0ffee"), ("abi_version", .numberUnsigned 6)])),
  ("models", .object (JsonObject.fields [("talker_sha256", .string (hexText talkerDigest)), ("codec_sha256", .string (hexText codecDigest))])),
  ("preprocessing", .object (JsonObject.fields [
    ("version", .numberUnsigned 1), ("sample_rate", .numberUnsigned 24000), ("channels", .numberUnsigned 1),
    ("sample_format", .lit "float32"), ("icl_trailing_silence_samples", .numberUnsigned 0)])),
  ("speaker", .object (JsonObject.fields [
    ("path", .lit path), ("dimension", .numberUnsigned 1), ("size_bytes", .numberUnsigned 4),
    ("sha256", .string (hexText speakerDigest)), ("scalar", .lit "float32-le")])),
  ("rvq", .null)]

/-- Its text. -/
def oneManifestText (path : String) : Bytes :=
  CppString.lit "\x7b\"engine\":\x7b\"abi_version\":6,\"commit\":\"c0ffee\",\"name\":\"qwentts.cpp\"\x7d," ++
    CppString.lit "\"format\":\"qwen3-tts-native-voice-reference\",\"models\":\x7b\"codec_sha256\":\"" ++
    hexText codecDigest ++
    CppString.lit "\",\"talker_sha256\":\"" ++
    hexText talkerDigest ++
    CppString.lit "\"\x7d,\"preprocessing\":\x7b\"channels\":1,\"icl_trailing_silence_samples\":0,\"sample_format\":\"float32\"," ++
    CppString.lit "\"sample_rate\":24000,\"version\":1\x7d,\"reference_text\":\"\",\"rvq\":null,\"schema_version\":1," ++
    CppString.lit "\"source_wav_sha256\":\"" ++
    hexText wavDigest ++
    CppString.lit "\",\"speaker\":\x7b\"dimension\":1,\"path\":\"" ++
    CppString.lit path ++
    CppString.lit "\",\"scalar\":\"float32-le\",\"sha256\":\"" ++
    hexText speakerDigest ++
    CppString.lit "\",\"size_bytes\":4\x7d,\"x_vector_only\":true\x7d"

/-- A library that reads this text. -/
def oneLibrary (path : String) : JsonLibrary :=
  { JsonLibrary.reading [] with
    parse := fun text =>
      if text = oneManifestText path then .ok (.object (oneManifest path))
      else .error (.parseError (CppString.lit "syntax error")) }

def oneRuntime : Place where
  drive := PyStr.lit "C:"
  rooted := by decide
  names := [PyStr.lit "runtime"]
  fold := lower
  tree names :=
    if names = [PyStr.lit "qwen.dll"] then some (CppString.lit "qwen")
    else if names = [PyStr.lit "manifest.json"] then
      some (CppString.lit "\x7b\"schema_version\":1,\"engine\":\"qwentts.cpp\",\"engine_commit\":\"c0ffee\",\"qt_abi_version\":6," ++
        CppString.lit "\"architecture\":\"x64\",\"backend\":\"cpu\",\"files\":[\x7b\"path\":\"qwen.dll\",\"sha256\":\"" ++
        hexText dllDigest ++
        CppString.lit "\"\x7d]\x7d")
    else none

def oneFiles : Files Bytes where
  isAbsolute path := WindowsPath.isAbsolute path
  inRegistry path := PyStr.lit "C:/voices/" ++ path
  expandUser path := if path.head? == some 126 then none else some path
  file path := if path = PyStr.lit "C:/voices/a.wav" then some (CppString.lit "RIFF") else none
  unfit _ := none
  unsound _ := none
  canonical _ := CppString.lit "C:/voices/a.wav"
  resolveManifest _ := .error (CppString.lit "native_reference.manifest_path must be relative without traversal")

/-- The voice `a`, in the directory `a` of the registry. -/
def oneMachine (path : String) : Machine where
  registry := {
    drive := PyStr.lit "C:"
    rooted := by decide
    names := [PyStr.lit "voices"]
    fold := lower
    tree := fun names =>
      if names = [PyStr.lit "a", PyStr.lit "spk.bin"] then some oneSpeaker
      else if names = [PyStr.lit "a", PyStr.lit "manifest.json"] then some (oneManifestText path)
      else none }
  files := oneFiles
  resolveNativeProfile _ := .ok ⟨oneRuntime, some (CppString.lit "talker"), some (CppString.lit "codec")⟩

def oneReference : Dict := [(PyStr.lit "manifest_path", .str (PyStr.lit "a/manifest.json"))]

def oneRow : Dict := [
  (PyStr.lit "voice_id", .str (PyStr.lit "a")), (PyStr.lit "reference_audio_path", .str (PyStr.lit "a.wav")),
  (PyStr.lit "x_vector_only", .bool true), (PyStr.lit "native_reference", .dict oneReference)]

def oneRegistry : Value :=
  .dict [(PyStr.lit "schema_version", .int 1), (PyStr.lit "voices", .list [.dict oneRow])]

def oneBinding : Binding where
  nativeProfile := PyStr.lit "p"
  engine := PyStr.lit "qwentts.cpp"
  engineCommit := PyStr.lit "c0ffee"
  qtAbiVersion := 6
  talkerSha256 := hexStr talkerDigest
  codecSha256 := hexStr codecDigest
  bindingKey := (hexStr bindingDigest).take 32

theorem nativeBinding_one : nativeBinding sampleInterpreter oneSha256
    ⟨oneRuntime, some (CppString.lit "talker"), some (CppString.lit "codec")⟩ (PyStr.lit "p") = .ok oneBinding := by
  decide +kernel

def oneSubject (path : String) :
    Subject sampleInterpreter oneSha256 (oneMachine path) oneRegistry (PyStr.lit "a") (PyStr.lit "p") where
  rows := [oneRow]
  row := oneRow
  audio := PyStr.lit "C:/voices/a.wav"
  profile := ⟨oneRuntime, some (CppString.lit "talker"), some (CppString.lit "codec")⟩
  binding := oneBinding
  reference := oneReference
  value := PyStr.lit "a/manifest.json"
  path := [PyStr.lit "a", PyStr.lit "manifest.json"]
  text := oneManifestText path
  loadRows := rfl
  findRow := rfl
  audioPath := rfl
  named := by decide
  paths := rfl
  resolveProfile := rfl
  bind := nativeBinding_one
  select := rfl
  manifestPath := rfl
  resolve := rfl
  file := rfl

def oneContext : PreparedContext where
  referenceText := []
  xVectorOnly := true
  sourceAudioSha256 := hexText wavDigest
  talkerSha256 := hexText talkerDigest
  codecSha256 := hexText codecDigest
  engineCommit := CppString.lit "c0ffee"
  abiVersion := 6
  numCodebooks := 16

theorem same_one (path : String) :
    Same oneContext oneSha256 (oneSubject path).binding (oneSubject path).row (CppString.lit "RIFF") where
  engineCommit := decode_lit (by decide)
  abiVersion := rfl
  talkerSha256 := Utf8.decode_ascii (by decide +kernel)
  codecSha256 := Utf8.decode_ascii (by decide +kernel)
  sourceAudioSha256 := by decide +kernel
  referenceText := ⟨[], rfl, rfl⟩
  xVectorOnly := rfl

theorem canonical_one (path : String) : Json.Canonical (.object (oneManifest path)) := by
  have hstring (s : CppString) : Json.Canonical (.string s) := .string s
  refine canonical_fields fun p hp => ?_
  simp only [List.mem_cons, List.not_mem_nil, or_false] at hp
  rcases hp with rfl | rfl | rfl | rfl | rfl | rfl | rfl | rfl | rfl | rfl
  · exact .numberUnsigned 1
  · exact hstring _
  · exact hstring _
  · exact hstring _
  · exact .boolean true
  · refine canonical_fields fun q hq => ?_
    simp only [List.mem_cons, List.not_mem_nil, or_false] at hq
    rcases hq with rfl | rfl | rfl
    · exact hstring _
    · exact hstring _
    · exact .numberUnsigned 6
  · refine canonical_fields fun q hq => ?_
    simp only [List.mem_cons, List.not_mem_nil, or_false] at hq
    rcases hq with rfl | rfl
    · exact hstring _
    · exact hstring _
  · refine canonical_fields fun q hq => ?_
    simp only [List.mem_cons, List.not_mem_nil, or_false] at hq
    rcases hq with rfl | rfl | rfl | rfl | rfl
    · exact .numberUnsigned 1
    · exact .numberUnsigned 24000
    · exact .numberUnsigned 1
    · exact hstring _
    · exact .numberUnsigned 0
  · refine canonical_fields fun q hq => ?_
    simp only [List.mem_cons, List.not_mem_nil, or_false] at hq
    rcases hq with rfl | rfl | rfl | rfl | rfl
    · exact hstring _
    · exact .numberUnsigned 1
    · exact .numberUnsigned 4
    · exact hstring _
    · exact hstring _
  · exact .null

theorem parse_one (path : String) : (oneLibrary path).parse (oneManifestText path) = .ok (.object (oneManifest path)) := by
  unfold oneLibrary
  generalize oneManifestText path = text
  exact if_pos rfl

theorem parse_one_canonical (path : String) (v : Json) (h : (oneLibrary path).parse (oneSubject path).text = .ok v) :
    v.Canonical := by
  have hv : (oneLibrary path).parse (oneManifestText path) = .ok v := h
  rw [parse_one] at hv
  cases hv
  exact canonical_one path

/-- The manifest in Python. -/
def onePayload (path : String) : Dict := [
  (PyStr.lit "engine", .dict [(PyStr.lit "abi_version", .int 6), (PyStr.lit "commit", .str (PyStr.lit "c0ffee")),
    (PyStr.lit "name", .str (PyStr.lit "qwentts.cpp"))]),
  (PyStr.lit "format", .str (PyStr.lit "qwen3-tts-native-voice-reference")),
  (PyStr.lit "models", .dict [(PyStr.lit "codec_sha256", .str (hexStr codecDigest)),
    (PyStr.lit "talker_sha256", .str (hexStr talkerDigest))]),
  (PyStr.lit "preprocessing", .dict [(PyStr.lit "channels", .int 1),
    (PyStr.lit "icl_trailing_silence_samples", .int 0), (PyStr.lit "sample_format", .str (PyStr.lit "float32")),
    (PyStr.lit "sample_rate", .int 24000), (PyStr.lit "version", .int 1)]),
  (PyStr.lit "reference_text", .str []),
  (PyStr.lit "rvq", .none),
  (PyStr.lit "schema_version", .int 1),
  (PyStr.lit "source_wav_sha256", .str (hexStr wavDigest)),
  (PyStr.lit "speaker", .dict [(PyStr.lit "dimension", .int 1), (PyStr.lit "path", .str (PyStr.lit path)),
    (PyStr.lit "scalar", .str (PyStr.lit "float32-le")), (PyStr.lit "sha256", .str (hexStr speakerDigest)),
    (PyStr.lit "size_bytes", .int 4)]),
  (PyStr.lit "x_vector_only", .bool true)]

theorem codebooks_one (manifest : Dict) : Codebooks oneContext manifest := ⟨by decide, nofun⟩

/-- Both readers take the manifest for the same value, and the static check is content with it. -/
structure Checked (path : String) : Prop where
  decode : Utf8.decode (oneManifestText path) = some ((oneManifestText path).map UInt8.toNat)
  loads : loads sampleInterpreter ((oneManifestText path).map UInt8.toNat) = .ok (.dict (onePayload path))
  denotes : denotes? (.object (oneManifest path)) (.dict (onePayload path)) = true
  length : (oneManifestText path).length ≤ maxManifestBytes
  verified : verifyManifest oneSha256 oneBinding oneRow (oneSubject path).place (some (CppString.lit "RIFF"))
    (onePayload path) = .ok true

section Checked

variable {path : String} (h : Checked path)

include h

theorem Checked.manifestOf : manifestOf sampleInterpreter (oneSubject path).text = onePayload path := by
  show Loadable.manifestOf sampleInterpreter (oneManifestText path) = onePayload path
  unfold Loadable.manifestOf
  rw [h.decode]
  dsimp only
  rw [h.loads]

/-- The check of the voice comes down to its manifest. -/
theorem Checked.verifyVoice :
    verifyVoice sampleInterpreter oneSha256 (oneMachine path) oneRegistry (PyStr.lit "a") (PyStr.lit "p") =
      .ok (.preparedValid oneBinding.bindingKey) := by
  have hread : readJsonFileBounded sampleInterpreter (some (oneManifestText path)) maxManifestBytes =
      .ok (.dict (onePayload path)) := by
    unfold readJsonFileBounded
    dsimp only
    rw [if_neg (Nat.not_lt.mpr h.length), h.decode]
    dsimp only
    rw [h.loads]
  rw [(oneSubject path).verifyVoice_eq]
  show manifestStatus oneSha256 oneBinding oneRow sampleInterpreter (oneSubject path).place
    (some (CppString.lit "RIFF")) (some (oneManifestText path)) = _
  unfold manifestStatus
  rw [hread, ok_bind]
  dsimp only
  rw [h.verified]

theorem Checked.agree : Agree (oneLibrary path) sampleInterpreter (oneSubject path).text :=
  .value (parse_one path) h.decode h.loads (denotes_of_eval h.denotes)

end Checked

instance (path : String) : Decidable (Checked path) :=
  decidable_of_iff
    ((Utf8.decode (oneManifestText path) = some ((oneManifestText path).map UInt8.toNat) ∧
      Python.loads sampleInterpreter ((oneManifestText path).map UInt8.toNat) = .ok (.dict (onePayload path))) ∧
      denotes? (.object (oneManifest path)) (.dict (onePayload path)) = true ∧
      (oneManifestText path).length ≤ maxManifestBytes ∧
      verifyManifest oneSha256 oneBinding oneRow (oneSubject path).place (some (CppString.lit "RIFF"))
        (onePayload path) = .ok true)
    ⟨fun h => ⟨h.1.1, h.1.2, h.2.1, h.2.2.1, h.2.2.2⟩, fun h => ⟨⟨h.decode, h.loads⟩, h.denotes, h.length, h.verified⟩⟩

theorem checked_dotted : Checked "./spk.bin" := by decide +kernel

theorem checked_plain : Checked "spk.bin" := by decide +kernel

theorem strict_plain : Strict (onePayload "spk.bin") true where
  speakerPath := by
    intro speaker path hspeaker hpath
    cases hspeaker
    cases hpath
    decide
  rvqPath hicl := by cases hicl
  bitsPerCode hicl := by cases hicl

theorem load_dotted : loadPreparedVoiceReference (oneLibrary "./spk.bin") oneSha256 oneContext
    (some (oneManifestText "./spk.bin")) (oneSubject "./spk.bin").place.tree =
      Prepared.refuse "prepared voice artifact path must be relative without traversal" := by
  unfold loadPreparedVoiceReference
  rw [readManifest_ok checked_dotted.length (parse_one "./spk.bin")]
  decide +kernel

/-- Of two voices that are reported valid, the one whose path is spelled plainly loads. -/
theorem a_plain_path_loads_and_a_dotted_does_not :
    (verifyVoice sampleInterpreter oneSha256 (oneMachine "spk.bin") oneRegistry (PyStr.lit "a") (PyStr.lit "p") =
        .ok (.preparedValid oneBinding.bindingKey) ∧
      ∃ data, loadPreparedVoiceReference (oneLibrary "spk.bin") oneSha256 oneContext
        (some (oneSubject "spk.bin").text) (oneSubject "spk.bin").place.tree = .ok data) ∧
    verifyVoice sampleInterpreter oneSha256 (oneMachine "./spk.bin") oneRegistry (PyStr.lit "a") (PyStr.lit "p") =
        .ok (.preparedValid oneBinding.bindingKey) ∧
      ¬ ∃ data, loadPreparedVoiceReference (oneLibrary "./spk.bin") oneSha256 oneContext
        (some (oneSubject "./spk.bin").text) (oneSubject "./spk.bin").place.tree = .ok data := by
  have haudio (path : String) : (oneMachine path).files.file (oneSubject path).audio = some (CppString.lit "RIFF") := rfl
  have hiff (path : String) (h : Checked path) := verified_loads_iff (oneSubject path) h.agree (parse_one_canonical path)
    (haudio path) (same_one path) (codebooks_one _) h.verifyVoice
  refine ⟨⟨checked_plain.verifyVoice, (hiff "spk.bin" checked_plain).mpr ?_⟩, checked_dotted.verifyVoice, fun hloads => ?_⟩
  · rw [checked_plain.manifestOf]
    exact strict_plain
  · have hstrict := (hiff "./spk.bin" checked_dotted).mp hloads
    rw [checked_dotted.manifestOf] at hstrict
    exact absurd (hstrict.speakerPath _ (PyStr.lit "./spk.bin") rfl rfl) (by decide)

/-- `pathlib` drops the `.` that the reader refuses. -/
theorem a_dotted_path_is_refused_by_the_reader_only :
    verifyVoice sampleInterpreter oneSha256 (oneMachine "./spk.bin") oneRegistry (PyStr.lit "a") (PyStr.lit "p") =
        .ok (.preparedValid oneBinding.bindingKey) ∧
      Agree (oneLibrary "./spk.bin") sampleInterpreter (oneSubject "./spk.bin").text ∧
      Same oneContext oneSha256 (oneSubject "./spk.bin").binding (oneSubject "./spk.bin").row (CppString.lit "RIFF") ∧
      Codebooks oneContext (manifestOf sampleInterpreter (oneSubject "./spk.bin").text) ∧
      loadPreparedVoiceReference (oneLibrary "./spk.bin") oneSha256 oneContext (some (oneSubject "./spk.bin").text)
        (oneSubject "./spk.bin").place.tree =
          Prepared.refuse "prepared voice artifact path must be relative without traversal" :=
  ⟨checked_dotted.verifyVoice, checked_dotted.agree, same_one _, codebooks_one _, load_dotted⟩

end QwenTtsBridge.Voice.Loadable
