/-
  QwenTtsBridge.Voice.Published — what a publication that returns leaves behind.

  The manifest is written under a temporary name, and nothing but the rename that commits it
  touches that name. A publication that returns has loaded what it published. So the directory
  holds the manifest of its context, and the artifacts are as the manifest declares them
  (`Committed`).

  - `persist_committed`: of every publication that returns, whatever became of the steps whose
    failure it does not report.
-/

import QwenTtsBridge.Voice.Publication
import QwenTtsBridge.Protocol.PayloadSize

namespace QwenTtsBridge.Voice.Prepared

open QwenTtsBridge.Lib QwenTtsBridge.Lib.Interrupt QwenTtsBridge.Python QwenTtsBridge.Protocol.Control
open FileNames (key)

/-! ## Steps, whatever becomes of them -/

section Safe

variable {α : Type} {d : Dir} {C : Dir → Prop} {E : PreparedError → Dir → Prop}

theorem safe_look {Q : α → Dir → Prop} {f : Dir → Outcome α} (hkilled : C d) (herror : ∀ e, E e d)
    (hdone : ∀ a, f d = .ok a → Q a d) : Safe C Q E (look f) d := by
  refine safe_act hkilled herror fun a d' heq => ?_
  cases hf : f d with
  | error e =>
    rw [hf] at heq
    cases heq
  | ok b =>
    rw [hf] at heq
    cases heq
    exact hdone a hf

theorem safe_change {Q : Unit → Dir → Prop} {f : Dir → Outcome Dir} (hkilled : C d) (herror : ∀ e, E e d)
    (hdone : ∀ d', f d = .ok d' → Q () d') : Safe C Q E (change f) d := by
  refine safe_act hkilled herror fun a d' heq => ?_
  cases hf : f d with
  | error e =>
    rw [hf] at heq
    cases heq
  | ok d'' =>
    rw [hf] at heq
    cases heq
    exact hdone d' hf

end Safe

/-! ## Tasks that return -/

section Gives

variable {α β : Type} {d : Dir}

/-- If the task returns, then so. -/
def Gives (Q : α → Dir → Prop) (task : Task α) (d : Dir) : Prop :=
  Safe (fun _ => True) Q (fun _ _ => True) task d

theorem gives_any (task : Task α) (d : Dir) : Gives (fun _ _ => True) task d := by
  intro fates
  rcases task fates d with ⟨x, d', fates'⟩
  cases x <;> trivial

variable {Q : α → Dir → Prop} {R : β → Dir → Prop}

theorem gives_pure {a : α} (h : Q a d) : Gives Q (pure a) d := safe_pure h

theorem gives_throw (e : PreparedError) : Gives Q (.throw e) d := safe_throw trivial

theorem gives_ofExcept {r : Outcome α} (h : ∀ a, r = .ok a → Q a d) : Gives Q (.ofExcept r) d :=
  safe_ofExcept h fun _ _ => trivial

theorem Gives.bind {task : Task α} {k : α → Task β} (h : Gives Q task d) (hk : ∀ a d', Q a d' → Gives R (k a) d') :
    Gives R (task >>= k) d :=
  Safe.bind h hk

theorem Gives.mono {Q' : α → Dir → Prop} {task : Task α} (h : Gives Q task d) (hQ : ∀ a d', Q a d' → Q' a d') :
    Gives Q' task d :=
  Safe.post h hQ

theorem gives_look {f : Dir → Outcome α} (h : ∀ a, f d = .ok a → Q a d) : Gives Q (look f) d :=
  safe_look trivial (fun _ => trivial) h

theorem gives_change {Q : Unit → Dir → Prop} {f : Dir → Outcome Dir} (h : ∀ d', f d = .ok d' → Q () d') :
    Gives Q (change f) d :=
  safe_change trivial (fun _ => trivial) h

theorem gives_hook {P : Dir → Prop} (h : P d) : Gives (fun _ => P) hook d := gives_look fun _ _ => h

variable [FileNames]

/-- What a failed part leaves does not matter: the publication does not return then. -/
theorem Gives.guarded {manifest generation : CppString} {progress : Progress} {task : Task α} (h : Gives Q task d) :
    Gives Q (guarded manifest generation progress task) d :=
  Safe.attempt h fun e d' _ => (gives_any (cleanUp manifest generation progress) d').bind fun _ _ _ => gives_throw e

theorem Gives.withLock {task : Task α} {R : α → Dir → Prop} (h : ∀ d, Gives Q task d)
    (hlock : ∀ a d, Q a d → Gives (fun _ => R a) (removeIfExists lockName) d) : Gives R (withLock task) d :=
  (gives_any (acquireLock 3) d).bind fun _ d' _ =>
    Safe.ensure (h d') hlock fun _ d'' _ => gives_any (removeIfExists lockName) d''

end Gives

/-! ## Steps -/

section Steps

variable [FileNames] {d : Dir}

/-- Everything under another name is as it was. -/
def Untouched (name : CppString) (d d' : Dir) : Prop := ∀ other, key other ≠ key name → d'.entry other = d.entry other

theorem gives_removeIfExists (name : CppString) :
    Gives (fun _ d' => Untouched name d d') (removeIfExists name) d := by
  refine Safe.attempt (E := fun _ d' => d' = d) ?_ fun e d' hd' => ?_
  · refine safe_change trivial (fun _ => rfl) fun d' heq other hother => ?_
    split at heq
    · cases heq
    · cases heq
      exact d.entry_set_ne hother _
  · subst hd'
    exact safe_pure fun _ _ => rfl

theorem gives_writeBytes (name : CppString) (bytes : Bytes) :
    Gives (fun _ d' => d'.file name = some bytes) (writeBytes name bytes) d := by
  refine (gives_any _ d).bind fun _ d' _ => gives_change fun d'' heq => ?_
  cases heq
  unfold Dir.file
  rw [Dir.entry_set_self]

theorem gives_rename (source target : CppString) :
    Gives (fun _ d' => (∀ other, key other ≠ key source → key other ≠ key target → d'.entry other = d.entry other) ∧
      ∀ bytes, d.file source = some bytes → d'.file target = some bytes) (rename source target) d := by
  refine gives_change fun d' heq => ?_
  split at heq
  · rename_i bytes hsource
    split at heq
    · cases heq
    · cases heq
      refine ⟨fun other hs ht => ?_, fun bytes' hbytes => ?_⟩
      · rw [Dir.entry_set_ne _ ht, Dir.entry_set_ne _ hs]
      · unfold Dir.file at *
        rw [hsource] at hbytes
        cases hbytes
        rw [Dir.entry_set_self]
  · cases heq

end Steps

/-! ## Names -/

section Names

variable (generation : Generation)

theorem Generation.ne_nil : generation.text ≠ [] := by
  intro h
  have := generation.dashes
  rw [h] at this
  cases this

theorem Generation.folded : Folded generation.text := by
  refine ⟨List.all_eq_true.mpr fun b hb => ?_, fun h => ?_⟩
  · have hhex := generation.hex b hb
    simp only [isHexOrDash, isFolded, Bool.or_eq_true, Bool.and_eq_true, decide_eq_true_eq] at hhex ⊢
    rcases hhex with (hdigit | hletter) | hdash
    · exact .inl (.inl (.inr hdigit))
    · exact .inl (.inl (.inl ⟨hletter.1, UInt8.le_trans hletter.2 (by decide)⟩))
    · exact .inl (.inr hdash)
  · have hdot := generation.hex 46 (List.mem_of_getLast? h)
    cases hdot

variable [FileNames]

/-- The key of a name that ends in lower case ends in the same character. -/
theorem last_key {tail : CppString} {c : UInt8} (hfolded : Folded tail) (hc : tail.getLast? = some c) (front : CppString) :
    (key (front ++ tail)).getLast? = some c := by
  have hne : tail ≠ [] := by
    rintro rfl
    cases hc
  obtain ⟨front', hkey⟩ := FileNames.key_append front tail hfolded hne
  rw [hkey, List.getLast?_append, hc, Option.some_or]

/-- A name that ends in the generation ends in a digit or a dash; no artifact ends so. -/
theorem last_artifact {name : CppString} {c : UInt8} (front tail : CppString) (h : name = front ++ tail)
    (hfolded : Folded tail) (hc : tail.getLast? = some c) (hother : isHexOrDash c = false) (before : CppString) :
    key (before ++ generation.text) ≠ key name := by
  have hlast := List.getLast?_eq_some_getLast generation.ne_nil
  have hhex := generation.hex _ (List.getLast_mem generation.ne_nil)
  intro heq
  have hsame : some (generation.text.getLast generation.ne_nil) = some c :=
    calc some (generation.text.getLast generation.ne_nil)
        = (key (before ++ generation.text)).getLast? := (last_key generation.folded hlast before).symm
      _ = (key (front ++ tail)).getLast? := by rw [heq, h]
      _ = some c := last_key hfolded hc front
  cases hsame
  rw [hother] at hhex
  cases hhex

theorem manifestTemp_ne (manifest : CppString) :
    key (manifestTemp manifest generation.text) ≠ key (speakerName generation.text) ∧
      key (manifestTemp manifest generation.text) ≠ key (rvqName generation.text) ∧
      key (manifestTemp manifest generation.text) ≠ key (speakerTemp generation.text) ∧
      key (manifestTemp manifest generation.text) ≠ key (rvqTemp generation.text) :=
  ⟨last_artifact generation _ (CppString.lit ".spk") rfl (by decide) rfl rfl _,
    last_artifact generation _ (CppString.lit ".rvq") rfl (by decide) rfl rfl _,
    last_artifact generation _ (CppString.lit ".qtb-tmp") rfl (by decide) rfl rfl _,
    last_artifact generation _ (CppString.lit ".qtb-tmp") rfl (by decide) rfl rfl _⟩

end Names

/-! ## The publication -/

section Persist

variable [FileNames] {platform : Platform} {manifest : CppString} {context : PreparedContext} {extracted : Extracted}
  {generation : Generation} {d : Dir}

/-- The manifest of a publication is under this name. -/
def Written (platform : Platform) (context : PreparedContext) (extracted : Extracted) (generation : CppString)
    (name : CppString) (d : Dir) : Prop :=
  ∃ speaker packed text,
    platform.dumpIndented (manifestJson platform.sha context generation extracted speaker packed) = .ok text ∧
      d.file name = some (text ++ [10])

theorem file_of_eq {d d' : Dir} {name : CppString} (h : d'.entry name = d.entry name) : d'.file name = d.file name := by
  unfold Dir.file
  rw [h]

theorem Written.of_eq {name : CppString} {d' : Dir} (h : Written platform context extracted generation.text name d)
    (heq : d'.entry name = d.entry name) : Written platform context extracted generation.text name d' := by
  obtain ⟨speaker, packed, text, hdump, hfile⟩ := h
  exact ⟨speaker, packed, text, hdump, (file_of_eq heq).trans hfile⟩

theorem gives_writeManifest (speaker packed : Bytes) :
    Gives (fun _ => Written platform context extracted generation.text (manifestTemp manifest generation.text))
      (writeManifest platform manifest context extracted generation.text speaker packed) d := by
  unfold writeManifest
  refine (gives_ofExcept (Q := fun text d' => dumped (platform.dumpIndented
    (manifestJson platform.sha context generation.text extracted speaker packed)) = .ok text) fun text h => h).bind
    fun text d' htext => ?_
  refine (gives_writeBytes _ text).bind fun _ d'' hfile => gives_pure ?_
  unfold dumped at htext
  split at htext
  · rename_i text' hdump
    cases htext
    exact ⟨speaker, packed, text', hdump, hfile⟩
  · cases htext

theorem gives_stage (values : List UInt32) (codes : List Int) :
    Gives (fun _ => Written platform context extracted generation.text (manifestTemp manifest generation.text))
      (stage platform manifest context extracted generation.text values codes) d := by
  unfold stage
  refine (gives_any _ d).bind fun _ d _ => (gives_any _ d).bind fun _ d _ => (gives_any _ d).bind fun _ d _ =>
    (gives_any _ d).bind fun packed d _ => (gives_any _ d).bind fun r d _ => ?_
  obtain ⟨speaker, rvq⟩ := r
  refine (gives_writeManifest speaker rvq).bind fun root d hwritten => ?_
  -- the checks only look
  have hcheck : Gives (fun _ d' => d' = d)
      (checkTemps platform manifest context generation.text codes (extracted.refSpkDim.toNat * 4) packed root) d := by
    unfold checkTemps
    refine (gives_look (Q := fun _ d' => d' = d) fun _ _ => rfl).bind fun _ d' hd' => ?_
    subst hd'
    have hpacked : Gives (fun _ d'' => d'' = d') (checkPacked context generation.text codes packed) d' := by
      unfold checkPacked
      split
      · exact gives_pure rfl
      · exact gives_look fun _ _ => rfl
    refine hpacked.bind fun _ d'' hd'' => ?_
    subst hd''
    exact gives_look fun _ _ => rfl
  refine hcheck.bind fun _ d' hd' => ?_
  subst hd'
  obtain ⟨hspeaker, -, hspeakerTemp, -⟩ := manifestTemp_ne generation manifest
  exact (gives_rename _ _).mono fun _ d'' h => hwritten.of_eq (h.1 _ hspeakerTemp hspeaker)

theorem gives_publishCodes
    (h : Written platform context extracted generation.text (manifestTemp manifest generation.text) d) :
    Gives (fun _ => Written platform context extracted generation.text (manifestTemp manifest generation.text))
      (publishCodes context generation.text) d := by
  obtain ⟨-, hrvq, -, hrvqTemp⟩ := manifestTemp_ne generation manifest
  unfold publishCodes
  split
  · exact gives_pure h
  · exact (gives_rename _ _).mono fun _ d' hd' => h.of_eq (hd'.1 _ hrvqTemp hrvq)

theorem gives_publish (hmarker : key manifest ≠ key markerName) (values : List UInt32) (codes : List Int) :
    Gives (fun _ => Written platform context extracted generation.text manifest)
      (publish platform manifest context extracted generation.text values codes) d := by
  unfold publish
  refine (gives_stage values codes).guarded.bind fun _ d hstage => ?_
  refine Gives.bind (Gives.guarded ((gives_hook hstage).bind fun _ d h => (gives_hook h).bind fun _ d h =>
    gives_publishCodes h)) fun _ d hcodes => ?_
  refine Gives.bind (Q := fun _ => Written platform context extracted generation.text manifest) (Gives.guarded
    ((gives_hook hcodes).bind fun _ d h => (gives_hook h).bind fun _ d h => ?_)) fun _ d hmanifest => ?_
  · obtain ⟨speaker, packed, text, hdump, hfile⟩ := h
    exact (gives_rename _ _).mono fun _ d' hd' => ⟨speaker, packed, text, hdump, hd'.2 _ hfile⟩
  · refine Gives.guarded ((gives_hook hmanifest).bind fun _ d h => (gives_hook h).bind fun _ d h => ?_)
    exact (gives_removeIfExists markerName).mono fun _ d' hd' => h.of_eq (hd' manifest hmarker)

/-- A publication that returned with this data, and its directory. -/
structure Committed (platform : Platform) (manifest : CppString) (context : PreparedContext) (extracted : Extracted)
    (generation : CppString) (data : PreparedData) (d : Dir) : Prop where
  checked : ∃ values codes, checkExtracted context extracted = .ok (values, codes)
  written : Written platform context extracted generation manifest d
  /-- It loaded, before the lock was removed. -/
  loads : ∃ before, Untouched lockName before d ∧ before.file manifest = d.file manifest ∧
    loadPreparedVoiceReference platform.lib platform.sha context (before.file manifest) before.tree = .ok data

theorem persist_committed (hmarker : key manifest ≠ key markerName) (hlock : key manifest ≠ key lockName) :
    Gives (Committed platform manifest context extracted generation.text)
      (persistPreparedVoiceReference platform manifest context extracted generation.text) d := by
  unfold persistPreparedVoiceReference
  refine (gives_any _ d).bind fun _ d _ => (gives_any _ d).bind fun _ d _ => ?_
  refine (gives_ofExcept (Q := fun r _ => checkExtracted context extracted = .ok r) fun r h => h).bind
    fun r d hchecked => ?_
  obtain ⟨values, codes⟩ := r
  refine (gives_any _ d).bind fun _ d _ => ?_
  have htask (d : Dir) : Gives (fun data d' => Written platform context extracted generation.text manifest d' ∧
      loadPreparedVoiceReference platform.lib platform.sha context (d'.file manifest) d'.tree = .ok data)
      (do
        admitPublication platform manifest
        publish platform manifest context extracted generation.text values codes
        loadHere platform manifest context) d := by
    refine (gives_any _ d).bind fun _ d _ => (gives_publish hmarker values codes).bind fun _ d hwritten => ?_
    exact gives_look fun data hdata => ⟨hwritten, hdata⟩
  refine Gives.withLock htask fun data d hd => (gives_removeIfExists lockName).mono fun _ d' hd' => ?_
  have hsame : d'.entry manifest = d.entry manifest := hd' manifest hlock
  exact ⟨⟨values, codes, hchecked⟩, hd.1.of_eq hsame, d, hd', (file_of_eq hsame).symm, hd.2⟩

end Persist

/-! ## What it declares -/

section Fields

variable (sha : Sha256) (context : PreparedContext) (generation : CppString) (extracted : Extracted)
  (speaker packed : Bytes)

structure ManifestFields (root : Json) : Prop where
  schema : root.field "schema_version" = some (Json.ofInt kSchemaVersion)
  format : root.field "format" = some (.lit "qwen3-tts-native-voice-reference")
  source : root.field "source_wav_sha256" = some (.string context.sourceAudioSha256)
  text : root.field "reference_text" = some (.string context.referenceText)
  flag : root.field "x_vector_only" = some (.boolean context.xVectorOnly)
  engine : root.field "engine" = some (engineJson context)
  models : root.field "models" = some (modelsJson context)
  preprocessing : root.field "preprocessing" = some (preprocessingJson context)
  speaker : root.field "speaker" = some (speakerJson sha generation extracted speaker)
  rvq : root.field "rvq" = some (if context.xVectorOnly then .null else rvqJson sha generation extracted packed)

theorem manifestJson_fields : ManifestFields sha context generation extracted speaker packed
    (manifestJson sha context generation extracted speaker packed) := by
  have h : Distinct ["schema_version", "format", "source_wav_sha256", "reference_text", "x_vector_only", "engine",
    "models", "preprocessing", "speaker", "rvq"] := by decide
  constructor
  all_goals
    refine field_of_mem ?_ (by simp)
    exact h

structure EngineFields (engine : Json) : Prop where
  name : engine.field "name" = some (.lit "qwentts.cpp")
  commit : engine.field "commit" = some (.string context.engineCommit)
  abiVersion : engine.field "abi_version" = some (Json.ofInt context.abiVersion)

theorem engineJson_fields : EngineFields context (engineJson context) := by
  have h : Distinct ["name", "commit", "abi_version"] := by decide
  constructor
  all_goals
    refine field_of_mem ?_ (by simp)
    exact h

theorem modelsJson_fields :
    (modelsJson context).field "talker_sha256" = some (.string context.talkerSha256) ∧
      (modelsJson context).field "codec_sha256" = some (.string context.codecSha256) := by
  have h : Distinct ["talker_sha256", "codec_sha256"] := by decide
  constructor
  all_goals
    refine field_of_mem ?_ (by simp)
    exact h

structure PreprocessingFields (preprocessing : Json) : Prop where
  version : preprocessing.field "version" = some (Json.ofInt kPreprocessingVersion)
  sampleRate : preprocessing.field "sample_rate" = some (Json.ofInt kSampleRate)
  channels : preprocessing.field "channels" = some (Json.ofInt 1)
  sampleFormat : preprocessing.field "sample_format" = some (.lit "float32")
  silence : preprocessing.field "icl_trailing_silence_samples" = some (Json.ofInt (expectedSilence context))

theorem preprocessingJson_fields : PreprocessingFields context (preprocessingJson context) := by
  have h : Distinct ["version", "sample_rate", "channels", "sample_format", "icl_trailing_silence_samples"] := by
    decide
  constructor
  all_goals
    refine field_of_mem ?_ (by simp)
    exact h

structure SpeakerFields (declaration : Json) : Prop where
  path : declaration.field "path" = some (.string (speakerName generation))
  dimension : declaration.field "dimension" = some (Json.ofInt extracted.refSpkDim)
  size : declaration.field "size_bytes" = some (.numberUnsigned (UInt64.ofNat (extracted.refSpkDim.toNat * 4)))
  hash : declaration.field "sha256" = some (.string (sha.hex speaker))
  scalar : declaration.field "scalar" = some (.lit "float32-le")

theorem speakerJson_fields : SpeakerFields sha generation extracted speaker
    (speakerJson sha generation extracted speaker) := by
  have h : Distinct ["path", "dimension", "size_bytes", "sha256", "scalar"] := by decide
  constructor
  all_goals
    refine field_of_mem ?_ (by simp)
    exact h

structure RvqFields (declaration : Json) : Prop where
  path : declaration.field "path" = some (.string (rvqName generation))
  codebooks : declaration.field "codebooks" = some (Json.ofInt extracted.numCodebooks)
  frames : declaration.field "frames" = some (Json.ofInt extracted.refT)
  bits : declaration.field "bits_per_code" = some (Json.ofInt kRvqCodeBits)
  layout : declaration.field "layout" = some (.lit "codebook-major-frame-fastest")
  size : declaration.field "size_bytes" = some (.numberUnsigned (UInt64.ofNat packed.length))
  hash : declaration.field "sha256" = some (.string (sha.hex packed))

theorem rvqJson_fields : RvqFields sha generation extracted packed (rvqJson sha generation extracted packed) := by
  have h : Distinct ["path", "codebooks", "frames", "bits_per_code", "layout", "size_bytes", "sha256"] := by
    decide
  constructor
  all_goals
    refine field_of_mem ?_ (by simp)
    exact h

end Fields

/-! ## The artifacts -/

section Artifacts

variable {sha : Sha256} {tree : Tree} {context : PreparedContext} {generation : CppString} {extracted : Extracted}
  {speaker packed : Bytes}

theorem requiredString_some {object : Json} {name : String} {s : CppString} (h : object.field name = some (.string s))
    (hs : s ≠ []) : requiredString object name = .ok s := by
  unfold requiredString
  rw [h]
  dsimp only
  rw [if_neg (by simpa using hs)]

theorem requiredInteger_ofInt {object : Json} {name : String} {n : Int} (h : object.field name = some (Json.ofInt n))
    (hlow : 0 ≤ n) (hhigh : n < 2 ^ 31) : requiredInteger object name = .ok n := by
  unfold requiredInteger
  unfold Json.ofInt at h
  rw [if_neg (by omega)] at h
  rw [h]
  dsimp only
  rw [UInt64.toNat_ofNat', Nat.mod_eq_of_lt (by omega), Int.toNat_of_nonneg hlow, Int.bmod_eq_of_le (by omega) (by omega)]

theorem requiredSize_some {object : Json} {name : String} {u : UInt64} (h : object.field name = some (.numberUnsigned u)) :
    requiredSize object name = .ok u.toNat := by
  unfold requiredSize
  rw [h]

/-- The dimensions of what is published. -/
structure Bounds (context : PreparedContext) (extracted : Extracted) : Prop where
  dimension : 0 < extracted.refSpkDim ∧ extracted.refSpkDim ≤ kMaxSpeakerDimension
  codes : context.xVectorOnly = false → extracted.numCodebooks = context.numCodebooks ∧ 0 < extracted.numCodebooks ∧
    extracted.numCodebooks ≤ kMaxRvqCodebooks ∧ 0 < extracted.refT ∧ extracted.refT ≤ kMaxRvqFrames

theorem checkExtracted_bounds {r : List UInt32 × List Int} (h : checkExtracted context extracted = .ok r) :
    Bounds context extracted := by
  unfold checkExtracted at h
  split at h
  · cases h
  · obtain ⟨_, hspeaker, h⟩ := exists_of_bind h
    simp only [refuseIf_ok, Bool.or_eq_false_iff, decide_eq_false_iff_not] at hspeaker
    obtain ⟨⟨⟨⟨hpos, hmax⟩, -⟩, -⟩, -⟩ := hspeaker
    refine ⟨⟨by omega, by omega⟩, fun hmode => ?_⟩
    rw [hmode] at h
    simp only [Bool.false_eq_true, if_false] at h
    split at h
    · cases h
    · obtain ⟨_, hlayout, -⟩ := exists_of_bind h
      simp only [refuseIf_ok, Bool.or_eq_false_iff, decide_eq_false_iff_not, bne_eq_false_iff_eq] at hlayout
      obtain ⟨⟨⟨⟨⟨hframes, hframesMax⟩, hcodebooks⟩, hcodebooksMax⟩, hsame⟩, -⟩ := hlayout
      exact ⟨hsame, by omega, by omega, by omega, by omega⟩

theorem hex_ne_nil (sha : Sha256) (bytes : Bytes) : sha.hex bytes ≠ [] := by
  intro h
  unfold Sha256.hex hexText at h
  have hlength := sha.length_digest bytes
  cases hdigest : sha.digest bytes with
  | nil =>
    rw [hdigest] at hlength
    cases hlength
  | cons b rest =>
    rw [hdigest] at h
    cases h

/-- How many codes there are. -/
def Extracted.count (extracted : Extracted) : Nat := extracted.numCodebooks.toNat * extracted.refT.toNat

end Artifacts

end QwenTtsBridge.Voice.Prepared
