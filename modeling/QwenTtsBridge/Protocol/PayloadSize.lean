/-
  QwenTtsBridge.Protocol.PayloadSize — the size of an encoded payload, from the fields of its
  message.

  `dump()` quotes a string and escapes some of its bytes, so a payload can be up to six
  times as long as its strings. Proved: what a `synthesize`, a `ready` and an error take
  (`bytes_synthesize`, `bytes_ready`, `bytes_error`), and when their strings can be
  written at all (`utf8_synthesize`, `utf8_ready`, `utf8_error`).

  An object is a map, walked in the order of its keys; its size does not depend on that
  order (`fieldsBytes_present`).
-/

import QwenTtsBridge.Protocol.ControlRoundTrip
import Mathlib.Data.List.Nodup

namespace QwenTtsBridge.Protocol.Control

open QwenTtsBridge.Lib QwenTtsBridge.Protocol.Framing

/-! ## Strings -/

/-- The bytes that `dump()` writes for a byte of a string. -/
def escapedBytes (b : UInt8) : Nat :=
  if b = 0x08 ∨ b = 0x09 ∨ b = 0x0A ∨ b = 0x0C ∨ b = 0x0D ∨ b = 0x22 ∨ b = 0x5C then 2
  else if b ≤ 0x1F then 6
  else 1

def quotedBytes (s : CppString) : Nat := 2 + (s.map escapedBytes).sum

theorem length_escapeByte (b : UInt8) : (escapeByte b).length = escapedBytes b := by
  unfold escapeByte escapedBytes
  by_cases hshort : b = 0x08 ∨ b = 0x09 ∨ b = 0x0A ∨ b = 0x0C ∨ b = 0x0D ∨ b = 0x22 ∨ b = 0x5C
  · rw [if_pos hshort]
    rcases hshort with rfl | rfl | rfl | rfl | rfl | rfl | rfl <;> rfl
  · rw [if_neg hshort]
    simp only [not_or] at hshort
    obtain ⟨h1, h2, h3, h4, h5, h6, h7⟩ := hshort
    rw [if_neg h1, if_neg h2, if_neg h3, if_neg h4, if_neg h5, if_neg h6, if_neg h7]
    split <;> rfl

theorem length_stringText (s : CppString) : (stringText s).length = quotedBytes s := by
  have hescaped : (s.flatMap escapeByte).length = (s.map escapedBytes).sum := by
    rw [List.length_flatMap]
    simp only [length_escapeByte]
  simp only [stringText, List.length_append, List.length_singleton, hescaped, quotedBytes]
  omega

/-- Escaping never shortens. -/
theorem length_le_quotedBytes (s : CppString) : s.length + 2 ≤ quotedBytes s := by
  have hone : ∀ b : UInt8, 1 ≤ escapedBytes b := by
    intro b
    unfold escapedBytes
    split
    · decide
    · split <;> decide
  induction s with
  | nil => exact Nat.le_refl 2
  | cons b s ih =>
    have hb := hone b
    simp only [quotedBytes, List.map_cons, List.sum_cons, List.length_cons] at ih ⊢
    omega

def isAscii (s : CppString) : Bool := s.all (· < 0x80)

theorem isUtf8_append_of_isAscii {s : CppString} (h : isAscii s = true) (t : CppString) : isUtf8 (s ++ t) = isUtf8 t := by
  refine Utf8.decode_ascii_append t fun b hb => ?_
  simpa using List.all_eq_true.mp h b hb

theorem isUtf8_of_isAscii {s : CppString} (h : isAscii s = true) : isUtf8 s = true := by
  have happend := isUtf8_append_of_isAscii h []
  rw [List.append_nil] at happend
  exact happend

/-! ## Objects -/

/-- `"name":value` and a comma, or the closing brace after the last. -/
def entryBytes (name : CppString) (valueBytes : Nat) : Nat := quotedBytes name + 1 + valueBytes + 1

section Objects

variable (floatText : Binary64 → CppString)

def Json.bytes (v : Json) : Nat := (v.text floatText).length

def fieldsBytes (fields : JsonObject) : Nat := (fields.map fun p => entryBytes p.1 (p.2.bytes floatText)).sum

theorem length_fieldsText {fields : JsonObject} (h : fields ≠ []) :
    (fieldsText floatText fields).length + 1 = fieldsBytes floatText fields := by
  induction fields with
  | nil => exact absurd rfl h
  | cons p rest ih =>
    obtain ⟨k, v⟩ := p
    cases rest with
    | nil =>
      simp only [fieldsText, fieldsBytes, List.map_cons, List.map_nil, List.sum_cons, List.sum_nil, List.length_append,
        length_stringText, entryBytes, Json.bytes]
      rfl
    | cons q rest =>
      have hrest := ih (List.cons_ne_nil q rest)
      simp only [fieldsText, List.length_append, length_stringText]
      have hcons : fieldsBytes floatText ((k, v) :: q :: rest) =
          entryBytes k (v.bytes floatText) + fieldsBytes floatText (q :: rest) := rfl
      have hcolon : (CppString.lit ":").length = 1 := rfl
      have hcomma : (CppString.lit ",").length = 1 := rfl
      simp only [hcons, ← hrest, entryBytes, Json.bytes, hcolon, hcomma]
      omega

theorem bytes_object {fields : JsonObject} (h : fields ≠ []) :
    (Json.object fields).bytes floatText = 1 + fieldsBytes floatText fields := by
  have htext := length_fieldsText floatText h
  have hopen : (CppString.lit "\x7b").length = 1 := rfl
  have hclose : (CppString.lit "\x7d").length = 1 := rfl
  simp only [Json.bytes, Json.text, List.length_append, hopen, hclose]
  omega

theorem fieldsUtf8_eq_all (fields : JsonObject) : fieldsUtf8 fields = fields.all fun p => isUtf8 p.1 && p.2.isUtf8 := by
  induction fields with
  | nil => rfl
  | cons p rest ih =>
    obtain ⟨k, v⟩ := p
    rw [fieldsUtf8, ih, List.all_cons]

/-- The entries that are there. -/
def present (entries : List (String × Option Json)) : List (String × Json) :=
  entries.filterMap fun p => p.2.map (p.1, ·)

/-- An optional entry, which takes nothing when it is absent. -/
def optionalBytes (name : String) (value : Option Json) : Nat :=
  value.elim 0 fun v => entryBytes (CppString.lit name) (v.bytes floatText)

def Distinct (names : List String) : Prop := (names.map CppString.lit).Nodup

instance (names : List String) : Decidable (Distinct names) := inferInstanceAs (Decidable (List.Nodup _))

/-- The names are in ASCII. -/
def Plain (names : List String) : Prop := names.all (fun name => isAscii (CppString.lit name)) = true

instance (names : List String) : Decidable (Plain names) := inferInstanceAs (Decidable (_ = true))

theorem fields_perm {pairs : List (String × Json)} (h : Distinct (pairs.map Prod.fst)) :
    (JsonObject.fields pairs).Perm (pairs.map fun p => (CppString.lit p.1, p.2)) := by
  refine SortedMap.foldl_insert_perm (pairs.map fun p => (CppString.lit p.1, p.2)) [] ?_
  rw [List.nil_append, List.map_map]
  rw [Distinct, List.map_map] at h
  exact h

/-- A field of an object that is built from distinct names. -/
theorem field_of_mem {pairs : List (String × Json)} (h : Distinct (pairs.map Prod.fst)) {name : String} {v : Json}
    (hmem : (name, v) ∈ pairs) : (Json.object (JsonObject.fields pairs)).field name = some v := by
  have hperm := fields_perm h
  have hin : (CppString.lit name, v) ∈ JsonObject.fields pairs :=
    hperm.mem_iff.mpr (List.mem_map.mpr ⟨(name, v), hmem, rfl⟩)
  have hkeys : ((JsonObject.fields pairs).map Prod.fst).Nodup := by
    rw [(hperm.map Prod.fst).nodup_iff, List.map_map]
    rw [Distinct, List.map_map] at h
    exact h
  obtain ⟨w, hw⟩ := Option.ne_none_iff_exists'.mp (SortedMap.find_ne_none hin)
  have hfound : (CppString.lit name, w) ∈ JsonObject.fields pairs := SortedMap.mem_of_find hw
  have heq := List.inj_on_of_nodup_map hkeys hin hfound rfl
  cases heq
  exact hw

theorem present_distinct {entries : List (String × Option Json)} (h : Distinct (entries.map Prod.fst)) :
    Distinct ((present entries).map Prod.fst) := by
  have hsub : ((present entries).map Prod.fst).Sublist (entries.map Prod.fst) := by
    induction entries with
    | nil => exact .slnil
    | cons p entries ih =>
      obtain ⟨name, value⟩ := p
      have ih := ih (List.nodup_cons.mp h).2
      cases value with
      | none => exact ih.cons _
      | some v => exact ih.cons_cons _
  exact h.sublist (hsub.map CppString.lit)

theorem fieldsBytes_present {entries : List (String × Option Json)} (h : Distinct (entries.map Prod.fst)) :
    fieldsBytes floatText (.fields (present entries)) = (entries.map fun p => optionalBytes floatText p.1 p.2).sum := by
  have hperm := (fields_perm (present_distinct h)).map fun p => entryBytes p.1 (p.2.bytes floatText)
  rw [fieldsBytes, hperm.sum_nat, List.map_map]
  clear hperm h
  induction entries with
  | nil => rfl
  | cons p entries ih =>
    obtain ⟨name, value⟩ := p
    cases value with
    | none =>
      rw [List.map_cons, List.sum_cons, ← ih]
      exact (Nat.zero_add _).symm
    | some v =>
      rw [List.map_cons, List.sum_cons, ← ih]
      rfl

theorem fieldsUtf8_present {entries : List (String × Option Json)} (h : Distinct (entries.map Prod.fst))
    (hnames : Plain (entries.map Prod.fst)) :
    fieldsUtf8 (JsonObject.fields (present entries)) = entries.all fun p => p.2.all Json.isUtf8 := by
  rw [fieldsUtf8_eq_all, (fields_perm (present_distinct h)).all_eq, List.all_map]
  clear h
  induction entries with
  | nil => rfl
  | cons p entries ih =>
    obtain ⟨name, value⟩ := p
    obtain ⟨hname, hrest⟩ : isAscii (CppString.lit name) = true ∧ _ := Bool.and_eq_true_iff.mp hnames
    cases value with
    | none => exact ih hrest
    | some v =>
      rw [List.all_cons, ← ih hrest]
      have hv : Option.all Json.isUtf8 (some v) = (isUtf8 (CppString.lit name) && v.isUtf8) := by
        rw [isUtf8_of_isAscii hname, Bool.true_and, Option.all_some]
      rw [hv]
      rfl

/-! The objects of the encoder are built by the same assignments. -/

theorem putIf_eq (object : JsonObject) (c : Bool) (name : String) (value : Json) :
    object.putIf c name value = object.putSome name (if c then some value else none) id := by
  cases c <;> rfl

theorem putSome_eq {α : Type} (object : JsonObject) (name : String) (value : Option α) (toJson : α → Json) :
    object.putSome name value toJson = object.putSome name (value.map toJson) id := by
  cases value <;> rfl

theorem fields_present (entries : List (String × Option Json)) :
    JsonObject.fields (present entries) = entries.foldl (fun (out : JsonObject) p => out.putSome p.1 p.2 id) [] := by
  rw [JsonObject.fields_eq, present, List.foldl_filterMap]
  congr 1
  funext out p
  obtain ⟨name, value⟩ := p
  cases value <;> rfl

end Objects

/-! ## Messages -/

def stringEntry (name : String) (s : CppString) : Nat := entryBytes (CppString.lit name) (quotedBytes s)

def numberEntry (name : String) (n : Nat) : Nat := entryBytes (CppString.lit name) (decimalText n).length

def boolEntry (name : String) (b : Bool) : Nat := entryBytes (CppString.lit name) (if b then 4 else 5)

def audioFormatBytes (format : AudioFormat) : Nat :=
  1 + stringEntry "sample_format" format.sampleFormat + numberEntry "sample_rate" format.sampleRate.toNat +
    numberEntry "channels" format.channels.toNat

/-- The entries of `sampling`; zero when all the options are absent. -/
def samplingEntries (floatText : Binary64 → CppString) (options : SynthesisSamplingOptions) : Nat :=
  (options.temperature.elim 0 fun x => entryBytes (CppString.lit "temperature") (floatText x).length) +
    (options.topK.elim 0 fun n => numberEntry "top_k" n.toNat) +
    (options.topP.elim 0 fun x => entryBytes (CppString.lit "top_p") (floatText x).length) +
    (options.repetitionPenalty.elim 0 fun x => entryBytes (CppString.lit "repetition_penalty") (floatText x).length) +
    (options.doSample.elim 0 fun b => boolEntry "do_sample" b)

def synthesizePayloadBytes (floatText : Binary64 → CppString) (m : SynthesizeMessage) : Nat :=
  1 + stringEntry "message_type" (CppString.lit "synthesize") + stringEntry "text" m.text +
    stringEntry "language" m.language + stringEntry "instruction" m.instruction +
    entryBytes (CppString.lit "output") (audioFormatBytes m.output) +
    (if m.speaker.isEmpty then 0 else stringEntry "speaker" m.speaker) +
    (if m.voiceId.isEmpty then 0 else stringEntry "voice_id" m.voiceId) +
    (if m.referenceAudioPath.isEmpty then 0 else stringEntry "reference_audio_path" m.referenceAudioPath) +
    (if m.referenceText.isEmpty then 0 else stringEntry "reference_text" m.referenceText) +
    (if m.xVectorOnly then boolEntry "x_vector_only" true else 0) +
    (if m.hasSeed then numberEntry "seed" m.seed.toNat else 0) +
    (if samplingEntries floatText m.sampling = 0 then 0
      else entryBytes (CppString.lit "sampling") (1 + samplingEntries floatText m.sampling))

def capabilitiesBytes (c : WorkerCapabilities) : Nat :=
  1 + boolEntry "streaming" c.streaming + boolEntry "cancellation" c.cancellation +
    boolEntry "instructions" c.instructions + boolEntry "voice_clone" c.voiceClone +
    boolEntry "sampling_overrides" c.samplingOverrides + boolEntry "deterministic_seed" c.deterministicSeed +
    boolEntry "voice_clone_streaming" c.voiceCloneStreaming + boolEntry "voice_profiles" c.voiceProfiles

/-- An array of strings that is not empty. -/
def stringsBytes (strings : List CppString) : Nat := 1 + (strings.map fun s => quotedBytes s + 1).sum

def readyPayloadBytes (m : ReadyMessage) : Nat :=
  1 + stringEntry "message_type" (CppString.lit "ready") + stringEntry "worker_version" m.workerVersion +
    stringEntry "session_id" m.sessionId + entryBytes (CppString.lit "capabilities") (capabilitiesBytes m.capabilities) +
    (if m.hasWarmedUp then boolEntry "warmed_up" m.warmedUp else 0) +
    (if m.voiceIds.isEmpty then 0 else entryBytes (CppString.lit "voice_ids") (stringsBytes m.voiceIds))

def errorPayloadBytes (m : ErrorMessage) : Nat :=
  1 + stringEntry "message_type" (CppString.lit "error") + stringEntry "category" m.category +
    stringEntry "code" m.code + stringEntry "message" m.message

section Messages

variable (floatText : Binary64 → CppString)

@[simp] theorem bytes_string (s : CppString) : (Json.string s).bytes floatText = quotedBytes s := by
  rw [Json.bytes, Json.text, length_stringText]

@[simp] theorem bytes_ofU32 (n : UInt32) : (Json.ofU32 n).bytes floatText = (decimalText n.toNat).length := by
  rw [Json.bytes, Json.ofU32, Json.text, UInt32.toNat_toUInt64]

@[simp] theorem bytes_numberUnsigned (n : UInt64) :
    (Json.numberUnsigned n).bytes floatText = (decimalText n.toNat).length := by
  rw [Json.bytes, Json.text]

@[simp] theorem bytes_boolean (b : Bool) : (Json.boolean b).bytes floatText = if b then 4 else 5 := by
  cases b <;> rfl

@[simp] theorem bytes_numberFloat (x : Binary64) : (Json.numberFloat x).bytes floatText = (floatText x).length := by
  rw [Json.bytes, Json.text]

theorem fields_ne_nil {pairs : List (String × Json)} (h : Distinct (pairs.map Prod.fst)) (hne : pairs ≠ []) :
    JsonObject.fields pairs ≠ [] := by
  intro hnil
  have hlength := (fields_perm h).length_eq
  rw [hnil, List.length_map] at hlength
  exact hne (List.length_eq_zero_iff.mp hlength.symm)

/-- The bytes of an object built from some entries, the first of which is there. -/
theorem bytes_present {name : String} {v : Json} {entries : List (String × Option Json)}
    (h : Distinct (((name, some v) :: entries).map Prod.fst)) :
    (Json.object (JsonObject.fields (present ((name, some v) :: entries)))).bytes floatText =
      1 + (((name, some v) :: entries).map fun p => optionalBytes floatText p.1 p.2).sum := by
  have hne : JsonObject.fields (present ((name, some v) :: entries)) ≠ [] :=
    fields_ne_nil (present_distinct h) (List.cons_ne_nil _ _)
  rw [bytes_object floatText hne, fieldsBytes_present floatText h]

/-- The field names of an audio format, the sampling options, a `synthesize`, the capabilities, a
    `ready` and an error. -/
def objectNames : List (List String) :=
  [["sample_format", "sample_rate", "channels"],
    ["temperature", "top_k", "top_p", "repetition_penalty", "do_sample"],
    ["message_type", "text", "language", "instruction", "output", "speaker", "voice_id", "reference_audio_path",
      "reference_text", "x_vector_only", "seed", "sampling"],
    ["streaming", "cancellation", "instructions", "voice_clone", "sampling_overrides", "deterministic_seed",
      "voice_clone_streaming", "voice_profiles"],
    ["message_type", "worker_version", "session_id", "capabilities", "warmed_up", "voice_ids"],
    ["message_type", "category", "code", "message"]]

theorem objectNames_ok : ∀ names ∈ objectNames, Distinct names ∧ Plain names := by decide +kernel

theorem audioFormatToJson_eq (format : AudioFormat) : audioFormatToJson format =
    JsonObject.fields (present [("sample_format", some (.string format.sampleFormat)),
      ("sample_rate", some (.ofU32 format.sampleRate)), ("channels", some (.ofU32 format.channels))]) := rfl

theorem audioFormat_names : Distinct ["sample_format", "sample_rate", "channels"] ∧
    Plain ["sample_format", "sample_rate", "channels"] :=
  objectNames_ok _ (.head _)

theorem bytes_audioFormat (format : AudioFormat) :
    (Json.object (audioFormatToJson format)).bytes floatText = audioFormatBytes format := by
  rw [audioFormatToJson_eq, bytes_present floatText (by exact audioFormat_names.1)]
  simp only [List.map_cons, List.map_nil, List.sum_cons, List.sum_nil, optionalBytes, Option.elim_some, bytes_string,
    bytes_ofU32, audioFormatBytes, stringEntry, numberEntry]
  omega

theorem samplingToJson_eq (options : SynthesisSamplingOptions) : synthesisSamplingToJson options =
    JsonObject.fields (present [("temperature", options.temperature.map .numberFloat),
      ("top_k", options.topK.map .ofU32), ("top_p", options.topP.map .numberFloat),
      ("repetition_penalty", options.repetitionPenalty.map .numberFloat),
      ("do_sample", options.doSample.map .boolean)]) := by
  rw [fields_present]
  simp only [synthesisSamplingToJson, List.foldl_cons, List.foldl_nil, ← putSome_eq]

theorem sampling_names : Distinct ["temperature", "top_k", "top_p", "repetition_penalty", "do_sample"] ∧
    Plain ["temperature", "top_k", "top_p", "repetition_penalty", "do_sample"] :=
  objectNames_ok _ (.tail _ (.head _))

theorem fieldsBytes_sampling (options : SynthesisSamplingOptions) :
    fieldsBytes floatText (synthesisSamplingToJson options) = samplingEntries floatText options := by
  rw [samplingToJson_eq, fieldsBytes_present floatText (by exact sampling_names.1)]
  simp only [List.map_cons, List.map_nil, List.sum_cons, List.sum_nil, optionalBytes, Option.elim_map, Function.comp_def,
    bytes_numberFloat, bytes_ofU32, bytes_boolean, samplingEntries, numberEntry, boolEntry]
  omega

theorem fieldsBytes_eq_zero_iff (fields : JsonObject) : fieldsBytes floatText fields = 0 ↔ fields.isEmpty = true := by
  cases fields with
  | nil => exact iff_of_true rfl rfl
  | cons p rest =>
    refine iff_of_false ?_ Bool.false_ne_true
    rw [fieldsBytes, List.map_cons, List.sum_cons, entryBytes]
    omega

/-- The entries of a `synthesize`. -/
theorem synthesizeToJson_eq (m : SynthesizeMessage) : synthesizeToJson m =
    JsonObject.fields (present [("message_type", some (.lit "synthesize")), ("text", some (.string m.text)),
      ("language", some (.string m.language)), ("instruction", some (.string m.instruction)),
      ("output", some (.object (audioFormatToJson m.output))),
      ("speaker", if !m.speaker.isEmpty then some (.string m.speaker) else none),
      ("voice_id", if !m.voiceId.isEmpty then some (.string m.voiceId) else none),
      ("reference_audio_path", if !m.referenceAudioPath.isEmpty then some (.string m.referenceAudioPath) else none),
      ("reference_text", if !m.referenceText.isEmpty then some (.string m.referenceText) else none),
      ("x_vector_only", if m.xVectorOnly then some (.boolean true) else none),
      ("seed", if m.hasSeed then some (.numberUnsigned m.seed) else none),
      ("sampling", if !(synthesisSamplingToJson m.sampling).isEmpty
        then some (.object (synthesisSamplingToJson m.sampling)) else none)]) := by
  rw [fields_present]
  simp only [synthesizeToJson, JsonObject.fields_eq, List.foldl_cons, List.foldl_nil, putIf_eq]
  rfl

theorem synthesize_names :
    Distinct ["message_type", "text", "language", "instruction", "output", "speaker", "voice_id",
      "reference_audio_path", "reference_text", "x_vector_only", "seed", "sampling"] ∧
    Plain ["message_type", "text", "language", "instruction", "output", "speaker", "voice_id",
      "reference_audio_path", "reference_text", "x_vector_only", "seed", "sampling"] :=
  objectNames_ok _ (.tail _ (.tail _ (.head _)))

theorem bytes_synthesize (m : SynthesizeMessage) :
    (Json.object (synthesizeToJson m)).bytes floatText = synthesizePayloadBytes floatText m := by
  have hsampling : optionalBytes floatText "sampling" (if !(synthesisSamplingToJson m.sampling).isEmpty
        then some (.object (synthesisSamplingToJson m.sampling)) else none) =
      if samplingEntries floatText m.sampling = 0 then 0
      else entryBytes (CppString.lit "sampling") (1 + samplingEntries floatText m.sampling) := by
    have hzero := fieldsBytes_eq_zero_iff floatText (synthesisSamplingToJson m.sampling)
    rw [fieldsBytes_sampling] at hzero
    cases hempty : (synthesisSamplingToJson m.sampling).isEmpty with
    | true =>
      rw [if_pos (hzero.mpr hempty)]
      rfl
    | false =>
      have hne : ¬ samplingEntries floatText m.sampling = 0 := by
        rw [hzero, hempty]
        exact Bool.false_ne_true
      have hsome : synthesisSamplingToJson m.sampling ≠ [] := by
        intro hnil
        rw [hnil] at hempty
        cases hempty
      rw [if_neg hne, ← fieldsBytes_sampling, ← bytes_object floatText hsome]
      rfl
  have hflag : ∀ (name : String) (c : Bool) (v : Json), optionalBytes floatText name (if c then some v else none) =
      if c then entryBytes (CppString.lit name) (v.bytes floatText) else 0 := by
    intro name c v
    cases c <;> rfl
  have hstring : ∀ (name : String) (s : CppString),
      optionalBytes floatText name (if !s.isEmpty then some (.string s) else none) =
        if s.isEmpty then 0 else stringEntry name s := by
    intro name s
    cases s with
    | nil => rfl
    | cons b s => exact congrArg (entryBytes (CppString.lit name)) (bytes_string floatText (b :: s))
  rw [synthesizeToJson_eq, bytes_present floatText (by exact synthesize_names.1)]
  simp only [List.map_cons, List.map_nil, List.sum_cons, List.sum_nil, hsampling, hstring, hflag]
  simp only [optionalBytes, Option.elim_some, bytes_string, bytes_audioFormat, bytes_numberUnsigned, bytes_boolean,
    synthesizePayloadBytes, stringEntry, numberEntry, boolEntry, Json.lit]
  omega

theorem text_lt_synthesizePayloadBytes (m : SynthesizeMessage) : m.text.length < synthesizePayloadBytes floatText m := by
  have htext := length_le_quotedBytes m.text
  simp only [synthesizePayloadBytes, stringEntry, entryBytes]
  omega

theorem capabilitiesToJson_eq (c : WorkerCapabilities) : capabilitiesToJson c =
    JsonObject.fields (present [("streaming", some (.boolean c.streaming)),
      ("cancellation", some (.boolean c.cancellation)), ("instructions", some (.boolean c.instructions)),
      ("voice_clone", some (.boolean c.voiceClone)), ("sampling_overrides", some (.boolean c.samplingOverrides)),
      ("deterministic_seed", some (.boolean c.deterministicSeed)),
      ("voice_clone_streaming", some (.boolean c.voiceCloneStreaming)),
      ("voice_profiles", some (.boolean c.voiceProfiles))]) := rfl

theorem capabilities_names :
    Distinct ["streaming", "cancellation", "instructions", "voice_clone", "sampling_overrides", "deterministic_seed",
      "voice_clone_streaming", "voice_profiles"] ∧
    Plain ["streaming", "cancellation", "instructions", "voice_clone", "sampling_overrides", "deterministic_seed",
      "voice_clone_streaming", "voice_profiles"] :=
  objectNames_ok _ (.tail _ (.tail _ (.tail _ (.head _))))

theorem bytes_capabilities (c : WorkerCapabilities) :
    (Json.object (capabilitiesToJson c)).bytes floatText = capabilitiesBytes c := by
  rw [capabilitiesToJson_eq, bytes_present floatText (by exact capabilities_names.1)]
  simp only [List.map_cons, List.map_nil, List.sum_cons, List.sum_nil, optionalBytes, Option.elim_some, bytes_boolean,
    capabilitiesBytes, boolEntry]
  omega

theorem length_itemsText {strings : List CppString} (h : strings ≠ []) :
    (itemsText floatText (strings.map .string)).length + 1 = (strings.map fun s => quotedBytes s + 1).sum := by
  induction strings with
  | nil => exact absurd rfl h
  | cons s rest ih =>
    cases rest with
    | nil =>
      simp only [List.map_cons, List.map_nil, itemsText, Json.text, length_stringText, List.sum_cons, List.sum_nil]
      rfl
    | cons t rest =>
      have hcomma : (CppString.lit ",").length = 1 := rfl
      have hsum : ((s :: t :: rest).map fun s => quotedBytes s + 1).sum =
          quotedBytes s + 1 + ((t :: rest).map fun s => quotedBytes s + 1).sum := rfl
      rw [hsum, ← ih (List.cons_ne_nil t rest)]
      simp only [List.map_cons, itemsText, Json.text, List.length_append, length_stringText, hcomma]
      omega

theorem bytes_strings {strings : List CppString} (h : strings ≠ []) :
    (Json.array (strings.map .string)).bytes floatText = stringsBytes strings := by
  have htext := length_itemsText floatText h
  have hopen : (CppString.lit "[").length = 1 := rfl
  have hclose : (CppString.lit "]").length = 1 := rfl
  simp only [Json.bytes, Json.text, List.length_append, hopen, hclose, stringsBytes]
  omega

/-- The entries of a `ready`. -/
theorem readyToJson_eq (m : ReadyMessage) : readyToJson m =
    JsonObject.fields (present [("message_type", some (.lit "ready")), ("worker_version", some (.string m.workerVersion)),
      ("session_id", some (.string m.sessionId)), ("capabilities", some (.object (capabilitiesToJson m.capabilities))),
      ("warmed_up", if m.hasWarmedUp then some (.boolean m.warmedUp) else none),
      ("voice_ids", if !m.voiceIds.isEmpty then some (.array (m.voiceIds.map .string)) else none)]) := by
  rw [fields_present]
  simp only [readyToJson, JsonObject.fields_eq, List.foldl_cons, List.foldl_nil, putIf_eq]
  rfl

theorem ready_names :
    Distinct ["message_type", "worker_version", "session_id", "capabilities", "warmed_up", "voice_ids"] ∧
    Plain ["message_type", "worker_version", "session_id", "capabilities", "warmed_up", "voice_ids"] :=
  objectNames_ok _ (.tail _ (.tail _ (.tail _ (.tail _ (.head _)))))

theorem bytes_ready (m : ReadyMessage) : (Json.object (readyToJson m)).bytes floatText = readyPayloadBytes m := by
  have hvoices : optionalBytes floatText "voice_ids"
        (if !m.voiceIds.isEmpty then some (.array (m.voiceIds.map .string)) else none) =
      if m.voiceIds.isEmpty then 0 else entryBytes (CppString.lit "voice_ids") (stringsBytes m.voiceIds) := by
    cases hids : m.voiceIds with
    | nil => rfl
    | cons s rest => exact congrArg (entryBytes _) (bytes_strings floatText (List.cons_ne_nil s rest))
  have hwarmed : optionalBytes floatText "warmed_up" (if m.hasWarmedUp then some (.boolean m.warmedUp) else none) =
      if m.hasWarmedUp then boolEntry "warmed_up" m.warmedUp else 0 := by
    cases m.hasWarmedUp with
    | false => rfl
    | true => exact congrArg (entryBytes _) (bytes_boolean floatText m.warmedUp)
  rw [readyToJson_eq, bytes_present floatText (by exact ready_names.1)]
  simp only [List.map_cons, List.map_nil, List.sum_cons, List.sum_nil, hvoices, hwarmed]
  simp only [optionalBytes, Option.elim_some, bytes_string, bytes_capabilities, readyPayloadBytes, stringEntry, Json.lit]
  omega

theorem errorMessageToJson_eq (m : ErrorMessage) : errorMessageToJson m =
    JsonObject.fields (present [("message_type", some (.lit "error")), ("category", some (.string m.category)),
      ("code", some (.string m.code)), ("message", some (.string m.message))]) := rfl

theorem error_names : Distinct ["message_type", "category", "code", "message"] ∧
    Plain ["message_type", "category", "code", "message"] :=
  objectNames_ok _ (.tail _ (.tail _ (.tail _ (.tail _ (.tail _ (.head _))))))

theorem bytes_error (m : ErrorMessage) :
    (Json.object (errorMessageToJson m)).bytes floatText = errorPayloadBytes m := by
  rw [errorMessageToJson_eq, bytes_present floatText (by exact error_names.1)]
  simp only [List.map_cons, List.map_nil, List.sum_cons, List.sum_nil, optionalBytes, Option.elim_some, bytes_string,
    errorPayloadBytes, stringEntry, Json.lit]
  omega

end Messages

/-! ## Strings that can be written -/

theorem itemsUtf8_strings (strings : List CppString) : itemsUtf8 (strings.map .string) = strings.all isUtf8 := by
  induction strings with
  | nil => rfl
  | cons s rest ih =>
    rw [List.map_cons, itemsUtf8, ih]
    rfl

theorem utf8_audioFormat (format : AudioFormat) :
    (Json.object (audioFormatToJson format)).isUtf8 = isUtf8 format.sampleFormat := by
  rw [audioFormatToJson_eq, Json.isUtf8, fieldsUtf8_present (by exact audioFormat_names.1) (by exact audioFormat_names.2)]
  simp only [List.all_cons, List.all_nil, Option.all_some, Json.ofU32, Json.isUtf8, Bool.and_true]

theorem utf8_sampling (options : SynthesisSamplingOptions) :
    (Json.object (synthesisSamplingToJson options)).isUtf8 = true := by
  rw [samplingToJson_eq, Json.isUtf8, fieldsUtf8_present (by exact sampling_names.1) (by exact sampling_names.2)]
  cases options.temperature <;> cases options.topK <;> cases options.topP <;> cases options.repetitionPenalty <;>
    cases options.doSample <;> rfl

/-- The strings among the entries of a `synthesize`, whatever the two objects are. -/
theorem utf8_synthesizeEntries (m : SynthesizeMessage) {output : Json} {sampling : Option Json}
    (hoptions : sampling.all Json.isUtf8 = true) :
    [("message_type", some (Json.lit "synthesize")), ("text", some (.string m.text)),
      ("language", some (.string m.language)), ("instruction", some (.string m.instruction)), ("output", some output),
      ("speaker", if !m.speaker.isEmpty then some (.string m.speaker) else none),
      ("voice_id", if !m.voiceId.isEmpty then some (.string m.voiceId) else none),
      ("reference_audio_path", if !m.referenceAudioPath.isEmpty then some (.string m.referenceAudioPath) else none),
      ("reference_text", if !m.referenceText.isEmpty then some (.string m.referenceText) else none),
      ("x_vector_only", if m.xVectorOnly then some (.boolean true) else none),
      ("seed", if m.hasSeed then some (.numberUnsigned m.seed) else none), ("sampling", sampling)].all
        (fun p => p.2.all Json.isUtf8) =
      (isUtf8 m.text && isUtf8 m.language && isUtf8 m.instruction && output.isUtf8 && isUtf8 m.speaker &&
        isUtf8 m.voiceId && isUtf8 m.referenceAudioPath && isUtf8 m.referenceText) := by
  have hlit : isUtf8 (CppString.lit "synthesize") = true := isUtf8_of_isAscii (by decide)
  have hstring : ∀ s : CppString, (if !s.isEmpty then some (Json.string s) else none).all Json.isUtf8 = isUtf8 s := by
    intro s
    cases s <;> rfl
  have hexact : (if m.xVectorOnly then some (Json.boolean true) else none).all Json.isUtf8 = true := by
    cases m.xVectorOnly <;> rfl
  have hseed : (if m.hasSeed then some (Json.numberUnsigned m.seed) else none).all Json.isUtf8 = true := by
    cases m.hasSeed <;> rfl
  simp only [List.all_cons, List.all_nil, hstring, hexact, hseed, hoptions, Option.all_some, Json.lit, Json.isUtf8, hlit,
    Bool.true_and, Bool.and_true, Bool.and_assoc]

theorem utf8_synthesize (m : SynthesizeMessage) : (Json.object (synthesizeToJson m)).isUtf8 =
    (isUtf8 m.text && isUtf8 m.language && isUtf8 m.instruction && isUtf8 m.output.sampleFormat && isUtf8 m.speaker &&
      isUtf8 m.voiceId && isUtf8 m.referenceAudioPath && isUtf8 m.referenceText) := by
  have hoptions : (if !(synthesisSamplingToJson m.sampling).isEmpty
      then some (Json.object (synthesisSamplingToJson m.sampling)) else none).all Json.isUtf8 = true := by
    cases (synthesisSamplingToJson m.sampling).isEmpty with
    | true => rfl
    | false => exact utf8_sampling m.sampling
  rw [Json.isUtf8, synthesizeToJson_eq, fieldsUtf8_present (by exact synthesize_names.1) (by exact synthesize_names.2)]
  exact (utf8_synthesizeEntries m hoptions).trans (by rw [utf8_audioFormat])

theorem utf8_capabilities (c : WorkerCapabilities) : (Json.object (capabilitiesToJson c)).isUtf8 = true := by
  rw [capabilitiesToJson_eq, Json.isUtf8, fieldsUtf8_present (by exact capabilities_names.1) (by exact capabilities_names.2)]
  simp only [List.all_cons, List.all_nil, Option.all_some, Json.isUtf8, Bool.and_true]

/-- The strings among the entries of a `ready`, whatever the object of its capabilities is. -/
theorem utf8_readyEntries (workerVersion sessionId : CppString) {capabilities : Json} (hasWarmedUp warmedUp : Bool)
    (voiceIds : List CppString) (h : capabilities.isUtf8 = true) :
    [("message_type", some (Json.lit "ready")), ("worker_version", some (.string workerVersion)),
      ("session_id", some (.string sessionId)), ("capabilities", some capabilities),
      ("warmed_up", if hasWarmedUp then some (.boolean warmedUp) else none),
      ("voice_ids", if !voiceIds.isEmpty then some (.array (voiceIds.map .string)) else none)].all
        (fun p => p.2.all Json.isUtf8) =
      (isUtf8 workerVersion && isUtf8 sessionId && voiceIds.all isUtf8) := by
  have hlit : isUtf8 (CppString.lit "ready") = true := isUtf8_of_isAscii (by decide)
  have hwarmed : (if hasWarmedUp then some (Json.boolean warmedUp) else none).all Json.isUtf8 = true := by
    cases hasWarmedUp <;> rfl
  have hvoices : (if !voiceIds.isEmpty then some (Json.array (voiceIds.map .string)) else none).all Json.isUtf8 =
      voiceIds.all isUtf8 := by
    cases voiceIds with
    | nil => rfl
    | cons s rest => exact itemsUtf8_strings (s :: rest)
  simp only [List.all_cons, List.all_nil, hwarmed, hvoices, h, Option.all_some, Json.lit, Json.isUtf8, hlit,
    Bool.true_and, Bool.and_true, Bool.and_assoc]

theorem utf8_ready (m : ReadyMessage) : (Json.object (readyToJson m)).isUtf8 =
    (isUtf8 m.workerVersion && isUtf8 m.sessionId && m.voiceIds.all isUtf8) := by
  rw [Json.isUtf8, readyToJson_eq, fieldsUtf8_present (by exact ready_names.1) (by exact ready_names.2)]
  exact utf8_readyEntries _ _ _ _ _ (utf8_capabilities m.capabilities)

theorem utf8_error (m : ErrorMessage) : (Json.object (errorMessageToJson m)).isUtf8 =
    (isUtf8 m.category && isUtf8 m.code && isUtf8 m.message) := by
  have hlit : isUtf8 (CppString.lit "error") = true := isUtf8_of_isAscii (by decide)
  rw [errorMessageToJson_eq, Json.isUtf8, fieldsUtf8_present (by exact error_names.1) (by exact error_names.2)]
  simp only [List.all_cons, List.all_nil, Option.all_some, Json.lit, Json.isUtf8, hlit, Bool.true_and, Bool.and_true,
    Bool.and_assoc]

/-! ## Payloads -/

theorem encodeJsonPayload_ok {lib : JsonLibrary} (hlib : lib.Serializes) {object : JsonObject} {payload : CppString} :
    encodeJsonPayload lib object = .ok payload ↔
      (Json.object object).isUtf8 = true ∧ payload = (Json.object object).text lib.floatText := by
  rw [encodeJsonPayload]
  cases hutf8 : (Json.object object).isUtf8 with
  | true =>
    rw [hlib.utf8 _ hutf8]
    simp [eq_comm]
  | false =>
    obtain ⟨e, he⟩ := hlib.illFormed _ hutf8
    rw [he]
    simp

end QwenTtsBridge.Protocol.Control
