/-
  QwenTtsBridge.Protocol.DecodeNormalises — what a decoder accepts is encoded again, and the
  encoding decodes to the same message.

  The accepted payloads are more than the encoded ones: other fields, `null` entries where
  nothing is read, integers for floating-point numbers, empty optional strings. Nothing of
  that is left in the decoded message (`Normal`): it passes the validation of the encoder,
  each of its strings is UTF-8, and a field that the payload leaves out has the value that
  the encoder leaves out.

  Of the JSON library: `parse` gives UTF-8 strings only (`ParsesUtf8`), and a value that is
  dumped is read back (`RoundTrips`).
-/

import QwenTtsBridge.Lib.Outcome
import QwenTtsBridge.Protocol.PayloadSize

namespace QwenTtsBridge.Protocol.Control

open QwenTtsBridge.Lib

/-! ## Objects of UTF-8 strings -/

section Built

variable {object : JsonObject} {name : String}

theorem utf8_object : (Json.object object).isUtf8 = true ↔ ∀ p ∈ object, isUtf8 p.1 = true ∧ p.2.isUtf8 = true := by
  rw [Json.isUtf8, fieldsUtf8_eq_all, List.all_eq_true]
  simp only [Bool.and_eq_true]

theorem utf8_put (hobject : (Json.object object).isUtf8 = true) (hname : isUtf8 (CppString.lit name) = true) {value : Json}
    (hvalue : value.isUtf8 = true) : (Json.object (object.put name value)).isUtf8 = true := by
  rw [utf8_object] at hobject ⊢
  intro p hp
  rcases SortedMap.mem_insert hp with rfl | hp
  · exact ⟨hname, hvalue⟩
  · exact hobject p hp

theorem utf8_putIf (hobject : (Json.object object).isUtf8 = true) (c : Bool)
    (hname : isUtf8 (CppString.lit name) = true) {value : Json} (hvalue : value.isUtf8 = true) :
    (Json.object (object.putIf c name value)).isUtf8 = true := by
  cases c with
  | false => exact hobject
  | true => exact utf8_put hobject hname hvalue

theorem utf8_fields {pairs : List (String × Json)} (hnames : Plain (pairs.map Prod.fst))
    (h : ∀ p ∈ pairs, p.2.isUtf8 = true) : (Json.object (JsonObject.fields pairs)).isUtf8 = true := by
  have hfold : ∀ object : JsonObject, (Json.object object).isUtf8 = true →
      (Json.object (pairs.foldl (fun out p => JsonObject.put out p.1 p.2) object)).isUtf8 = true := by
    induction pairs with
    | nil => exact fun object hobject => hobject
    | cons p pairs ih =>
      intro object hobject
      obtain ⟨hname, hrest⟩ := Bool.and_eq_true_iff.mp hnames
      exact ih hrest (fun q hq => h q (List.mem_cons_of_mem _ hq)) _
        (utf8_put hobject (isUtf8_of_isAscii hname) (h p List.mem_cons_self))
  rw [JsonObject.fields_eq]
  exact hfold [] rfl

theorem utf8_field {v w : Json} (hv : v.isUtf8 = true) (h : v.field name = some w) : w.isUtf8 = true := by
  cases v with
  | object fields => exact (utf8_object.mp hv _ (SortedMap.mem_of_find h)).2
  | null | boolean | numberInteger | numberUnsigned | numberFloat | string | array => cases h

end Built

/-! ## Messages of UTF-8 strings -/

def ControlMessage.strings : ControlMessage → List CppString
  | .hello clientName clientVersion => [clientName, clientVersion]
  | .synthesize m => [m.text, m.language, m.instruction, m.output.sampleFormat, m.speaker, m.voiceId,
      m.referenceAudioPath, m.referenceText]
  | .shutdown mode => [mode]
  | .ready m => m.workerVersion :: m.sessionId :: m.voiceIds
  | .started audioFormat => [audioFormat.sampleFormat]
  | .completed m => [m.executionOutcome, m.generationTrace.terminationReason]
  | .cancel | .ping _ _ | .queued _ _ | .cancelled | .pong _ _ | .shutdownAck => []

def ErrorMessage.strings (m : ErrorMessage) : List CppString := [m.category, m.code, m.message]

theorem utf8_generationTrace {t : GenerationTrace} (h : isUtf8 t.terminationReason = true) :
    (Json.object (generationTraceToJson t)).isUtf8 = true := by
  have hnames : Plain ["termination_reason", "hit_eos", "hit_max_seq_len", "hit_max_new_tokens", "codec_frame_count",
      "generated_steps", "emitted_steps", "terminal_step_index"] := by
    decide +kernel
  refine utf8_fields (by exact hnames) fun p hp => ?_
  simp only [List.mem_cons, List.not_mem_nil, or_false] at hp
  rcases hp with rfl | rfl | rfl | rfl | rfl | rfl | rfl | rfl
  · exact h
  all_goals rfl

theorem utf8_toJson {m : ControlMessage} (h : ∀ s ∈ m.strings, isUtf8 s = true) :
    (Json.object (controlMessageToJson m)).isUtf8 = true := by
  have hone : ∀ name, isAscii (CppString.lit name) = true →
      (Json.object (JsonObject.fields [("message_type", .lit name)])).isUtf8 = true := by
    intro name hname
    have htype : Plain ["message_type"] := by decide
    refine utf8_fields (by exact htype) fun p hp => ?_
    rw [List.mem_singleton.mp hp]
    exact isUtf8_of_isAscii hname
  cases m with
  | hello clientName clientVersion =>
    have hnames : Plain ["message_type", "client_name", "client_version"] := by decide
    refine utf8_fields (by exact hnames) fun p hp => ?_
    simp only [List.mem_cons, List.not_mem_nil, or_false] at hp
    rcases hp with rfl | rfl | rfl
    · exact isUtf8_of_isAscii (by decide)
    · exact h clientName (by simp [ControlMessage.strings])
    · exact h clientVersion (by simp [ControlMessage.strings])
  | synthesize m =>
    rw [controlMessageToJson, utf8_synthesize]
    simp only [ControlMessage.strings, List.forall_mem_cons] at h
    obtain ⟨h1, h2, h3, h4, h5, h6, h7, h8, -⟩ := h
    rw [h1, h2, h3, h4, h5, h6, h7, h8]
    rfl
  | cancel => exact hone _ (by decide)
  | ping hasSequence sequence => exact utf8_putIf (hone _ (by decide)) _ (isUtf8_of_isAscii (by decide)) rfl
  | shutdown mode =>
    have hnames : Plain ["message_type", "mode"] := by decide
    refine utf8_fields (by exact hnames) fun p hp => ?_
    simp only [List.mem_cons, List.not_mem_nil, or_false] at hp
    rcases hp with rfl | rfl
    · exact isUtf8_of_isAscii (by decide)
    · exact h mode (by simp [ControlMessage.strings])
  | ready m =>
    rw [controlMessageToJson, utf8_ready]
    simp only [ControlMessage.strings, List.forall_mem_cons] at h
    obtain ⟨hversion, hsession, hvoices⟩ := h
    rw [hversion, hsession, List.all_eq_true.mpr hvoices]
    rfl
  | queued hasPosition position => exact utf8_putIf (hone _ (by decide)) _ (isUtf8_of_isAscii (by decide)) rfl
  | started audioFormat =>
    have hnames : Plain ["message_type", "audio_format"] := by decide
    refine utf8_fields (by exact hnames) fun p hp => ?_
    simp only [List.mem_cons, List.not_mem_nil, or_false] at hp
    rcases hp with rfl | rfl
    · exact isUtf8_of_isAscii (by decide)
    · rw [utf8_audioFormat]
      exact h audioFormat.sampleFormat (by simp [ControlMessage.strings])
  | completed m =>
    refine utf8_putIf (utf8_putIf (hone _ (by decide)) _ (isUtf8_of_isAscii (by decide)) ?_) _
      (isUtf8_of_isAscii (by decide)) ?_
    · exact h m.executionOutcome (by simp [ControlMessage.strings])
    · exact utf8_generationTrace (h m.generationTrace.terminationReason (by simp [ControlMessage.strings]))
  | cancelled => exact hone _ (by decide)
  | pong hasSequence sequence => exact utf8_putIf (hone _ (by decide)) _ (isUtf8_of_isAscii (by decide)) rfl
  | shutdownAck => exact hone _ (by decide)

/-! ## What the readers give -/

section Readers

variable {object : Json}

theorem asString_yields {v : Json} (hv : v.isUtf8 = true) (name : String) :
    Yields (fun s => isUtf8 s = true) (asString v name) := by
  cases v with
  | string s => exact hv
  | null | boolean | numberInteger | numberUnsigned | numberFloat | array | object => exact trivial

theorem readRequiredString_yields (h : object.isUtf8 = true) (name : String) :
    Yields (fun s => isUtf8 s = true) (readRequiredString object name) := by
  unfold readRequiredString
  split
  · exact trivial
  · exact asString_yields (utf8_field h ‹_›) name

theorem readOptionalString_yields (h : object.isUtf8 = true) (name : String) {out : CppString}
    (hout : isUtf8 out = true) :
    Yields (fun s => isUtf8 s = true ∧ (object.field name = none → s = out)) (readOptionalString object name out) := by
  unfold readOptionalString
  split
  · exact ⟨hout, fun _ => rfl⟩
  · rename_i v hfield
    refine (asString_yields (utf8_field h hfield) name).mono (fun s hs => ⟨hs, fun hnone => ?_⟩) fun _ he => he
    rw [hnone] at hfield
    cases hfield

theorem nonEmptyStrings_of_mapM {items : List Json} {strings : List CppString} (hitems : itemsUtf8 items = true)
    (h : items.mapM nonEmptyString = some strings) : (∀ s ∈ strings, isUtf8 s = true) ∧ [] ∉ strings := by
  induction items generalizing strings with
  | nil =>
    cases h
    exact ⟨fun s hs => (List.not_mem_nil hs).elim, List.not_mem_nil⟩
  | cons v rest ih =>
    obtain ⟨hv, hrest⟩ := Bool.and_eq_true_iff.mp hitems
    rw [List.mapM_cons] at h
    obtain ⟨s, hs, strings', hstrings', hcons⟩ : ∃ s, nonEmptyString v = some s ∧ ∃ strings',
        rest.mapM nonEmptyString = some strings' ∧ s :: strings' = strings := by
      simpa [Option.bind_eq_some_iff] using h
    obtain ⟨hutf8, hnamed⟩ := ih hrest hstrings'
    subst hcons
    unfold nonEmptyString at hs
    split at hs
    · cases hs
    · rename_i t ht
      cases hs
      have hne : ([] : CppString) ≠ s := fun he => ht he.symm
      refine ⟨fun t ht => ?_, fun hmem => ?_⟩
      · rcases List.mem_cons.mp ht with rfl | ht
        · exact hv
        · exact hutf8 t ht
      · rcases List.mem_cons.mp hmem with he | hmem
        · exact hne he
        · exact hnamed hmem
    · cases hs

theorem readOptionalStringArray_yields (h : object.isUtf8 = true) (name : String) :
    Yields (fun strings => (∀ s ∈ strings, isUtf8 s = true) ∧ [] ∉ strings) (readOptionalStringArray object name []) := by
  unfold readOptionalStringArray
  split
  · exact ⟨fun s hs => (List.not_mem_nil hs).elim, List.not_mem_nil⟩
  · rename_i items hfield
    have hitems : itemsUtf8 items = true := utf8_field h hfield
    split
    · exact nonEmptyStrings_of_mapM hitems ‹_›
    · exact trivial
  · exact trivial

theorem readAudioFormat_yields (h : object.isUtf8 = true) :
    Yields (fun format => isUtf8 format.sampleFormat = true) (readAudioFormat object) := by
  unfold readAudioFormat
  split
  · exact trivial
  refine (readRequiredString_yields h _).bind fun sampleFormat hformat => ?_
  refine (yields_any _).bind fun sampleRate _ => ?_
  refine (yields_any _).bind fun channels _ => ?_
  exact (yields_any _).bind fun _ _ => hformat

theorem readOptionalAudioFormat_yields (h : object.isUtf8 = true) (name : String) :
    Yields (fun format => isUtf8 format.sampleFormat = true) (readOptionalAudioFormat object name {}) := by
  unfold readOptionalAudioFormat
  split
  · exact isUtf8_of_isAscii (by decide)
  · exact readAudioFormat_yields (utf8_field h ‹_›)

theorem readRequiredAudioFormat_yields (h : object.isUtf8 = true) (name : String) :
    Yields (fun format => isUtf8 format.sampleFormat = true) (readRequiredAudioFormat object name) := by
  unfold readRequiredAudioFormat
  split
  · exact trivial
  · exact readAudioFormat_yields (utf8_field h ‹_›)

theorem readGenerationTrace_yields (h : object.isUtf8 = true) :
    Yields (fun t => isUtf8 t.terminationReason = true) (readGenerationTrace object) := by
  unfold readGenerationTrace
  split
  · exact trivial
  refine (readRequiredString_yields h _).bind fun terminationReason hreason => ?_
  refine (yields_any _).bind fun hitEos _ => ?_
  refine (yields_any _).bind fun hitMaxSeqLen _ => ?_
  refine (yields_any _).bind fun hitMaxNewTokens _ => ?_
  refine (yields_any _).bind fun codecFrameCount _ => ?_
  refine (yields_any _).bind fun generatedSteps _ => ?_
  refine (yields_any _).bind fun emittedSteps _ => ?_
  exact (yields_any _).bind fun terminalStepIndex _ => hreason

end Readers

/-! ## What the decoder gives -/

/-- What is read from the fields of a message. -/
structure Read (m : ControlMessage) : Prop where
  flagged : m.flagged = m
  named : m.VoicesNamed
  utf8 : ∀ s ∈ m.strings, isUtf8 s = true

/-- A message that the encoder takes and the decoder gives back. -/
structure Normal (m : ControlMessage) : Prop extends Read m where
  valid : validateControlMessage m = .ok ()

section Decoded

variable {object : Json}

theorem readSynthesizeMessage_yields (h : object.isUtf8 = true) :
    Yields (fun m => Read (.synthesize m)) (readSynthesizeMessage object) := by
  have hempty : isUtf8 [] = true := rfl
  refine (readRequiredString_yields h _).bind fun text htext => ?_
  refine (readOptionalString_yields h _ (isUtf8_of_isAscii (by decide))).bind fun language hlanguage => ?_
  refine (readOptionalString_yields h _ hempty).bind fun speaker hspeaker => ?_
  refine (readOptionalString_yields h _ hempty).bind fun instruction hinstruction => ?_
  refine (readOptionalString_yields h _ hempty).bind fun voiceId hvoice => ?_
  refine (readOptionalString_yields h _ hempty).bind fun referenceAudioPath hpath => ?_
  refine (readOptionalString_yields h _ hempty).bind fun referenceText hreference => ?_
  refine (yields_any _).bind fun xVectorOnly _ => ?_
  refine (yields_any _).bind fun seed _ => ?_
  refine (yields_any _).bind fun sampling _ => ?_
  refine (readOptionalAudioFormat_yields h _).bind fun output houtput => ?_
  refine ⟨?_, trivial, ?_⟩
  · cases seed <;> rfl
  · simp only [ControlMessage.strings, List.forall_mem_cons]
    exact ⟨htext, hlanguage.1, hinstruction.1, houtput, hspeaker.1, hvoice.1, hpath.1, hreference.1,
      fun s hs => (List.not_mem_nil hs).elim⟩

theorem readReadyMessage_yields (h : object.isUtf8 = true) : Yields (fun m => Read (.ready m)) (readReadyMessage object) := by
  refine (readRequiredString_yields h _).bind fun workerVersion hversion => ?_
  refine (readRequiredString_yields h _).bind fun sessionId hsession => ?_
  refine (yields_any _).bind fun warmedUp _ => ?_
  refine (readOptionalStringArray_yields h _).bind fun voiceIds hvoices => ?_
  refine (yields_any _).bind fun capabilities _ => ?_
  refine ⟨?_, hvoices.2, ?_⟩
  · cases warmedUp <;> rfl
  · simp only [ControlMessage.strings, List.forall_mem_cons]
    exact ⟨hversion, hsession, hvoices.1⟩

theorem readCompletedMessage_yields (h : object.isUtf8 = true) :
    Yields (fun m => Read (.completed m)) (readCompletedMessage object) := by
  have hempty : isUtf8 [] = true := rfl
  refine (readOptionalString_yields h _ hempty).bind fun executionOutcome ⟨houtcome, habsent⟩ => ?_
  have hkept : (if (object.field "execution_outcome").isSome = true then executionOutcome else []) = executionOutcome := by
    cases hfield : object.field "execution_outcome" with
    | none => exact (habsent hfield).symm
    | some v => rfl
  split
  · refine ⟨?_, trivial, ?_⟩
    · simp only [ControlMessage.flagged, hkept]
      rfl
    · simp only [ControlMessage.strings, List.forall_mem_cons]
      exact ⟨houtcome, hempty, fun s hs => (List.not_mem_nil hs).elim⟩
  · refine (readGenerationTrace_yields (utf8_field h ‹_›)).bind fun generationTrace hreason => ?_
    refine ⟨?_, trivial, ?_⟩
    · simp only [ControlMessage.flagged, hkept]
      rfl
    · simp only [ControlMessage.strings, List.forall_mem_cons]
      exact ⟨houtcome, hreason, fun s hs => (List.not_mem_nil hs).elim⟩

theorem validated_yields {m : ControlMessage} (h : Read m) :
    Yields (fun m' => Normal m' ∧ m' = m) (validated m) := by
  unfold validated
  cases hvalid : validateControlMessage m with
  | error e => exact trivial
  | ok u => exact ⟨⟨h, hvalid⟩, rfl⟩

theorem decodeKnown_yields (h : object.isUtf8 = true) (type : CppString) :
    Yields (fun m => Normal m ∧ type = CppString.lit (controlMessageType m).name)
      (decodeKnownControlMessage object type) := by
  have hnothing : ∀ s ∈ ([] : List CppString), isUtf8 s = true := fun s hs => (List.not_mem_nil hs).elim
  unfold decodeKnownControlMessage
  refine .ite (fun htype => ?_) fun _ => ?_
  · refine (readRequiredString_yields h _).bind fun clientName hname => ?_
    refine (readRequiredString_yields h _).bind fun clientVersion hversion => ?_
    have hread : Read (.hello clientName clientVersion) := by
      refine ⟨rfl, trivial, ?_⟩
      simp only [ControlMessage.strings, List.forall_mem_cons]
      exact ⟨hname, hversion, hnothing⟩
    exact (validated_yields hread).mono (fun m ⟨hm, he⟩ => ⟨hm, he ▸ htype⟩) fun _ he => he
  refine .ite (fun htype => ?_) fun _ => ?_
  · refine (readSynthesizeMessage_yields h).bind fun m hread => ?_
    exact (validated_yields hread).mono (fun m ⟨hm, he⟩ => ⟨hm, he ▸ htype⟩) fun _ he => he
  refine .ite (fun htype => ?_) fun _ => ?_
  · exact ⟨⟨⟨rfl, trivial, hnothing⟩, rfl⟩, htype⟩
  refine .ite (fun htype => ?_) fun _ => ?_
  · refine (yields_any _).bind fun sequence _ => ?_
    exact ⟨⟨⟨by cases sequence <;> rfl, trivial, hnothing⟩, rfl⟩, htype⟩
  refine .ite (fun htype => ?_) fun _ => ?_
  · refine (yields_any _).bind fun mode _ => ?_
    refine .ite (fun _ => trivial) fun hmode => ?_
    · have hmode : mode = CppString.lit "cancel" := not_not.mp hmode
      refine ⟨⟨⟨rfl, trivial, ?_⟩, if_pos hmode⟩, htype⟩
      simp only [ControlMessage.strings, List.forall_mem_cons]
      exact ⟨by rw [hmode]; exact isUtf8_of_isAscii (by decide), hnothing⟩
  refine .ite (fun htype => ?_) fun _ => ?_
  · refine (readReadyMessage_yields h).bind fun m hread => ?_
    exact (validated_yields hread).mono (fun m ⟨hm, he⟩ => ⟨hm, he ▸ htype⟩) fun _ he => he
  refine .ite (fun htype => ?_) fun _ => ?_
  · refine (yields_any _).bind fun position _ => ?_
    have hread : Read (.queued position.isSome (position.getD 0)) :=
      ⟨by cases position <;> rfl, trivial, hnothing⟩
    exact (validated_yields hread).mono (fun m ⟨hm, he⟩ => ⟨hm, he ▸ htype⟩) fun _ he => he
  refine .ite (fun htype => ?_) fun _ => ?_
  · refine (readRequiredAudioFormat_yields h _).bind fun audioFormat hformat => ?_
    have hread : Read (.started audioFormat) := by
      refine ⟨rfl, trivial, ?_⟩
      simp only [ControlMessage.strings, List.forall_mem_cons]
      exact ⟨hformat, hnothing⟩
    exact (validated_yields hread).mono (fun m ⟨hm, he⟩ => ⟨hm, he ▸ htype⟩) fun _ he => he
  refine .ite (fun htype => ?_) fun _ => ?_
  · refine (readCompletedMessage_yields h).bind fun m hread => ?_
    exact ⟨⟨hread, rfl⟩, htype⟩
  refine .ite (fun htype => ?_) fun _ => ?_
  · exact ⟨⟨⟨rfl, trivial, hnothing⟩, rfl⟩, htype⟩
  refine .ite (fun htype => ?_) fun _ => ?_
  · refine (yields_any _).bind fun sequence _ => ?_
    exact ⟨⟨⟨by cases sequence <;> rfl, trivial, hnothing⟩, rfl⟩, htype⟩
  refine .ite (fun htype => ?_) fun _ => ?_
  · exact ⟨⟨⟨rfl, trivial, hnothing⟩, rfl⟩, htype⟩
  · exact trivial

theorem direction_of_allows {t : ControlMessageType} {direction : ControlMessageDirection}
    (h : directionAllows (CppString.lit t.name) direction = true) : t.direction = direction := by
  revert h
  cases t <;> cases direction <;> decide

theorem decodeControlObject_yields (h : object.isUtf8 = true) (direction : ControlMessageDirection) :
    Yields (fun m => Normal m ∧ (controlMessageType m).direction = direction) (decodeControlObject object direction) := by
  unfold decodeControlObject
  refine .ite (fun _ => trivial) fun _ => ?_
  refine .ite (fun _ => trivial) fun _ => ?_
  split
  · exact trivial
  · rename_i type _
    refine .ite (fun _ => trivial) fun _ => ?_
    refine .ite (fun _ => trivial) fun hallowed => ?_
    refine (decodeKnown_yields h type).mono (fun m ⟨hm, htype⟩ => ⟨hm, ?_⟩) fun _ he => he
    refine direction_of_allows ?_
    rw [← htype]
    simpa using hallowed
  · exact trivial

theorem decodeErrorObject_yields (h : object.isUtf8 = true) :
    Yields (fun m => validateErrorMessage m = .ok () ∧ ∀ s ∈ m.strings, isUtf8 s = true) (decodeErrorObject object) := by
  unfold decodeErrorObject
  refine .ite (fun _ => trivial) fun _ => ?_
  refine .ite (fun _ => trivial) fun _ => ?_
  split
  · exact trivial
  · refine .ite (fun _ => trivial) fun _ => ?_
    refine (readRequiredString_yields h _).bind fun category hcategory => ?_
    refine (readRequiredString_yields h _).bind fun code hcode => ?_
    refine (readRequiredString_yields h _).bind fun message hmessage => ?_
    cases hvalid : validateErrorMessage ⟨category, code, message⟩ with
    | error e => exact trivial
    | ok u =>
      refine ⟨hvalid, ?_⟩
      simp only [ErrorMessage.strings, List.forall_mem_cons]
      exact ⟨hcategory, hcode, hmessage, fun s hs => (List.not_mem_nil hs).elim⟩
  · exact trivial

end Decoded

/-! ## The payloads -/

namespace JsonLibrary

def ParsesUtf8 (lib : JsonLibrary) : Prop := ∀ text v, lib.parse text = .ok v → v.isUtf8 = true

/-- A value that can be dumped is, and its text is parsed as the value. -/
def RoundTrips (lib : JsonLibrary) (v : Json) : Prop :=
  v.isUtf8 = true → Json.Canonical v → ∃ text, lib.dump v = .ok text ∧ lib.parse text = .ok v

end JsonLibrary

variable {lib : JsonLibrary}

theorem parsePayload_yields (hlib : lib.ParsesUtf8) (payload : CppString) :
    Yields (fun v => v.isUtf8 = true) (parsePayload lib payload) := by
  unfold parsePayload
  split
  · exact hlib _ _ ‹_›
  · exact trivial
  · exact trivial

theorem roundTrip {object : JsonObject} (h : lib.RoundTrips (.object object)) (hutf8 : (Json.object object).isUtf8 = true)
    (hcanonical : Json.Canonical (.object object)) :
    ∃ payload, encodeJsonPayload lib object = .ok payload ∧ parsePayload lib payload = .ok (.object object) := by
  obtain ⟨text, hdump, hparse⟩ := h hutf8 hcanonical
  exact ⟨text, by rw [encodeJsonPayload, hdump], by rw [parsePayload, hparse]⟩

/-- What a payload decodes to can be encoded, and decodes to itself. -/
theorem decode_normalises (lib : JsonLibrary) (hlib : lib.ParsesUtf8) :
    (∀ payload direction m, decodeControlMessage lib payload direction = .ok m →
      lib.RoundTrips (.object (controlMessageToJson m)) →
        ∃ encoded, encodeControlMessage lib m = .ok encoded ∧ decodeControlMessage lib encoded direction = .ok m) ∧
    ∀ payload m, decodeErrorMessage lib payload = .ok m → lib.RoundTrips (.object (errorMessageToJson m)) →
      ∃ encoded, encodeErrorMessage lib m = .ok encoded ∧ decodeErrorMessage lib encoded = .ok m := by
  constructor
  · intro payload direction m hdecode htrip
    have hdecoded : Yields (fun m => Normal m ∧ (controlMessageType m).direction = direction)
        (decodeControlMessage lib payload direction) :=
      (parsePayload_yields hlib payload).bind fun object hobject => decodeControlObject_yields hobject direction
    obtain ⟨hm, hdirection⟩ := hdecoded.value hdecode
    obtain ⟨encoded, hencoded, hparse⟩ := roundTrip htrip (utf8_toJson hm.utf8) (canonical_toJson hm.valid)
    refine ⟨encoded, encodeControlMessage_ok.mpr ⟨hm.valid, hencoded⟩, ?_⟩
    have hknown := (decodeKnown_toJson hm.valid).mpr hm.named
    rw [hm.flagged] at hknown
    rw [decodeControlMessage, hparse, ← hdirection]
    exact (decodeControlObject_toJson m).trans hknown
  · intro payload m hdecode htrip
    have hdecoded : Yields (fun m => validateErrorMessage m = .ok () ∧ ∀ s ∈ m.strings, isUtf8 s = true)
        (decodeErrorMessage lib payload) :=
      (parsePayload_yields hlib payload).bind fun object hobject => decodeErrorObject_yields hobject
    obtain ⟨hvalid, hutf8⟩ := hdecoded.value hdecode
    simp only [ErrorMessage.strings, List.forall_mem_cons] at hutf8
    obtain ⟨hcategory, hcode, hmessage, -⟩ := hutf8
    have hobject : (Json.object (errorMessageToJson m)).isUtf8 = true := by
      rw [utf8_error, hcategory, hcode, hmessage]
      rfl
    obtain ⟨encoded, hencoded, hparse⟩ := roundTrip htrip hobject (canonical_error m)
    refine ⟨encoded, encodeErrorMessage_ok.mpr ⟨hvalid, hencoded⟩, ?_⟩
    rw [decodeErrorMessage, hparse]
    exact decodeErrorObject_toJson hvalid

/-- A library that reads two values. -/
theorem JsonLibrary.reading_parsesUtf8 {v w : Json} (hv : v.isUtf8 = true) (hw : w.isUtf8 = true) :
    (JsonLibrary.reading [v, w]).ParsesUtf8 := by
  intro text u hparse
  simp only [reading] at hparse
  split at hparse
  · rename_i u' hfound
    cases hparse
    have hmem := List.mem_of_find?_eq_some hfound
    simp only [List.mem_cons, List.not_mem_nil, or_false] at hmem
    rcases hmem with rfl | rfl
    · exact hv
    · exact hw
  · cases hparse

theorem JsonLibrary.reading_roundTrips {v w : Json} (h : (v.text (fun _ => []) == w.text fun _ => []) = false) :
    (JsonLibrary.reading [v, w]).RoundTrips w := by
  intro hutf8 _
  refine ⟨w.text fun _ => [], if_pos hutf8, ?_⟩
  simp [reading, h]

/-- A `shutdown` whose mode is left out, with a field that no message has. -/
def looseShutdown : Json := .object [(CppString.lit "extra", .null), (CppString.lit "message_type", .lit "shutdown")]

def strictShutdown : Json := .object (controlMessageToJson (.shutdown (CppString.lit "cancel")))

theorem a_loose_shutdown_is_normalised :
    ∃ encoded, encodeControlMessage (.reading [looseShutdown, strictShutdown]) (.shutdown (CppString.lit "cancel")) =
        .ok encoded ∧
      decodeControlMessage (.reading [looseShutdown, strictShutdown]) encoded .clientToWorker =
        .ok (.shutdown (CppString.lit "cancel")) := by
  have hlib := JsonLibrary.reading_parsesUtf8 (v := looseShutdown) (w := strictShutdown)
    (by decide +kernel) (by decide +kernel)
  have hdecode : decodeControlMessage (.reading [looseShutdown, strictShutdown])
      (CppString.lit "\x7b\"extra\":null,\"message_type\":\"shutdown\"\x7d") .clientToWorker =
        .ok (.shutdown (CppString.lit "cancel")) := by
    decide +kernel
  have htrip := JsonLibrary.reading_roundTrips (v := looseShutdown) (w := strictShutdown) (by decide +kernel)
  exact (decode_normalises _ hlib).1 _ _ _ hdecode htrip

end QwenTtsBridge.Protocol.Control
