/-
  QwenTtsBridge.Protocol.Diagnostics — the texts with which a client's payload is refused.

  Most are fixed (`Terse`). Three quote what was received: the library's message about a
  payload that is no JSON, an unknown message type, and an unknown field of `sampling`
  (`Quotes`). Proved: there are no others (`decode_refused`, `Quotes.refused`), and an
  error that carries terse texts fits its frame (`terse_errorPayload`).
-/

import QwenTtsBridge.Protocol.PayloadSize
import QwenTtsBridge.Lib.Outcome

namespace QwenTtsBridge.Protocol.Control

open QwenTtsBridge.Lib QwenTtsBridge.Protocol.Framing

/-! ## Fixed texts -/

/-- In ASCII and of at most `n` bytes. -/
def Short (n : Nat) (s : CppString) : Prop := isAscii s = true ∧ s.length ≤ n

instance (n : Nat) (s : CppString) : Decidable (Short n s) := inferInstanceAs (Decidable (_ ∧ _))

/-- A text of the source: it is not empty, and short. -/
def Terse (s : CppString) : Prop := s ≠ [] ∧ Short 128 s

instance (s : CppString) : Decidable (Terse s) := inferInstanceAs (Decidable (_ ∧ _))

theorem Short.append {m n : Nat} {s t : CppString} (hs : Short m s) (ht : Short n t) : Short (m + n) (s ++ t) := by
  refine ⟨?_, ?_⟩
  · rw [isAscii, List.all_append]
    exact Bool.and_eq_true_iff.mpr ⟨hs.1, ht.1⟩
  · rw [List.length_append]
    exact Nat.add_le_add hs.2 ht.2

theorem Terse.append {s t : CppString} (hs : s ≠ [] ∧ Short 64 s) (ht : Short 64 t) : Terse (s ++ t) := by
  refine ⟨?_, hs.2.append ht⟩
  intro hnil
  exact hs.1 (List.append_eq_nil_iff.mp hnil).1

theorem escapedBytes_le (b : UInt8) : escapedBytes b ≤ 6 := by
  unfold escapedBytes
  split
  · decide
  · split <;> decide

theorem quotedBytes_le (s : CppString) : quotedBytes s ≤ 2 + 6 * s.length := by
  induction s with
  | nil => exact Nat.le_refl 2
  | cons b s ih =>
    have hb := escapedBytes_le b
    simp only [quotedBytes, List.map_cons, List.sum_cons, List.length_cons] at ih ⊢
    omega

/-- A reply that carries terse texts has room in its frame. -/
theorem terse_errorPayload {m : ErrorMessage} (hcategory : Terse m.category) (hcode : Terse m.code)
    (hmessage : Terse m.message) : errorPayloadBytes m ≤ ProtocolLimits.maxErrorPayloadBytes := by
  have h1 := quotedBytes_le m.category
  have h2 := quotedBytes_le m.code
  have h3 := quotedBytes_le m.message
  have h4 := hcategory.2.2
  have h5 := hcode.2.2
  have h6 := hmessage.2.2
  have hfixed : quotedBytes (CppString.lit "message_type") + quotedBytes (CppString.lit "error") +
      quotedBytes (CppString.lit "category") + quotedBytes (CppString.lit "code") +
      quotedBytes (CppString.lit "message") = 46 := by decide
  have hmax : ProtocolLimits.maxErrorPayloadBytes = 1048576 := rfl
  simp only [errorPayloadBytes, stringEntry, entryBytes]
  omega

theorem controlCodecErrorCode_terse (e : ControlCodecError) : Terse (controlCodecErrorCode e) := by
  cases e <;> decide

/-! ## Refusals -/

/-- A refusal with a text of the source. -/
abbrev TerseRefusal (e : ControlCodecError × CppString) : Prop := Terse e.2

/-- What is read is refused with a text of the source only. -/
abbrev Tersely {α : Type} (x : Codec α) : Prop := Ends (fun _ => True) TerseRefusal x

section Readers

variable {object v : Json} {name : String}

theorem ok_tersely {α : Type} (a : α) : Tersely (.ok a : Codec α) := trivial

theorem wrongField_tersely {α : Type} {text : String} (htext : CppString.lit text ≠ [] ∧ Short 64 (CppString.lit text))
    (hname : Short 64 (CppString.lit name)) : Tersely (wrongField text name : Codec α) :=
  Terse.append htext hname

theorem missing_tersely {α : Type} (hname : Short 64 (CppString.lit name)) : Tersely (missing name : Codec α) :=
  Terse.append (by decide) hname

theorem asString_tersely (v : Json) (hname : Short 64 (CppString.lit name)) : Tersely (asString v name) := by
  unfold asString
  split
  · exact ok_tersely _
  · exact wrongField_tersely (by decide) hname

theorem asBool_tersely (v : Json) (hname : Short 64 (CppString.lit name)) : Tersely (asBool v name) := by
  unfold asBool
  split
  · exact ok_tersely _
  · exact wrongField_tersely (by decide) hname

theorem readRequiredString_tersely (object : Json) (hname : Short 64 (CppString.lit name)) :
    Tersely (readRequiredString object name) := by
  unfold readRequiredString
  split
  · exact missing_tersely hname
  · exact asString_tersely _ hname

theorem readOptionalString_tersely (object : Json) (out : CppString) (hname : Short 64 (CppString.lit name)) :
    Tersely (readOptionalString object name out) := by
  unfold readOptionalString
  split
  · exact ok_tersely _
  · exact asString_tersely _ hname

theorem readOptionalBool_tersely (object : Json) (hname : Short 64 (CppString.lit name)) :
    Tersely (readOptionalBool object name) := by
  unfold readOptionalBool
  split
  · exact ok_tersely _
  · exact (asBool_tersely _ hname).bind fun _ _ => ok_tersely _

theorem readOptionalU64_tersely (object : Json) (hname : Short 64 (CppString.lit name)) :
    Tersely (readOptionalU64 object name) := by
  unfold readOptionalU64
  split
  · exact ok_tersely _
  · split
    · exact ok_tersely _
    · exact wrongField_tersely (by decide) hname

theorem readOptionalU32_tersely (object : Json) (hname : Short 64 (CppString.lit name)) :
    Tersely (readOptionalU32 object name) := by
  refine (readOptionalU64_tersely object hname).bind fun n _ => ?_
  cases n with
  | none => exact ok_tersely _
  | some n =>
    dsimp only
    split
    · exact wrongField_tersely (by decide) hname
    · exact ok_tersely _

theorem readRequiredU32_tersely (object : Json) (hname : Short 64 (CppString.lit name)) :
    Tersely (readRequiredU32 object name) := by
  refine (readOptionalU32_tersely object hname).bind fun n _ => ?_
  cases n with
  | none => exact missing_tersely hname
  | some n => exact ok_tersely _

theorem readOptionalFiniteDouble_tersely (object : Json) (hname : Short 64 (CppString.lit name)) :
    Tersely (readOptionalFiniteDouble object name) := by
  unfold readOptionalFiniteDouble
  split
  · exact ok_tersely _
  · split
    · exact ok_tersely _
    · exact wrongField_tersely (by decide) hname

end Readers

section Messages

theorem validateNonEmptyString_tersely (value : CppString) {name : String} (hname : Short 64 (CppString.lit name)) :
    Tersely (validateNonEmptyString value name) := by
  unfold validateNonEmptyString
  split
  · exact ok_tersely _
  · exact Terse.append (by decide) hname

theorem validateAudioFormat_tersely (format : AudioFormat) {name : String}
    (hname : name = "audio_format" ∨ name = "output") : Tersely (validateAudioFormat format name) := by
  rcases hname with rfl | rfl
  all_goals
    refine (validateNonEmptyString_tersely _ (by decide)).bind fun _ _ => ?_
    refine Ends.ite (fun _ => ?_) fun _ => Ends.ite (fun _ => ?_) fun _ => ok_tersely _
    · change Terse _
      decide
    · change Terse _
      decide

theorem readAudioFormat_tersely (object : Json) : Tersely (readAudioFormat object) := by
  refine Ends.ite (fun _ => ?_) fun _ => ?_
  · change Terse _
    decide
  refine (readRequiredString_tersely object (by decide)).bind fun _ _ => ?_
  refine (readRequiredU32_tersely object (by decide)).bind fun _ _ => ?_
  refine (readRequiredU32_tersely object (by decide)).bind fun _ _ => ?_
  exact (validateAudioFormat_tersely _ (.inl rfl)).bind fun _ _ => ok_tersely _

theorem readOptionalAudioFormat_tersely (object : Json) (name : String) (out : AudioFormat) :
    Tersely (readOptionalAudioFormat object name out) := by
  unfold readOptionalAudioFormat
  split
  · exact ok_tersely _
  · exact readAudioFormat_tersely _

theorem validateSynthesisSampling_tersely (options : SynthesisSamplingOptions) :
    Tersely (validateSynthesisSampling options) := by
  refine Ends.ite (fun _ => ?_) fun _ => Ends.ite (fun _ => ?_) fun _ => Ends.ite (fun _ => ?_) fun _ =>
    Ends.ite (fun _ => ?_) fun _ => ok_tersely _
  all_goals
    change Terse _
    decide

theorem validateSynthesize_tersely (m : SynthesizeMessage) : Tersely (validateSynthesize m) := by
  refine (validateNonEmptyString_tersely _ (by decide)).bind fun _ _ => ?_
  refine Ends.ite (fun _ => ?_) fun _ => Ends.ite (fun _ => ?_) fun _ => ?_
  · change Terse _
    decide
  · change Terse _
    decide
  exact (validateSynthesisSampling_tersely _).bind fun _ _ => validateAudioFormat_tersely _ (.inr rfl)

/-! ## An unknown field of `sampling` -/

/-- The fields that are read before `sampling`. -/
def readUpToSampling (object : Json) : Codec Unit := do
  let _ ← readRequiredString object "text"
  let _ ← readOptionalString object "language" (CppString.lit "auto")
  let _ ← readOptionalString object "speaker" []
  let _ ← readOptionalString object "instruction" []
  let _ ← readOptionalString object "voice_id" []
  let _ ← readOptionalString object "reference_audio_path" []
  let _ ← readOptionalString object "reference_text" []
  let _ ← readOptionalBool object "x_vector_only"
  let _ ← readOptionalU64 object "seed"
  pure ()

/-- `sampling` is reached, is an object, and this is its first key that it may not have. -/
def HasUnknownOption (object : Json) (key : CppString) : Prop :=
  readUpToSampling object = .ok () ∧ ∃ fields value, object.field "sampling" = some (.object fields) ∧
    fields.find? (fun p => !(samplingNames.map CppString.lit).contains p.1) = some (key, value)

def unknownOptionText (key : CppString) : CppString :=
  CppString.lit "sampling" ++ CppString.lit " contains unknown field: " ++ key

theorem readUpToSampling_tersely (object : Json) : Tersely (readUpToSampling object) := by
  refine (readRequiredString_tersely object (by decide)).bind fun _ _ => ?_
  refine (readOptionalString_tersely object _ (by decide)).bind fun _ _ => ?_
  refine (readOptionalString_tersely object _ (by decide)).bind fun _ _ => ?_
  refine (readOptionalString_tersely object _ (by decide)).bind fun _ _ => ?_
  refine (readOptionalString_tersely object _ (by decide)).bind fun _ _ => ?_
  refine (readOptionalString_tersely object _ (by decide)).bind fun _ _ => ?_
  refine (readOptionalString_tersely object _ (by decide)).bind fun _ _ => ?_
  refine (readOptionalBool_tersely object (by decide)).bind fun _ _ => ?_
  exact (readOptionalU64_tersely object (by decide)).bind fun _ _ => ok_tersely _

/-- The two readers go through the same fields, and `build` is what the longer one keeps. -/
theorem readSynthesizeMessage_cases (object : Json) :
    (∃ e, readUpToSampling object = .error e ∧ readSynthesizeMessage object = .error e) ∨
      (readUpToSampling object = .ok () ∧ ∃ build : SynthesisSamplingOptions → AudioFormat → SynthesizeMessage,
        readSynthesizeMessage object = do
          let sampling ← readOptionalSynthesisSampling object "sampling"
          let output ← readOptionalAudioFormat object "output" {}
          pure (build sampling output)) := by
  unfold readUpToSampling readSynthesizeMessage
  cases readRequiredString object "text" with
  | error e => exact .inl ⟨e, rfl, rfl⟩
  | ok text =>
  cases readOptionalString object "language" (CppString.lit "auto") with
  | error e => exact .inl ⟨e, rfl, rfl⟩
  | ok language =>
  cases readOptionalString object "speaker" [] with
  | error e => exact .inl ⟨e, rfl, rfl⟩
  | ok speaker =>
  cases readOptionalString object "instruction" [] with
  | error e => exact .inl ⟨e, rfl, rfl⟩
  | ok instruction =>
  cases readOptionalString object "voice_id" [] with
  | error e => exact .inl ⟨e, rfl, rfl⟩
  | ok voiceId =>
  cases readOptionalString object "reference_audio_path" [] with
  | error e => exact .inl ⟨e, rfl, rfl⟩
  | ok referenceAudioPath =>
  cases readOptionalString object "reference_text" [] with
  | error e => exact .inl ⟨e, rfl, rfl⟩
  | ok referenceText =>
  cases readOptionalBool object "x_vector_only" with
  | error e => exact .inl ⟨e, rfl, rfl⟩
  | ok xVectorOnly =>
  cases readOptionalU64 object "seed" with
  | error e => exact .inl ⟨e, rfl, rfl⟩
  | ok seed => exact .inr ⟨rfl, _, rfl⟩

/-- The refusal of an unknown field, when it comes to that. -/
abbrev OptionRefusal (object : Json) (e : ControlCodecError × CppString) : Prop :=
  TerseRefusal e ∨ ∃ key, HasUnknownOption object key ∧ e = (.unknownField, unknownOptionText key)

theorem readOptionalSynthesisSampling_ends {object : Json} (hread : readUpToSampling object = .ok ()) :
    Ends (fun _ => True) (OptionRefusal object) (readOptionalSynthesisSampling object "sampling") := by
  unfold readOptionalSynthesisSampling
  split
  · trivial
  · rename_i fields hfield
    have hknown : Ends (fun _ => True) (OptionRefusal object)
        (rejectUnknownFields fields ["temperature", "top_k", "top_p", "repetition_penalty", "do_sample"] "sampling") := by
      unfold rejectUnknownFields
      split
      · rename_i p hp
        exact .inr ⟨p.1, ⟨hread, fields, p.2, hfield, hp⟩, rfl⟩
      · trivial
    have hterse : ∀ {α : Type} {x : Codec α}, Tersely x → Ends (fun _ => True) (OptionRefusal object) x :=
      fun h => h.mono (fun _ ha => ha) fun _ he => .inl he
    refine hknown.bind fun _ _ => hterse ?_
    refine (readOptionalFiniteDouble_tersely _ (by decide)).bind fun _ _ => ?_
    refine (readOptionalU32_tersely _ (by decide)).bind fun _ _ => ?_
    refine (readOptionalFiniteDouble_tersely _ (by decide)).bind fun _ _ => ?_
    refine (readOptionalFiniteDouble_tersely _ (by decide)).bind fun _ _ => ?_
    exact (readOptionalBool_tersely _ (by decide)).bind fun _ _ => ok_tersely _
  · exact .inl (wrongField_tersely (α := Unit) (by decide) (by decide))

theorem readSynthesizeMessage_ends (object : Json) :
    Ends (fun _ => True) (OptionRefusal object) (readSynthesizeMessage object) := by
  obtain ⟨e, hread, hmessage⟩ | ⟨hread, build, hmessage⟩ := readSynthesizeMessage_cases object
  · have hterse := readUpToSampling_tersely object
    rw [hread] at hterse
    rw [hmessage]
    exact .inl hterse
  · rw [hmessage]
    refine (readOptionalSynthesisSampling_ends hread).bind fun _ _ => ?_
    have houtput := readOptionalAudioFormat_tersely object "output" {}
    refine Ends.bind (houtput.mono (fun _ ha => ha) fun _ he => .inl he) fun _ _ => ?_
    trivial

/-- An unknown field that is reached is what the message is refused for. -/
theorem readSynthesizeMessage_unknown {object : Json} {key : CppString} (h : HasUnknownOption object key) :
    readSynthesizeMessage object = .error (.unknownField, unknownOptionText key) := by
  obtain ⟨hread, fields, value, hfield, hfind⟩ := h
  obtain ⟨e, hread', _⟩ | ⟨_, build, hmessage⟩ := readSynthesizeMessage_cases object
  · rw [hread] at hread'
    cases hread'
  · have hreject : rejectUnknownFields fields samplingNames "sampling" =
        .error (.unknownField, unknownOptionText key) := by
      unfold rejectUnknownFields
      rw [hfind]
      rfl
    have hsampling : readOptionalSynthesisSampling object "sampling" =
        .error (.unknownField, unknownOptionText key) := by
      unfold readOptionalSynthesisSampling
      rw [hfield]
      change (rejectUnknownFields fields samplingNames "sampling" >>= _) = _
      rw [hreject]
      rfl
    rw [hmessage, hsampling]
    rfl

end Messages

/-! ## What a client's payload is refused for -/

/-- A string under `message_type`, in an object that may have one. -/
def HasType (object : Json) (type : CppString) : Prop :=
  object.isObject = true ∧ hasForbiddenHeaderField object = false ∧ object.field "message_type" = some (.string type)

/-- The code and the text of a refusal that quotes what was received: the fixed part of the
    text, and what follows it. -/
inductive Quotes (lib : JsonLibrary) (payload : CppString) : ControlCodecError → CppString → CppString → Prop
  /-- `Json::parse` throws, and its message is passed on. -/
  | invalidJson {e : JsonException} : lib.parse payload = .error e → (∀ what, e ≠ .typeError what) →
      Quotes lib payload .invalidJson [] (e.diagnostic "unknown JSON decode error")
  | typeError {what : CppString} : lib.parse payload = .error (.typeError what) →
      Quotes lib payload .invalidFieldType [] what
  | unknownType {object : Json} {type : CppString} : lib.parse payload = .ok object → HasType object type →
      isOneOf clientToWorkerMessages type = false → isOneOf workerToClientMessages type = false →
      Quotes lib payload .unknownMessageType (CppString.lit "unknown message_type: ") type
  | unknownOption {object : Json} {key : CppString} : lib.parse payload = .ok object →
      HasType object (CppString.lit "synthesize") → HasUnknownOption object key →
      Quotes lib payload .unknownField (CppString.lit "sampling" ++ CppString.lit " contains unknown field: ") key

section Refused

variable {lib : JsonLibrary} {payload : CppString} {object : Json} {type : CppString}

theorem mem_of_isOneOf {types : List String} (h : isOneOf types type = true) : ∃ t ∈ types, type = CppString.lit t := by
  obtain ⟨t, ht, rfl⟩ := List.mem_map.mp (List.contains_iff_mem.mp h)
  exact ⟨t, ht, rfl⟩

/-- A message of a client, once its type is known. -/
theorem decodeKnown_ends (htype : isOneOf clientToWorkerMessages type = true) :
    Ends (fun _ => True) (fun e => TerseRefusal e ∨
        type = CppString.lit "synthesize" ∧ ∃ key, HasUnknownOption object key ∧ e = (.unknownField, unknownOptionText key))
      (decodeKnownControlMessage object type) := by
  have hterse : ∀ {α : Type} {x : Codec α}, Tersely x → Ends (fun _ => True) (fun e => TerseRefusal e ∨
      type = CppString.lit "synthesize" ∧ ∃ key, HasUnknownOption object key ∧
        e = (.unknownField, unknownOptionText key)) x :=
    fun h => h.mono (fun _ ha => ha) fun _ he => .inl he
  obtain ⟨t, ht, rfl⟩ := mem_of_isOneOf htype
  simp only [clientToWorkerMessages, List.mem_cons, List.not_mem_nil, or_false] at ht
  rcases ht with rfl | rfl | rfl | rfl | rfl
  · refine hterse ((readRequiredString_tersely object (by decide)).bind fun _ _ => ?_)
    refine (readRequiredString_tersely object (by decide)).bind fun _ _ => ?_
    refine Ends.bind (P := fun _ => True) ?_ fun _ _ => ok_tersely _
    exact (validateNonEmptyString_tersely _ (by decide)).bind fun _ _ => validateNonEmptyString_tersely _ (by decide)
  · refine Ends.bind ((readSynthesizeMessage_ends object).mono (fun _ ha => ha) ?_) fun m _ => ?_
    · rintro e (he | he)
      · exact .inl he
      · exact .inr ⟨rfl, he⟩
    · exact hterse ((validateSynthesize_tersely m).bind fun _ _ => ok_tersely _)
  · trivial
  · exact hterse ((readOptionalU64_tersely object (by decide)).bind fun _ _ => ok_tersely _)
  · refine hterse ((readOptionalString_tersely object _ (by decide)).bind fun _ _ => ?_)
    refine Ends.ite (fun _ => ?_) fun _ => ok_tersely _
    change Terse _
    decide

theorem decodeControlObject_of_type (htype : HasType object type) (direction : ControlMessageDirection) :
    decodeControlObject object direction =
      if !(isOneOf clientToWorkerMessages type || isOneOf workerToClientMessages type) then
        .error (.unknownMessageType, CppString.lit "unknown message_type: " ++ type)
      else if !directionAllows type direction then
        .error (.invalidMessageDirection, CppString.lit "message_type is not valid for this direction: " ++ type)
      else decodeKnownControlMessage object type := by
  obtain ⟨hobject, hforbidden, hfield⟩ := htype
  unfold decodeControlObject
  rw [hobject, hforbidden, hfield]
  rfl

theorem decodeMessage_of_parse (hparse : lib.parse payload = .ok object) (direction : ControlMessageDirection) :
    decodeControlMessage lib payload direction = decodeControlObject object direction := by
  unfold decodeControlMessage parsePayload
  rw [hparse]
  rfl

/-- What quotes is refused so. -/
theorem Quotes.refused {code : ControlCodecError} {fixed quoted : CppString} (h : Quotes lib payload code fixed quoted) :
    decodeControlMessage lib payload .clientToWorker = .error (code, fixed ++ quoted) := by
  cases h with
  | invalidJson hparse hother =>
    unfold decodeControlMessage parsePayload
    rw [hparse]
    rename_i e
    cases e with
    | typeError what => exact absurd rfl (hother what)
    | parseError what | exception what | unknown => rfl
  | typeError hparse =>
    unfold decodeControlMessage parsePayload
    rw [hparse]
    rfl
  | unknownType hparse htype hclient hworker =>
    rw [decodeMessage_of_parse hparse, decodeControlObject_of_type htype, hclient, hworker]
    rfl
  | unknownOption hparse htype hoption =>
    rename_i object
    have hknown : decodeKnownControlMessage object (CppString.lit "synthesize") =
        readSynthesizeMessage object >>= fun m => validated (.synthesize m) := rfl
    have hclient : isOneOf clientToWorkerMessages (CppString.lit "synthesize") = true := by decide
    rw [decodeMessage_of_parse hparse, decodeControlObject_of_type htype, hclient, Bool.true_or,
      show directionAllows (CppString.lit "synthesize") .clientToWorker = true from hclient, hknown,
      readSynthesizeMessage_unknown hoption]
    rfl

theorem Quotes.isAscii_fixed {code : ControlCodecError} {fixed quoted : CppString}
    (h : Quotes lib payload code fixed quoted) : isAscii fixed = true := by
  cases h <;> decide

/-- A client's payload is refused with a text of the source, or one that quotes. -/
theorem decode_refused {code : ControlCodecError} {text : CppString}
    (h : decodeControlMessage lib payload .clientToWorker = .error (code, text)) :
    Terse text ∨ ∃ fixed quoted, Quotes lib payload code fixed quoted ∧ text = fixed ++ quoted := by
  cases hparse : lib.parse payload with
  | error e =>
    refine .inr ?_
    have hquotes : ∃ code' fixed quoted, Quotes lib payload code' fixed quoted := by
      cases e with
      | typeError what => exact ⟨_, _, _, .typeError hparse⟩
      | parseError what | exception what | unknown => exact ⟨_, _, _, .invalidJson hparse nofun⟩
    obtain ⟨code', fixed, quoted, hquotes⟩ := hquotes
    have hsame := hquotes.refused
    rw [h] at hsame
    cases hsame
    exact ⟨fixed, quoted, hquotes, rfl⟩
  | ok object =>
    rw [decodeMessage_of_parse hparse] at h
    by_cases htype : ∃ type, HasType object type
    · obtain ⟨type, htype⟩ := htype
      rw [decodeControlObject_of_type htype] at h
      cases hclient : isOneOf clientToWorkerMessages type with
      | true =>
        rw [hclient, Bool.true_or, show directionAllows type .clientToWorker = true from hclient] at h
        rcases (decodeKnown_ends hclient).failure h with hterse | ⟨rfl, key, hoption, hrefusal⟩
        · exact .inl hterse
        · cases hrefusal
          exact .inr ⟨_, key, .unknownOption hparse htype hoption, rfl⟩
      | false =>
        cases hworker : isOneOf workerToClientMessages type with
        | false =>
          rw [hclient, hworker] at h
          cases h
          exact .inr ⟨_, type, .unknownType hparse htype hclient hworker, rfl⟩
        | true =>
          rw [hclient, hworker, show directionAllows type .clientToWorker = false from hclient] at h
          cases h
          obtain ⟨t, ht, rfl⟩ := mem_of_isOneOf hworker
          simp only [workerToClientMessages, List.mem_cons, List.not_mem_nil, or_false] at ht
          refine .inl (Terse.append (by decide) ?_)
          rcases ht with rfl | rfl | rfl | rfl | rfl | rfl | rfl <;> decide
    · refine .inl ?_
      unfold decodeControlObject at h
      split at h
      · cases h
        decide
      rename_i hobject
      split at h
      · cases h
        decide
      rename_i hforbidden
      split at h
      · cases h
        decide
      · rename_i type hfield
        exact absurd ⟨type, by simpa using hobject, by simpa using hforbidden, hfield⟩ htype
      · cases h
        decide

end Refused

end QwenTtsBridge.Protocol.Control
