/-
  QwenTtsBridge.Interop.Synthesize — a `synthesize` from the C++ client to the Python worker.

  Proved (`synthesize_is_understood`): the worker reads an encoded request as the request
  that was encoded, field by field, and stops nowhere before `validate_request`.

  The client leaves out what is empty or absent, and the worker puts a default there; the
  two sets of bounds on the sampling options are the same. A floating-point option is
  written with a fraction or an exponent, so it is read as one: an integer text that is no
  64-bit integer stands for a value outside every bound (`denotes_float`).
-/

import QwenTtsBridge.Interop.Denotes
import QwenTtsBridge.Protocol.ControlRoundTrip
import QwenTtsBridge.Worker.PyRequest

namespace QwenTtsBridge.Interop

open QwenTtsBridge.Lib QwenTtsBridge.Python QwenTtsBridge.Protocol.Control QwenTtsBridge.Worker

/-! ## Single values -/

theorem denotes_string {s : CppString} {w : Value} (h : Denotes (.string s) w) :
    ∃ t, w = .str t ∧ Utf8.decode s = some t := by
  cases w with
  | str t => exact ⟨t, rfl, h⟩
  | none | bool | int | float | list | dict => exact absurd h (by simp [Denotes])

theorem denotes_boolean {b : Bool} {w : Value} (h : Denotes (.boolean b) w) : w = .bool b := by
  cases w with
  | bool b' =>
    cases h
    rfl
  | none | int | float | str | list | dict => exact absurd h (by simp [Denotes])

theorem denotes_unsigned {n : UInt64} {w : Value} (h : Denotes (.numberUnsigned n) w) : w = .int n.toNat := by
  cases w with
  | int m =>
    cases h
    rfl
  | none | bool | float | str | list | dict => exact absurd h (by simp [Denotes])

theorem denotes_ofU32 {n : UInt32} {w : Value} (h : Denotes (.ofU32 n) w) : w = .int n.toNat := by
  have hw := denotes_unsigned h
  rwa [UInt32.toNat_toUInt64] at hw

theorem denotes_object {fields : List (CppString × Json)} {w : Value} (h : Denotes (.object fields) w) :
    ∃ d, w = .dict d := by
  cases w with
  | dict d => exact ⟨d, rfl⟩
  | none | bool | int | float | str | list => exact absurd h (by simp [Denotes])

theorem denotes_float {x : Binary64.Finite} {w : Value} (hpositive : x.leInt 0 = false ∨ x.ltInt 1 = false)
    (hsmall : x.leInt 1 = true ∨ x.leInt 2 = true) (h : Denotes (.numberFloat (.finite x)) w) :
    w = .float (.finite x) := by
  cases w with
  | float y =>
    cases h
    rfl
  | int n =>
    obtain ⟨hn, hx⟩ := h
    have houtside := Binary64.ofInt_outside (by omega) hx.symm
    rcases houtside with ⟨h0, h1⟩ | ⟨h1, h2⟩
    · rw [h0, h1] at hpositive
      rcases hpositive with hpositive | hpositive <;> cases hpositive
    · rw [h1, h2] at hsmall
      rcases hsmall with hsmall | hsmall <;> cases hsmall
  | none | bool | str | list | dict => exact absurd h (by simp [Denotes])

/-! ## The parts of a request -/

/-- A string of the message and the one that is read. -/
def SameText (s : CppString) (t : PyStr) : Prop := Utf8.decode s = some t

structure SameSampling (options : SynthesisSamplingOptions) (o : PyServer.SamplingOptions) : Prop where
  temperature : o.temperature = options.temperature
  topK : o.topK = options.topK.map fun n => (n.toNat : Int)
  topP : o.topP = options.topP
  repetitionPenalty : o.repetitionPenalty = options.repetitionPenalty
  doSample : o.doSample = options.doSample

structure SameFormat (format : AudioFormat) (output : PyServer.AudioFormat) : Prop where
  sampleFormat : SameText format.sampleFormat output.sampleFormat
  sampleRate : output.sampleRate = format.sampleRate.toNat
  channels : output.channels = format.channels.toNat

/-- The request that the message asks for. -/
structure SameRequest (m : SynthesizeMessage) (id : PyServer.RequestId) (r : PyServer.SynthesisRequest) : Prop where
  requestId : r.requestId = id
  text : SameText m.text r.text
  language : SameText m.language r.language
  speaker : SameText m.speaker r.speaker
  instruction : SameText m.instruction r.instruction
  voiceId : SameText m.voiceId r.voiceId
  referenceAudioPath : SameText m.referenceAudioPath r.referenceAudioPath
  referenceText : SameText m.referenceText r.referenceText
  xVectorOnly : r.xVectorOnly = m.xVectorOnly
  seed : r.seed = if m.hasSeed then some (m.seed.toNat : Int) else none
  sampling : SameSampling m.sampling r.sampling
  output : SameFormat m.output r.output

section Parts

variable {fields : List (CppString × Json)} {d : Dict} (h : Denotes (.object fields) (.dict d)) {name : String}
  (hname : isPlain name = true)

include h hname

theorem get?_string {s : CppString} (hfield : (Json.object fields).field name = some (.string s)) :
    ∃ t, d.get? (PyStr.lit name) = some (.str t) ∧ SameText s t := by
  obtain ⟨w, hw, hv⟩ := h.get?_some hname hfield
  obtain ⟨t, rfl, ht⟩ := denotes_string hv
  exact ⟨t, hw, ht⟩

theorem strOf?_required {s : CppString} (default : String)
    (hfield : (Json.object fields).field name = some (.string s)) :
    ∃ t, PyServer.strOf? d name default = some t ∧ SameText s t := by
  obtain ⟨t, hget, ht⟩ := get?_string h hname hfield
  exact ⟨t, by rw [PyServer.strOf?, hget], ht⟩

/-- A string that is left out when it is empty. -/
theorem strOf?_optional {s : CppString}
    (hfield : (Json.object fields).field name = if (!s.isEmpty) = true then some (.string s) else none) :
    ∃ t, PyServer.strOf? d name "" = some t ∧ SameText s t := by
  cases s with
  | nil => exact ⟨[], by rw [PyServer.strOf?, h.get?_none hname hfield]; rfl, rfl⟩
  | cons b s => exact strOf?_required h hname "" hfield

theorem flagOf?_optional {b : Bool}
    (hfield : (Json.object fields).field name = if b = true then some (.boolean true) else none) :
    PyServer.flagOf? d name = some b := by
  cases b with
  | false => rw [PyServer.flagOf?, h.get?_none hname hfield]
  | true =>
    obtain ⟨w, hw, hv⟩ := h.get?_some hname hfield
    rw [PyServer.flagOf?, hw, denotes_boolean hv]

theorem seedOf?_optional {c : Bool} {n : UInt64}
    (hfield : (Json.object fields).field name = if c = true then some (.numberUnsigned n) else none) :
    PyServer.seedOf? (d.get? (PyStr.lit name)) = some (if c then some (n.toNat : Int) else none) := by
  cases c with
  | false => rw [h.get?_none hname hfield]; rfl
  | true =>
    obtain ⟨w, hw, hv⟩ := h.get?_some hname hfield
    rw [hw, denotes_unsigned hv]
    have hpos : ¬ ((n.toNat : Int) < 0) := by omega
    simp only [PyServer.seedOf?, if_neg hpos, if_true]

/-- An optional number within bounds that no other spelling of a number meets. -/
theorem get?_double {x : Option Binary64} {bounds : Binary64.Finite → Bool}
    (hbounds : ∀ y, bounds y = true → (y.leInt 0 = false ∨ y.ltInt 1 = false) ∧ (y.leInt 1 = true ∨ y.leInt 2 = true))
    (hx : within bounds x = true) (hfield : (Json.object fields).field name = x.map .numberFloat) :
    d.get? (PyStr.lit name) = x.map .float := by
  cases x with
  | none => exact h.get?_none hname hfield
  | some x =>
    obtain ⟨w, hw, hv⟩ := h.get?_some hname hfield
    cases x with
    | nan => cases hx
    | infinity negative => cases hx
    | finite y =>
      obtain ⟨hpositive, hsmall⟩ := hbounds y hx
      rw [hw, denotes_float hpositive hsmall hv]
      rfl

theorem get?_u32 {n : Option UInt32} (hfield : (Json.object fields).field name = n.map .ofU32) :
    d.get? (PyStr.lit name) = n.map fun n => .int n.toNat := by
  cases n with
  | none => exact h.get?_none hname hfield
  | some n =>
    obtain ⟨w, hw, hv⟩ := h.get?_some hname hfield
    rw [hw, denotes_ofU32 hv]
    rfl

theorem get?_bool {b : Option Bool} (hfield : (Json.object fields).field name = b.map .boolean) :
    d.get? (PyStr.lit name) = b.map .bool := by
  cases b with
  | none => exact h.get?_none hname hfield
  | some b =>
    obtain ⟨w, hw, hv⟩ := h.get?_some hname hfield
    rw [hw, denotes_boolean hv]
    rfl

end Parts

theorem unknownFields_eq_nil {options : SynthesisSamplingOptions} {d : Dict}
    (h : Denotes (.object (synthesisSamplingToJson options)) (.dict d)) : PyServer.unknownFields d = [] := by
  have hnone : (d.map (·.1)).filter (· ∉ PyServer.samplingFields) = [] := by
    rw [List.filter_eq_nil_iff]
    intro key hkey
    obtain ⟨p, hp, rfl⟩ := List.mem_map.mp hkey
    obtain ⟨q, hq, hdecode⟩ := h.2 p hp
    obtain ⟨name, hname, hqname⟩ := mem_samplingToJson hq
    have hplain : ∀ n ∈ samplingNames, isPlain n = true := by decide
    rw [hqname, decode_lit (hplain name hname)] at hdecode
    have hmem : p.1 ∈ PyServer.samplingFields := by
      rw [← Option.some.inj hdecode]
      exact List.mem_map_of_mem hname
    simpa using hmem
  rw [PyServer.unknownFields, hnone, List.mergeSort_nil]

theorem parseSampling_same {options : SynthesisSamplingOptions} {d : Dict} (hfits : SamplingFits options)
    (h : Denotes (.object (synthesisSamplingToJson options)) (.dict d)) :
    ∃ o, PyServer.parseSamplingOptions (some (.dict d)) = .ok o ∧ SameSampling options o := by
  have hf := samplingToJson_fields options
  have htemperature := get?_double h (by decide) (by grind) hfits.temperature hf.temperature
  have htopK := get?_u32 h (by decide) hf.topK
  have htopP := get?_double h (by decide) (by grind) hfits.topP hf.topP
  have hpenalty := get?_double h (by decide) (by grind) hfits.repetitionPenalty hf.repetitionPenalty
  have hsample := get?_bool h (by decide) hf.doSample
  have hfloat : ∀ x : Option Binary64, PyServer.isNumber (x.map .float) = true ∧ PyServer.float (x.map .float) = .ok x := by
    intro x
    cases x <;> exact ⟨rfl, rfl⟩
  have hpositive : PyServer.isPositiveInt (options.topK.map fun n => .int n.toNat) = true ∧
      (options.topK.map fun n => (n.toNat : Int)).all (0 < ·) = true := by
    have hk := hfits.topK
    cases htop : options.topK with
    | none => exact ⟨rfl, rfl⟩
    | some n =>
      have hne : n ≠ 0 := fun hn => hk (by rw [htop, hn])
      have hpos : 0 < n.toNat := Nat.pos_of_ne_zero fun hn => hne (UInt32.toNat_inj.mp hn)
      simp [PyServer.isPositiveInt, hpos]
  have hint : PyServer.intOf? (options.topK.map fun n => .int n.toNat) = options.topK.map fun n => (n.toNat : Int) := by
    cases options.topK <;> rfl
  have hbool : PyServer.isBool (options.doSample.map .bool) = true ∧
      PyServer.boolOf? (options.doSample.map .bool) = options.doSample := by
    cases options.doSample <;> exact ⟨rfl, rfl⟩
  have hinterval : ∀ x : Option Binary64, PyServer.inInterval false 0 2 x = within (fun x => !x.leInt 0 && x.leInt 2) x ∧
      PyServer.inInterval false 0 1 x = within (fun x => !x.leInt 0 && x.leInt 1) x ∧
      PyServer.inInterval true 1 2 x = within (fun x => !x.ltInt 1 && x.leInt 2) x := by
    intro x
    rcases x with _ | (_ | _ | _) <;> exact ⟨rfl, rfl, rfl⟩
  refine ⟨⟨options.temperature, options.topK.map fun n => (n.toNat : Int), options.topP, options.repetitionPenalty,
    options.doSample⟩, ?_, ⟨rfl, rfl, rfl, rfl, rfl⟩⟩
  have hvalid : PyServer.SamplingOptions.valid ⟨options.temperature, options.topK.map fun n => (n.toNat : Int),
      options.topP, options.repetitionPenalty, options.doSample⟩ = true := by
    simp only [PyServer.SamplingOptions.valid, (hinterval _).1, (hinterval _).2.1, (hinterval _).2.2, hfits.temperature,
      hpositive.2, hfits.topP, hfits.repetitionPenalty, Bool.and_true]
  have hoptions : PyServer.samplingOptions d = .ok ⟨options.temperature, options.topK.map fun n => (n.toNat : Int),
      options.topP, options.repetitionPenalty, options.doSample⟩ := by
    simp only [PyServer.samplingOptions, htemperature, htopP, hpenalty, htopK, hsample, (hfloat _).2, hint, hbool.2, bind,
      Except.bind, hvalid, if_true]
  simp only [PyServer.parseSamplingOptions, unknownFields_eq_nil h, htemperature, htopP, hpenalty, htopK, hsample,
    (hfloat _).1, hpositive.1, hbool.1, hoptions, ne_eq, not_true_eq_false, if_false, Bool.and_true, Bool.not_true,
    Bool.false_eq_true]

theorem parseOutput_same (py : Interpreter) {format : AudioFormat} {d : Dict}
    (h : Denotes (.object (audioFormatToJson format)) (.dict d)) :
    ∃ output, PyServer.parseOutput py (some d) = .ok output ∧ SameFormat format output := by
  have hf := audioFormatToJson_fields format
  obtain ⟨t, hformat, ht⟩ := get?_string h (by decide) hf.sampleFormat
  have hrate := get?_u32 h (by decide) (n := some format.sampleRate) hf.sampleRate
  have hchannels := get?_u32 h (by decide) (n := some format.channels) hf.channels
  refine ⟨⟨t, format.sampleRate.toNat, format.channels.toNat⟩, ?_, ⟨ht, rfl, rfl⟩⟩
  simp only [PyServer.parseOutput, PyServer.AudioFormat.fromPayload, hformat, hrate, hchannels, Option.map_some,
    Option.getD_some, str, int, bind, Except.bind]

/-! ## The request -/

theorem parseRequest_same (py : Interpreter) (id : PyServer.RequestId) {m : SynthesizeMessage} {d : Dict}
    (hvalid : validateSynthesize m = .ok ()) (h : Denotes (.object (synthesizeToJson m)) (.dict d)) :
    ∃ r, PyServer.parseRequest py id d = .ok r ∧ SameRequest m id r := by
  have hf := synthesizeToJson_fields m
  obtain ⟨text, htext, hsameText⟩ := get?_string h (by decide) hf.text
  obtain ⟨language, hlanguage, hsameLanguage⟩ := strOf?_required h (by decide) "auto" hf.language
  obtain ⟨speaker, hspeaker, hsameSpeaker⟩ := strOf?_optional h (by decide) hf.speaker
  obtain ⟨instruction, hinstruction, hsameInstruction⟩ := strOf?_required h (by decide) "" hf.instruction
  obtain ⟨voiceId, hvoice, hsameVoice⟩ := strOf?_optional h (by decide) hf.voiceId
  obtain ⟨path, hpath, hsamePath⟩ := strOf?_optional h (by decide) hf.referenceAudioPath
  obtain ⟨reference, hreference, hsameReference⟩ := strOf?_optional h (by decide) hf.referenceText
  have hvector := flagOf?_optional h (by decide) hf.xVectorOnly
  have hseed := seedOf?_optional h (by decide) hf.seed
  obtain ⟨o, hsampling, hsameSampling⟩ : ∃ o,
      PyServer.parseSamplingOptions (d.get? (PyStr.lit "sampling")) = .ok o ∧ SameSampling m.sampling o := by
    have hfield := hf.sampling
    by_cases hempty : (synthesisSamplingToJson m.sampling).isEmpty = true
    · rw [if_pos hempty] at hfield
      rw [h.get?_none (by decide) hfield, sampling_of_isEmpty hempty]
      exact ⟨{}, rfl, ⟨rfl, rfl, rfl, rfl, rfl⟩⟩
    · rw [if_neg hempty] at hfield
      obtain ⟨w, hw, hv⟩ := h.get?_some (by decide) hfield
      obtain ⟨payload, rfl⟩ := denotes_object hv
      rw [hw]
      exact parseSampling_same (validateSynthesize_ok hvalid).1 hv
  obtain ⟨w, hw, hv⟩ := h.get?_some (by decide) hf.output
  obtain ⟨payload, rfl⟩ := denotes_object hv
  obtain ⟨output, houtput, hsameOutput⟩ := parseOutput_same py hv
  refine ⟨⟨id, text, language, speaker, instruction, voiceId, path, reference, m.xVectorOnly,
    if m.hasSeed then some (m.seed.toNat : Int) else none, o, output⟩, ?_,
    ⟨rfl, hsameText, hsameLanguage, hsameSpeaker, hsameInstruction, hsameVoice, hsamePath, hsameReference, rfl, rfl,
      hsameSampling, hsameOutput⟩⟩
  simp only [PyServer.parseRequest, PyServer.parseFields, htext, hlanguage, hspeaker, hinstruction, hvoice, hpath,
    hreference, hvector, hseed, hsampling, hw, PyServer.outputPayload, houtput, bind, Except.bind]

/-- Every `synthesize` that the client encodes is read by the worker as the request it is. -/
theorem synthesize_is_understood (lib : JsonLibrary) (py : Interpreter) (hlib : lib.ReadsBack) (m : SynthesizeMessage)
    (payload : CppString) (hencode : encodeControlMessage lib (.synthesize m) = .ok payload)
    (hagree : Agree lib py payload) (id : PyServer.RequestId) :
    ∃ message, PyServer.decodeControlPayload py payload = .ok (message, PyStr.lit "synthesize") ∧
      ∃ request, PyServer.parseRequest py id message = .ok request ∧ SameRequest m id request := by
  obtain ⟨hvalid, hencoded⟩ := encodeControlMessage_ok.mp hencode
  have hparse := parse_encoded hlib (canonical_toJson hvalid) hencoded
  have hvalue : lib.parse payload = .ok (.object (synthesizeToJson m)) := by
    unfold parsePayload at hparse
    split at hparse
    · rename_i v hv
      cases hparse
      exact hv
    · cases hparse
    · cases hparse
  obtain ⟨s, w, hs, hw, hdenotes⟩ := hagree.of_parse hvalue
  obtain ⟨d, rfl⟩ := denotes_object hdenotes
  obtain ⟨request, hrequest, hsame⟩ := parseRequest_same py id hvalid hdenotes
  refine ⟨d, ?_, request, hrequest, hsame⟩
  have hforbidden := hasForbiddenHeaderField_toJson (.synthesize m)
  simp only [hasForbiddenHeaderField, Bool.or_eq_false_iff, Option.isSome_eq_false_iff, Option.isNone_iff_eq_none]
    at hforbidden
  obtain ⟨type, htype, hname⟩ := get?_string hdenotes (by decide) (field_messageType (.synthesize m))
  have hdecoded : SameText (CppString.lit "synthesize") type := hname
  rw [SameText, decode_lit (by decide)] at hdecoded
  cases hdecoded
  simp only [PyServer.decodeControlPayload, hs, hw, hdenotes.get?_none (by decide) hforbidden.1,
    hdenotes.get?_none (by decide) hforbidden.2, htype, Option.isSome_none, Bool.or_self, Bool.false_eq_true, if_false]

/-- A request with a seed and a bound on the candidates. -/
def seededRequest : SynthesizeMessage :=
  { text := CppString.lit "hi", hasSeed := true, seed := 7, sampling := { topK := some 50 } }

def seededJson : Json := .object (controlMessageToJson (.synthesize seededRequest))

def seededDict : Dict :=
  [(PyStr.lit "instruction", .str []), (PyStr.lit "language", .str (PyStr.lit "auto")),
    (PyStr.lit "message_type", .str (PyStr.lit "synthesize")),
    (PyStr.lit "output", .dict [(PyStr.lit "channels", .int 1), (PyStr.lit "sample_format", .str (PyStr.lit "s16le")),
      (PyStr.lit "sample_rate", .int 24000)]),
    (PyStr.lit "sampling", .dict [(PyStr.lit "top_k", .int 50)]), (PyStr.lit "seed", .int 7),
    (PyStr.lit "text", .str (PyStr.lit "hi"))]

set_option maxRecDepth 20000 in
theorem loads_seeded :
    loads PyServer.sampleInterpreter (Value.dict seededDict).jsonText = .ok (.dict seededDict) := by
  rfl

theorem denotes_seeded : Denotes seededJson (.dict seededDict) := by
  have hfields : controlMessageToJson (.synthesize seededRequest) =
      [(CppString.lit "instruction", .string []), (CppString.lit "language", .lit "auto"),
        (CppString.lit "message_type", .lit "synthesize"),
        (CppString.lit "output", .object [(CppString.lit "channels", .ofU32 1), (CppString.lit "sample_format", .lit "s16le"),
          (CppString.lit "sample_rate", .ofU32 24000)]),
        (CppString.lit "sampling", .object [(CppString.lit "top_k", .ofU32 50)]),
        (CppString.lit "seed", .numberUnsigned 7), (CppString.lit "text", .lit "hi")] := rfl
  have hoptions : Denotes (.object [(CppString.lit "top_k", .ofU32 50)]) (.dict [(PyStr.lit "top_k", .int 50)]) :=
    ⟨⟨⟨_, _, decode_lit (by decide), rfl, rfl⟩, trivial⟩, by decide⟩
  have hformat : Denotes (.object [(CppString.lit "channels", .ofU32 1), (CppString.lit "sample_format", .lit "s16le"),
      (CppString.lit "sample_rate", .ofU32 24000)]) (.dict [(PyStr.lit "channels", .int 1),
        (PyStr.lit "sample_format", .str (PyStr.lit "s16le")), (PyStr.lit "sample_rate", .int 24000)]) := by
    refine ⟨⟨⟨_, _, decode_lit (by decide), rfl, rfl⟩, ⟨_, _, decode_lit (by decide), rfl, decode_lit (by decide)⟩,
      ⟨_, _, decode_lit (by decide), rfl, rfl⟩, trivial⟩, by decide +kernel⟩
  rw [seededJson, hfields]
  refine ⟨⟨⟨_, _, decode_lit (by decide), rfl, rfl⟩, ⟨_, _, decode_lit (by decide), rfl, decode_lit (by decide)⟩,
    ⟨_, _, decode_lit (by decide), rfl, decode_lit (by decide)⟩, ⟨_, _, decode_lit (by decide), rfl, hformat⟩,
    ⟨_, _, decode_lit (by decide), rfl, hoptions⟩, ⟨_, _, decode_lit (by decide), rfl, rfl⟩,
    ⟨_, _, decode_lit (by decide), rfl, decode_lit (by decide)⟩, trivial⟩, by decide +kernel⟩

theorem a_seeded_request_is_understood :
    ∃ message, PyServer.decodeControlPayload PyServer.sampleInterpreter (seededJson.text fun _ => []) =
        .ok (message, PyStr.lit "synthesize") ∧
      ∃ request, PyServer.parseRequest PyServer.sampleInterpreter 1 message = .ok request ∧
        SameRequest seededRequest 1 request := by
  have hencode : encodeControlMessage (.knowing seededJson) (.synthesize seededRequest) =
      .ok (seededJson.text fun _ => []) := by
    refine encodeControlMessage_ok.mpr ⟨by decide, ?_⟩
    rw [encodeJsonPayload, show Json.object (controlMessageToJson (.synthesize seededRequest)) = seededJson from rfl,
      JsonLibrary.knowing_dump]
  have hagree : Agree (.knowing seededJson) PyServer.sampleInterpreter (seededJson.text fun _ => []) := by
    have htext : Utf8.decode (seededJson.text fun _ => []) = some (Value.dict seededDict).jsonText := by decide +kernel
    exact .value (JsonLibrary.knowing_parse seededJson) htext loads_seeded denotes_seeded
  exact synthesize_is_understood (.knowing seededJson) PyServer.sampleInterpreter
    (JsonLibrary.knowing_readsBack seededJson) seededRequest (seededJson.text fun _ => []) hencode hagree 1

end QwenTtsBridge.Interop
