/-
  QwenTtsBridge.Worker.PyRequest — `_parse_synthesis_request` and what it calls:
  `_parse_sampling_options`, `SamplingOptions.__post_init__` and
  `AudioFormat.from_payload`.

  Each check either goes on, stops with the `error_json` it sends, or lets an exception
  through (`Stop`). `engine.validate_request` is a parameter: the code and text of the
  EngineRequestValidationError that it raises, if it raises.

  Proved: exactly when the parser neither raises nor sends an error that cannot be
  encoded (`parse_safe_iff`).
-/

import QwenTtsBridge.Worker.PyMessages

namespace QwenTtsBridge.Worker.PyServer

open QwenTtsBridge.Python QwenTtsBridge.Lib

/-- How a check ends when it does not go on. -/
inductive Stop where
  | refused (e : ErrorMessage)
  | raises
  deriving DecidableEq, Repr

/-- `validate_request`. -/
abbrev Validate := SynthesisRequest → Option (PyStr × PyStr)

def refuse {α : Type} (code text : String) : Except Stop α := .error (.refused (.lit "request_error" code text))

/-! ## Sampling -/

def samplingFields : List PyStr :=
  ["temperature", "top_k", "top_p", "repetition_penalty", "do_sample"].map PyStr.lit

/-- The order of Python strings: by code point, then by length. -/
def strLe : PyStr → PyStr → Bool
  | [], _ => true
  | _ :: _, [] => false
  | a :: s, b :: t => a < b || (a == b && strLe s t)

/-- `sorted(set(payload).difference(_SAMPLING_FIELDS))`. -/
def unknownFields (payload : Dict) : List PyStr :=
  ((payload.map (·.1)).filter (· ∉ samplingFields)).mergeSort strLe

def unknownFieldError (payload : Dict) : ErrorMessage :=
  ⟨PyStr.lit "request_error", PyStr.lit "unknown_field",
    PyStr.lit "sampling contains unknown field(s): " ++ join (PyStr.lit ", ") (unknownFields payload)⟩

/-- None, or a number that is no bool. -/
def isNumber : Option Value → Bool
  | none | some .none | some (.int _) | some (.float _) => true
  | some _ => false

def isPositiveInt : Option Value → Bool
  | none | some .none => true
  | some (.int n) => 0 < n
  | some _ => false

def isBool : Option Value → Bool
  | none | some .none | some (.bool _) => true
  | some _ => false

/-- `None if value is None else float(value)`, after `isNumber`. -/
def float : Option Value → Except Exn (Option Binary64)
  | some (.int n) => match floatOfInt n with
    | .ok x => .ok (some x)
    | .error e => .error e
  | some (.float x) => .ok (some x)
  | _ => .ok none

def intOf? : Option Value → Option Int
  | some (.int n) => some n
  | _ => none

def boolOf? : Option Value → Option Bool
  | some (.bool b) => some b
  | _ => none

/-- `math.isfinite(x) and low < x <= high`, or `low <= x` for a closed interval; None passes. -/
def inInterval (closed : Bool) (low high : Int) : Option Binary64 → Bool
  | none => true
  | some (.finite x) => (if closed then !x.ltInt low else !x.leInt low) && x.leInt high
  | some _ => false

/-- `__post_init__` raises no ValueError. -/
def SamplingOptions.valid (o : SamplingOptions) : Bool :=
  inInterval false 0 2 o.temperature && (o.topK.all (0 < ·)) && inInterval false 0 1 o.topP &&
    inInterval true 1 2 o.repetitionPenalty

/-- `SamplingOptions(...)`, its three conversions in order and `__post_init__`. -/
def samplingOptions (payload : Dict) : Except Exn SamplingOptions := do
  let temperature ← float (payload.get? (PyStr.lit "temperature"))
  let topP ← float (payload.get? (PyStr.lit "top_p"))
  let repetitionPenalty ← float (payload.get? (PyStr.lit "repetition_penalty"))
  let o : SamplingOptions :=
    { temperature, topK := intOf? (payload.get? (PyStr.lit "top_k")), topP, repetitionPenalty
      doSample := boolOf? (payload.get? (PyStr.lit "do_sample")) }
  if o.valid then .ok o else .error .valueError

def parseSamplingOptions : Option Value → Except Stop SamplingOptions
  | none | some .none => .ok {}
  | some (.dict payload) =>
    if unknownFields payload ≠ [] then .error (.refused (unknownFieldError payload))
    else if !(isNumber (Dict.get? payload (PyStr.lit "temperature")) && isNumber (Dict.get? payload (PyStr.lit "top_p")) &&
        isNumber (Dict.get? payload (PyStr.lit "repetition_penalty"))) then
      refuse "invalid_field_type" "sampling temperature, top_p, and repetition_penalty must be numbers"
    else if !isPositiveInt (Dict.get? payload (PyStr.lit "top_k")) then
      refuse "invalid_field_type" "sampling.top_k must be a positive integer"
    else if !isBool (Dict.get? payload (PyStr.lit "do_sample")) then
      refuse "invalid_field_type" "sampling.do_sample must be a boolean"
    else match samplingOptions payload with
      | .ok o => .ok o
      | .error e =>
        -- `except ValueError`
        if e.isValueError then refuse "invalid_field_type" "sampling values are invalid" else .error .raises
  | some _ => refuse "invalid_field_type" "sampling must be an object when provided"

/-! ## Output format -/

/-- `AudioFormat.from_payload`, its three conversions in order. -/
def AudioFormat.fromPayload (py : Interpreter) : Option Dict → Except Exn AudioFormat
  | none => .ok {}
  | some payload => do
    let sampleFormat ← str py ((payload.get? (PyStr.lit "sample_format")).getD (.str (PyStr.lit "s16le")))
    let sampleRate ← int py ((payload.get? (PyStr.lit "sample_rate")).getD (.int 24000))
    let channels ← int py ((payload.get? (PyStr.lit "channels")).getD (.int 1))
    .ok { sampleFormat, sampleRate, channels }

def parseOutput (py : Interpreter) (payload : Option Dict) : Except Stop AudioFormat :=
  match AudioFormat.fromPayload py payload with
  | .ok output => .ok output
  | .error e =>
    -- `except (TypeError, ValueError)`
    if e = .typeError ∨ e.isValueError then refuse "invalid_field_type" "output contains invalid field types"
    else .error .raises

/-- `output_payload`: None, or an object. -/
def outputPayload : Option Value → Except Stop (Option Dict)
  | none | some .none => .ok none
  | some (.dict payload) => .ok (some payload)
  | some _ => refuse "invalid_field_type" "output must be an object"

/-! ## The request -/

/-- `message.get(key, default)` where a string is required. -/
def strOf? (message : Dict) (key : String) (default : String) : Option PyStr :=
  match message.get? (PyStr.lit key) with
  | none => some (PyStr.lit default)
  | some (.str s) => some s
  | some _ => none

def flagOf? (message : Dict) (key : String) : Option Bool :=
  match message.get? (PyStr.lit key) with
  | none => some false
  | some (.bool b) => some b
  | some _ => none

/-- None, or an integer that is no bool and not negative. -/
def seedOf? : Option Value → Option (Option Int)
  | none | some .none => some none
  | some (.int n) => if n < 0 then none else some (some n)
  | some _ => none

/-- The checks before `_parse_sampling_options`, which send fixed errors only. -/
def parseFields (id : RequestId) (message : Dict) : Except Stop SynthesisRequest :=
  match message.get? (PyStr.lit "text") with
  | some (.str text) =>
    match strOf? message "language" "auto", strOf? message "speaker" "" with
    | some language, some speaker =>
      match strOf? message "instruction" "" with
      | some instruction =>
        match seedOf? (message.get? (PyStr.lit "seed")) with
        | some seed =>
          match strOf? message "reference_audio_path" "", strOf? message "reference_text" "",
            strOf? message "voice_id" "", flagOf? message "x_vector_only" with
          | some referenceAudioPath, some referenceText, some voiceId, some xVectorOnly =>
            .ok { requestId := id, text, language, speaker, instruction, voiceId, referenceAudioPath, referenceText,
                  xVectorOnly, seed }
          | _, _, _, _ => refuse "invalid_field_type" "voice-clone reference fields must be strings and boolean"
        | none => refuse "invalid_field_type" "seed must be a non-negative integer when provided"
      | none => refuse "invalid_field_type" "instruction must be a string"
    | _, _ => refuse "invalid_field_type" "language and speaker must be strings"
  | _ => refuse "missing_required_field" "synthesize.text must be a string"

/-- `_parse_synthesis_request` up to `validate_request`. -/
def parseRequest (py : Interpreter) (id : RequestId) (message : Dict) : Except Stop SynthesisRequest := do
  let request ← parseFields id message
  let sampling ← parseSamplingOptions (message.get? (PyStr.lit "sampling"))
  let payload ← outputPayload (message.get? (PyStr.lit "output"))
  let output ← parseOutput py payload
  .ok { request with sampling, output }

def parseSynthesisRequest (py : Interpreter) (validate : Validate) (id : RequestId) (message : Dict) : Parsed :=
  match parseRequest py id message with
  | .error .raises => .raises
  | .error (.refused e) => .refused e
  | .ok request =>
    match validate request with
    | none => .request request
    | some (code, text) => .refused ⟨PyStr.lit "request_error", code, text⟩

/-! ## When parsing is safe -/

/-- The checks of `_parse_sampling_options` on the types of its fields. -/
def samplingTyped (payload : Dict) : Bool :=
  isNumber (payload.get? (PyStr.lit "temperature")) && isNumber (payload.get? (PyStr.lit "top_p")) &&
    isNumber (payload.get? (PyStr.lit "repetition_penalty")) && isPositiveInt (payload.get? (PyStr.lit "top_k")) &&
    isBool (payload.get? (PyStr.lit "do_sample"))

/-- No integer that `float()` refuses. -/
def FloatFits (v : Option Value) : Prop := ∀ n, v = some (.int n) → -floatOverflow < n ∧ n < floatOverflow

structure FloatsFit (payload : Dict) : Prop where
  temperature : FloatFits (payload.get? (PyStr.lit "temperature"))
  topP : FloatFits (payload.get? (PyStr.lit "top_p"))
  repetitionPenalty : FloatFits (payload.get? (PyStr.lit "repetition_penalty"))

/-- What `AudioFormat.from_payload` takes of an output object so that nothing but a TypeError or
    a ValueError is raised: room for `str`, and no infinity where `int` gets to it. -/
structure OutputFits (py : Interpreter) (payload : Dict) : Prop where
  sampleFormat : ∀ v, payload.get? (PyStr.lit "sample_format") = some v → v.strWithin py = true
  sampleRate : ∀ b, payload.get? (PyStr.lit "sample_rate") ≠ some (.float (.infinity b))
  channels : ∀ n, int py ((payload.get? (PyStr.lit "sample_rate")).getD (.int 24000)) = .ok n →
    ∀ b, payload.get? (PyStr.lit "channels") ≠ some (.float (.infinity b))

/-- What a `synthesize` message takes so that parsing it raises nothing and every error it is
    answered with can be sent. -/
structure RequestFits (py : Interpreter) (validate : Validate) (id : RequestId) (message : Dict) : Prop where
  /-- The names of unknown sampling fields are echoed. -/
  names : ∀ request payload, parseFields id message = .ok request →
    message.get? (PyStr.lit "sampling") = some (.dict payload) → unknownFields payload ≠ [] →
    (unknownFieldError payload).Sendable
  floats : ∀ request payload, parseFields id message = .ok request →
    message.get? (PyStr.lit "sampling") = some (.dict payload) → unknownFields payload = [] →
    samplingTyped payload = true → FloatsFit payload
  output : ∀ request sampling payload, parseFields id message = .ok request →
    parseSamplingOptions (message.get? (PyStr.lit "sampling")) = .ok sampling →
    message.get? (PyStr.lit "output") = some (.dict payload) → OutputFits py payload
  /-- The engine's refusal is echoed. -/
  validation : ∀ request code text, parseRequest py id message = .ok request → validate request = some (code, text) →
    (ErrorMessage.mk (PyStr.lit "request_error") code text).Sendable

def Parsed.Safe : Parsed → Prop
  | .raises => False
  | .refused e => e.Sendable
  | .request _ => True

def Stop.Safe : Stop → Prop
  | .raises => False
  | .refused e => e.Sendable

section Safe

variable {py : Interpreter} {validate : Validate} {id : RequestId} {m payload : Dict} {v : Option Value}

instance (e : ErrorMessage) : Decidable e.Sendable :=
  decidable_of_iff (Scalars e.category ∧ Scalars e.code ∧ Scalars e.message ∧
      e.size ≤ Protocol.Framing.ProtocolLimits.maxErrorPayloadBytes)
    ⟨fun h => ⟨h.1, h.2.1, h.2.2.1, h.2.2.2⟩, fun h => ⟨h.category, h.code, h.message, h.size⟩⟩

/-- A fixed refusal can be sent. -/
theorem refuse_safe {α : Type} {code text : String} {stop : Stop} (hlit : (ErrorMessage.lit "request_error" code text).Sendable)
    (h : (refuse code text : Except Stop α) = .error stop) : stop.Safe := by
  cases h
  exact hlit

theorem parseFields_safe {stop : Stop} (h : parseFields id m = .error stop) : stop.Safe := by
  unfold parseFields at h
  split at h
  · split at h
    · split at h
      · split at h
        · split at h
          · cases h
          · exact refuse_safe (by decide) h
        · exact refuse_safe (by decide) h
      · exact refuse_safe (by decide) h
    · exact refuse_safe (by decide) h
  · exact refuse_safe (by decide) h

theorem float_cases (v : Option Value) :
    (FloatFits v ∧ ∃ x, float v = .ok x) ∨ (¬ FloatFits v ∧ float v = .error .overflowError) := by
  unfold float
  split
  · rename_i n
    by_cases hn : floatOverflow ≤ n ∨ n ≤ -floatOverflow
    · refine .inr ⟨fun h => ?_, by simp [floatOfInt, hn]⟩
      have := h n rfl
      omega
    · refine .inl ⟨fun m hm => ?_, by simp [floatOfInt, hn]⟩
      cases hm
      omega
  · exact .inl ⟨fun m hm => (by cases hm), _, rfl⟩
  · rename_i hint hfloat
    exact .inl ⟨fun m hm => absurd hm (hint m), _, rfl⟩

theorem samplingOptions_cases (payload : Dict) :
    (FloatsFit payload ∧ ((∃ o, samplingOptions payload = .ok o) ∨ samplingOptions payload = .error .valueError)) ∨
      (¬ FloatsFit payload ∧ samplingOptions payload = .error .overflowError) := by
  unfold samplingOptions
  rcases float_cases (payload.get? (PyStr.lit "temperature")) with ⟨h1, x1, e1⟩ | ⟨h1, e1⟩
  · rcases float_cases (payload.get? (PyStr.lit "top_p")) with ⟨h2, x2, e2⟩ | ⟨h2, e2⟩
    · rcases float_cases (payload.get? (PyStr.lit "repetition_penalty")) with ⟨h3, x3, e3⟩ | ⟨h3, e3⟩
      · refine .inl ⟨⟨h1, h2, h3⟩, ?_⟩
        simp only [e1, e2, e3, bind, Except.bind]
        split
        · exact .inl ⟨_, rfl⟩
        · exact .inr rfl
      · exact .inr ⟨fun h => h3 h.repetitionPenalty, by simp only [e1, e2, e3, bind, Except.bind]⟩
    · exact .inr ⟨fun h => h2 h.topP, by simp only [e1, e2, bind, Except.bind]⟩
  · exact .inr ⟨fun h => h1 h.temperature, by simp only [e1, bind, Except.bind]⟩

/-- What `_parse_sampling_options` stops with is safe exactly when the names it echoes can be
    sent and its integers fit. -/
theorem parseSampling_safe_iff : (∀ stop, parseSamplingOptions v = .error stop → stop.Safe) ↔
    ∀ payload, v = some (.dict payload) →
      (unknownFields payload ≠ [] → (unknownFieldError payload).Sendable) ∧
        (unknownFields payload = [] → samplingTyped payload = true → FloatsFit payload) := by
  constructor
  · rintro h payload rfl
    refine ⟨fun hu => h (.refused (unknownFieldError payload)) (if_pos hu), ?_⟩
    intro hu htyped
    simp only [samplingTyped, Bool.and_eq_true] at htyped
    obtain ⟨⟨⟨⟨ht, hp⟩, hr⟩, hk⟩, hd⟩ := htyped
    rcases samplingOptions_cases payload with ⟨hfit, -⟩ | ⟨-, hover⟩
    · exact hfit
    · have hraises : parseSamplingOptions (some (.dict payload)) = .error .raises := by
        simp [parseSamplingOptions, hu, ht, hp, hr, hk, hd, hover, Exn.isValueError]
      exact (h .raises hraises).elim
  · intro h stop hstop
    unfold parseSamplingOptions at hstop
    split at hstop
    · cases hstop
    · cases hstop
    · rename_i payload
      obtain ⟨hnames, hfloats⟩ := h payload rfl
      split at hstop
      · rename_i hu
        cases hstop
        exact hnames hu
      · rename_i hu
        split at hstop
        · exact refuse_safe (by decide) hstop
        · split at hstop
          · exact refuse_safe (by decide) hstop
          · split at hstop
            · exact refuse_safe (by decide) hstop
            · rename_i hn hk hd
              have hfit : FloatsFit payload := by
                refine hfloats (by simpa using hu) ?_
                simp only [Bool.not_eq_true, Bool.not_eq_false'] at hn hk hd
                simp only [samplingTyped, hn, hk, hd, Bool.and_self]
              split at hstop
              · cases hstop
              · rename_i e he
                rcases samplingOptions_cases payload with ⟨-, ⟨o, ho⟩ | hv⟩ | ⟨hnot, -⟩
                · rw [ho] at he
                  cases he
                · rw [hv] at he
                  cases he
                  exact refuse_safe (by decide) hstop
                · exact absurd hfit hnot
    · exact refuse_safe (by decide) hstop

theorem outputPayload_safe {stop : Stop} (h : outputPayload v = .error stop) : stop.Safe := by
  unfold outputPayload at h
  split at h
  · cases h
  · cases h
  · cases h
  · exact refuse_safe (by decide) h

theorem outputPayload_some (h : outputPayload v = .ok (some payload)) : v = some (.dict payload) := by
  unfold outputPayload at h
  split at h
  · cases h
  · cases h
  · cases h
    rfl
  · cases h

theorem intOfStr_cases (text : PyStr) : (∃ n, intOfStr py text = .ok n) ∨ intOfStr py text = .error .valueError := by
  unfold intOfStr
  simp only
  split
  · exact .inr rfl
  · split
    · exact .inr rfl
    · exact .inl ⟨_, rfl⟩

theorem int_cases (py : Interpreter) (v : Value) : (∃ b, v = .float (.infinity b) ∧ int py v = .error .overflowError) ∨
    ((∀ b, v ≠ .float (.infinity b)) ∧
      ((∃ n, int py v = .ok n) ∨ int py v = .error .valueError ∨ int py v = .error .typeError)) := by
  cases v with
  | float x =>
    cases x with
    | infinity b => exact .inl ⟨b, rfl, rfl⟩
    | nan => exact .inr ⟨nofun, .inr (.inl rfl)⟩
    | finite x => exact .inr ⟨nofun, .inl ⟨_, rfl⟩⟩
  | bool b => exact .inr ⟨nofun, .inl ⟨_, rfl⟩⟩
  | int n => exact .inr ⟨nofun, .inl ⟨n, rfl⟩⟩
  | str s => exact .inr ⟨nofun, (intOfStr_cases s).imp_right .inl⟩
  | none => exact .inr ⟨nofun, .inr (.inr rfl)⟩
  | list items => exact .inr ⟨nofun, .inr (.inr rfl)⟩
  | dict items => exact .inr ⟨nofun, .inr (.inr rfl)⟩

/-- A default is no infinity. -/
theorem getD_eq_infinity {n : Int} {b : Bool} :
    v.getD (.int n) = .float (.infinity b) ↔ v = some (.float (.infinity b)) := by
  cases v with
  | none => exact iff_of_false nofun nofun
  | some v => simp

theorem fromPayload_cases (hints : ∀ v, payload.get? (PyStr.lit "sample_format") = some v → v.IntsWithin py) :
    (OutputFits py payload ∧ ((∃ o, AudioFormat.fromPayload py (some payload) = .ok o) ∨
      AudioFormat.fromPayload py (some payload) = .error .valueError ∨
      AudioFormat.fromPayload py (some payload) = .error .typeError)) ∨
    (¬ OutputFits py payload ∧ (AudioFormat.fromPayload py (some payload) = .error .recursionError ∨
      AudioFormat.fromPayload py (some payload) = .error .overflowError)) := by
  have hformat : ((payload.get? (PyStr.lit "sample_format")).getD (.str (PyStr.lit "s16le"))).IntsWithin py := by
    cases h : payload.get? (PyStr.lit "sample_format") with
    | none => simp [Value.IntsWithin, Value.ints]
    | some v => exact hints v h
  rcases str_outcome hformat with ⟨hroom, text, htext⟩ | ⟨hroom, htext⟩
  · have hfits : ∀ v, payload.get? (PyStr.lit "sample_format") = some v → v.strWithin py = true := by
      intro v hv
      rwa [hv] at hroom
    rcases int_cases py ((payload.get? (PyStr.lit "sample_rate")).getD (.int 24000)) with
      ⟨b, hrate, herror⟩ | ⟨hrate, hint⟩
    · refine .inr ⟨fun h => h.sampleRate b (getD_eq_infinity.mp hrate), .inr ?_⟩
      simp only [AudioFormat.fromPayload, htext, herror, bind, Except.bind]
    · have hrate' : ∀ b, payload.get? (PyStr.lit "sample_rate") ≠ some (.float (.infinity b)) :=
        fun b h => hrate b (getD_eq_infinity.mpr h)
      rcases hint with ⟨n, hn⟩ | herror | herror
      · rcases int_cases py ((payload.get? (PyStr.lit "channels")).getD (.int 1)) with
          ⟨b, hchannels, herror⟩ | ⟨hchannels, hint⟩
        · refine .inr ⟨fun h => h.channels n hn b (getD_eq_infinity.mp hchannels), .inr ?_⟩
          simp only [AudioFormat.fromPayload, htext, hn, herror, bind, Except.bind]
        · refine .inl ⟨⟨hfits, hrate', fun _ _ b h => hchannels b (getD_eq_infinity.mpr h)⟩, ?_⟩
          rcases hint with ⟨k, hk⟩ | herror | herror
          · exact .inl ⟨_, by simp only [AudioFormat.fromPayload, htext, hn, hk, bind, Except.bind]; rfl⟩
          · exact .inr (.inl (by simp only [AudioFormat.fromPayload, htext, hn, herror, bind, Except.bind]))
          · exact .inr (.inr (by simp only [AudioFormat.fromPayload, htext, hn, herror, bind, Except.bind]))
      · refine .inl ⟨⟨hfits, hrate', fun n hn => ?_⟩, .inr (.inl ?_)⟩
        · rw [herror] at hn
          cases hn
        · simp only [AudioFormat.fromPayload, htext, herror, bind, Except.bind]
      · refine .inl ⟨⟨hfits, hrate', fun n hn => ?_⟩, .inr (.inr ?_)⟩
        · rw [herror] at hn
          cases hn
        · simp only [AudioFormat.fromPayload, htext, herror, bind, Except.bind]
  · refine .inr ⟨fun h => ?_, .inl (by simp only [AudioFormat.fromPayload, htext, bind, Except.bind])⟩
    cases hv : payload.get? (PyStr.lit "sample_format") with
    | none =>
      rw [hv] at hroom
      cases hroom
    | some v =>
      have := h.sampleFormat v hv
      rw [hv, Option.getD_some, this] at hroom
      cases hroom

theorem parseOutput_safe_iff {o : Option Dict}
    (hints : ∀ payload v, o = some payload → payload.get? (PyStr.lit "sample_format") = some v → v.IntsWithin py) :
    (∀ stop, parseOutput py o = .error stop → stop.Safe) ↔ ∀ payload, o = some payload → OutputFits py payload := by
  cases o with
  | none => exact iff_of_true nofun nofun
  | some payload =>
    have hone : (∀ p, some payload = some p → OutputFits py p) ↔ OutputFits py payload :=
      ⟨fun h => h payload rfl, fun h p hp => by cases hp; exact h⟩
    rw [hone]
    unfold parseOutput
    rcases fromPayload_cases (hints payload · rfl) with ⟨hfit, ⟨o, ho⟩ | herror | herror⟩ | ⟨hfit, herror | herror⟩
    · simp only [ho]
      exact iff_of_true nofun hfit
    · simp only [herror]
      exact iff_of_true (fun stop h => refuse_safe (by decide) h) hfit
    · simp only [herror]
      exact iff_of_true (fun stop h => refuse_safe (by decide) h) hfit
    · simp only [herror]
      exact iff_of_false (fun h => h .raises rfl) hfit
    · simp only [herror]
      exact iff_of_false (fun h => h .raises rfl) hfit

/-- A message's fields have integers within the limit when the message does. -/
theorem get?_ints {d : Dict} {key : PyStr} {v : Value} (hints : (Value.dict d).IntsWithin py)
    (h : d.get? key = some v) : v.IntsWithin py := by
  obtain ⟨kv, hfind, rfl⟩ := Option.map_eq_some_iff.mp h
  exact intsWithin_dict.mp hints kv (List.mem_of_find?_eq_some hfind)

/-- The stops of a sequence of checks, one check at a time. -/
theorem bind_safe_iff {α β : Type} {x : Except Stop α} {f : α → Except Stop β} :
    (∀ stop, (x >>= f) = .error stop → stop.Safe) ↔
      (∀ stop, x = .error stop → stop.Safe) ∧ ∀ a, x = .ok a → ∀ stop, f a = .error stop → stop.Safe := by
  cases x with
  | error stop =>
    refine ⟨fun h => ⟨fun s hs => h s ?_, nofun⟩, fun h s hs => h.1 s ?_⟩
    · cases hs
      rfl
    · cases hs
      rfl
  | ok a =>
    refine ⟨fun h => ⟨nofun, fun a' ha => ?_⟩, fun h => h.2 a rfl⟩
    cases ha
    exact h

theorem parseRequest_safe_iff (hints : (Value.dict m).IntsWithin py) :
    (∀ stop, parseRequest py id m = .error stop → stop.Safe) ↔
      ∀ request, parseFields id m = .ok request →
        (∀ payload, m.get? (PyStr.lit "sampling") = some (.dict payload) →
          (unknownFields payload ≠ [] → (unknownFieldError payload).Sendable) ∧
            (unknownFields payload = [] → samplingTyped payload = true → FloatsFit payload)) ∧
        ∀ sampling, parseSamplingOptions (m.get? (PyStr.lit "sampling")) = .ok sampling →
          ∀ payload, m.get? (PyStr.lit "output") = some (.dict payload) → OutputFits py payload := by
  have houtput : ∀ (request : SynthesisRequest) (sampling : SamplingOptions),
      (∀ stop, (do
        let payload ← outputPayload (m.get? (PyStr.lit "output"))
        let output ← parseOutput py payload
        .ok { request with sampling, output } : Except Stop SynthesisRequest) = .error stop → stop.Safe) ↔
      ∀ payload, m.get? (PyStr.lit "output") = some (.dict payload) → OutputFits py payload := by
    intro request sampling
    have hfield : ∀ (payload : Dict) (v : Value), m.get? (PyStr.lit "output") = some (.dict payload) →
        payload.get? (PyStr.lit "sample_format") = some v → v.IntsWithin py :=
      fun payload v hp hv => get?_ints (get?_ints hints hp) hv
    constructor
    · intro h payload hp
      have hpayload : outputPayload (m.get? (PyStr.lit "output")) = .ok (some payload) := by rw [hp]; rfl
      have hrest := (bind_safe_iff.mp h).2 _ hpayload
      refine (parseOutput_safe_iff ?_).mp (bind_safe_iff.mp hrest).1 payload rfl
      intro p v hp' hv
      cases hp'
      exact hfield payload v hp hv
    · intro h
      refine bind_safe_iff.mpr ⟨fun stop => outputPayload_safe, fun o ho => bind_safe_iff.mpr ⟨?_, fun _ _ => nofun⟩⟩
      refine (parseOutput_safe_iff ?_).mpr ?_
      · rintro payload v rfl hv
        exact hfield payload v (outputPayload_some ho) hv
      · rintro payload rfl
        exact h payload (outputPayload_some ho)
  unfold parseRequest
  rw [bind_safe_iff]
  refine ⟨fun h request hrequest => ?_, fun h => ⟨fun stop => parseFields_safe, fun request hrequest => ?_⟩⟩
  · have hrest := bind_safe_iff.mp (h.2 request hrequest)
    exact ⟨parseSampling_safe_iff.mp hrest.1, fun sampling hsampling => (houtput request sampling).mp (hrest.2 sampling hsampling)⟩
  · obtain ⟨hsampling, hout⟩ := h request hrequest
    exact bind_safe_iff.mpr ⟨parseSampling_safe_iff.mpr hsampling, fun sampling hs => (houtput request sampling).mpr (hout sampling hs)⟩

/-- Parsing is safe exactly on the messages that fit. -/
theorem parse_safe_iff (hints : (Value.dict m).IntsWithin py) :
    (parseSynthesisRequest py validate id m).Safe ↔ RequestFits py validate id m := by
  constructor
  · intro h
    have hstops : ∀ stop, parseRequest py id m = .error stop → stop.Safe := by
      intro stop hstop
      unfold parseSynthesisRequest at h
      rw [hstop] at h
      cases stop <;> exact h
    have hfits := (parseRequest_safe_iff hints).mp hstops
    refine ⟨fun request payload hr hp => ((hfits request hr).1 payload hp).1,
      fun request payload hr hp => ((hfits request hr).1 payload hp).2,
      fun request sampling payload hr hs hp => (hfits request hr).2 sampling hs payload hp, ?_⟩
    intro request code text hr hv
    unfold parseSynthesisRequest at h
    simp only [hr, hv] at h
    exact h
  · intro h
    have hstops := (parseRequest_safe_iff hints).mpr fun request hr =>
      ⟨fun payload hp => ⟨h.names request payload hr hp, h.floats request payload hr hp⟩,
        fun sampling hs payload hp => h.output request sampling payload hr hs hp⟩
    unfold parseSynthesisRequest
    cases hr : parseRequest py id m with
    | error stop =>
      have := hstops stop hr
      cases stop <;> exact this
    | ok request =>
      cases hv : validate request with
      | none =>
        simp only [hv]
        trivial
      | some refusal =>
        obtain ⟨code, text⟩ := refusal
        simp only [hv]
        exact h.validation request code text hr hv

end Safe

end QwenTtsBridge.Worker.PyServer
