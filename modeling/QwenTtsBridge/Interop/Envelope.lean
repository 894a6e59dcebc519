/-
  QwenTtsBridge.Interop.Envelope — the checks that both workers make of a control payload
  before they read the fields of a message.

  The native worker calls `decode_control_payload` with the client's direction; the Python
  one calls its own and then looks the `message_type` up among the client's names.

  Proved (`envelopes_agree_iff`): the two give one verdict exactly when the payload
  - has no `message_type: null`, which Python takes for a missing one,
  - names no message of the worker, for which Python has no code of its own, and
  - is no text for which `json.loads` raises something else than JSONDecodeError.
-/

import QwenTtsBridge.Interop.Denotes
import QwenTtsBridge.Worker.PyHandleFrame

namespace QwenTtsBridge.Interop

open QwenTtsBridge.Lib QwenTtsBridge.Python QwenTtsBridge.Protocol.Control QwenTtsBridge.Worker
open QwenTtsBridge.Protocol.Framing (PyFrame)

/-- What a worker makes of an envelope. -/
inductive Verdict where
  | accepted (type : PyStr)
  /-- Answered by a `protocol_error` with this code. -/
  | rejected (code : PyStr)
  /-- The handler is left by an exception. -/
  | raises
  deriving DecidableEq, Repr

/-! ## The native worker -/

/-- The checks of `decode_control_object` on `message_type`. -/
def checkType (direction : ControlMessageDirection) : Option Json → Codec CppString
  | none => .error (.missingMessageType, CppString.lit "missing message_type")
  | some (.string type) =>
    if !(isOneOf clientToWorkerMessages type || isOneOf workerToClientMessages type) then
      .error (.unknownMessageType, CppString.lit "unknown message_type: " ++ type)
    else if !directionAllows type direction then
      .error (.invalidMessageDirection, CppString.lit "message_type is not valid for this direction: " ++ type)
    else .ok type
  | some _ => .error (.invalidMessageType, CppString.lit "message_type must be a string")

/-- All its checks, up to `decode_known_control_message`. -/
def envelope (object : Json) (direction : ControlMessageDirection) : Codec CppString :=
  if !object.isObject then .error (.payloadNotObject, CppString.lit "control payload must be a JSON object")
  else if hasForbiddenHeaderField object then
    .error (.forbiddenField, CppString.lit "control payload must not contain protocol_version or request_id")
  else checkType direction (object.field "message_type")

/-- The codes and the accepted names are ASCII. -/
def asciiText (s : CppString) : PyStr := s.map UInt8.toNat

def codecVerdict : Codec CppString → Verdict
  | .ok type => .accepted (asciiText type)
  | .error e => .rejected (asciiText (controlCodecErrorCode e.1))

def nativeVerdict (lib : JsonLibrary) (payload : CppString) : Verdict :=
  codecVerdict (parsePayload lib payload >>= (envelope · .clientToWorker))

/-! ## The Python worker -/

/-- A control frame is refused at once for its envelope only. -/
def pyVerdict : PyServer.Command → Verdict
  | .refused _ e => .rejected e.code
  | .raises => .raises
  | .hello _ => .accepted (PyStr.lit "hello")
  | .ping _ _ => .accepted (PyStr.lit "ping")
  | .synthesize _ _ => .accepted (PyStr.lit "synthesize")
  | .cancel _ => .accepted (PyStr.lit "cancel")
  | .shutdown _ _ => .accepted (PyStr.lit "shutdown")

theorem pyVerdict_dispatch (py : Interpreter) (validate : PyServer.Validate) (id : PyServer.RequestId) (message : Dict)
    (type : PyStr) : pyVerdict (PyServer.dispatch py validate id message type) =
      if type ∈ PyServer.clientMessageTypes then .accepted type else .rejected (PyStr.lit "unknown_message_type") := by
  unfold PyServer.dispatch
  by_cases hmem : type ∈ PyServer.clientMessageTypes
  · rw [if_neg (not_not.mpr hmem), if_pos hmem]
    simp only [PyServer.clientMessageTypes, List.map_cons, List.map_nil, List.mem_cons, List.not_mem_nil, or_false] at hmem
    rcases hmem with rfl | rfl | rfl | rfl | rfl <;> rfl
  · rw [if_pos hmem, if_neg hmem]
    rfl

/-! ## Both -/

/-- `Json::parse` throws `parse_error`, or `out_of_range` for a number, and no `type_error`. -/
def ThrowsNoTypeError (lib : JsonLibrary) : Prop := ∀ text what, lib.parse text ≠ .error (.typeError what)

/-- A `message_type` that both workers see alike: not null, and no name of the worker's. -/
def TypeAligned (type : Option Value) : Prop :=
  ∀ v, type = some v → v ≠ .none ∧ ∀ name ∈ workerToClientMessages, v ≠ .str (PyStr.lit name)

/-- It is looked at when the payload is an object without a field of the header. -/
def ValueAligned : Value → Prop
  | .dict d => Dict.get? d (PyStr.lit "protocol_version") = none → Dict.get? d (PyStr.lit "request_id") = none →
      TypeAligned (Dict.get? d (PyStr.lit "message_type"))
  | _ => True

/-- A payload that both workers see alike. -/
structure Aligned (py : Interpreter) (payload : List UInt8) : Prop where
  text : ∀ s, Utf8.decode payload = some s → ∀ e, loads py s = .error e → e = .jsonDecodeError
  value : ∀ s v, Utf8.decode payload = some s → loads py s = .ok v → ValueAligned v

theorem isOneOf_iff {types : List String} (hplain : ∀ name ∈ types, isPlain name = true) {type : CppString} {t : PyStr}
    (h : Utf8.decode type = some t) : isOneOf types type = true ↔ t ∈ types.map PyStr.lit := by
  rw [isOneOf, List.contains_iff_mem, List.mem_map, List.mem_map]
  constructor
  · rintro ⟨name, hname, rfl⟩
    rw [decode_lit (hplain name hname)] at h
    exact ⟨name, hname, Option.some.inj h⟩
  · rintro ⟨name, hname, rfl⟩
    exact ⟨name, hname, (eq_lit_of_decode (hplain name hname) h).symm⟩

/-- The verdicts on a name. -/
theorem name_verdicts {type : CppString} {t : PyStr} (h : Utf8.decode type = some t) :
    (codecVerdict (checkType .clientToWorker (some (.string type))) =
      if t ∈ PyServer.clientMessageTypes then .accepted t else .rejected (PyStr.lit "unknown_message_type")) ↔
    ∀ name ∈ workerToClientMessages, t ≠ PyStr.lit name := by
  have hclient : isOneOf clientToWorkerMessages type = true ↔ t ∈ PyServer.clientMessageTypes :=
    isOneOf_iff (by decide) h
  have hworker : isOneOf workerToClientMessages type = true ↔ t ∈ workerToClientMessages.map PyStr.lit :=
    isOneOf_iff (by decide) h
  have hdisjoint : ∀ name ∈ workerToClientMessages, PyStr.lit name ∉ PyServer.clientMessageTypes := by decide
  rw [checkType]
  by_cases hmem : t ∈ PyServer.clientMessageTypes
  · have hallowed : directionAllows type .clientToWorker = true := hclient.mpr hmem
    obtain ⟨name, hname, rfl⟩ := List.mem_map.mp hmem
    have hplain : ∀ n ∈ ["hello", "synthesize", "cancel", "ping", "shutdown"], isPlain n = true := by decide
    have htype := eq_lit_of_decode (hplain name hname) h
    rw [if_pos hmem, hclient.mpr hmem, hallowed, htype]
    refine iff_of_true ?_ fun n hn heq => hdisjoint n hn (heq ▸ hmem)
    exact congrArg Verdict.accepted (lit_toNat (hplain name hname))
  · have hrefused : directionAllows type .clientToWorker = false := by
      rw [Bool.eq_false_iff]
      exact fun hallowed => hmem (hclient.mp hallowed)
    have hclient : isOneOf clientToWorkerMessages type = false := hrefused
    rw [if_neg hmem, hclient, hrefused, Bool.false_or]
    by_cases hknown : t ∈ workerToClientMessages.map PyStr.lit
    · rw [hworker.mpr hknown]
      obtain ⟨name, hname, rfl⟩ := List.mem_map.mp hknown
      have hcodes : Verdict.rejected (asciiText (controlCodecErrorCode .invalidMessageDirection)) ≠
          .rejected (PyStr.lit "unknown_message_type") := by decide
      exact iff_of_false hcodes fun hall => hall name hname rfl
    · have hunknown : isOneOf workerToClientMessages type = false := by
        rw [Bool.eq_false_iff]
        exact fun hone => hknown (hworker.mp hone)
      rw [hunknown]
      exact iff_of_true rfl fun name hname heq => hknown (heq ▸ List.mem_map_of_mem hname)

/-- What Python makes of a `message_type`. -/
def typeVerdict : Option Value → Verdict
  | none | some .none => .rejected (PyStr.lit "missing_message_type")
  | some (.str type) =>
    if type ∈ PyServer.clientMessageTypes then .accepted type else .rejected (PyStr.lit "unknown_message_type")
  | some _ => .rejected (PyStr.lit "invalid_message_type")

/-- What it makes of a loaded value. -/
def valueVerdict : Value → Verdict
  | .dict d =>
    if (Dict.get? d (PyStr.lit "protocol_version")).isSome || (Dict.get? d (PyStr.lit "request_id")).isSome then
      .rejected (PyStr.lit "invalid_field_type")
    else typeVerdict (Dict.get? d (PyStr.lit "message_type"))
  | _ => .rejected (PyStr.lit "payload_not_object")

theorem pyVerdict_command {py : Interpreter} {validate : PyServer.Validate} {f : PyFrame}
    (hcontrol : PyServer.isControl f = true) {s : PyStr} (hs : Utf8.decode f.payload = some s) :
    pyVerdict (PyServer.command py validate f) = match loads py s with
      | .ok v => valueVerdict v
      | .error e => if e = .jsonDecodeError then .rejected (PyStr.lit "invalid_json") else .raises := by
  simp only [PyServer.command, hcontrol, PyServer.decodeControlPayload, hs, Bool.not_true, Bool.false_eq_true, if_false]
  cases hloads : loads py s with
  | error e => cases e <;> rfl
  | ok v =>
    cases v with
    | dict d =>
      simp only [valueVerdict]
      by_cases hforbidden : ((Dict.get? d (PyStr.lit "protocol_version")).isSome ||
          (Dict.get? d (PyStr.lit "request_id")).isSome) = true
      · rw [if_pos hforbidden, if_pos hforbidden]
        rfl
      rw [if_neg hforbidden, if_neg hforbidden]
      cases htype : Dict.get? d (PyStr.lit "message_type") with
      | none => rfl
      | some v =>
        cases v with
        | str type => exact pyVerdict_dispatch py validate _ d type
        | none | bool | int | float | list | dict => rfl
    | none | bool | int | float | str | list => rfl

/-- The verdicts on the `message_type` of one object. -/
theorem type_verdicts {v : Json} {w : Value} (h : Denotes v w) :
    codecVerdict (checkType .clientToWorker (some v)) = typeVerdict (some w) ↔ TypeAligned (some w) := by
  have hone : TypeAligned (some w) ↔ w ≠ .none ∧ ∀ name ∈ workerToClientMessages, w ≠ .str (PyStr.lit name) :=
    ⟨fun hall => hall w rfl, fun hw x hx => by cases hx; exact hw⟩
  rw [hone]
  cases v with
  | string s =>
    cases w with
    | str t =>
      simp only [ne_eq, reduceCtorEq, not_false_eq_true, true_and, Value.str.injEq]
      exact name_verdicts h
    | none | bool | int | float | list | dict => exact absurd h (by simp [Denotes])
  | null =>
    cases w with
    | none => exact iff_of_false (by decide) fun hne => hne.1 rfl
    | bool | int | float | str | list | dict => exact absurd h (by simp [Denotes])
  | boolean | numberInteger | numberUnsigned | numberFloat | array | object =>
    cases w with
    | none | str => exact absurd h (by simp [Denotes])
    | bool | int | float | list | dict => exact iff_of_true rfl ⟨nofun, fun _ _ => nofun⟩

/-- The verdicts on one value. -/
theorem value_verdicts {v : Json} {w : Value} (h : Denotes v w) :
    codecVerdict (envelope v .clientToWorker) = valueVerdict w ↔ ValueAligned w := by
  cases v with
  | object fields =>
    cases w with
    | dict d =>
      have hforbidden : ((Dict.get? d (PyStr.lit "protocol_version")).isSome ||
          (Dict.get? d (PyStr.lit "request_id")).isSome) = hasForbiddenHeaderField (.object fields) := by
        rw [h.isSome_get? (by decide), h.isSome_get? (by decide)]
        rfl
      rw [envelope, valueVerdict, ValueAligned, hforbidden]
      cases hheader : hasForbiddenHeaderField (.object fields) with
      | true =>
        refine iff_of_true rfl fun hversion hid => ?_
        rw [hheader, hversion, hid] at hforbidden
        cases hforbidden
      | false =>
        rw [hheader, Bool.or_eq_false_iff, Option.isSome_eq_false_iff, Option.isSome_eq_false_iff,
          Option.isNone_iff_eq_none, Option.isNone_iff_eq_none] at hforbidden
        have hguards : (Dict.get? d (PyStr.lit "protocol_version") = none →
            Dict.get? d (PyStr.lit "request_id") = none → TypeAligned (Dict.get? d (PyStr.lit "message_type"))) ↔
            TypeAligned (Dict.get? d (PyStr.lit "message_type")) :=
          ⟨fun hd => hd hforbidden.1 hforbidden.2, fun hd _ _ => hd⟩
        rw [hguards]
        cases hfield : (Json.object fields).field "message_type" with
        | none =>
          rw [h.get?_none (by decide) hfield]
          exact iff_of_true rfl nofun
        | some v =>
          obtain ⟨w, hw, hdenotes⟩ := h.get?_some (by decide) hfield
          rw [hw]
          exact type_verdicts hdenotes
    | none | bool | int | float | str | list => exact absurd h (by simp [Denotes])
  | null | boolean | numberInteger | numberUnsigned | numberFloat | string | array =>
    cases w with
    | dict d => exact absurd h (by simp [Denotes])
    | none | bool | int | float | str | list => exact iff_of_true rfl trivial

/-- Two workers that get one control frame reject it alike, or both accept it, exactly when it
    is aligned. -/
theorem envelopes_agree_iff (lib : JsonLibrary) (hlib : ThrowsNoTypeError lib) (py : Interpreter)
    (validate : PyServer.Validate) (f : PyFrame) (hcontrol : PyServer.isControl f = true)
    (hagree : Agree lib py f.payload) :
    nativeVerdict lib f.payload = pyVerdict (PyServer.command py validate f) ↔ Aligned py f.payload := by
  cases hagree with
  | value hparse hs hw hdenotes =>
    rename_i v s w
    have hnative : nativeVerdict lib f.payload = codecVerdict (envelope v .clientToWorker) := by
      rw [nativeVerdict, parsePayload, hparse]
      rfl
    rw [hnative, pyVerdict_command hcontrol hs, hw]
    refine (value_verdicts hdenotes).trans ⟨fun haligned => ⟨?_, ?_⟩, fun haligned => haligned.value s w hs hw⟩
    · intro s' hs' e he
      rw [hs] at hs'
      cases hs'
      rw [hw] at he
      cases he
    · intro s' v' hs' hv'
      rw [hs] at hs'
      cases hs'
      rw [hw] at hv'
      cases hv'
      exact haligned
  | refused hparse hrefused =>
    rename_i e
    have hnative : nativeVerdict lib f.payload = .rejected (PyStr.lit "invalid_json") := by
      rw [nativeVerdict, parsePayload, hparse]
      cases e with
      | typeError what => exact absurd hparse (hlib _ what)
      | parseError what => rfl
      | exception what => rfl
      | unknown => rfl
    rw [hnative]
    cases hs : Utf8.decode f.payload with
    | none =>
      have hpython : pyVerdict (PyServer.command py validate f) = .rejected (PyStr.lit "invalid_json") := by
        simp only [PyServer.command, hcontrol, PyServer.decodeControlPayload, hs, Bool.not_true, Bool.false_eq_true,
          if_false]
        rfl
      refine iff_of_true hpython.symm ⟨fun s hs' => ?_, fun s _ hs' => ?_⟩
      · rw [hs] at hs'
        cases hs'
      · rw [hs] at hs'
        cases hs'
    | some s =>
      obtain ⟨e', he'⟩ := hrefused s hs
      rw [pyVerdict_command hcontrol hs, he']
      by_cases hjson : e' = .jsonDecodeError
      · rw [hjson] at he'
        refine iff_of_true (by rw [hjson]; rfl) ⟨fun s' hs' e he => ?_, fun s' v hs' hv => ?_⟩
        · rw [hs] at hs'
          cases hs'
          rw [he'] at he
          cases he
          rfl
        · rw [hs] at hs'
          cases hs'
          rw [he'] at hv
          cases hv
      · refine iff_of_false ?_ fun haligned => hjson (haligned.text s hs e' he')
        simp only [if_neg hjson]
        exact nofun

/-! ## Two frames -/

theorem reading_throwsNoTypeError (values : List Json) : ThrowsNoTypeError (.reading values) := by
  intro text what h
  simp only [JsonLibrary.reading] at h
  split at h
  · cases h
  · cases h

/-- A payload with nothing but its type. -/
def bareJson (type : String) : Json := .object [(CppString.lit "message_type", .lit type)]

def bareDict (type : String) : Value := .dict [(PyStr.lit "message_type", .str (PyStr.lit type))]

theorem denotes_bare {type : String} (h : isPlain type = true) :
    Denotes (bareJson type) (bareDict type) := by
  refine ⟨⟨⟨_, _, decode_lit (by decide), rfl, decode_lit h⟩, trivial⟩, fun p hp => ?_⟩
  rw [List.mem_singleton.mp hp]
  exact ⟨_, List.mem_singleton_self _, decode_lit (by decide)⟩

def readyFrame : PyFrame := PyServer.controlFrame "\x7b\"message_type\":\"ready\"\x7d"

def greetingFrame : PyFrame := PyServer.controlFrame "\x7b\"message_type\":\"hello\"\x7d"

theorem decode_readyFrame : Utf8.decode readyFrame.payload = some (bareDict "ready").jsonText := by decide +kernel

theorem decode_greetingFrame : Utf8.decode greetingFrame.payload = some (bareDict "hello").jsonText := by decide +kernel

theorem loads_ready : loads PyServer.sampleInterpreter (bareDict "ready").jsonText = .ok (bareDict "ready") := rfl

theorem loads_greeting : loads PyServer.sampleInterpreter (bareDict "hello").jsonText = .ok (bareDict "hello") := rfl

theorem agree_ready : Agree (.reading [bareJson "ready"]) PyServer.sampleInterpreter readyFrame.payload := by
  have hpayload : readyFrame.payload = (bareJson "ready").text fun _ => [] := by decide +kernel
  refine .value (v := bareJson "ready") ?_ decode_readyFrame loads_ready (denotes_bare (by decide))
  rw [hpayload]
  exact JsonLibrary.reading_parse _

theorem agree_greeting : Agree (.reading [bareJson "hello"]) PyServer.sampleInterpreter greetingFrame.payload := by
  have hpayload : greetingFrame.payload = (bareJson "hello").text fun _ => [] := by decide +kernel
  refine .value (v := bareJson "hello") ?_ decode_greetingFrame loads_greeting (denotes_bare (by decide))
  rw [hpayload]
  exact JsonLibrary.reading_parse _

/-- A `ready` from the client is `invalid_message_direction` for the native worker and
    `unknown_message_type` for the Python one. -/
theorem a_ready_from_the_client_is_rejected_twice :
    ThrowsNoTypeError (.reading [bareJson "ready"]) ∧ PyServer.isControl readyFrame = true ∧
      Agree (.reading [bareJson "ready"]) PyServer.sampleInterpreter readyFrame.payload ∧
      nativeVerdict (.reading [bareJson "ready"]) readyFrame.payload ≠
        pyVerdict (PyServer.command PyServer.sampleInterpreter (fun _ => none) readyFrame) := by
  refine ⟨reading_throwsNoTypeError _, by decide, agree_ready, ?_⟩
  have hnative : nativeVerdict (.reading [bareJson "ready"]) readyFrame.payload =
      .rejected (PyStr.lit "invalid_message_direction") := by
    decide +kernel
  have hpython : pyVerdict (PyServer.command PyServer.sampleInterpreter (fun _ => none) readyFrame) =
      .rejected (PyStr.lit "unknown_message_type") := by
    decide +kernel
  rw [hnative, hpython]
  decide

theorem a_hello_is_accepted_twice :
    nativeVerdict (.reading [bareJson "hello"]) greetingFrame.payload =
      pyVerdict (PyServer.command PyServer.sampleInterpreter (fun _ => none) greetingFrame) := by
  refine (envelopes_agree_iff _ (reading_throwsNoTypeError _) _ _ _ (by decide) agree_greeting).mpr ⟨?_, ?_⟩
  · intro s hs e he
    rw [decode_greetingFrame, Option.some.injEq] at hs
    rw [← hs, loads_greeting] at he
    cases he
  · intro s v hs hv
    rw [decode_greetingFrame, Option.some.injEq] at hs
    rw [← hs, loads_greeting, Except.ok.injEq] at hv
    rw [← hv]
    have hhello : ∀ name ∈ workerToClientMessages, PyStr.lit "hello" ≠ PyStr.lit name := by decide
    intro _ _ x hx
    cases hx
    exact ⟨nofun, fun name hname heq => hhello name hname (Value.str.inj heq)⟩

end QwenTtsBridge.Interop
