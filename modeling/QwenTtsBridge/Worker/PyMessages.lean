/-
  QwenTtsBridge.Worker.PyMessages — the worker's control messages as bytes
  (`protocol/control/messages.py`) and the payloads that `stdio_server.py` builds.

  `decodeControlPayload` reads a payload; what it raises is a ControlMessageError, which
  the handler answers, or another exception, which it does not catch. `encodeOut` writes
  a frame; it raises when the text is nested too deep, holds an integer past the limit on
  integer text or a surrogate, or is larger than its frame may be.

  Proved: exactly when a frame is encoded (`encodes_json_iff`), and for an `error_json` what
  that takes of its three texts (`encodes_error_iff`).
-/

import QwenTtsBridge.Python.Json
import QwenTtsBridge.Protocol.Frame
import QwenTtsBridge.Worker.PyServer

namespace QwenTtsBridge.Worker.PyServer

open QwenTtsBridge.Python QwenTtsBridge.Lib QwenTtsBridge.Protocol.Framing

/-! ## Incoming -/

/-- An exception that leaves `decode_control_payload`. -/
inductive DecodeFailure where
  | controlMessageError (code message : String)
  | other (e : Exn)
  deriving DecidableEq, Repr

/-- `decode_control_payload`: the message, with its `message_type`. -/
def decodeControlPayload (py : Interpreter) (payload : List UInt8) : Except DecodeFailure (Dict × PyStr) :=
  match Utf8.decode payload with
  | none => .error (.controlMessageError "invalid_json" "control payload is not UTF-8")
  | some text =>
    match loads py text with
    | .error .jsonDecodeError => .error (.controlMessageError "invalid_json" "control payload is not valid JSON")
    | .error e => .error (.other e)
    | .ok (.dict value) =>
      if (Dict.get? value (PyStr.lit "protocol_version")).isSome || (Dict.get? value (PyStr.lit "request_id")).isSome then
        .error (.controlMessageError "invalid_field_type" "control payload must not duplicate frame header fields")
      else match Dict.get? value (PyStr.lit "message_type") with
        | none | some .none => .error (.controlMessageError "missing_message_type" "missing message_type")
        | some (.str messageType) => .ok (value, messageType)
        | some _ => .error (.controlMessageError "invalid_message_type" "message_type must be a string")
    | .ok _ => .error (.controlMessageError "payload_not_object" "control payload must be an object")

/-! ## Outgoing -/

/-- A dict display of the source. -/
def message (messageType : String) (fields : List (String × Value)) : Dict :=
  (PyStr.lit "message_type", .str (PyStr.lit messageType)) :: fields.map fun (key, value) => (PyStr.lit key, value)

def capabilitiesPayload (c : EngineCapabilities) : Value :=
  .dict ([("streaming", c.streaming), ("cancellation", c.cancellation), ("instructions", c.instructions),
    ("voice_clone", c.voiceClone), ("voice_clone_streaming", c.voiceCloneStreaming),
    ("voice_profiles", c.voiceProfiles), ("sampling_overrides", c.samplingOverrides),
    ("deterministic_seed", c.deterministicSeed)].map fun (key, flag) => (PyStr.lit key, .bool flag))

/-- `AudioFormat.to_payload`. -/
def AudioFormat.toPayload (f : AudioFormat) : Value :=
  .dict [(PyStr.lit "sample_format", .str f.sampleFormat), (PyStr.lit "sample_rate", .int f.sampleRate),
    (PyStr.lit "channels", .int f.channels)]

def errorPayload (e : ErrorMessage) : Dict :=
  message "error" [("category", .str e.category), ("code", .str e.code), ("message", .str e.message)]

/-- `encode_json_payload`. -/
def encodeJsonPayload (py : Interpreter) (d : Dict) : Except Exn (List UInt8) :=
  match dumps py (.dict d) with
  | .error e => .error e
  | .ok text =>
    match Utf8.encode text with
    | none => .error .unicodeEncodeError
    | some bytes => .ok bytes

/-- `encode_frame` of a type and payload; the text of its ValueError. -/
def encodeFrame (frameType : FrameType) (id : RequestId) (payload : List UInt8) : Except PyStr (List UInt8) :=
  match pyEncodeFrame frameType.value.toNat id payload with
  | .error text => .error (PyStr.lit text)
  | .ok bytes => .ok bytes

/-- `control_frame` and `error_frame`. The text of an exception is read for an audio frame only;
    here its class stands for it. -/
def jsonFrame (py : Interpreter) (frameType : FrameType) (id : RequestId) (d : Dict) : Except PyStr (List UInt8) :=
  match encodeJsonPayload py d with
  | .error e => .error e.name
  | .ok payload => encodeFrame frameType id payload

def encodeOut (py : Interpreter) : OutFrame → Except PyStr (List UInt8)
  | .ready m => jsonFrame py .controlJson 0 (message "ready"
      [("worker_version", .str m.workerVersion), ("session_id", .str m.sessionId), ("warmed_up", .bool m.warmedUp),
        ("capabilities", capabilitiesPayload m.capabilities), ("voice_ids", .list (m.voiceIds.map .str))])
  | .pong sequence => jsonFrame py .controlJson 0 (message "pong"
      (match sequence with
        | none => []
        | some v => [("sequence", v)]))
  | .shutdownAck => jsonFrame py .controlJson 0 (message "shutdown_ack" [])
  | .queued id position => jsonFrame py .controlJson id (message "queued" [("position", .int position)])
  | .started id format => jsonFrame py .controlJson id (message "started" [("audio_format", format.toPayload)])
  | .audioPcm id pcm => encodeFrame .audioPcm id pcm
  | .completed id trace => jsonFrame py .controlJson id (message "completed"
      (("execution_outcome", .str (PyStr.lit "completed")) ::
        -- `if generation_trace:`, which an empty one fails
        (match trace with
          | none | some [] => []
          | some trace => [("generation_trace", .dict trace)])))
  | .cancelled id => jsonFrame py .controlJson id (message "cancelled" [])
  | .error id e => jsonFrame py .errorJson id (errorPayload e)

/-- The server's configuration in this interpreter. -/
def config (py : Interpreter) (maxAdmittedRequests : Nat) (ready : ReadyMessage) : Config where
  maxAdmittedRequests := maxAdmittedRequests
  ready := ready
  encode := encodeOut py

/-! ## Which frames are encoded -/

/-- A text with an encoding. -/
def Scalars (s : PyStr) : Prop := ∀ c ∈ s, Utf8.isSurrogate c = false

instance (s : PyStr) : Decidable (Scalars s) := inferInstanceAs (Decidable (∀ c ∈ s, Utf8.isSurrogate c = false))

section Encoding

variable {py : Interpreter} {id : Nat}

@[simp] theorem scalars_append {a b : PyStr} : Scalars (a ++ b) ↔ Scalars a ∧ Scalars b := by
  simp only [Scalars, List.forall_mem_append]

theorem scalars_lit (s : String) : Scalars (PyStr.lit s) := by
  intro n hn
  obtain ⟨c, -, rfl⟩ := List.mem_map.mp hn
  have hvalid := c.valid
  simp only [UInt32.isValidChar, Nat.isValidChar] at hvalid
  simp only [Utf8.isSurrogate, Bool.and_eq_false_iff, decide_eq_false_iff_not, Char.toNat]
  omega

theorem encodeFrame_ok {t : FrameType} (hid : id < 2 ^ 64) (payload : List UInt8) :
    (∃ bytes, encodeFrame t id payload = .ok bytes) ↔ payload.length ≤ pyMaxPayloadSize t := by
  have ht : PyFrameType.ofValue? (t.value.toNat : Int) = some t := by cases t <;> rfl
  have hmax : pyMaxPayloadSize t ≤ ProtocolLimits.maxFramePayloadBytes := by cases t <;> decide
  unfold encodeFrame pyEncodeFrame
  rw [ht]
  simp only [pyEncodeFrameWithHeader]
  generalize hheader : ({ frameType := t.value.toNat, payloadSize := payload.length, requestId := id } : PyFrameHeader) =
    header
  cases hv : validateOutgoingFrame header payload.length with
  | error m =>
    refine ⟨fun ⟨bytes, h⟩ => (by cases h), ?_⟩
    intro hle
    have hok : validateOutgoingFrame header payload.length = .ok () := by
      subst hheader
      exact validateOutgoingFrame_ok.mpr
        ⟨rfl, rfl, t, ht, rfl, ⟨by simp, by simp only; omega⟩, rfl, hle.trans hmax, hle⟩
    rw [hv] at hok
    cases hok
  | ok u =>
    obtain ⟨-, -, t', ht', -, -, -, -, hle⟩ := validateOutgoingFrame_ok.mp hv
    subst hheader
    rw [ht] at ht'
    cases ht'
    exact ⟨fun _ => hle, fun _ => ⟨_, rfl⟩⟩

/-- What it takes to write a JSON payload. -/
structure Writable (py : Interpreter) (limit : Nat) (d : Dict) : Prop where
  nesting : (Value.dict d).nestsWithin py.dumpsNesting = true
  ints : (Value.dict d).IntsWithin py
  scalars : Scalars (Value.dict d).jsonText
  size : Utf8.size (Value.dict d).jsonText ≤ limit

theorem encodeJsonPayload_ok {d : Dict} {bytes : List UInt8} (h : encodeJsonPayload py d = .ok bytes) :
    bytes.length = Utf8.size (Value.dict d).jsonText := by
  unfold encodeJsonPayload dumps at h
  split at h
  · cases h
  · rename_i text htext
    split at htext
    · cases htext
    · split at htext
      · cases htext
      · cases htext
        split at h
        · cases h
        · rename_i hencode
          cases h
          exact Utf8.length_of_encode hencode

theorem encodeJsonPayload_isOk {d : Dict} : (∃ bytes, encodeJsonPayload py d = .ok bytes) ↔
    (Value.dict d).nestsWithin py.dumpsNesting = true ∧ (Value.dict d).IntsWithin py ∧ Scalars (Value.dict d).jsonText := by
  unfold encodeJsonPayload dumps
  by_cases hn : (Value.dict d).nestsWithin py.dumpsNesting = true
  · by_cases hi : (Value.dict d).IntsWithin py
    · have hscalars : Scalars (Value.dict d).jsonText ↔ (Utf8.encode (Value.dict d).jsonText).isSome := by
        rw [Utf8.encode_isSome]
        simp [Scalars]
      simp only [hn, hi, not_true_eq_false, Bool.not_true, Bool.false_eq_true, if_false, true_and]
      rw [hscalars]
      cases Utf8.encode (Value.dict d).jsonText with
      | none => simp
      | some bytes => simp
    · simp [hn, hi]
  · simp [hn]

/-- A JSON frame is sent exactly when its payload can be written. -/
theorem encodes_json_iff (id : Nat) {t : FrameType} {d : Dict} (hid : id < 2 ^ 64) :
    (∃ bytes, jsonFrame py t id d = .ok bytes) ↔ Writable py (pyMaxPayloadSize t) d := by
  unfold jsonFrame
  constructor
  · rintro ⟨bytes, h⟩
    split at h
    · cases h
    · rename_i payload hpayload
      obtain ⟨hn, hi, hs⟩ := encodeJsonPayload_isOk.mp ⟨payload, hpayload⟩
      have hlen := (encodeFrame_ok hid payload).mp ⟨bytes, h⟩
      rw [encodeJsonPayload_ok hpayload] at hlen
      exact ⟨hn, hi, hs, hlen⟩
  · intro h
    obtain ⟨payload, hpayload⟩ := encodeJsonPayload_isOk.mpr ⟨h.nesting, h.ints, h.scalars⟩
    rw [hpayload]
    refine (encodeFrame_ok hid payload).mpr ?_
    rw [encodeJsonPayload_ok hpayload]
    exact h.size

theorem encodes_iff {max : Nat} {ready : ReadyMessage} {f : OutFrame} :
    (config py max ready).encodes f = true ↔ ∃ bytes, encodeOut py f = .ok bytes := by
  simp only [Config.encodes, config]
  cases encodeOut py f with
  | error e => simp
  | ok bytes => simp

/-! ## The worker's own replies -/

theorem scalars_escapeChar (c : Nat) : Scalars (escapeChar c) ↔ Utf8.isSurrogate c = false := by
  by_cases hc : c < 128
  · have hleft : Utf8.isSurrogate c = false := by
      simp only [Utf8.isSurrogate, Bool.and_eq_false_iff, decide_eq_false_iff_not]
      omega
    have hright : ∀ c < 128, Scalars (escapeChar c) := by decide
    exact iff_of_true (hright c hc) hleft
  · have hself : escapeChar c = [c] := by
      unfold escapeChar
      rw [if_neg (by omega), if_neg (by omega), if_neg (by omega), if_neg (by omega), if_neg (by omega),
        if_neg (by omega), if_neg (by omega), if_neg (by omega)]
    rw [hself]
    simp [Scalars]

@[simp] theorem scalars_stringText (s : PyStr) : Scalars (stringText s) ↔ Scalars s := by
  have hquote : Scalars [34] := by decide
  simp only [stringText, scalars_append, hquote, true_and, and_true]
  simp only [Scalars, List.mem_flatMap]
  constructor
  · intro h c hc
    exact (scalars_escapeChar c).mp fun x hx => h x ⟨c, hc, hx⟩
  · rintro h x ⟨c, hc, hx⟩
    exact (scalars_escapeChar c).mpr (h c hc) x hx

theorem nestsWithin_mono {a b : Nat} {v : Value} (hab : a ≤ b) (h : v.nestsWithin a = true) : v.nestsWithin b = true := by
  induction a generalizing b v with
  | zero =>
    cases v with
    | list items => cases h
    | dict items => cases h
    | _ => cases b <;> rfl
  | succ a ih =>
    obtain ⟨b, rfl⟩ : ∃ b', b = b' + 1 := ⟨b - 1, by omega⟩
    cases v with
    | list items =>
      simp only [Value.nestsWithin, List.all_eq_true] at h ⊢
      intro v hv
      exact ih (by omega) (h v hv)
    | dict items =>
      simp only [Value.nestsWithin, List.all_eq_true] at h ⊢
      intro kv hkv
      exact ih (by omega) (h kv hkv)
    | _ => rfl

/-- A dict display whose values hold no container has room. -/
theorem nestsWithin_flat {d : Dict} (hd : (Value.dict d).nestsWithin 1 = true) :
    (Value.dict d).nestsWithin py.dumpsNesting = true :=
  nestsWithin_mono py.dumpsNesting_pos hd

/-- The bytes of an `error_json` payload. -/
def ErrorMessage.size (e : ErrorMessage) : Nat :=
  55 + Utf8.size (stringText e.category) + Utf8.size (stringText e.code) + Utf8.size (stringText e.message)

/-- What an `error_json` takes of its texts: no surrogate, and the size limit. -/
structure ErrorMessage.Sendable (e : ErrorMessage) : Prop where
  category : Scalars e.category
  code : Scalars e.code
  message : Scalars e.message
  size : e.size ≤ ProtocolLimits.maxErrorPayloadBytes

theorem jsonText_error (e : ErrorMessage) : (Value.dict (errorPayload e)).jsonText =
    PyStr.lit "\x7b\"message_type\":\"error\",\"category\":" ++ stringText e.category ++ PyStr.lit ",\"code\":" ++
      stringText e.code ++ PyStr.lit ",\"message\":" ++ stringText e.message ++ PyStr.lit "\x7d" := by
  simp only [errorPayload, message, List.map, Value.jsonText, fieldsText, List.append_assoc]
  rfl

theorem encodes_error_iff {max : Nat} {ready : ReadyMessage} {e : ErrorMessage} (hid : id < 2 ^ 64) :
    (config py max ready).encodes (.error id e) = true ↔ e.Sendable := by
  have hsize : Utf8.size (Value.dict (errorPayload e)).jsonText = e.size := by
    have hlits : Utf8.size (PyStr.lit "\x7b\"message_type\":\"error\",\"category\":") = 35 ∧
        Utf8.size (PyStr.lit ",\"code\":") = 8 ∧ Utf8.size (PyStr.lit ",\"message\":") = 11 ∧
        Utf8.size (PyStr.lit "\x7d") = 1 := by decide
    simp only [jsonText_error, Utf8.size_append, hlits, ErrorMessage.size]
    omega
  have hscalars : Scalars (Value.dict (errorPayload e)).jsonText ↔
      Scalars e.category ∧ Scalars e.code ∧ Scalars e.message := by
    simp only [jsonText_error, scalars_append, scalars_lit, scalars_stringText, true_and, and_true, and_assoc]
  rw [encodes_iff]
  refine (encodes_json_iff id hid).trans ⟨fun h => ?_, fun h => ?_⟩
  · obtain ⟨hc, hk, hm⟩ := hscalars.mp h.scalars
    exact ⟨hc, hk, hm, hsize ▸ h.size⟩
  · refine ⟨nestsWithin_flat rfl, ?_, hscalars.mpr ⟨h.category, h.code, h.message⟩, ?_⟩
    · intro n hn
      simp [Value.ints, errorPayload, message, fieldsInts] at hn
    · rw [hsize]
      exact h.size

theorem encodes_cancelled {max : Nat} {ready : ReadyMessage} (hid : id < 2 ^ 64) :
    (config py max ready).encodes (.cancelled id) = true := by
  rw [encodes_iff]
  refine (encodes_json_iff id hid).mpr ⟨nestsWithin_flat rfl, ?_, by decide, by decide⟩
  intro n hn
  simp [Value.ints, message, fieldsInts] at hn

/-- The queue's length is an integer of at most twenty digits. -/
theorem encodes_queued {max : Nat} {ready : ReadyMessage} {position : Nat} (hid : id < 2 ^ 64)
    (hposition : position ≤ 2 ^ 64 + 1) : (config py max ready).encodes (.queued id position) = true := by
  have hdigits : (natDigits position).length ≤ 20 :=
    natDigits_length_le (Nat.lt_of_le_of_lt hposition (by decide)) (by decide)
  have hnumber : intText (position : Int) = natDigits position := by simp [intText]
  have htext : (Value.dict (message "queued" [("position", .int position)])).jsonText =
      PyStr.lit "\x7b\"message_type\":\"queued\",\"position\":" ++ natDigits position ++ PyStr.lit "\x7d" := by
    simp only [message, List.map, Value.jsonText, fieldsText, hnumber, List.append_assoc]
    rfl
  have hascii : ∀ c ∈ natDigits position, c < 128 := by
    intro c hc
    unfold natDigits at hc
    split at hc
    · rw [List.mem_singleton.mp hc]
      decide
    · obtain ⟨d, hd, rfl⟩ := List.mem_map.mp hc
      have := Nat.digits_lt_base (b := 10) (by decide) (List.mem_reverse.mp hd)
      omega
  rw [encodes_iff]
  refine (encodes_json_iff id hid).mpr ⟨nestsWithin_flat rfl, ?_, ?_, ?_⟩
  · intro n hn
    have hn' : n = position := by simpa [Value.ints, message, fieldsInts] using hn
    rw [hn', Int.natAbs_natCast]
    have hmin := py.maxStrDigits_min
    simp only [Interpreter.digitsExceeded, Bool.and_eq_false_iff, decide_eq_false_iff_not]
    omega
  · rw [htext]
    simp only [scalars_append, scalars_lit, true_and, and_true]
    intro c hc
    have := hascii c hc
    simp only [Utf8.isSurrogate, Bool.and_eq_false_iff, decide_eq_false_iff_not]
    omega
  · have hsize : ∀ s : PyStr, (∀ c ∈ s, c < 128) → Utf8.size s = s.length := by
      intro s hs
      induction s with
      | nil => rfl
      | cons c s ih =>
        have hc : Utf8.scalarSize c = 1 := if_pos (hs c List.mem_cons_self)
        rw [Utf8.size_cons, hc, ih fun x hx => hs x (List.mem_cons_of_mem _ hx), List.length_cons]
        omega
    have hlits : Utf8.size (PyStr.lit "\x7b\"message_type\":\"queued\",\"position\":") = 36 ∧
        Utf8.size (PyStr.lit "\x7d") = 1 := by decide
    have hmax : pyMaxPayloadSize .controlJson = 1048576 := by decide
    rw [htext, Utf8.size_append, Utf8.size_append, hlits.1, hlits.2, hsize _ hascii, hmax]
    omega

/-- What a `pong` takes of the sequence that it echoes: room for its nesting, no surrogate, and
    the size limit. -/
structure Echoable (py : Interpreter) (v : Value) : Prop where
  nesting : v.nestsWithin (py.dumpsNesting - 1) = true
  scalars : Scalars v.jsonText
  size : 35 + Utf8.size v.jsonText ≤ ProtocolLimits.maxControlPayloadBytes

theorem encodes_pong_iff {max : Nat} {ready : ReadyMessage} {v : Value} (hints : v.IntsWithin py) :
    (config py max ready).encodes (.pong (some v)) = true ↔ Echoable py v := by
  have htext : (Value.dict (message "pong" [("sequence", v)])).jsonText =
      PyStr.lit "\x7b\"message_type\":\"pong\",\"sequence\":" ++ v.jsonText ++ PyStr.lit "\x7d" := by
    simp only [message, List.map, Value.jsonText, fieldsText, List.append_assoc]
    rfl
  have hlits : Utf8.size (PyStr.lit "\x7b\"message_type\":\"pong\",\"sequence\":") = 34 ∧
      Utf8.size (PyStr.lit "\x7d") = 1 := by decide
  have hmax : pyMaxPayloadSize .controlJson = ProtocolLimits.maxControlPayloadBytes := by decide
  have hnest : (Value.dict (message "pong" [("sequence", v)])).nestsWithin py.dumpsNesting =
      v.nestsWithin (py.dumpsNesting - 1) := by
    obtain ⟨room, hroom⟩ : ∃ room, py.dumpsNesting = room + 1 := ⟨py.dumpsNesting - 1, by have := py.dumpsNesting_pos; omega⟩
    rw [hroom, Nat.add_sub_cancel]
    cases room <;> simp [Value.nestsWithin, message]
  rw [encodes_iff]
  refine (encodes_json_iff 0 (by decide)).trans ⟨fun h => ?_, fun h => ?_⟩
  · have hs := h.scalars
    have hz := h.size
    simp only [htext, scalars_append, scalars_lit, true_and, and_true] at hs
    rw [htext, Utf8.size_append, Utf8.size_append, hlits.1, hlits.2, hmax] at hz
    exact ⟨hnest ▸ h.nesting, hs, by omega⟩
  · refine ⟨hnest ▸ h.nesting, ?_, ?_, ?_⟩
    · intro n hn
      exact hints n (by simpa [Value.ints, message, fieldsInts] using hn)
    · simp only [htext, scalars_append, scalars_lit, true_and, and_true]
      exact h.scalars
    · have hz := h.size
      rw [htext, Utf8.size_append, Utf8.size_append, hlits.1, hlits.2, hmax]
      omega

theorem encodes_pong_none {max : Nat} {ready : ReadyMessage} : (config py max ready).encodes (.pong none) = true := by
  rw [encodes_iff]
  refine (encodes_json_iff 0 (by decide)).mpr ⟨nestsWithin_flat rfl, ?_, by decide, by decide⟩
  intro n hn
  simp [Value.ints, message, fieldsInts] at hn

end Encoding

/-- CPython with its default limits; it is used on ASCII texts only. -/
def sampleInterpreter : Interpreter where
  loadsNesting := 980
  dumpsNesting := 980
  reprNesting := 980
  maxStrDigits := 4300
  decimalDigit := fun _ => none
  isSpace := fun _ => false
  isPrintable := fun _ => true
  dumpsNesting_pos := by decide
  maxStrDigits_min := by decide

end QwenTtsBridge.Worker.PyServer
