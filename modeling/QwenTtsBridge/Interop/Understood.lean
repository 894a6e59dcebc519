/-
  QwenTtsBridge.Interop.Understood — what the Python worker writes and the client reads.

  The worker puts values into its messages that it does not check: the voice ids and the
  traces of the engine, the texts of its exceptions, the sequence of a `ping`, the format of
  a request. `Fits` is what the client's decoder takes of them, frame by frame.

  Proved: a frame that can be encoded and fits is accepted (`understood_of_fits`), given what
  the client's library makes of its text (`Reads`).
-/

import QwenTtsBridge.Interop.Denotes
import QwenTtsBridge.Protocol.Diagnostics
import QwenTtsBridge.Worker.PyMessages

namespace QwenTtsBridge.Interop

open QwenTtsBridge.Lib QwenTtsBridge.Python QwenTtsBridge.Protocol.Control QwenTtsBridge.Worker
open QwenTtsBridge.Protocol.Framing (FrameType)

/-! ## Texts that both libraries take for one value -/

mutual

/-- Every number is one that a double can hold, and the keys of every `dict` are distinct. -/
def Portable : Value → Prop
  | .int n => -floatOverflow < n ∧ n < floatOverflow
  | .float x => ∃ y, x = .finite y
  | .list items => itemsPortable items
  | .dict d => (d.map Prod.fst).Nodup ∧ fieldsPortable d
  | .none | .bool _ | .str _ => True

def itemsPortable : List Value → Prop
  | [] => True
  | v :: items => Portable v ∧ itemsPortable items

def fieldsPortable : List (PyStr × Value) → Prop
  | [] => True
  | (_, v) :: d => Portable v ∧ fieldsPortable d

end

/-- What `Json::parse` makes of the text of a `dict`: `json.dumps` writes `NaN` and integers of any
    size, which are no JSON or do not fit, and JSON otherwise. -/
def Reads (lib : JsonLibrary) (d : Dict) : Prop :=
  ∀ bytes, Utf8.encode (Value.dict d).jsonText = some bytes → Portable (.dict d) →
    ∃ v, lib.parse bytes = .ok v ∧ v.Canonical ∧ Denotes v (.dict d)

/-! ## Readers -/

theorem canonical_of_field {fields : List (CppString × Json)} {name : String} {v : Json}
    (h : (Json.object fields).Canonical) (hfield : (Json.object fields).field name = some v) : v.Canonical := by
  cases h with
  | object _ hall => exact hall _ (SortedMap.mem_of_find hfield)

section Readers

variable {fields : List (CppString × Json)} {d : Dict} {name : String} {w : Value}
variable (h : Denotes (.object fields) (.dict d)) (hname : isPlain name = true)

include h hname

theorem Denotes.field_none (hw : d.get? (PyStr.lit name) = none) : (Json.object fields).field name = none := by
  have hsome := h.isSome_get? hname
  rw [hw] at hsome
  cases hfield : (Json.object fields).field name with
  | none => rfl
  | some v =>
    rw [hfield] at hsome
    cases hsome

theorem Denotes.field_some (hw : d.get? (PyStr.lit name) = some w) :
    ∃ v, (Json.object fields).field name = some v ∧ Denotes v w := by
  have hsome := h.isSome_get? hname
  rw [hw] at hsome
  cases hfield : (Json.object fields).field name with
  | none =>
    rw [hfield] at hsome
    cases hsome
  | some v =>
    obtain ⟨w', hw', hv⟩ := h.get?_some hname hfield
    rw [hw] at hw'
    cases hw'
    exact ⟨v, rfl, hv⟩

theorem Denotes.reads_string {t : PyStr} (hw : d.get? (PyStr.lit name) = some (.str t)) :
    ∃ s, readRequiredString (.object fields) name = .ok s ∧ Utf8.decode s = some t := by
  obtain ⟨v, hfield, hv⟩ := h.field_some hname hw
  unfold readRequiredString
  rw [hfield]
  cases v with
  | string s => exact ⟨s, rfl, hv⟩
  | _ => exact hv.elim

theorem Denotes.reads_bool {b : Bool} (hw : d.get? (PyStr.lit name) = some (.bool b)) :
    readRequiredBool (.object fields) name = .ok b := by
  obtain ⟨v, hfield, hv⟩ := h.field_some hname hw
  unfold readRequiredBool
  rw [hfield]
  cases v with
  | boolean a => exact congrArg Except.ok hv
  | _ => exact hv.elim

theorem Denotes.reads_optionalBool {b : Bool} (hw : d.get? (PyStr.lit name) = some (.bool b)) :
    readOptionalBool (.object fields) name = .ok (some b) := by
  obtain ⟨v, hfield, hv⟩ := h.field_some hname hw
  unfold readOptionalBool
  rw [hfield]
  cases v with
  | boolean a => exact congrArg (fun b => Except.ok (some b)) hv
  | _ => exact hv.elim

/-- An integer of 64 bits is one on the other side. -/
theorem Denotes.field_u64 (hcanonical : (Json.object fields).Canonical) {n : Int}
    (hw : d.get? (PyStr.lit name) = some (.int n)) (hlow : 0 ≤ n) (hhigh : n < 2 ^ 64) :
    ∃ a : UInt64, (Json.object fields).field name = some (.numberUnsigned a) ∧ (a.toNat : Int) = n := by
  obtain ⟨v, hfield, hv⟩ := h.field_some hname hw
  have hv' : v.Canonical := canonical_of_field hcanonical hfield
  cases v with
  | numberUnsigned a => exact ⟨a, hfield, hv⟩
  | numberInteger a =>
    cases hv' with
    | numberInteger hneg =>
      have hlt : a.toInt < 0 := by simpa using Int64.lt_iff_toInt_lt.mp hneg
      have heq : a.toInt = n := hv
      omega
  | numberFloat x =>
    obtain ⟨hrange, _⟩ : (n < -(2 ^ 63) ∨ 2 ^ 64 ≤ n) ∧ x = .ofInt n := hv
    omega
  | _ => exact hv.elim

theorem Denotes.reads_optionalU64 (hcanonical : (Json.object fields).Canonical) {n : Int}
    (hw : d.get? (PyStr.lit name) = some (.int n)) (hlow : 0 ≤ n) (hhigh : n < 2 ^ 64) :
    ∃ a : UInt64, readOptionalU64 (.object fields) name = .ok (some a) ∧ (a.toNat : Int) = n := by
  obtain ⟨a, hfield, ha⟩ := h.field_u64 hname hcanonical hw hlow hhigh
  refine ⟨a, ?_, ha⟩
  unfold readOptionalU64
  rw [hfield]
  rfl

theorem Denotes.reads_u64 (hcanonical : (Json.object fields).Canonical) {n : Int}
    (hw : d.get? (PyStr.lit name) = some (.int n)) (hlow : 0 ≤ n) (hhigh : n < 2 ^ 64) :
    ∃ a : UInt64, readRequiredU64 (.object fields) name = .ok a := by
  obtain ⟨a, hfield, ha⟩ := h.field_u64 hname hcanonical hw hlow hhigh
  refine ⟨a, ?_⟩
  unfold readRequiredU64
  rw [hfield]

theorem Denotes.reads_optionalU32 (hcanonical : (Json.object fields).Canonical) {n : Int}
    (hw : d.get? (PyStr.lit name) = some (.int n)) (hlow : 0 < n) (hhigh : n < 2 ^ 32) :
    ∃ a : UInt32, readOptionalU32 (.object fields) name = .ok (some a) ∧ a ≠ 0 := by
  obtain ⟨a, hread, ha⟩ := h.reads_optionalU64 hname hcanonical hw (Int.le_of_lt hlow) (by omega)
  have hlt : a.toNat < 2 ^ 32 := by omega
  refine ⟨a.toUInt32, ?_, ?_⟩
  · unfold readOptionalU32
    rw [hread]
    exact if_neg (by omega)
  · intro hzero
    have htoNat := congrArg UInt32.toNat hzero
    rw [UInt64.toNat_toUInt32, Nat.mod_eq_of_lt hlt] at htoNat
    have hz : (0 : UInt32).toNat = 0 := rfl
    omega

theorem Denotes.reads_u32 (hcanonical : (Json.object fields).Canonical) {n : Int}
    (hw : d.get? (PyStr.lit name) = some (.int n)) (hlow : 0 < n) (hhigh : n < 2 ^ 32) :
    ∃ a : UInt32, readRequiredU32 (.object fields) name = .ok a ∧ a ≠ 0 := by
  obtain ⟨a, hread, ha⟩ := h.reads_optionalU32 hname hcanonical hw hlow hhigh
  refine ⟨a, ?_, ha⟩
  unfold readRequiredU32
  rw [hread]
  rfl

end Readers

/-! ## Frames -/

def readyPayload (m : PyServer.ReadyMessage) : Dict :=
  PyServer.message "ready"
    [("worker_version", .str m.workerVersion), ("session_id", .str m.sessionId), ("warmed_up", .bool m.warmedUp),
      ("capabilities", PyServer.capabilitiesPayload m.capabilities), ("voice_ids", .list (m.voiceIds.map .str))]

def completedPayload : Dict :=
  PyServer.message "completed" [("execution_outcome", .str (PyStr.lit "completed"))]

def tracedPayload (trace : Dict) : Dict :=
  PyServer.message "completed" [("execution_outcome", .str (PyStr.lit "completed")), ("generation_trace", .dict trace)]

/-- The payload of a frame, `audio_pcm` apart. -/
def payload? : PyServer.OutFrame → Option Dict
  | .ready m => some (readyPayload m)
  | .pong none => some (PyServer.message "pong" [])
  | .pong (some v) => some (PyServer.message "pong" [("sequence", v)])
  | .shutdownAck => some (PyServer.message "shutdown_ack" [])
  | .queued _ position => some (PyServer.message "queued" [("position", .int position)])
  | .started _ format => some (PyServer.message "started" [("audio_format", format.toPayload)])
  | .audioPcm _ _ => none
  | .completed _ none | .completed _ (some []) => some completedPayload
  | .completed _ (some (p :: trace)) => some (tracedPayload (p :: trace))
  | .cancelled _ => some (PyServer.message "cancelled" [])
  | .error _ e => some (PyServer.errorPayload e)

def isErrorFrame : PyServer.OutFrame → Bool
  | .error _ _ => true
  | _ => false

/-- The client's decoder of the frame's type accepts its payload. -/
def Understood (lib : JsonLibrary) (py : Interpreter) (f : PyServer.OutFrame) : Prop :=
  ∀ d, payload? f = some d → ∃ payload, PyServer.encodeJsonPayload py d = .ok payload ∧
    if isErrorFrame f then ∃ e, decodeErrorMessage lib payload = .ok e
    else ∃ m, decodeControlMessage lib payload .workerToClient = .ok m

theorem encoded_payload {py : Interpreter} {f : PyServer.OutFrame} {bytes : List UInt8} {d : Dict}
    (h : PyServer.encodeOut py f = .ok bytes) (hd : payload? f = some d) :
    ∃ payload, PyServer.encodeJsonPayload py d = .ok payload := by
  have hframe : ∀ {t : FrameType} {id : Nat} {d' : Dict}, PyServer.jsonFrame py t id d' = .ok bytes →
      ∃ payload, PyServer.encodeJsonPayload py d' = .ok payload := by
    intro t id d' hjson
    unfold PyServer.jsonFrame at hjson
    split at hjson
    · cases hjson
    · exact ⟨_, by assumption⟩
  cases f with
  | audioPcm id pcm => cases hd
  | pong sequence =>
    cases sequence <;>
    · cases hd
      exact hframe h
  | completed id trace =>
    rcases trace with _ | _ | ⟨p, trace⟩ <;>
    · cases hd
      exact hframe h
  | ready | shutdownAck | queued | started | cancelled | error =>
    cases hd
    exact hframe h

theorem encode_of_encodeJsonPayload {py : Interpreter} {d : Dict} {payload : List UInt8}
    (h : PyServer.encodeJsonPayload py d = .ok payload) : Utf8.encode (Value.dict d).jsonText = some payload := by
  unfold PyServer.encodeJsonPayload dumps at h
  split at h
  · cases h
  · rename_i text htext
    split at htext
    · cases htext
    split at htext
    · cases htext
    cases htext
    split at h
    · cases h
    · cases h
      assumption

/-- An unsigned integer of 64 bits. -/
def IsU64 (v : Value) : Prop := ∃ n : Int, v = .int n ∧ 0 ≤ n ∧ n < 2 ^ 64

def IsStr (v : Option Value) : Prop := ∃ t, v = some (.str t)

def IsBool (v : Option Value) : Prop := ∃ b, v = some (.bool b)

/-- What the client takes of a trace. -/
structure TraceFits (trace : Dict) : Prop where
  portable : Portable (.dict trace)
  reason : IsStr (trace.get? (PyStr.lit "termination_reason"))
  flags : ∀ name ∈ ["hit_eos", "hit_max_seq_len", "hit_max_new_tokens"], IsBool (trace.get? (PyStr.lit name))
  counts : ∀ name ∈ ["codec_frame_count", "generated_steps", "emitted_steps", "terminal_step_index"],
    ∃ v, trace.get? (PyStr.lit name) = some v ∧ IsU64 v

structure FormatFits (format : PyServer.AudioFormat) : Prop where
  sampleFormat : format.sampleFormat ≠ []
  sampleRate : 0 < format.sampleRate ∧ format.sampleRate < 2 ^ 32
  channels : 0 < format.channels ∧ format.channels < 2 ^ 32

structure ReadyFits (m : PyServer.ReadyMessage) : Prop where
  workerVersion : m.workerVersion ≠ []
  sessionId : m.sessionId ≠ []
  voiceIds : ∀ id ∈ m.voiceIds, id ≠ []

/-- No text of an error is empty. -/
structure Voiced (e : PyServer.ErrorMessage) : Prop where
  category : e.category ≠ []
  code : e.code ≠ []
  message : e.message ≠ []

/-- What the client takes of a frame. -/
def Fits : PyServer.OutFrame → Prop
  | .ready m => ReadyFits m
  | .pong (some v) => IsU64 v
  | .queued _ position => 0 < position ∧ position < 2 ^ 32
  | .started _ format => FormatFits format
  | .completed _ (some (p :: trace)) => TraceFits (p :: trace)
  | .error _ e => Voiced e
  | _ => True

/-! ## What fits is understood -/

section Decode

variable {lib : JsonLibrary} {py : Interpreter} {d : Dict} {fields : List (CppString × Json)} {type : String}

theorem ne_nil_of_decode {s : CppString} {t : PyStr} (h : Utf8.decode s = some t) (ht : t ≠ []) : s ≠ [] := by
  rintro rfl
  cases h
  exact ht rfl

/-- The envelope of a message of the worker. -/
theorem decode_envelope (h : Denotes (.object fields) (.dict d)) (htype : type ∈ workerToClientMessages)
    (hd : d.get? (PyStr.lit "message_type") = some (.str (PyStr.lit type)))
    (hversion : d.get? (PyStr.lit "protocol_version") = none) (hid : d.get? (PyStr.lit "request_id") = none) :
    decodeControlObject (.object fields) .workerToClient =
      decodeKnownControlMessage (.object fields) (CppString.lit type) := by
  have hplain : ∀ t ∈ workerToClientMessages, isPlain t = true := by decide
  obtain ⟨v, hfield, hv⟩ := h.field_some (by decide) hd
  cases v with
  | string s =>
    have hs : s = CppString.lit type := eq_lit_of_decode (hplain type htype) hv
    cases hs
    have hworker : isOneOf workerToClientMessages (CppString.lit type) = true :=
      List.contains_iff_mem.mpr (List.mem_map_of_mem htype)
    have hforbidden : hasForbiddenHeaderField (.object fields) = false := by
      unfold hasForbiddenHeaderField
      rw [h.field_none (by decide) hversion, h.field_none (by decide) hid]
      rfl
    rw [decodeControlObject_of_type ⟨rfl, hforbidden, hfield⟩, hworker, Bool.or_true,
      show directionAllows (CppString.lit type) .workerToClient = true from hworker]
    rfl
  | _ => exact hv.elim

theorem parsePayload_of_reads {payload : List UInt8} (hpayload : PyServer.encodeJsonPayload py d = .ok payload)
    (hreads : Reads lib d) (hportable : Portable (.dict d)) :
    ∃ fields, parsePayload lib payload = .ok (.object fields) ∧ (Json.object fields).Canonical ∧
      Denotes (.object fields) (.dict d) := by
  obtain ⟨v, hparse, hcanonical, hdenotes⟩ := hreads payload (encode_of_encodeJsonPayload hpayload) hportable
  cases v with
  | object fields =>
    refine ⟨fields, ?_, hcanonical, hdenotes⟩
    unfold parsePayload
    rw [hparse]
  | _ => exact hdenotes.elim

theorem readGenerationTrace_fits (h : Denotes (.object fields) (.dict d)) (hcanonical : (Json.object fields).Canonical)
    (hfits : TraceFits d) : ∃ t, readGenerationTrace (.object fields) = .ok t := by
  obtain ⟨reason, hreason⟩ := hfits.reason
  obtain ⟨b1, h1⟩ := hfits.flags "hit_eos" (by decide)
  obtain ⟨b2, h2⟩ := hfits.flags "hit_max_seq_len" (by decide)
  obtain ⟨b3, h3⟩ := hfits.flags "hit_max_new_tokens" (by decide)
  have hcount : ∀ name ∈ ["codec_frame_count", "generated_steps", "emitted_steps", "terminal_step_index"],
      isPlain name = true → ∃ a, readRequiredU64 (.object fields) name = .ok a := by
    intro name hname hplain
    obtain ⟨v, hv, n, rfl, hlow, hhigh⟩ := hfits.counts name hname
    exact h.reads_u64 hplain hcanonical hv hlow hhigh
  obtain ⟨s, hs, _⟩ := h.reads_string (by decide) hreason
  obtain ⟨n1, hn1⟩ := hcount "codec_frame_count" (by decide) (by decide)
  obtain ⟨n2, hn2⟩ := hcount "generated_steps" (by decide) (by decide)
  obtain ⟨n3, hn3⟩ := hcount "emitted_steps" (by decide) (by decide)
  obtain ⟨n4, hn4⟩ := hcount "terminal_step_index" (by decide) (by decide)
  unfold readGenerationTrace
  rw [Json.isObject_object, hs, h.reads_bool (by decide) h1, h.reads_bool (by decide) h2,
    h.reads_bool (by decide) h3, hn1, hn2, hn3, hn4]
  exact ⟨_, rfl⟩

theorem readAudioFormat_fits {format : PyServer.AudioFormat} {v : Json} (h : Denotes v format.toPayload)
    (hcanonical : v.Canonical) (hfits : FormatFits format) :
    ∃ a, readAudioFormat v = .ok a ∧ validateAudioFormat a "audio_format" = .ok () := by
  cases v with
  | object fields =>
    obtain ⟨s, hs, hdecode⟩ := Denotes.reads_string h (by decide : isPlain "sample_format" = true) rfl
    obtain ⟨rate, hrate, hrate0⟩ := Denotes.reads_u32 h (by decide : isPlain "sample_rate" = true) hcanonical rfl
      hfits.sampleRate.1 hfits.sampleRate.2
    obtain ⟨channels, hchannels, hchannels0⟩ := Denotes.reads_u32 h (by decide : isPlain "channels" = true) hcanonical rfl
      hfits.channels.1 hfits.channels.2
    have hne : s ≠ [] := ne_nil_of_decode hdecode hfits.sampleFormat
    have hvalid : validateAudioFormat ⟨s, rate, channels⟩ "audio_format" = .ok () := by
      unfold validateAudioFormat validateNonEmptyString
      rw [if_pos (by simpa using hne)]
      change (if rate = 0 then _ else if channels = 0 then _ else _) = _
      rw [if_neg hrate0, if_neg hchannels0]
    refine ⟨⟨s, rate, channels⟩, ?_, hvalid⟩
    unfold readAudioFormat
    rw [Json.isObject_object, hs, hrate, hchannels]
    change (validateAudioFormat ⟨s, rate, channels⟩ "audio_format" >>= _) = _
    rw [hvalid]
    rfl
  | _ => exact h.elim

theorem nonEmptyStrings {ids : List PyStr} {items : List Json} (h : itemsDenote items (ids.map .str))
    (hids : ∀ id ∈ ids, id ≠ []) : ∃ strings, items.mapM nonEmptyString = some strings := by
  induction ids generalizing items with
  | nil =>
    cases items with
    | nil => exact ⟨[], rfl⟩
    | cons v items => exact h.elim
  | cons id ids ih =>
    cases items with
    | nil => exact h.elim
    | cons v items =>
      obtain ⟨hv, hitems⟩ := h
      obtain ⟨strings, hstrings⟩ := ih hitems fun i hi => hids i (List.mem_cons_of_mem _ hi)
      cases v with
      | string s =>
        have hne : s ≠ [] := ne_nil_of_decode hv (hids id List.mem_cons_self)
        have hs : nonEmptyString (.string s) = some s := by
          cases s with
          | nil => exact absurd rfl hne
          | cons b s => rfl
        refine ⟨s :: strings, ?_⟩
        rw [List.mapM_cons, hs, hstrings]
        rfl
      | _ => exact hv.elim

theorem readCapabilities_fits {c : PyServer.EngineCapabilities} (h : Denotes (.object fields) (.dict d))
    (hd : d.get? (PyStr.lit "capabilities") = some (PyServer.capabilitiesPayload c)) :
    ∃ out, readCapabilities (.object fields) = .ok out := by
  obtain ⟨v, hfield, hv⟩ := h.field_some (by decide) hd
  cases v with
  | object capabilities =>
    unfold readCapabilities
    rw [hfield]
    change ∃ out, (if !(Json.object capabilities).isObject then _ else _) = _
    rw [Json.isObject_object, Bool.not_true, if_neg Bool.false_ne_true,
      Denotes.reads_bool hv (by decide : isPlain "streaming" = true) rfl,
      Denotes.reads_bool hv (by decide : isPlain "cancellation" = true) rfl,
      Denotes.reads_bool hv (by decide : isPlain "instructions" = true) rfl,
      Denotes.reads_bool hv (by decide : isPlain "voice_clone" = true) rfl,
      Denotes.reads_optionalBool hv (by decide : isPlain "sampling_overrides" = true) rfl,
      Denotes.reads_optionalBool hv (by decide : isPlain "deterministic_seed" = true) rfl,
      Denotes.reads_optionalBool hv (by decide : isPlain "voice_clone_streaming" = true) rfl,
      Denotes.reads_optionalBool hv (by decide : isPlain "voice_profiles" = true) rfl]
    exact ⟨_, rfl⟩
  | _ => exact hv.elim

theorem lt_floatOverflow : (2 : Int) ^ 64 < floatOverflow := by decide +kernel

theorem decodeControlMessage_of_parse {payload : List UInt8} {v : Json} (h : parsePayload lib payload = .ok v)
    (direction : ControlMessageDirection) :
    decodeControlMessage lib payload direction = decodeControlObject v direction := by
  unfold decodeControlMessage
  rw [h]
  rfl

/-- A control frame is understood when the object that its text is read as decodes. -/
theorem control_understood {f : PyServer.OutFrame} {bytes : List UInt8} (hencode : PyServer.encodeOut py f = .ok bytes)
    (hf : isErrorFrame f = false) (hd : payload? f = some d) (hreads : Reads lib d) (hportable : Portable (.dict d))
    (hdecode : ∀ fields, (Json.object fields).Canonical → Denotes (.object fields) (.dict d) →
      ∃ m, decodeControlObject (.object fields) .workerToClient = .ok m) : Understood lib py f := by
  intro d' hd'
  rw [hd] at hd'
  cases hd'
  obtain ⟨payload, hpayload⟩ := encoded_payload hencode hd
  obtain ⟨fields, hparse, hcanonical, hdenotes⟩ := parsePayload_of_reads hpayload hreads hportable
  refine ⟨payload, hpayload, ?_⟩
  rw [hf, decodeControlMessage_of_parse hparse]
  exact hdecode fields hcanonical hdenotes

theorem error_understood {id : Nat} {e : PyServer.ErrorMessage} {bytes : List UInt8}
    (hencode : PyServer.encodeOut py (.error id e) = .ok bytes) (hreads : Reads lib (PyServer.errorPayload e))
    (hfits : Voiced e) : Understood lib py (.error id e) := by
  intro d hd
  cases hd
  obtain ⟨payload, hpayload⟩ := encoded_payload hencode rfl
  have hportable : Portable (.dict (PyServer.errorPayload e)) :=
    ⟨(by decide : (["message_type", "category", "code", "message"].map PyStr.lit).Nodup), trivial, trivial, trivial, trivial, trivial⟩
  obtain ⟨fields, hparse, hcanonical, h⟩ := parsePayload_of_reads hpayload hreads hportable
  obtain ⟨v, hfield, hv⟩ := h.field_some (by decide : isPlain "message_type" = true) rfl
  obtain ⟨category, hcategory, hc⟩ := h.reads_string (by decide : isPlain "category" = true) rfl
  obtain ⟨code, hcode, hk⟩ := h.reads_string (by decide : isPlain "code" = true) rfl
  obtain ⟨message, hmessage, hm⟩ := h.reads_string (by decide : isPlain "message" = true) rfl
  have hforbidden : hasForbiddenHeaderField (.object fields) = false := by
    unfold hasForbiddenHeaderField
    rw [h.field_none (by decide : isPlain "protocol_version" = true) rfl,
      h.field_none (by decide : isPlain "request_id" = true) rfl]
    rfl
  have hvalid : validateErrorMessage ⟨category, code, message⟩ = .ok () := by
    unfold validateErrorMessage validateNonEmptyString
    rw [if_pos (by simpa using ne_nil_of_decode hc hfits.category),
      if_pos (by simpa using ne_nil_of_decode hk hfits.code),
      if_pos (by simpa using ne_nil_of_decode hm hfits.message)]
    rfl
  refine ⟨payload, hpayload, ⟨category, code, message⟩, ?_⟩
  cases v with
  | string s =>
    have hs : s = CppString.lit "error" := eq_lit_of_decode (by decide) hv
    unfold decodeErrorMessage
    rw [hparse]
    change decodeErrorObject (.object fields) = _
    unfold decodeErrorObject
    rw [Json.isObject_object, hforbidden, hfield]
    change (if s ≠ CppString.lit "error" then _ else _) = _
    rw [if_neg (not_not.mpr hs), hcategory, hcode, hmessage]
    change (validateErrorMessage ⟨category, code, message⟩ >>= _) = _
    rw [hvalid]
    rfl
  | _ => exact hv.elim

theorem reads_outcome (h : Denotes (.object fields) (.dict d))
    (hd : d.get? (PyStr.lit "execution_outcome") = some (.str (PyStr.lit "completed"))) :
    ∃ s, readOptionalString (.object fields) "execution_outcome" [] = .ok s := by
  obtain ⟨v, hfield, hv⟩ := h.field_some (by decide) hd
  unfold readOptionalString
  rw [hfield]
  cases v with
  | string s => exact ⟨s, rfl⟩
  | _ => exact hv.elim

theorem completed_portable : Portable (.dict completedPayload) := ⟨by decide, trivial, trivial, trivial⟩

theorem completed_decodes (h : Denotes (.object fields) (.dict completedPayload)) :
    ∃ m, decodeControlObject (.object fields) .workerToClient = .ok m := by
  rw [decode_envelope h (by decide : "completed" ∈ workerToClientMessages) rfl rfl rfl]
  obtain ⟨s, hs⟩ := reads_outcome h rfl
  have hread : ∃ m, readCompletedMessage (.object fields) = .ok m := by
    unfold readCompletedMessage
    rw [hs, h.field_none (by decide : isPlain "generation_trace" = true) rfl]
    exact ⟨_, rfl⟩
  obtain ⟨m, hm⟩ := hread
  change ∃ m, (readCompletedMessage (.object fields) >>= _) = .ok m
  rw [hm]
  exact ⟨_, rfl⟩

theorem traced_decodes {trace : Dict} (h : Denotes (.object fields) (.dict (tracedPayload trace)))
    (hcanonical : (Json.object fields).Canonical) (hfits : TraceFits trace) :
    ∃ m, decodeControlObject (.object fields) .workerToClient = .ok m := by
  rw [decode_envelope h (by decide : "completed" ∈ workerToClientMessages) rfl rfl rfl]
  obtain ⟨s, hs⟩ := reads_outcome h rfl
  obtain ⟨v, hfield, hv⟩ := h.field_some (by decide : isPlain "generation_trace" = true) rfl
  have hcanonical' : v.Canonical := canonical_of_field hcanonical hfield
  have htrace : ∃ t, readGenerationTrace v = .ok t := by
    cases v with
    | object fields => exact readGenerationTrace_fits hv hcanonical' hfits
    | _ => exact hv.elim
  obtain ⟨t, ht⟩ := htrace
  have hread : ∃ m, readCompletedMessage (.object fields) = .ok m := by
    unfold readCompletedMessage
    rw [hs, hfield]
    change ∃ m, (readGenerationTrace v >>= _) = .ok m
    rw [ht]
    exact ⟨_, rfl⟩
  obtain ⟨m, hm⟩ := hread
  change ∃ m, (readCompletedMessage (.object fields) >>= _) = .ok m
  rw [hm]
  exact ⟨_, rfl⟩

theorem ready_decodes {m : PyServer.ReadyMessage} (h : Denotes (.object fields) (.dict (readyPayload m)))
    (hfits : ReadyFits m) : ∃ m, decodeControlObject (.object fields) .workerToClient = .ok m := by
  rw [decode_envelope h (by decide : "ready" ∈ workerToClientMessages) rfl rfl rfl]
  obtain ⟨version, hversion, hv⟩ := h.reads_string (by decide : isPlain "worker_version" = true) rfl
  obtain ⟨session, hsession, hs⟩ := h.reads_string (by decide : isPlain "session_id" = true) rfl
  have hwarmed : readOptionalBool (.object fields) "warmed_up" = .ok (some m.warmedUp) :=
    h.reads_optionalBool (by decide) rfl
  obtain ⟨capabilities, hcapabilities⟩ := readCapabilities_fits (c := m.capabilities) h rfl
  have hvoices : ∃ strings, readOptionalStringArray (.object fields) "voice_ids" [] = .ok strings := by
    obtain ⟨v, hfield, hv⟩ := h.field_some (by decide : isPlain "voice_ids" = true) rfl
    cases v with
    | array items =>
      obtain ⟨strings, hstrings⟩ := nonEmptyStrings hv hfits.voiceIds
      refine ⟨strings, ?_⟩
      unfold readOptionalStringArray
      rw [hfield]
      simp only [hstrings]
    | _ => exact hv.elim
  obtain ⟨strings, hstrings⟩ := hvoices
  have hread : ∃ out, readReadyMessage (.object fields) = .ok out ∧ out.workerVersion = version ∧
      out.sessionId = session := by
    unfold readReadyMessage
    rw [hversion, hsession, hwarmed, hstrings, hcapabilities]
    exact ⟨_, rfl, rfl, rfl⟩
  obtain ⟨out, hout, rfl, rfl⟩ := hread
  have hvalid : validateControlMessage (.ready out) = .ok () := by
    change (validateNonEmptyString out.workerVersion "worker_version" >>= _) = _
    unfold validateNonEmptyString
    rw [if_pos (by simpa using ne_nil_of_decode hv hfits.workerVersion)]
    exact if_pos (by simpa using ne_nil_of_decode hs hfits.sessionId)
  change ∃ m, (readReadyMessage (.object fields) >>= _) = .ok m
  rw [hout]
  refine ⟨.ready out, ?_⟩
  change (validateControlMessage (.ready out) >>= _) = _
  rw [hvalid]
  rfl

/-- A frame that the worker can encode, with values that the client takes. -/
theorem understood_of_fits {f : PyServer.OutFrame} {bytes : List UInt8} (hencode : PyServer.encodeOut py f = .ok bytes)
    (hreads : ∀ d, payload? f = some d → Reads lib d) (hfits : Fits f) : Understood lib py f := by
  cases f with
  | audioPcm id pcm => exact fun d hd => nomatch hd
  | error id e => exact error_understood hencode (hreads _ rfl) hfits
  | shutdownAck =>
    refine control_understood hencode rfl rfl (hreads _ rfl) ⟨by decide, trivial, trivial⟩ fun fields _ h => ?_
    exact ⟨_, decode_envelope h (by decide) rfl rfl rfl⟩
  | cancelled id =>
    refine control_understood hencode rfl rfl (hreads _ rfl) ⟨by decide, trivial, trivial⟩ fun fields _ h => ?_
    exact ⟨_, decode_envelope h (by decide) rfl rfl rfl⟩
  | pong sequence =>
    cases sequence with
    | none =>
      refine control_understood hencode rfl rfl (hreads _ rfl) ⟨by decide, trivial, trivial⟩ fun fields _ h => ?_
      rw [decode_envelope h (by decide : "pong" ∈ workerToClientMessages) rfl rfl rfl]
      have hread : readOptionalU64 (.object fields) "sequence" = .ok none := by
        unfold readOptionalU64
        rw [h.field_none (by decide) rfl]
      change ∃ m, (readOptionalU64 (.object fields) "sequence" >>= _) = .ok m
      rw [hread]
      exact ⟨_, rfl⟩
    | some v =>
      obtain ⟨n, rfl, hlow, hhigh⟩ := hfits
      have hportable : Portable (.int n) := by
        have hmax := lt_floatOverflow
        exact ⟨by omega, by omega⟩
      refine control_understood hencode rfl rfl (hreads _ rfl)
        ⟨(by decide : (["message_type", "sequence"].map PyStr.lit).Nodup), trivial, hportable, trivial⟩ fun fields hcanonical h => ?_
      rw [decode_envelope h (by decide : "pong" ∈ workerToClientMessages) rfl rfl rfl]
      obtain ⟨a, hread, _⟩ := h.reads_optionalU64 (by decide : isPlain "sequence" = true) hcanonical rfl hlow hhigh
      change ∃ m, (readOptionalU64 (.object fields) "sequence" >>= _) = .ok m
      rw [hread]
      exact ⟨_, rfl⟩
  | queued id position =>
    obtain ⟨hpos, hlt⟩ : 0 < position ∧ position < 2 ^ 32 := hfits
    have hportable : Portable (.int position) := by
      have hmax := lt_floatOverflow
      exact ⟨by omega, by omega⟩
    refine control_understood hencode rfl rfl (hreads _ rfl)
      ⟨(by decide : (["message_type", "position"].map PyStr.lit).Nodup), trivial, hportable, trivial⟩ fun fields hcanonical h => ?_
    rw [decode_envelope h (by decide : "queued" ∈ workerToClientMessages) rfl rfl rfl]
    obtain ⟨a, hread, ha⟩ := h.reads_optionalU32 (by decide : isPlain "position" = true) hcanonical rfl
      (by omega) (by omega)
    change ∃ m, (readOptionalU32 (.object fields) "position" >>= _) = .ok m
    rw [hread]
    refine ⟨.queued true a, ?_⟩
    change (validateControlMessage (.queued true a) >>= _) = _
    have hvalid : validateControlMessage (.queued true a) = .ok () :=
      if_pos (by simpa using UInt32.pos_iff_ne_zero.mpr ha)
    rw [hvalid]
    rfl
  | started id format =>
    have hformat : Portable format.toPayload := by
      have hmax := lt_floatOverflow
      have hrate := hfits.sampleRate
      have hchannels := hfits.channels
      exact ⟨(by decide : (["sample_format", "sample_rate", "channels"].map PyStr.lit).Nodup), trivial,
        ⟨by omega, by omega⟩, ⟨by omega, by omega⟩, trivial⟩
    refine control_understood hencode rfl rfl (hreads _ rfl)
      ⟨(by decide : (["message_type", "audio_format"].map PyStr.lit).Nodup), trivial, hformat, trivial⟩ fun fields hcanonical h => ?_
    rw [decode_envelope h (by decide : "started" ∈ workerToClientMessages) rfl rfl rfl]
    obtain ⟨v, hfield, hv⟩ := h.field_some (by decide : isPlain "audio_format" = true) rfl
    have hcanonical' : v.Canonical := canonical_of_field hcanonical hfield
    obtain ⟨a, hread, hvalid⟩ := readAudioFormat_fits hv hcanonical' hfits
    have hrequired : readRequiredAudioFormat (.object fields) "audio_format" = .ok a := by
      unfold readRequiredAudioFormat
      rw [hfield]
      exact hread
    change ∃ m, (readRequiredAudioFormat (.object fields) "audio_format" >>= _) = .ok m
    rw [hrequired]
    refine ⟨.started a, ?_⟩
    change (validateAudioFormat a "audio_format" >>= _) = _
    rw [hvalid]
    rfl
  | completed id trace =>
    rcases trace with _ | _ | ⟨p, trace⟩
    · exact control_understood hencode rfl rfl (hreads _ rfl) completed_portable fun fields _ h => completed_decodes h
    · exact control_understood hencode rfl rfl (hreads _ rfl) completed_portable fun fields _ h => completed_decodes h
    · exact control_understood hencode rfl rfl (hreads _ rfl)
        ⟨(by decide : (["message_type", "execution_outcome", "generation_trace"].map PyStr.lit).Nodup), trivial, trivial,
          hfits.portable, trivial⟩ fun fields hcanonical h => traced_decodes h hcanonical hfits
  | ready m =>
    have hids : ∀ ids : List PyStr, itemsPortable (ids.map .str) := by
      intro ids
      induction ids with
      | nil => trivial
      | cons id ids ih => exact ⟨trivial, ih⟩
    have hcapabilities : Portable (PyServer.capabilitiesPayload m.capabilities) :=
      ⟨(by decide : (["streaming", "cancellation", "instructions", "voice_clone", "voice_clone_streaming",
          "voice_profiles", "sampling_overrides", "deterministic_seed"].map PyStr.lit).Nodup),
        trivial, trivial, trivial, trivial, trivial, trivial, trivial, trivial, trivial⟩
    exact control_understood hencode rfl rfl (hreads _ rfl)
      ⟨(by decide : (["message_type", "worker_version", "session_id", "warmed_up", "capabilities",
          "voice_ids"].map PyStr.lit).Nodup),
        trivial, trivial, trivial, trivial, hcapabilities, hids m.voiceIds, trivial⟩
      fun fields _ h => ready_decodes h hfits

end Decode

end QwenTtsBridge.Interop
