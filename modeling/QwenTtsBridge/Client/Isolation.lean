/-
  QwenTtsBridge.Client.Isolation — what a request that the client accepted does to the session.

  `synthesize_async` encodes the message before it accepts a request, so the strings can be
  written, and it counts the bytes of the fields against the limit of its queue. A frame has
  a limit of its own, on the escaped payload, which nobody checks before the writer thread
  calls `send_control`. There a payload that is too long is a `SessionError`, and the client
  stops at one and fails every request.

  Proved: `accepted_request_is_framed_iff` — an accepted request is framed, whatever the
  session's state, exactly when the payload of its fields is within the frame limit
  (`synthesizePayloadBytes`), and is a `SessionError` otherwise. A mebibyte of text is one
  (`a_mebibyte_of_text_is_a_session_error`).
-/

import QwenTtsBridge.Client.Client
import QwenTtsBridge.Protocol.PayloadSize
import QwenTtsBridge.Session.WorkerSession

namespace QwenTtsBridge.Client

open QwenTtsBridge.Protocol.Control QwenTtsBridge.Protocol.Framing QwenTtsBridge.Session

/-! ## Calls -/

/-- A call of `synthesize_async`, with a text of the request or a prepared one. -/
inductive Call where
  | request (hooks : Hooks) (request : TtsRequest)
  | prepared (request : TtsRequest) (text : PreparedText)

def Call.source : Call → TtsRequest
  | .request _ r | .prepared r _ => r

/-- The text to be spoken: the prepared one, what a hook gives, or the request's own. -/
def Call.effectiveText : Call → CppString
  | .prepared _ text => text.effectiveText
  | .request hooks r =>
    match hooks.textPreparer, hooks.textPreprocessor with
    | some (.ok (_, text, _)), _ => text.effectiveText
    | _, some (.ok text) => text
    | _, _ => r.text

def Call.message (call : Call) : SynthesizeMessage := { toControlMessage call.source with text := call.effectiveText }

def Call.submission (encodes : ControlMessage → Bool) : Call → Submission
  | .request hooks r => submit encodes hooks r
  | .prepared r text => submitPrepared encodes r text

def synthesizeCall (opts : Options) (s : St) (callbacks : TtsCallbacks) (call : Call) : St × RequestId :=
  synthesizeAsync opts s callbacks (call.submission opts.encodes)

/-- The client uses the codec of the session. -/
def Options.encodingWith (opts : Options) (lib : JsonLibrary) : Options :=
  { opts with encodes := fun m => (encodeControlMessage lib m).isOk }

section Submissions

variable {encodes : ControlMessage → Bool} {call : Call} {requestedId : RequestId} {message : SynthesizeMessage}
  {prepared : PreparedText}

theorem submitPrepared_submit {request : TtsRequest} {text : PreparedText}
    (h : submitPrepared encodes request text = .submit requestedId message prepared) :
    message = { toControlMessage request with text := text.effectiveText } ∧ encodes (.synthesize message) = true := by
  unfold submitPrepared at h
  split at h
  · cases h
  split at h
  · cases h
  simp only at h
  split at h
  · rename_i hencodes
    cases h
    exact ⟨rfl, hencodes⟩
  · cases h

theorem prepareText_ok {hooks : Hooks} {request : TtsRequest} (h : prepareText hooks request = .ok prepared) :
    prepared.effectiveText = (Call.request hooks request).effectiveText := by
  unfold prepareText at h
  split at h
  · cases h
  · cases h
  · rename_i hpreparer
    split at h
    · cases h
    split at h
    · cases h
    split at h
    · cases h
    · cases h
      simp only [Call.effectiveText, hpreparer]
      rfl
  · rename_i hpreparer
    split at h
    · cases h
    rename_i processedText hpreprocessor
    split at h
    · cases h
    split at h
    · cases h
    · cases h
      cases hhook : hooks.textPreprocessor with
      | none =>
        rw [hhook] at hpreprocessor
        cases hpreprocessor
        simp only [Call.effectiveText, hpreparer, hhook]
        rfl
      | some result =>
        rw [hhook] at hpreprocessor
        cases hpreprocessor
        simp only [Call.effectiveText, hpreparer, hhook]
        rfl

theorem submission_submit (h : call.submission encodes = .submit requestedId message prepared) :
    message = call.message ∧ encodes (.synthesize message) = true := by
  cases call with
  | prepared request text => exact submitPrepared_submit h
  | request hooks request =>
    simp only [Call.submission, submit] at h
    split at h
    · cases h
    rename_i text htext
    obtain ⟨hmessage, hencodes⟩ := submitPrepared_submit h
    rw [prepareText_ok htext] at hmessage
    exact ⟨hmessage, hencodes⟩

end Submissions

/-! ## Commands -/

theorem enqueue_queue {opts : Options} {s s' : St} {id : RequestId} {m : ControlMessage}
    (h : enqueueOutboundLocked opts s id m = some s') :
    s'.outboundQueue = s.outboundQueue ++ [⟨id, m, outboundCommandSize m⟩] := by
  unfold enqueueOutboundLocked at h
  simp only at h
  split at h
  · cases h
  split at h <;> cases h
  rfl

/-- An accepted request puts its message, which encodes, behind the queue. -/
theorem synthesizeAsync_accepted {opts : Options} {s : St} {callbacks : TtsCallbacks} {call : Call}
    (h : (synthesizeCall opts s callbacks call).2 ≠ 0) :
    ∃ command, (synthesizeCall opts s callbacks call).1.outboundQueue = s.outboundQueue ++ [command] ∧
      command.requestId = (synthesizeCall opts s callbacks call).2 ∧
      command.message = .synthesize call.message ∧ opts.encodes command.message = true := by
  unfold synthesizeCall at h ⊢
  cases hsub : call.submission opts.encodes with
  | refused e =>
    rw [hsub] at h
    exact absurd rfl h
  | unencodable =>
    rw [hsub] at h
    exact absurd rfl h
  | submit requestedId message prepared =>
    obtain ⟨rfl, hencodes⟩ := submission_submit hsub
    rw [hsub] at h
    simp only [synthesizeAsync, synthesizeLocked] at h ⊢
    split at h
    · exact absurd rfl h
    rename_i hrunning
    rw [if_neg hrunning]
    split at h
    · exact absurd rfl h
    rename_i hid
    rw [if_neg hid]
    split at h
    · exact absurd rfl h
    rename_i s' henqueue
    refine ⟨⟨_, .synthesize call.message, outboundCommandSize (.synthesize call.message)⟩, ?_, rfl, rfl, hencodes⟩
    have hqueue := enqueue_queue henqueue
    unfold St.emplace at hqueue
    split at hqueue <;> exact hqueue

/-! ## Frames -/

/-- `send_control_frame` gets as far as `transport_->send`: no event is enqueued and `state_`
    stays as it is. -/
def Framed (lib : JsonLibrary) (options : WorkerSessionOptions) (t : Session.St) (command : OutboundCommand) : Prop :=
  sendControlFrame lib options t .sendControl command.requestId command.message =
    ({ t with log := t.log ++ [.handed command.requestId command.message] }, [.transportSend .sendControl])

/-- `send_control_frame` makes a `SessionError`. -/
def Failed (lib : JsonLibrary) (options : WorkerSessionOptions) (t : Session.St) (command : OutboundCommand) : Prop :=
  ∃ text, (sendControlFrame lib options t .sendControl command.requestId command.message).1.events =
    t.events ++ [makeSessionError text]

section Frames

variable {lib : JsonLibrary} {options : WorkerSessionOptions} {t : Session.St} {command : OutboundCommand}
  {message : SynthesizeMessage}

theorem localSendError_events (text : CppString) :
    (localSendError options t text).events = t.events ++ [makeSessionError text] := by
  unfold localSendError
  split
  · simp only [failWithEvent, enqueueEvent, Bool.not_true, Bool.false_and, Bool.and_false, Bool.false_eq_true, if_false,
      pushBack, fail]
    split <;> rfl
  · simp only [enqueueEvent, Bool.not_true, Bool.false_and, Bool.and_false, Bool.false_eq_true, if_false, pushBack]

theorem framed_of_encoded {payload : CppString} (hm : command.message = .synthesize message)
    (hpayload : encodeControlMessage lib (.synthesize message) = .ok payload)
    (hsize : payload.length ≤ ProtocolLimits.maxControlPayloadBytes) : Framed lib options t command := by
  obtain ⟨bytes, hbytes⟩ := (encodeFrame_ok_iff .controlJson command.requestId payload).mpr hsize
  unfold Framed sendControlFrame
  simp only [hm, controlMessageType, isClientToWorkerControl, Bool.not_true, Bool.false_eq_true, if_false, hpayload,
    hbytes, markOutboundControl]
  rw [if_neg (by simp)]

theorem failed_of_encoded {payload : CppString} (hm : command.message = .synthesize message)
    (hpayload : encodeControlMessage lib (.synthesize message) = .ok payload)
    (hsize : ¬ payload.length ≤ ProtocolLimits.maxControlPayloadBytes) : Failed lib options t command := by
  unfold Failed sendControlFrame
  simp only [hm, controlMessageType, isClientToWorkerControl, Bool.not_true, Bool.false_eq_true, if_false, hpayload]
  split
  · exact ⟨_, localSendError_events _⟩
  · rename_i bytes hbytes
    exact absurd ((encodeFrame_ok_iff .controlJson command.requestId payload).mp ⟨bytes, hbytes⟩) hsize

theorem not_framed_of_failed (h : Failed lib options t command) : ¬ Framed lib options t command := by
  intro hframed
  obtain ⟨text, htext⟩ := h
  rw [hframed] at htext
  have hlength := congrArg List.length htext
  simp at hlength

/-- What is encoded is the text of the message's object. -/
theorem length_synthesize (hlib : lib.Serializes) {payload : CppString}
    (h : encodeControlMessage lib (.synthesize message) = .ok payload) :
    payload.length = synthesizePayloadBytes lib.floatText message := by
  obtain ⟨-, hencoded⟩ := encodeControlMessage_ok.mp h
  obtain ⟨-, rfl⟩ := (encodeJsonPayload_ok hlib).mp hencoded
  exact bytes_synthesize lib.floatText message

theorem payload_of_encodes {opts : Options} {m : ControlMessage} (h : (opts.encodingWith lib).encodes m = true) :
    ∃ payload, encodeControlMessage lib m = .ok payload := by
  simp only [Options.encodingWith] at h
  cases hresult : encodeControlMessage lib m with
  | ok payload => exact ⟨payload, rfl⟩
  | error e =>
    rw [hresult] at h
    cases h

end Frames

/-! ## Isolation -/

/-- Every accepted request puts a command behind the queue that is framed in every state of the
    session if its payload is within the limit, and is a `SessionError` in every state if not. -/
theorem accepted_request_is_framed_iff {lib : JsonLibrary} (hlib : lib.Serializes) (opts : Options) (s : St)
    (callbacks : TtsCallbacks) (call : Call)
    (h : (synthesizeCall (opts.encodingWith lib) s callbacks call).2 ≠ 0) :
    ∃ command,
      (synthesizeCall (opts.encodingWith lib) s callbacks call).1.outboundQueue = s.outboundQueue ++ [command] ∧
      command.requestId = (synthesizeCall (opts.encodingWith lib) s callbacks call).2 ∧
      ∀ options t, (Framed lib options t command ↔
          synthesizePayloadBytes lib.floatText call.message ≤ ProtocolLimits.maxControlPayloadBytes) ∧
        (Failed lib options t command ↔
          synthesizePayloadBytes lib.floatText call.message > ProtocolLimits.maxControlPayloadBytes) := by
  obtain ⟨command, hqueue, hid, hmessage, hencodes⟩ := synthesizeAsync_accepted h
  refine ⟨command, hqueue, hid, fun options t => ?_⟩
  rw [hmessage] at hencodes
  obtain ⟨payload, hpayload⟩ := payload_of_encodes hencodes
  rw [← length_synthesize hlib hpayload]
  by_cases hsize : payload.length ≤ ProtocolLimits.maxControlPayloadBytes
  · have hframed : Framed lib options t command := framed_of_encoded hmessage hpayload hsize
    exact ⟨iff_of_true hframed hsize, iff_of_false (fun hf => not_framed_of_failed hf hframed) (Nat.not_lt.mpr hsize)⟩
  · have hfailed : Failed lib options t command := failed_of_encoded hmessage hpayload hsize
    exact ⟨iff_of_false (not_framed_of_failed hfailed) hsize, iff_of_true hfailed (Nat.lt_of_not_le hsize)⟩

def shortCall : Call := .request {} { text := CppString.lit "Hi" }

theorem a_short_text_is_framed :
    ∃ command, (synthesizeCall (sampleOptions.encodingWith (.reading [])) init {} shortCall).1.outboundQueue =
        init.outboundQueue ++ [command] ∧ ∀ options t, Framed (.reading []) options t command := by
  have haccepted : (synthesizeCall (sampleOptions.encodingWith (.reading [])) init {} shortCall).2 ≠ 0 := by
    decide +kernel
  have hsize : synthesizePayloadBytes (JsonLibrary.reading []).floatText shortCall.message ≤
      ProtocolLimits.maxControlPayloadBytes := by
    decide +kernel
  obtain ⟨command, hqueue, -, hframed⟩ := accepted_request_is_framed_iff (JsonLibrary.reading_serializes []) sampleOptions
    init {} shortCall haccepted
  exact ⟨command, hqueue, fun options t => (hframed options t).1.mpr hsize⟩

/-! ## Long text -/

theorem isValidUtf8_of_isAscii {text : CppString} (h : isAscii text = true) : isValidUtf8 text = true := by
  suffices haux : ∀ fuel, text.length ≤ fuel → isValidUtf8Aux fuel text = true from haux _ (Nat.le_refl _)
  induction text with
  | nil =>
    intro fuel _
    cases fuel <;> rfl
  | cons b text ih =>
    intro fuel hfuel
    cases fuel with
    | zero => cases hfuel
    | succ fuel =>
      obtain ⟨hb, hrest⟩ : (decide (b < 0x80)) = true ∧ isAscii text = true := Bool.and_eq_true_iff.mp h
      have hlt : b.toNat < 0x80 := UInt8.lt_iff_toNat_lt.mp (of_decide_eq_true hb)
      have hle : b ≤ 0x7F := UInt8.le_iff_toNat_le.mpr (Nat.le_of_lt_succ hlt)
      have hlead : utf8Lead b = some (b.toNat, 0) := if_pos hle
      rw [isValidUtf8Aux]
      simp only [hlead]
      exact ih hrest fuel (Nat.le_of_succ_le_succ hfuel)

theorem accepted_of_room {opts : Options} {s : St} {callbacks : TtsCallbacks} {call : Call} {requestedId id : RequestId}
    {message : SynthesizeMessage} {prepared : PreparedText}
    (hsub : call.submission opts.encodes = .submit requestedId message prepared) (hrunning : s.isRunning = true)
    (hid : (allocateRequestIdLocked s requestedId).1 = id) (hne : id ≠ 0)
    (hcommands : s.outboundQueue.length < opts.maxOutboundCommands)
    (hbytes : s.queuedOutboundBytes + outboundCommandSize (.synthesize message) ≤ opts.maxOutboundCommandBytes) :
    (synthesizeCall opts s callbacks call).2 = id ∧
      (synthesizeCall opts s callbacks call).1.terminalFailureHandled = s.terminalFailureHandled := by
  simp only [synthesizeCall, hsub, synthesizeAsync, synthesizeLocked, hrunning, hid, hne, Bool.not_true,
    Bool.false_eq_true, if_false]
  have hemplace : ∀ (s : St) (request : ActiveRequest), (s.emplace id request).outboundQueue = s.outboundQueue ∧
      (s.emplace id request).queuedOutboundBytes = s.queuedOutboundBytes ∧
      (s.emplace id request).terminalFailureHandled = s.terminalFailureHandled := by
    intro s request
    unfold St.emplace
    split <;> exact ⟨rfl, rfl, rfl⟩
  simp only [enqueueOutboundLocked, hemplace]
  rw [if_neg (by omega), if_neg (by omega)]
  exact ⟨rfl, rfl⟩

/-- Text in ASCII passes every check before the mutex. -/
theorem submission_of_ascii {lib : JsonLibrary} (hlib : lib.Serializes) (opts : Options) {text : CppString}
    (hascii : isAscii text = true) (hne : text ≠ []) :
    ∃ prepared, (Call.request {} { text }).submission (opts.encodingWith lib).encodes =
      .submit 0 { text } prepared := by
  have hvalid := isValidUtf8_of_isAscii hascii
  have hempty : text.isEmpty = false := by
    cases text with
    | nil => exact absurd rfl hne
    | cons b text => rfl
  have hencodes : (opts.encodingWith lib).encodes (.synthesize { text }) = true := by
    have hutf8 : (Json.object (synthesizeToJson { text })).isUtf8 = true := by
      have hdefaults : (isUtf8 (CppString.lit "auto") && isUtf8 [] && isUtf8 (CppString.lit "s16le") && isUtf8 [] &&
          isUtf8 [] && isUtf8 [] && isUtf8 []) = true := by decide +kernel
      rw [utf8_synthesize, isUtf8_of_isAscii hascii]
      exact hdefaults
    have hok : validateControlMessage (.synthesize { text }) = .ok () := by
      simp +decide [validateControlMessage, validateSynthesize, validateNonEmptyString, hempty, validateSynthesisSampling,
        validateAudioFormat, within, bind, Except.bind]
    have hencode := encodeControlMessage_ok.mpr ⟨hok, (encodeJsonPayload_ok hlib).mpr ⟨hutf8, rfl⟩⟩
    simp only [Options.encodingWith, hencode]
    rfl
  refine ⟨refreshPreparedTextMetrics (refreshPreparedTextMetrics { originalText := text, effectiveText := text }), ?_⟩
  simp only [Call.submission, submit, prepareText, Option.getD_none, hvalid, hempty, Bool.not_true, Bool.false_eq_true,
    if_false, submitPrepared, refreshPreparedTextMetrics, Bool.or_false, ne_eq, not_true_eq_false]
  exact if_pos hencodes

/-- The dispatcher's client after a local error, with every request still to fail. -/
def stoppedBy (s : St) (error : TtsError) : St :=
  push (clearOutboundQueueLocked { s with terminalFailureHandled := true, running := false, stopping := true })
    .dispatcher [.failAllRequests error]

theorem session_error_stops_the_client {s : St} (text : CppString) (h : s.terminalFailureHandled = false) :
    ∃ error, handleLocalError s .dispatcher .sessionError text = stoppedBy s error := by
  unfold handleLocalError
  exact ⟨_, if_neg (by rw [h]; decide)⟩

/-- The client with one request active and queued. -/
def busy : St := (synthesizeCall (sampleOptions.encodingWith (.reading [])) init {} shortCall).1

/-- A second call of the client, with up to four mebibytes of ASCII. -/
theorem ascii_call_is_accepted {text : CppString} (hascii : isAscii text = true) (hne : text ≠ [])
    (hlength : text.length ≤ 4194304) :
    (synthesizeCall (sampleOptions.encodingWith (.reading [])) busy {} (.request {} { text })).2 = 2 ∧
      (synthesizeCall (sampleOptions.encodingWith (.reading [])) busy {}
        (.request {} { text })).1.terminalFailureHandled = false := by
  obtain ⟨prepared, hsub⟩ := submission_of_ascii (JsonLibrary.reading_serializes []) sampleOptions hascii hne
  have hroom : busy.queuedOutboundBytes + outboundCommandSize (.synthesize { text }) ≤
      (sampleOptions.encodingWith (.reading [])).maxOutboundCommandBytes := by
    have hqueued : busy.queuedOutboundBytes = 75 := by decide +kernel
    have hlanguage : (CppString.lit "auto").length = 4 := by decide
    have hformat : (CppString.lit "s16le").length = 5 := by decide
    have hlimit : (sampleOptions.encodingWith (.reading [])).maxOutboundCommandBytes = 16777216 := rfl
    simp only [outboundCommandSize, List.length_nil, hqueued, hlanguage, hformat, hlimit, Bool.false_eq_true, if_false]
    omega
  have hbusy : busy.isRunning = true ∧ (allocateRequestIdLocked busy 0).1 = 2 ∧
      busy.outboundQueue.length < (sampleOptions.encodingWith (.reading [])).maxOutboundCommands ∧
      busy.terminalFailureHandled = false := by
    decide +kernel
  obtain ⟨hrunning, hid, hcommands, hfresh⟩ := hbusy
  obtain ⟨haccepted, hhandled⟩ := accepted_of_room hsub hrunning hid (by decide) hcommands hroom
  exact ⟨haccepted, hhandled.trans hfresh⟩

/-- Such a call with a mebibyte or more. -/
theorem long_call_fails {text : CppString} (hascii : isAscii text = true) (hlong : 1048576 ≤ text.length)
    (hlength : text.length ≤ 4194304) :
    (synthesizeCall (sampleOptions.encodingWith (.reading [])) busy {} (.request {} { text })).2 = 2 ∧
      ∃ command, (synthesizeCall (sampleOptions.encodingWith (.reading [])) busy {}
          (.request {} { text })).1.outboundQueue = busy.outboundQueue ++ [command] ∧
        command.requestId = 2 ∧ (∀ options t, Failed (.reading []) options t command) ∧
        ∀ diagnostic, ∃ error, handleLocalError (synthesizeCall (sampleOptions.encodingWith (.reading [])) busy {}
            (.request {} { text })).1 .dispatcher .sessionError diagnostic =
          stoppedBy (synthesizeCall (sampleOptions.encodingWith (.reading [])) busy {} (.request {} { text })).1 error := by
  have hne : text ≠ [] := by
    rintro rfl
    cases hlong
  obtain ⟨hid, hfresh⟩ := ascii_call_is_accepted hascii hne hlength
  have haccepted : (synthesizeCall (sampleOptions.encodingWith (.reading [])) busy {} (.request {} { text })).2 ≠ 0 := by
    rw [hid]
    decide
  obtain ⟨command, hqueue, hcommand, hmessage, hencodes⟩ := synthesizeAsync_accepted haccepted
  rw [hmessage] at hencodes
  obtain ⟨payload, hpayload⟩ := payload_of_encodes hencodes
  have hpast : ¬ payload.length ≤ ProtocolLimits.maxControlPayloadBytes := by
    have htext := text_lt_synthesizePayloadBytes (JsonLibrary.reading []).floatText
      (Call.request {} { text }).message
    rw [length_synthesize (JsonLibrary.reading_serializes []) hpayload]
    exact Nat.not_le.mpr (hlong.trans_lt htext)
  exact ⟨hid, command, hqueue, hcommand.trans hid, fun options t => failed_of_encoded hmessage hpayload hpast,
    fun diagnostic => session_error_stops_the_client diagnostic hfresh⟩

/-- `2 ^ 20` letters. -/
def mebibyte : CppString := List.replicate 1048576 97

theorem length_mebibyte : mebibyte.length = 1048576 := List.length_replicate

theorem isAscii_mebibyte : isAscii mebibyte = true := by
  refine List.all_eq_true.mpr fun b hb => ?_
  rw [List.eq_of_mem_replicate hb]
  rfl

/-- The second request is accepted while the first is active. Its command is a `SessionError`, and
    at that the client stops and fails all of its requests. -/
theorem a_mebibyte_of_text_is_a_session_error :
    busy.active.map (·.1) = [1] ∧
      (synthesizeCall (sampleOptions.encodingWith (.reading [])) busy {} (.request {} { text := mebibyte })).2 = 2 ∧
      ∃ command, (synthesizeCall (sampleOptions.encodingWith (.reading [])) busy {}
          (.request {} { text := mebibyte })).1.outboundQueue = busy.outboundQueue ++ [command] ∧
        command.requestId = 2 ∧ (∀ options t, Failed (.reading []) options t command) ∧
        ∀ diagnostic, ∃ error, handleLocalError (synthesizeCall (sampleOptions.encodingWith (.reading [])) busy {}
            (.request {} { text := mebibyte })).1 .dispatcher .sessionError diagnostic =
          stoppedBy (synthesizeCall (sampleOptions.encodingWith (.reading [])) busy {}
            (.request {} { text := mebibyte })).1 error := by
  have hlong : 1048576 ≤ mebibyte.length := length_mebibyte.ge
  have hlength : mebibyte.length ≤ 4194304 := by
    rw [length_mebibyte]
    decide
  exact ⟨by decide +kernel, long_call_fails isAscii_mebibyte hlong hlength⟩

end QwenTtsBridge.Client
