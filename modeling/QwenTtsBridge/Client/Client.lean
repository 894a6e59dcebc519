/-
  QwenTtsBridge.Client.Client — `QwenTtsClient` between `start()` and its last `stop()`
  (`client/qwen_tts_client.cpp`).

  `synthesize_async` and `cancel` may be called by any thread at any time, and each is one
  region under `mutex_`. The other threads are the writer (`writer_loop`), the dispatcher
  (`dispatcher_loop`), and the owner, which calls `stop()`; external calls of `stop()` are
  serialized, as the class asks, so one owner stands for all of them. The dispatcher and
  the owner each have a stack of what they have still to do (`Act`): a step runs the act at
  the top, which is a region under the mutex, the call of a user callback, or a join.

  - While a callback runs (`Act.user`) its thread may call `stop()`, also again and again,
    and it returns whenever it likes. Exceptions of callbacks are caught and reported to a
    user hook, which is user code as well.
  - `fail_all_requests` goes through an `unordered_map`: the event says in what order.
  - A thread that waits in `join` for a finished thread may be one of two that do.
  - `session->stop()` and `session->send_control` do nothing to the client; what the session
    is given is recorded (`sent`), and its events are arbitrary.

  `allocated`, `accepted` and `decided` are histories: the ids given out, the requests for
  which `synthesize_async` returned their id, and the terminal callback that was chosen when
  a request left `active_requests_`.
-/

import QwenTtsBridge.Client.Request
import QwenTtsBridge.Lib.Transition

namespace QwenTtsBridge.Client

open QwenTtsBridge.Protocol.Control QwenTtsBridge.Session

/-! ## Audio -/

def bytesPerSample (format : AudioFormat) : Option Nat :=
  if format.sampleFormat = CppString.lit "u8" then some 1
  else if format.sampleFormat = CppString.lit "s16le" then some 2
  else if format.sampleFormat = CppString.lit "s24le" then some 3
  else if format.sampleFormat = CppString.lit "s32le" ∨ format.sampleFormat = CppString.lit "f32le" then some 4
  else none

def sampleCountForAudio (format : AudioFormat) (byteCount : Nat) : Option UInt32 :=
  match bytesPerSample format with
  | none => none
  | some sampleBytes =>
    if format.channels = 0 then none
    else
      let frameBytes := sampleBytes * format.channels.toNat
      if byteCount % frameBytes ≠ 0 then none
      else
        let frames := byteCount / frameBytes
        if frames > 2 ^ 32 - 1 then none else some (UInt32.ofNat frames)

structure PcmChunk where
  format : AudioFormat
  firstSample : UInt64
  sampleCount : UInt32
  bytes : List UInt8
  deriving DecidableEq, Repr

structure SpeechTimingChunk where
  firstSample : UInt64
  sampleCount : UInt32
  sampleRate : UInt32
  deriving DecidableEq, Repr

/-! ## Callbacks -/

inductive Terminal where
  | completed
  | cancelled
  | error
  deriving DecidableEq, Repr

def TtsCallbacks.has (callbacks : TtsCallbacks) : Terminal → Bool
  | .completed => callbacks.onCompleted
  | .cancelled => callbacks.onCancelled
  | .error => callbacks.onError

/-- A call of a user callback, with the request whose callback it is. -/
inductive Callback where
  | onTextPrepared (id : RequestId) (text : PreparedText)
  | onAudio (id : RequestId) (chunk : PcmChunk)
  | onTiming (id : RequestId) (timing : SpeechTimingChunk)
  | onCompletionMetadata (id : RequestId) (completion : TtsCompletion)
  | onCompleted (id : RequestId)
  | onCancelled (id : RequestId)
  | onError (id : RequestId) (error : TtsError)
  deriving DecidableEq, Repr

/-- The terminal callback chosen for a request, and whether the user gave one. -/
structure Decision where
  id : RequestId
  callbacks : TtsCallbacks
  kind : Terminal
  deriving DecidableEq, Repr

def Decision.called? (d : Decision) : Option RequestId := if d.callbacks.has d.kind then some d.id else none

def Callback.terminal? : Callback → Option RequestId
  | .onCompleted id | .onCancelled id | .onError id _ => some id
  | _ => none

def Callback.speech? : Callback → Option RequestId
  | .onTextPrepared id _ | .onAudio id _ | .onTiming id _ => some id
  | _ => none

/-! ## State -/

structure ActiveRequest where
  callbacks : TtsCallbacks
  audioFormat : AudioFormat
  preparedText : Option PreparedText
  nextSample : UInt64 := 0
  textContextDelivered : Bool := false

structure OutboundCommand where
  requestId : RequestId
  message : ControlMessage
  queuedBytes : Nat := 0
  deriving DecidableEq

structure Options where
  maxOutboundCommands : Nat := 4096
  maxOutboundCommandBytes : Nat := 16 * 1024 * 1024
  /-- `encode_control_message` succeeds. -/
  encodes : ControlMessage → Bool

inductive WriterPc where
  /-- At the mutex of `writer_loop`. -/
  | loop
  /-- Before `session->send_control`. -/
  | send (command : OutboundCommand)
  | finished

inductive Thread where
  | owner
  | dispatcher
  deriving DecidableEq, Repr

inductive Act where
  /-- `dispatcher_loop`. -/
  | loop
  | handleEvent (event : WorkerSessionEvent)
  | failRequest (id : RequestId) (error : TtsError)
  | failAllRequests (error : TtsError)
  | invoke (callback : Callback)
  /-- In a user callback. -/
  | user
  /-- At the first mutex of `stop()`. -/
  | stop
  | joinWriter
  | joinDispatcher
  /-- At the last mutex of `stop()`. -/
  | finish
  | returned

/-- `ownerReturned`: a `stop()` called outside the dispatcher thread has returned;
    `outermostReturned`: one that was not itself called from a callback. -/
structure St where
  running : Bool := true
  stopping : Bool := false
  session : Bool := true
  terminalFailureHandled : Bool := false
  nextRequestId : RequestId := 1
  lateAudioAfterTerminalCount : UInt64 := 0
  duplicateTerminalEventCount : UInt64 := 0
  active : List (RequestId × ActiveRequest) := []
  outboundQueue : List OutboundCommand := []
  queuedOutboundBytes : Nat := 0
  writerJoinable : Bool := true
  dispatcherJoinable : Bool := true
  writer : WriterPc := .loop
  dispatcher : List Act := [.loop]
  owner : List Act := []
  log : List Callback := []
  refusals : List TtsError := []
  sent : List OutboundCommand := []
  allocated : List RequestId := []
  accepted : List (RequestId × TtsCallbacks) := []
  decided : List Decision := []
  ownerReturned : Bool := false
  outermostReturned : Bool := false

/-- After `start()`. -/
def init : St := {}

/-! ## Regions under the mutex -/

def St.find? (s : St) (id : RequestId) : Option ActiveRequest := (s.active.find? (·.1 == id)).map (·.2)

/-- `active_requests_.emplace`. -/
def St.emplace (s : St) (id : RequestId) (request : ActiveRequest) : St :=
  if (s.find? id).isSome then s else { s with active := s.active ++ [(id, request)] }

def St.erase (s : St) (id : RequestId) : St := { s with active := s.active.filter (·.1 != id) }

def St.update (s : St) (id : RequestId) (f : ActiveRequest → ActiveRequest) : St :=
  { s with active := s.active.map fun p => if p.1 = id then (p.1, f p.2) else p }

/-- `allocate_request_id_locked`: the id and the new `next_request_id_`. -/
def allocateRequestIdLocked (s : St) (requestedId : RequestId) : RequestId × RequestId :=
  let after (id : RequestId) : RequestId := if id = UInt64.ofNat (2 ^ 64 - 1) then 0 else id + 1
  if s.nextRequestId = 0 then (0, s.nextRequestId)
  else if requestedId ≠ 0 then
    if requestedId < s.nextRequestId ∨ (s.find? requestedId).isSome then (0, s.nextRequestId)
    else (requestedId, after requestedId)
  else (s.nextRequestId, after s.nextRequestId)

def outboundCommandSize : ControlMessage → Nat
  | .hello clientName clientVersion => 64 + clientName.length + clientVersion.length
  | .synthesize m =>
    64 + m.text.length + m.language.length + m.speaker.length + m.instruction.length + m.voiceId.length
      + m.referenceAudioPath.length + m.referenceText.length + m.output.sampleFormat.length
      + (if m.hasSeed then 32 else 0)
  | .shutdown mode => 64 + mode.length
  | _ => 64

/-- `enqueue_outbound_locked`; `none` when there is no room. -/
def enqueueOutboundLocked (opts : Options) (s : St) (id : RequestId) (message : ControlMessage) : Option St :=
  let bytes := outboundCommandSize message
  if s.outboundQueue.length ≥ opts.maxOutboundCommands then none
  else if bytes > opts.maxOutboundCommandBytes
      ∨ s.queuedOutboundBytes > opts.maxOutboundCommandBytes - bytes then none
  else some { s with
    queuedOutboundBytes := s.queuedOutboundBytes + bytes
    outboundQueue := s.outboundQueue ++ [⟨id, message, bytes⟩] }

def clearOutboundQueueLocked (s : St) : St := { s with outboundQueue := [], queuedOutboundBytes := 0 }

/-- `running_ && !stopping_ && session_ != nullptr`. -/
def St.isRunning (s : St) : Bool := s.running && !s.stopping && s.session

/-- The region of `synthesize_async`; returns the id. -/
def synthesizeLocked (opts : Options) (s : St) (callbacks : TtsCallbacks) (requestedId : RequestId)
    (message : SynthesizeMessage) (prepared : PreparedText) : St × RequestId :=
  if !s.isRunning then (s, 0)
  else
    let (id, next) := allocateRequestIdLocked s requestedId
    if id = 0 then ({ s with nextRequestId := next }, 0)
    else
      let request : ActiveRequest := { callbacks, audioFormat := message.output, preparedText := some prepared }
      let s := { s with nextRequestId := next, allocated := s.allocated ++ [id] }.emplace id request
      match enqueueOutboundLocked opts s id (.synthesize message) with
      | none => (s.erase id, 0)
      | some s => ({ s with accepted := s.accepted ++ [(id, callbacks)] }, id)

def synthesizeAsync (opts : Options) (s : St) (callbacks : TtsCallbacks) : Submission → St × RequestId
  | .refused error => (if callbacks.onError then { s with refusals := s.refusals ++ [error] } else s, 0)
  | .unencodable => (s, 0)
  | .submit requestedId message prepared => synthesizeLocked opts s callbacks requestedId message prepared

def cancel (opts : Options) (s : St) (id : RequestId) : St × Bool :=
  if id = 0 then (s, false)
  else if !s.isRunning || (s.find? id).isNone then (s, false)
  else
    match enqueueOutboundLocked opts s id .cancel with
    | none => (s, false)
    | some s => (s, true)

/-! ## Threads -/

def St.stack (s : St) : Thread → List Act
  | .owner => s.owner
  | .dispatcher => s.dispatcher

def St.setStack (s : St) (acts : List Act) : Thread → St
  | .owner => { s with owner := acts }
  | .dispatcher => { s with dispatcher := acts }

def push (s : St) (th : Thread) (acts : List Act) : St := s.setStack (acts ++ s.stack th) th

/-- Calls of the callbacks that are not empty. -/
def invocations (calls : List (Bool × Callback)) : List Act :=
  (calls.filter (·.1)).map fun c => .invoke c.2

/-- A request leaves `active_requests_` for the terminal callback `kind`; `calls` are the
    callbacks that follow. -/
def terminate (s : St) (th : Thread) (id : RequestId) (kind : Terminal) (calls : TtsCallbacks → List (Bool × Callback)) :
    St :=
  match s.find? id with
  | none => { s with duplicateTerminalEventCount := s.duplicateTerminalEventCount + 1 }
  | some request =>
    push { s.erase id with decided := s.decided ++ [⟨id, request.callbacks, kind⟩] } th
      (invocations (calls request.callbacks))

def completeRequest (s : St) (th : Thread) (id : RequestId) (completed : CompletedMessage) : St :=
  terminate s th id .completed fun callbacks =>
    [(callbacks.onCompletionMetadata,
      .onCompletionMetadata id ⟨completed.executionOutcome, completed.hasGenerationTrace, completed.generationTrace⟩),
     (callbacks.onCompleted, .onCompleted id)]

def cancelRequestLocally (s : St) (th : Thread) (id : RequestId) : St :=
  terminate s th id .cancelled fun callbacks => [(callbacks.onCancelled, .onCancelled id)]

def failRequest (s : St) (th : Thread) (id : RequestId) (error : TtsError) : St :=
  terminate s th id .error fun callbacks => [(callbacks.onError, .onError id error)]

/-- The error that `fail_all_requests` gives to the request `id`. -/
def errorFor (id : RequestId) (error : TtsError) : TtsError :=
  if error.requestId = 0 then { error with requestId := id } else error

/-- `fail_all_requests`, going through the map in the given order. -/
def failAllRequests (s : St) (th : Thread) (error : TtsError) (order : List (RequestId × TtsCallbacks)) : St :=
  push { s with active := [], decided := s.decided ++ order.map fun p => ⟨p.1, p.2, .error⟩ } th
    (invocations (order.map fun p => (p.2.onError, .onError p.1 (errorFor p.1 error))))

/-- The entries of the map with their callbacks. -/
def St.entries (s : St) : List (RequestId × TtsCallbacks) := s.active.map fun p => (p.1, p.2.callbacks)

/-- `handle_control_event`, case `Started`. -/
def handleStarted (s : St) (th : Thread) (id : RequestId) (format : AudioFormat) : St :=
  match s.find? id with
  | none => s
  | some request =>
    match request.preparedText, request.textContextDelivered with
    | some text, false =>
      push (s.update id ({ · with audioFormat := format, textContextDelivered := true })) th
        (invocations [(request.callbacks.onTextPrepared, .onTextPrepared id text)])
    | _, _ => s.update id ({ · with audioFormat := format })

def handleControlEvent (s : St) (th : Thread) (id : RequestId) : ControlMessage → St
  | .started format => handleStarted s th id format
  | .completed m => completeRequest s th id m
  | .cancelled => cancelRequestLocally s th id
  | _ => s

/-- The calls of `handle_audio_event`, in order. -/
def audioCalls (id : RequestId) (callbacks : TtsCallbacks) (text : Option PreparedText) (chunk : PcmChunk) :
    List (Bool × Callback) :=
  (text.toList.map fun t => (callbacks.onTextPrepared, .onTextPrepared id t))
    ++ [(callbacks.onAudio && !chunk.bytes.isEmpty, .onAudio id chunk),
        (callbacks.onTiming && !chunk.bytes.isEmpty && chunk.sampleCount != 0,
          .onTiming id ⟨chunk.firstSample, chunk.sampleCount, chunk.format.sampleRate⟩)]

def handleAudioEvent (s : St) (th : Thread) (id : RequestId) (audio : List UInt8) : St :=
  match s.find? id with
  | none => { s with lateAudioAfterTerminalCount := s.lateAudioAfterTerminalCount + 1 }
  | some request =>
    let count := sampleCountForAudio request.audioFormat audio.length
    if !audio.isEmpty && count.isNone then
      push s th [.failRequest id (makeLocalError id "protocol_error" "invalid_audio_timeline"
        "worker audio payload has an unsupported format or incomplete sample frame")]
    else
      let text := if request.textContextDelivered then none else request.preparedText
      let sampleCount := count.getD 0
      let s := s.update id fun r =>
        { r with
          textContextDelivered := r.textContextDelivered || r.preparedText.isSome
          nextSample := r.nextSample + sampleCount.toUInt64 }
      push s th (invocations (audioCalls id request.callbacks text
        ⟨request.audioFormat, request.nextSample, sampleCount, audio⟩))

/-- The category and code under which `handle_event` passes a local event on. -/
def LocalEventType.error : LocalEventType → CppString × CppString
  | .transportError => (CppString.lit "transport_error", CppString.lit "transport_error")
  | .protocolError => (CppString.lit "protocol_error", CppString.lit "protocol_error")
  | .sessionError => (CppString.lit "session_error", CppString.lit "session_error")
  | .exited => (CppString.lit "transport_error", CppString.lit "worker_exited")

/-- `handle_local_error` up to `fail_all_requests`. -/
def handleLocalError (s : St) (th : Thread) (type : LocalEventType) (message : CppString) : St :=
  if s.terminalFailureHandled then s
  else
    let (category, code) := LocalEventType.error type
    push (clearOutboundQueueLocked { s with terminalFailureHandled := true, running := false, stopping := true }) th
      [.failAllRequests ⟨0, category, code, if message.isEmpty then code else message⟩]

def clientStopped : TtsError :=
  makeLocalError 0 "client_error" "client_stopped" "QwenTtsClient stopped before request reached a terminal event"

/-- The last region of `stop()`. -/
def finishStop (s : St) (th : Thread) : St :=
  let calledFromDispatcher := s.dispatcherJoinable && th == .dispatcher
  if !s.writerJoinable && (!s.dispatcherJoinable || calledFromDispatcher) then
    clearOutboundQueueLocked
      { s with session := false, stopping := false, running := false, terminalFailureHandled := false }
  else s

/-- Run the act that was at the top of the thread's stack; `rest` is below it. `order` is the
    order of the map for `fail_all_requests`. -/
def runAct (s : St) (th : Thread) (rest : List Act) (order : List (RequestId × TtsCallbacks)) : Act → Option St
  | .loop => if !s.session || s.stopping then some s else none
  | .handleEvent (.control id m) => some (handleControlEvent s th id m)
  | .handleEvent (.audio id audio) => some (handleAudioEvent s th id audio)
  | .handleEvent (.workerError id e) =>
    let error : TtsError := ⟨id, e.category, e.code, e.message⟩
    if id = 0 then some (push s th [.failAllRequests error]) else some (failRequest s th id error)
  | .handleEvent (.localEvent type message) => some (handleLocalError s th type message)
  | .failRequest id error => some (failRequest s th id error)
  | .failAllRequests error =>
    if order.isPerm s.entries then some (failAllRequests s th error order) else none
  | .invoke callback => some (push { s with log := s.log ++ [callback] } th [.user])
  | .user => some s
  | .stop =>
    some (push (clearOutboundQueueLocked { s with running := false, stopping := true }) th
      [.joinWriter, .joinDispatcher, .failAllRequests clientStopped, .finish, .returned])
  | .joinWriter =>
    match s.writerJoinable, s.writer with
    | true, .finished => some { s with writerJoinable := false }
    | true, _ => none
    | false, _ => some s
  | .joinDispatcher =>
    if s.dispatcherJoinable && th != .dispatcher then
      if s.dispatcher.isEmpty then some { s with dispatcherJoinable := false } else none
    else some s
  | .finish => some (finishStop s th)
  | .returned =>
    match th with
    | .owner => some { s with ownerReturned := true, outermostReturned := s.outermostReturned || rest.isEmpty }
    | .dispatcher => some s

/-! ## Runs -/

inductive Ev where
  /-- `synthesize_async` with the given hooks, or with a prepared text. -/
  | synthesize (hooks : Hooks) (request : TtsRequest) (callbacks : TtsCallbacks)
  | synthesizePrepared (request : TtsRequest) (prepared : PreparedText) (callbacks : TtsCallbacks)
  | cancel (id : RequestId)
  /-- `stop()` is called: by the owner, or in a callback. -/
  | callStop (th : Thread)
  /-- The dispatcher gets an event from the session. -/
  | event (e : WorkerSessionEvent)
  /-- The thread runs its next act. -/
  | run (th : Thread) (order : List (RequestId × TtsCallbacks))
  | writer

def stepWriter (s : St) : Option St :=
  match s.writer with
  | .loop =>
    match s.outboundQueue with
    | [] => if s.stopping then some { s with writer := .finished } else none
    | command :: queue =>
      let s := { s with
        outboundQueue := queue
        queuedOutboundBytes := s.queuedOutboundBytes - min s.queuedOutboundBytes command.queuedBytes }
      if s.session then some { s with writer := .send command } else some s
  | .send command => some { s with writer := .loop, sent := s.sent ++ [command] }
  | .finished => none

/-- Where `stop()` can be called: outside every callback only by the owner. -/
def canCallStop (s : St) : Thread → Bool
  | .owner => match s.owner with
    | [] | .user :: _ => true
    | _ => false
  | .dispatcher => match s.dispatcher with
    | .user :: _ => true
    | _ => false

def step (opts : Options) (s : St) : Ev → Option St
  | .synthesize hooks request callbacks =>
    some (synthesizeAsync opts s callbacks (submit opts.encodes hooks request)).1
  | .synthesizePrepared request prepared callbacks =>
    some (synthesizeAsync opts s callbacks (submitPrepared opts.encodes request prepared)).1
  | .cancel id => some (cancel opts s id).1
  | .callStop th => if canCallStop s th then some (push s th [.stop]) else none
  | .event e => match s.dispatcher with
    | .loop :: _ => if s.session then some (push s .dispatcher [.handleEvent e]) else none
    | _ => none
  | .run th order => match s.stack th with
    | act :: rest => runAct (s.setStack rest th) th rest order act
    | [] => none
  | .writer => stepWriter s

open QwenTtsBridge.Lib.Transition in
/-- Every interleaving of the threads, every event sequence of the session and every
    behaviour of the callbacks. -/
abbrev Reachable (opts : Options) : St → Prop := Reach (step opts) anyStep init

/-! ## A session to run -/

def sampleOptions : Options := { encodes := fun _ => true }

/-- A request for the text "a". -/
def sampleRequest (callbacks : TtsCallbacks) : Ev := .synthesize {} { text := CppString.lit "a" } callbacks

end QwenTtsBridge.Client
