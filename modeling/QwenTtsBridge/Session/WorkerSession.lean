/-
  QwenTtsBridge.Session.WorkerSession — the C++ `WorkerSession`
  (`session/worker_session.cpp`).

  `start`, `send_control` and `stop` may be called by any number of threads, and the
  transport calls back with bytes, errors and the exit from its own. A step is one region
  under `mutex_` of one of them, with the calls it makes before it takes the mutex again.
  A call in progress is the list of regions it still has to run (`Act`); what the transport
  answers there comes with the step (`Outcome`).

  - The callbacks are registered in `transport_->start`, so nothing calls back before
    `start` was attempted.
  - The wait for `ready` in `start` may end at any time, by its timeout.
  - `condition_` only wakes waiters, and `transport_->stop` changes nothing here.
  - `wait_for_event` that times out changes nothing; a step of it returns an event.
  - `log` is the history: what `state_` was assigned, which events were enqueued and
    under which rule, which messages `send_control_frame` was given. `returned` are the
    events that `wait_for_event` gave out.
-/

import QwenTtsBridge.Session.Event
import QwenTtsBridge.Protocol.ControlCodec
import QwenTtsBridge.Protocol.FrameParser
import QwenTtsBridge.Lib.Transition

namespace QwenTtsBridge.Session

open QwenTtsBridge.Protocol.Control QwenTtsBridge.Protocol.Framing

inductive WorkerSessionState where
  | stopped
  | starting
  | ready
  | stopping
  | failed
  | exited
  deriving DecidableEq, Repr

inductive SendResult where
  | accepted
  | wouldBlock
  | closed
  | failed
  deriving DecidableEq, Repr

structure WorkerSessionOptions where
  clientName : CppString := CppString.lit "qwen-tts-bridge-cpp"
  clientVersion : CppString := CppString.lit "0.2.0"
  maxEventQueueEvents : Nat := 4096
  maxEventQueueBytes : Nat := 16 * 1024 * 1024

/-- The rule under which an event is enqueued. -/
inductive Limit where
  | regular
  | exempt
  /-- The diagnostic of the overflow. -/
  | overflow
  deriving DecidableEq, Repr

inductive Entry where
  | state (state : WorkerSessionState)
  | event (event : WorkerSessionEvent) (limit : Limit)
  | handed (id : RequestId) (message : ControlMessage)
  deriving DecidableEq, Repr

/-- Who called `send_control_frame`. -/
inductive Caller where
  | start
  | sendControl
  | stop
  deriving DecidableEq, Repr

inductive Act where
  /-- `transport_->start` returns. -/
  | startTransport
  /-- The wait for `ready` ends. -/
  | startWait
  /-- The check of `send_control`. -/
  | sendControl (id : RequestId) (message : ControlMessage)
  /-- `send_control_frame` up to `transport_->send`. -/
  | sendFrame (caller : Caller) (id : RequestId) (message : ControlMessage)
  /-- `transport_->send` returns. -/
  | transportSend (caller : Caller)
  | stop
  /-- `stop` between its two regions. -/
  | stopTransport (sendShutdown : Bool)
  | stopEnd
  deriving DecidableEq, Repr

structure St where
  parser : FrameParser := {}
  events : List WorkerSessionEvent := []
  queuedEventBytes : Nat := 0
  state : WorkerSessionState := .stopped
  eventQueueOverflowed : Bool := false
  startAttempted : Bool := false
  shutdownRequested : Bool := false
  readyMessage : ReadyMessage := {}
  calls : List (List Act) := []
  log : List Entry := []
  returned : List WorkerSessionEvent := []

def init : St := {}

/-! ## Events -/

def makeSessionError (message : CppString) : WorkerSessionEvent := .localEvent .sessionError message

def makeProtocolError (message : CppString) : WorkerSessionEvent := .localEvent .protocolError message

def makeTransportError (message : CppString) : WorkerSessionEvent := .localEvent .transportError message

def sendResultMessage : SendResult → CppString
  | .wouldBlock => CppString.lit "transport would block while sending control frame"
  | .closed => CppString.lit "transport is closed while sending control frame"
  | .failed => CppString.lit "transport failed to send control frame"
  | .accepted => CppString.lit "transport rejected outbound control frame"

def controlPayloadSize : ControlMessage → Nat
  | .hello clientName clientVersion => clientName.length + clientVersion.length
  | .synthesize m =>
    m.text.length + m.language.length + m.speaker.length + m.instruction.length + m.voiceId.length +
      m.referenceAudioPath.length + m.referenceText.length + m.output.sampleFormat.length + (if m.hasSeed then 32 else 0)
  | .shutdown mode => mode.length
  | .ready m => m.workerVersion.length + m.sessionId.length
  | .started audioFormat => audioFormat.sampleFormat.length
  | _ => 0

/-- The fields that an event of a type does not use are empty. -/
def eventPayloadSize : WorkerSessionEvent → Nat
  | .control _ message => controlPayloadSize message
  | .audio _ audio => audio.length
  | .workerError _ error => error.category.length + error.code.length + error.message.length
  | .localEvent _ message => message.length

/-! ## The queue -/

def setState (s : St) (state : WorkerSessionState) : St := { s with state, log := s.log ++ [.state state] }

/-- Starting or Ready: the states that a failure ends. -/
def WorkerSessionState.live : WorkerSessionState → Bool
  | .starting | .ready => true
  | _ => false

/-- `if (Starting or Ready) { state_ = Failed; }` -/
def fail (s : St) : St := if s.state.live then setState s .failed else s

/-- `events_.push_back(event)`, with its bytes. -/
def pushBack (s : St) (event : WorkerSessionEvent) (limit : Limit) : St :=
  { s with
    queuedEventBytes := s.queuedEventBytes + eventPayloadSize event
    events := s.events ++ [event]
    log := s.log ++ [.event event limit] }

def overflowEvent : WorkerSessionEvent := makeSessionError (CppString.lit "worker session event queue overflow")

/-- No room for a regular event. -/
def isFull (options : WorkerSessionOptions) (s : St) (event : WorkerSessionEvent) : Bool :=
  s.events.length ≥ options.maxEventQueueEvents || eventPayloadSize event > options.maxEventQueueBytes
    || s.queuedEventBytes > options.maxEventQueueBytes - eventPayloadSize event

/-- `enqueue_event_locked`; the flag asks to stop the transport. -/
def enqueueEvent (options : WorkerSessionOptions) (s : St) (event : WorkerSessionEvent) (exempt : Bool) : St × Bool :=
  if !exempt && !s.eventQueueOverflowed && isFull options s event then
    (pushBack (fail { s with eventQueueOverflowed := true }) overflowEvent .overflow, true)
  else if s.eventQueueOverflowed && !exempt then (s, true)
  else (pushBack s event (if exempt then .exempt else .regular), false)

def failWithEvent (options : WorkerSessionOptions) (s : St) (event : WorkerSessionEvent) (exempt : Bool) : St × Bool :=
  enqueueEvent options (fail s) event exempt

/-! ## Frames of the worker -/

def isSessionLevelWorkerControl : ControlMessageType → Bool
  | .ready | .pong | .shutdownAck => true
  | _ => false

def isRequestLevelWorkerControl : ControlMessageType → Bool
  | .queued | .started | .completed | .cancelled => true
  | _ => false

def isControlMessageAllowed (s : St) (id : RequestId) (type : ControlMessageType) : Bool :=
  if type = .ready then s.state == .starting && id == 0
  else if s.state ≠ .ready then false
  else if type = .shutdownAck then id == 0 && s.shutdownRequested
  else if isSessionLevelWorkerControl type then id == 0
  else if isRequestLevelWorkerControl type then id != 0
  else false

variable (lib : JsonLibrary) (options : WorkerSessionOptions)

def handleControlFrame (s : St) (frame : Frame) : St × Bool :=
  match decodeControlMessage lib frame.payload .workerToClient with
  | .error e => failWithEvent options s (makeProtocolError e.2) true
  | .ok message =>
    if !isControlMessageAllowed s frame.header.requestId (controlMessageType message) then
      failWithEvent options s
        (makeProtocolError (CppString.lit "control message is invalid in the current session state")) true
    else
      let event := .control frame.header.requestId message
      match message with
      | .ready ready =>
        let (s, shouldStop) := enqueueEvent options s event false
        if shouldStop then (s, true) else (setState { s with readyMessage := ready } .ready, false)
      | _ => enqueueEvent options s event false

def handleAudioFrame (s : St) (frame : Frame) : St × Bool :=
  if s.state ≠ .ready ∨ frame.header.requestId = 0 then
    failWithEvent options s
      (makeProtocolError (CppString.lit "audio frame is invalid in the current session state")) true
  else enqueueEvent options s (.audio frame.header.requestId frame.payload) false

def handleErrorFrame (s : St) (frame : Frame) : St × Bool :=
  match decodeErrorMessage lib frame.payload with
  | .error e => failWithEvent options s (makeProtocolError e.2) true
  | .ok error =>
    let event := .workerError frame.header.requestId error
    if s.state = .starting then failWithEvent options s event true else enqueueEvent options s event false

def handleFrame (s : St) (frame : Frame) : St × Bool :=
  if frame.header.frameType = FrameType.controlJson.value then handleControlFrame lib options s frame
  else if frame.header.frameType = FrameType.audioPcm.value then handleAudioFrame options s frame
  else if frame.header.frameType = FrameType.errorJson.value then handleErrorFrame lib options s frame
  else failWithEvent options s (makeProtocolError (CppString.lit "unknown frame type")) true

/-- The loop of `handle_bytes`. A frame takes bytes off the buffer, so its unread bytes are
    fuel enough. -/
def handleFrames : Nat → St → St
  | 0, s => s
  | fuel + 1, s =>
    match s.parser.parseNext with
    | (parser, .needMoreData) => { s with parser }
    | (parser, .fatalError e) =>
      (failWithEvent options { s with parser } (makeProtocolError (CppString.lit e.2)) true).1
    | (parser, .frameReady frame) =>
      let (s, stopTransport) := handleFrame lib options { s with parser } frame
      if stopTransport then s else handleFrames fuel s

theorem handleFrames_frame {parser : FrameParser} {frame : Frame} (fuel : Nat) (s : St)
    (h : s.parser.parseNext = (parser, .frameReady frame)) :
    handleFrames lib options (fuel + 1) s =
      if (handleFrame lib options { s with parser } frame).2 then (handleFrame lib options { s with parser } frame).1
      else handleFrames lib options fuel (handleFrame lib options { s with parser } frame).1 := by
  simp [handleFrames, h]

theorem handleFrames_wait {parser : FrameParser} (fuel : Nat) (s : St)
    (h : s.parser.parseNext = (parser, .needMoreData)) :
    handleFrames lib options (fuel + 1) s = { s with parser } := by
  simp [handleFrames, h]

def handleBytes (s : St) (bytes : Bytes) : St :=
  let s := { s with parser := s.parser.append bytes }
  handleFrames lib options (s.parser.bufferedSize + 1) s

/-! ## The other callbacks -/

def handleTransportError (s : St) (message : CppString) : St :=
  if s.state.live then (failWithEvent options s (makeTransportError message) true).1
  else (enqueueEvent options s (makeTransportError message) true).1

def handleExit (s : St) : St := setState (enqueueEvent options s (.localEvent .exited []) true).1 .exited

/-! ## Calls of the client -/

def isClientToWorkerControl : ControlMessageType → Bool
  | .hello | .synthesize | .cancel | .ping | .shutdown => true
  | _ => false

/-- What the transport answers during a step. -/
structure Outcome where
  started : Bool := true
  running : Bool := true
  sent : SendResult := .accepted
  deriving DecidableEq, Repr

/-- The regions that follow `send_control_frame`, by its result. -/
def Caller.next : Caller → Bool → List Act
  | .start, true => [.startWait]
  | .start, false => [.stop]
  | _, _ => []

/-- The branch of `start` that does not start. -/
def startRefused (s : St) : Bool :=
  s.startAttempted || s.state != .stopped || options.maxEventQueueEvents == 0 || options.maxEventQueueBytes == 0

def startBegin (s : St) : St :=
  setState { s with
    startAttempted := true
    eventQueueOverflowed := false
    parser := {}
    events := []
    queuedEventBytes := 0
    shutdownRequested := false } .starting

/-- A local error of `send_control_frame`. -/
def localSendError (s : St) (message : CppString) : St :=
  if s.state = .starting then (failWithEvent options s (makeSessionError message) true).1
  else (enqueueEvent options s (makeSessionError message) true).1

def transportSendError (s : St) (result : SendResult) : St :=
  if s.state.live then (failWithEvent options s (makeTransportError (sendResultMessage result)) true).1
  else (enqueueEvent options s (makeTransportError (sendResultMessage result)) true).1

def markOutboundControl (s : St) (id : RequestId) (type : ControlMessageType) : St :=
  if id = 0 ∧ type = .shutdown then { s with shutdownRequested := true } else s

/-- `send_control_frame` up to `transport_->send`: the state, and what is left of it. -/
def sendControlFrame (s : St) (caller : Caller) (id : RequestId) (message : ControlMessage) : St × List Act :=
  let s := { s with log := s.log ++ [.handed id message] }
  if !isClientToWorkerControl (controlMessageType message) then
    ((enqueueEvent options s
      (makeSessionError (CppString.lit "cannot send worker-to-client control message")) true).1, caller.next false)
  else match encodeControlMessage lib message with
    | .error e => (localSendError options s e.2, caller.next false)
    | .ok payload =>
      match encodeFrame FrameType.controlJson.value id payload with
      | .error e => (localSendError options s (CppString.lit e.2), caller.next false)
      | .ok _ => (markOutboundControl s id (controlMessageType message), [.transportSend caller])

/-- A region of a call in progress, and the regions that it adds. -/
def runAct (s : St) (o : Outcome) : Act → St × List Act
  | .startTransport =>
    if !o.started then (setState s .failed, [])
    else if s.state = .starting then (s, [.sendFrame .start 0 (.hello options.clientName options.clientVersion)])
    else (s, [.stop])
  | .startWait => (s, if s.state = .ready ∧ !s.eventQueueOverflowed ∧ o.running then [] else [.stop])
  | .sendControl id message =>
    (s, if s.state ≠ .ready ∨ !o.running then [] else [.sendFrame .sendControl id message])
  | .sendFrame caller id message => sendControlFrame lib options s caller id message
  | .transportSend caller =>
    if o.sent = .accepted then (s, caller.next true) else (transportSendError options s o.sent, caller.next false)
  | .stop =>
    if s.state = .stopped ∨ s.state = .stopping then (s, [])
    else (if s.state ≠ .exited then setState s .stopping else s, [.stopTransport (s.state == .ready)])
  | .stopTransport sendShutdown =>
    (s, if o.running && sendShutdown then [.sendFrame .stop 0 (.shutdown (CppString.lit "cancel")), .stopEnd]
      else [.stopEnd])
  | .stopEnd => (if s.state = .stopping then setState s .stopped else s, [])

/-! ## Runs -/

inductive Ev where
  /-- A thread calls `start`. -/
  | start
  /-- A thread calls `send_control`. -/
  | sendControl (id : RequestId) (message : ControlMessage)
  /-- A thread calls `stop`, or the destructor runs. -/
  | stop
  /-- A call in progress runs its next region. -/
  | run (call : Nat) (o : Outcome)
  | waitForEvent
  | receive (bytes : Bytes)
  | transportError (message : CppString)
  | exit

def step (s : St) : Ev → Option St
  | .start =>
    if startRefused options s then none
    else
      let s := startBegin s
      some { s with calls := s.calls ++ [[.startTransport]] }
  | .sendControl id message => some { s with calls := s.calls ++ [[.sendControl id message]] }
  | .stop => some { s with calls := s.calls ++ [[.stop]] }
  | .run call o =>
    match s.calls[call]? with
    | some (act :: rest) =>
      let (s, acts) := runAct lib options s o act
      some { s with calls := s.calls.set call (acts ++ rest) }
    | _ => none
  | .waitForEvent =>
    match s.events with
    | event :: events =>
      some { s with
        events
        queuedEventBytes := s.queuedEventBytes - min s.queuedEventBytes (eventPayloadSize event)
        returned := s.returned ++ [event] }
    | [] => none
  | .receive bytes => if s.startAttempted then some (handleBytes lib options s bytes) else none
  | .transportError message => if s.startAttempted then some (handleTransportError options s message) else none
  | .exit => if s.startAttempted then some (handleExit options s) else none

open QwenTtsBridge.Lib.Transition in
/-- Every interleaving of the calls and callbacks, with every byte stream and every transport. -/
abbrev Reachable : St → Prop := Reach (step lib options) anyStep init

end QwenTtsBridge.Session
