/-
  QwenTtsBridge.Worker.PyServer — the Python worker's `StdioWorkerServer`
  (`worker/src/qwen_tts_bridge_worker/server/stdio_server.py`) once its engine is up.

  Two threads share the tables that `_condition` guards (`Tables`). A step of `step` is
  one region under that lock, one test of a slot's cancel event, or one
  `_writer.send`; the threads interleave between any two of them.
  - The reader runs `_read_loop`, `_handle_frame` and, at its end, the `finally` of
    `run`. What it still has to do is a stack of `Act`s. An exception that a handler
    lets through unwinds that stack to the `finally` (`unwind`).
  - The engine thread runs `_run_engine_loop`, `_take_next_request` and
    `_run_one_request`; `EnginePc` is where it is. What the engine object does
    (`describe_request`, the chunks and exceptions of `synthesize_stream`, the traces it
    hands out) is chosen by the event. An exception that leaves `_run_one_request` ends
    the thread (`dead`).

  A slot object is named by its request id: an id is admitted at most once, so the dicts
  `_active` and `_physical` are lists of ids and `slots` holds the objects. Metrics,
  timestamps and audio counters are left out: nothing below reads them, and
  `MetricsWriter.emit` lets no exception through. What a handler's caller decodes from a
  frame arrives as a `Command`.
-/

import QwenTtsBridge.Python.Builtins
import QwenTtsBridge.Lib.Transition

namespace QwenTtsBridge.Worker.PyServer

open QwenTtsBridge.Python QwenTtsBridge.Lib

abbrev RequestId := Nat

/-! ## Requests and frames -/

structure AudioFormat where
  sampleFormat : PyStr := PyStr.lit "s16le"
  sampleRate : Int := 24000
  channels : Int := 1
  deriving DecidableEq, Repr

structure SamplingOptions where
  temperature : Option Binary64 := none
  topK : Option Int := none
  topP : Option Binary64 := none
  repetitionPenalty : Option Binary64 := none
  doSample : Option Bool := none
  deriving DecidableEq, Repr

structure SynthesisRequest where
  requestId : RequestId
  text : PyStr
  language : PyStr := PyStr.lit "auto"
  speaker : PyStr := []
  instruction : PyStr := []
  voiceId : PyStr := []
  referenceAudioPath : PyStr := []
  referenceText : PyStr := []
  xVectorOnly : Bool := false
  seed : Option Int := none
  sampling : SamplingOptions := {}
  output : AudioFormat := {}
  deriving DecidableEq, Repr

/-- What `error_frame` puts in an `error_json` payload beside `message_type`. -/
structure ErrorMessage where
  category : PyStr
  code : PyStr
  message : PyStr
  deriving DecidableEq, Repr

def ErrorMessage.lit (category code message : String) : ErrorMessage :=
  ⟨PyStr.lit category, PyStr.lit code, PyStr.lit message⟩

structure EngineCapabilities where
  streaming : Bool
  cancellation : Bool
  instructions : Bool
  voiceClone : Bool
  voiceCloneStreaming : Bool
  voiceProfiles : Bool
  samplingOverrides : Bool
  deterministicSeed : Bool
  deriving DecidableEq, Repr

structure ReadyMessage where
  workerVersion : PyStr
  sessionId : PyStr
  warmedUp : Bool
  capabilities : EngineCapabilities
  voiceIds : List PyStr
  deriving DecidableEq, Repr

/-- A frame before it is encoded. -/
inductive OutFrame where
  | ready (m : ReadyMessage)
  | pong (sequence : Option Value)
  | shutdownAck
  | queued (id : RequestId) (position : Nat)
  | started (id : RequestId) (format : AudioFormat)
  | audioPcm (id : RequestId) (pcm : List UInt8)
  | completed (id : RequestId) (generationTrace : Option Dict)
  | cancelled (id : RequestId)
  | error (id : RequestId) (e : ErrorMessage)

/-- The thread that called `_writer.send`. -/
inductive Thread where
  | reader
  | engine
  deriving DecidableEq, Repr

structure Handed where
  by_ : Thread
  frame : OutFrame

/-- The request whose life a frame ends. An `error_json` of the reader refuses a frame of the
    client and ends no request. -/
def Handed.answers : Handed → Option RequestId
  | ⟨_, .completed id _⟩ => some id
  | ⟨_, .cancelled id⟩ => some id
  | ⟨.engine, .error id _⟩ => some id
  | _ => none

/-- The result of `_parse_synthesis_request`: a request, an `error_json` it has sent (the
    handler then returns), or an exception that it lets through. -/
inductive Parsed where
  | request (r : SynthesisRequest)
  | refused (e : ErrorMessage)
  | raises

/-- What `_handle_frame` makes of a frame before it looks at the session's state. -/
inductive Command where
  /-- Answered by an `error_json` at once: wrong frame type, undecodable payload (which
      answers under id 0), unknown `message_type`. -/
  | refused (id : RequestId) (e : ErrorMessage)
  /-- Decoding lets an exception through. -/
  | raises
  | hello (id : RequestId)
  | ping (id : RequestId) (sequence : Option Value)
  | synthesize (id : RequestId) (parsed : Parsed)
  | cancel (id : RequestId)
  | shutdown (id : RequestId) (modeIsCancel : Bool)

/-- The exceptions `_run_one_request` tells apart; `base` is one that is no `Exception`. -/
inductive EngineError where
  | requestValidation (code message : PyStr)
  | safetyLimit (message : PyStr)
  | sequenceCapacity (message : PyStr)
  | other (message : PyStr)
  | base

/-! ## State -/

inductive SlotState where
  | queued
  | running
  deriving DecidableEq, Repr

structure Slot where
  request : SynthesisRequest
  state : SlotState := .queued
  cancelEvent : Bool := false
  terminalNotified : Bool := false
  deriving DecidableEq, Repr

/-- What `_condition` guards. `admitted` is the history of admissions and `released` that of
    the `request_admission_released` metric. -/
structure Tables where
  pending : List RequestId := []
  active : List RequestId := []
  physical : List RequestId := []
  slots : RequestId → Option Slot := fun _ => none
  admittedRequests : Int := 0
  acceptedRequestIdHighWater : RequestId := 0
  admitted : List RequestId := []
  released : List RequestId := []

/-- How `_run_one_request` ends when it is not cancelled: `completed`, or an error. -/
inductive Outcome where
  | completed
  | failed (e : ErrorMessage)

/-- The terminal frame that `_run_one_request` sends. -/
inductive Answer where
  | completed (generationTrace : Option Dict)
  | cancelled
  | failed (e : ErrorMessage)

def Answer.frame (id : RequestId) : Answer → OutFrame
  | .completed trace => .completed id trace
  | .cancelled => .cancelled id
  | .failed e => .error id e

/-- Where the engine thread is. -/
inductive EnginePc where
  /-- At `_take_next_request`. -/
  | take
  /-- In `_condition.wait()`. -/
  | waiting
  /-- At the first test of the cancel event. -/
  | entry (id : RequestId)
  /-- In `describe_request`, up to the `started` frame. -/
  | describe (id : RequestId)
  | sendStarted (id : RequestId)
  /-- In the engine's iterator. -/
  | stream (id : RequestId)
  /-- At the test before `if not pcm_chunk`, and at the one after it. -/
  | chunkTest (id : RequestId) (pcm : List UInt8)
  | chunkRetest (id : RequestId) (pcm : List UInt8)
  /-- Past both tests of this chunk, up to its `audio_pcm` frame. -/
  | sendAudio (id : RequestId) (pcm : List UInt8)
  /-- At the test in `except Exception`. -/
  | raised (id : RequestId) (message : PyStr)
  /-- At the test after the loop. -/
  | afterStream (id : RequestId)
  /-- About to take the lock for `_terminalize_locked`. -/
  | terminalize (id : RequestId) (outcome : Outcome)
  /-- About to take the lock in `_finish_cancelled`. -/
  | finishCancelled (id : RequestId)
  /-- In `_pop_engine_generation_trace`. -/
  | popTrace (id : RequestId)
  /-- In `_emit_request_finished`, with the frame still to send. -/
  | sendTerminal (id : RequestId) (answer : Answer)
  /-- After the loop of `_run_engine_loop`. -/
  | loopEnded
  | sendAck
  | exited
  /-- An exception left `_run_one_request` of this request. -/
  | dead (id : RequestId)

/-- What the reader has still to do. -/
inductive Act where
  /-- Read and handle the next frame. -/
  | readLoop
  | send (f : OutFrame)
  /-- `_emit_request_finished(slot, "cancelled")`. -/
  | emitFinished (id : RequestId)
  | notifyAll
  /-- `_request_shutdown(send_ack)` up to its first release of the lock; with
      `send_ack = False` it is the call in the `finally` of `run`. -/
  | requestShutdown (sendAck : Bool)
  /-- The last region under the lock of `_request_shutdown`. -/
  | shutdownTerminalEventsEnqueued
  /-- The cancel or shutdown handler that released these slots returns. -/
  | returned (ids : List RequestId)

structure Config where
  maxAdmittedRequests : Nat
  ready : ReadyMessage
  /-- `control_frame`, `error_frame` or `encode_frame`: the bytes, or the text of the
      exception. -/
  encode : OutFrame → Except PyStr (List UInt8)

def Config.encodes (cfg : Config) (f : OutFrame) : Bool :=
  match cfg.encode f with
  | .ok _ => true
  | .error _ => false

/-- `settled` are the requests whose slot was released by a call that has returned; `lost`
    are the terminal frames an exception kept from being sent. -/
structure St where
  tables : Tables := {}
  helloSeen : Bool := false
  readySent : Bool := false
  shutdownRequested : Bool := false
  shutdownAckNeeded : Bool := false
  shutdownTerminalEventsEnqueued : Bool := false
  fatalError : Bool := false
  reader : List Act := [.readLoop, .requestShutdown false]
  engine : EnginePc := .take
  handed : List Handed := []
  settled : List RequestId := []
  lost : List RequestId := []

def init : St := {}

/-! ## Regions under the lock -/

namespace Tables

/-- `self._active.get(request_id)`. -/
def get? (t : Tables) (id : RequestId) : Option Slot := if id ∈ t.active then t.slots id else none

def setSlot (t : Tables) (id : RequestId) (f : Slot → Slot) : Tables :=
  { t with slots := fun i => if i = id then (t.slots i).map f else t.slots i }

/-- `d[key] = value` on the keys of a dict. -/
def insertKey (keys : List RequestId) (id : RequestId) : List RequestId := if id ∈ keys then keys else keys ++ [id]

def terminalizeLocked (t : Tables) (id : RequestId) : Tables :=
  let t := { t with active := t.active.erase id }
  if id ∈ t.physical then
    { t with
      physical := t.physical.erase id
      admittedRequests := t.admittedRequests - 1
      released := t.released ++ [id] }
  else t

/-- The admission branch of `_handle_synthesize`. -/
def accept (t : Tables) (id : RequestId) (request : SynthesisRequest) : Tables :=
  { t with
    acceptedRequestIdHighWater := id
    admittedRequests := t.admittedRequests + 1
    active := insertKey t.active id
    physical := insertKey t.physical id
    slots := fun i => if i = id then some { request } else t.slots i
    pending := t.pending ++ [id]
    admitted := t.admitted ++ [id] }

/-- The branch of `_handle_cancel` on a running slot. -/
def cancelRunning (t : Tables) (id : RequestId) : Tables :=
  let t := t.setSlot id ({ · with cancelEvent := true, terminalNotified := true })
  { t with active := t.active.erase id }

/-- `while self._pending` of `_request_shutdown`, on the ids still in the deque; returns the
    requests that it released, in order. -/
def drainPending (t : Tables) : List RequestId → Tables × List RequestId
  | [] => (t, [])
  | id :: rest =>
    let t := { t with pending := rest }
    match t.get? id with
    | none => drainPending t rest
    | some _ =>
      let t := (t.setSlot id ({ · with cancelEvent := true })).terminalizeLocked id
      let (t, ids) := drainPending t rest
      (t, id :: ids)

/-- `for slot in self._active.values(): slot.cancel_event.set()`. -/
def cancelActive (t : Tables) : Tables :=
  { t with slots := fun i => if i ∈ t.active then (t.slots i).map ({ · with cancelEvent := true }) else t.slots i }

/-- The whole region of `_request_shutdown` on the tables. -/
def shutdown (t : Tables) : Tables × List RequestId :=
  let (t, ids) := drainPending t t.pending
  (t.cancelActive, ids)

end Tables

/-- `slot.cancel_event.is_set()` of the slot that the engine thread holds. -/
def isSet (s : St) (id : RequestId) : Bool := ((s.tables.slots id).map (·.cancelEvent)).getD false

/-- `_condition.notify_all()`: only the engine thread ever waits. -/
def notifyAll (s : St) : St :=
  match s.engine with
  | .waiting => { s with engine := .take }
  | _ => s

@[simp] theorem notifyAll_tables (s : St) : (notifyAll s).tables = s.tables := by unfold notifyAll; split <;> rfl

@[simp] theorem notifyAll_readySent (s : St) : (notifyAll s).readySent = s.readySent := by
  unfold notifyAll; split <;> rfl

@[simp] theorem notifyAll_reader (s : St) : (notifyAll s).reader = s.reader := by unfold notifyAll; split <;> rfl

@[simp] theorem notifyAll_handed (s : St) : (notifyAll s).handed = s.handed := by unfold notifyAll; split <;> rfl

@[simp] theorem notifyAll_settled (s : St) : (notifyAll s).settled = s.settled := by unfold notifyAll; split <;> rfl

@[simp] theorem notifyAll_lost (s : St) : (notifyAll s).lost = s.lost := by unfold notifyAll; split <;> rfl

/-! ## The reader -/

def push (s : St) (acts : List Act) : St := { s with reader := acts ++ s.reader }

def sendError (s : St) (id : RequestId) (e : ErrorMessage) : St := push s [.send (.error id e)]

def Act.due : Act → Option RequestId
  | .send f => Handed.answers ⟨.reader, f⟩
  | _ => none

/-- The requests that a list of acts has still to answer. -/
def dueIn (acts : List Act) : List RequestId := acts.filterMap Act.due

def isFinally : Act → Bool
  | .requestShutdown sendAck => !sendAck
  | _ => false

/-- An exception leaves the handler: `run` prints it and runs its `finally`. -/
def unwind (s : St) : St :=
  { s with
    fatalError := true
    lost := s.lost ++ dueIn s.reader
    reader := s.reader.filter isFinally }

def handleHello (cfg : Config) (s : St) (id : RequestId) : St :=
  if id ≠ 0 ∨ s.helloSeen ∨ s.shutdownRequested then
    sendError s id
      (.lit "protocol_error" "invalid_session_state" "hello is invalid in the current session state")
  else push { s with helloSeen := true, readySent := true } [.send (.ready cfg.ready)]

def handlePing (s : St) (id : RequestId) (sequence : Option Value) : St :=
  if id ≠ 0 then
    sendError s id (.lit "protocol_error" "invalid_session_state" "ping must use request_id = 0")
  else push s [.send (.pong sequence)]

/-- The region under the lock of `_handle_synthesize`, and what follows it. -/
def admission (cfg : Config) (s : St) (id : RequestId) (request : SynthesisRequest) : St :=
  if id ∈ s.tables.active ∨ id ≤ s.tables.acceptedRequestIdHighWater then
    sendError s id
      (.lit "request_error" "duplicate_request_id" "request_id was already used in this session")
  else if s.tables.admittedRequests ≥ cfg.maxAdmittedRequests then
    sendError s id (.lit "resource_error" "resource_exhausted" "worker admission limit reached")
  else
    let t := s.tables.accept id request
    push { s with tables := t } [.send (.queued id t.pending.length), .notifyAll]

def handleSynthesize (cfg : Config) (s : St) (id : RequestId) (parsed : Parsed) : St :=
  if s.shutdownRequested then
    sendError s id (.lit "protocol_error" "shutdown_in_progress" "worker is shutting down")
  else if id = 0 then
    sendError s 0 (.lit "request_error" "missing_required_field" "synthesize requires a non-zero request_id")
  else
    match parsed with
    | .raises => unwind s
    | .refused e => sendError s id e
    | .request request => admission cfg s id request

/-- `_handle_cancel` up to the release of the lock, and what follows it. -/
def handleCancel (s : St) (id : RequestId) : St :=
  if id = 0 then
    sendError s 0 (.lit "request_error" "unknown_request_id" "cancel requires a non-zero request_id")
  else
    match s.tables.get? id with
    | none =>
      if id > s.tables.acceptedRequestIdHighWater then
        sendError (notifyAll s) id (.lit "request_error" "unknown_request_id" "request_id is not active")
      else notifyAll s
    | some slot =>
      match slot.state with
      | .queued =>
        if id ∈ s.tables.pending then
          let t := { s.tables with pending := s.tables.pending.erase id }.terminalizeLocked id
          push (notifyAll { s with tables := t }) [.emitFinished id, .send (.cancelled id), .returned [id]]
        else
          -- `self._pending.remove` raised ValueError
          notifyAll { s with tables := s.tables.setSlot id ({ · with state := .running, cancelEvent := true }) }
      | .running =>
        let s' := notifyAll { s with tables := s.tables.cancelRunning id }
        if slot.terminalNotified then s' else push s' [.emitFinished id, .send (.cancelled id)]

/-- `_handle_shutdown` makes `_read_loop` return when it accepts the message. -/
def handleShutdown (s : St) (id : RequestId) (modeIsCancel : Bool) : St :=
  if id ≠ 0 then
    sendError s id (.lit "protocol_error" "invalid_session_state" "shutdown must use request_id = 0")
  else if !modeIsCancel then
    sendError s 0 (.lit "protocol_error" "invalid_field_type" "protocol v1 supports only shutdown mode = cancel")
  else { s with reader := .requestShutdown true :: s.reader.tail }

def notReady : ErrorMessage := .lit "protocol_error" "invalid_session_state" "worker is not ready"

def handleFrame (cfg : Config) (s : St) : Command → St
  | .refused id e => sendError s id e
  | .raises => unwind s
  | .hello id => handleHello cfg s id
  | .ping id sequence => handlePing s id sequence
  | .synthesize id parsed => if !s.readySent then sendError s id notReady else handleSynthesize cfg s id parsed
  | .cancel id => if !s.readySent then sendError s id notReady else handleCancel s id
  | .shutdown id modeIsCancel => handleShutdown s id modeIsCancel

/-- `_request_shutdown` up to its first release of the lock. -/
def requestShutdown (s : St) (sendAck : Bool) : St :=
  if s.shutdownRequested then
    notifyAll { s with
      shutdownAckNeeded := s.shutdownAckNeeded || sendAck
      shutdownTerminalEventsEnqueued := true }
  else
    let (t, ids) := s.tables.shutdown
    push { s with shutdownRequested := true, shutdownAckNeeded := sendAck, tables := t }
      (ids.flatMap (fun id => [.emitFinished id, .send (.cancelled id)]) ++
        [.shutdownTerminalEventsEnqueued, .returned ids])

def hand (s : St) (by_ : Thread) (f : OutFrame) : St := { s with handed := s.handed ++ [⟨by_, f⟩] }

def bytesPerSample (sampleFormat : PyStr) : Option Int := if sampleFormat = PyStr.lit "s16le" then some 2 else none

/-- Whether `_pcm_duration_ms` raises: its divisor does not fit a float. -/
def pcmDurationRaises (format : AudioFormat) : Bool :=
  match bytesPerSample format.sampleFormat with
  | none => false
  | some n => decide (floatOverflow ≤ format.sampleRate * format.channels * n)

/-- Whether `_emit_request_finished` raises for the slot. -/
def emitFinishedRaises (s : St) (id : RequestId) : Bool :=
  ((s.tables.slots id).map fun slot => pcmDurationRaises slot.request.output).getD false

/-- The reader's next act, `readLoop` apart. -/
def runAct (cfg : Config) (s : St) : Act → Option St
  | .readLoop => none
  | .send f => if cfg.encodes f then some (hand s .reader f) else some (unwind (push s [.send f]))
  | .emitFinished id => if emitFinishedRaises s id then some (unwind s) else some s
  | .notifyAll => some (notifyAll s)
  | .requestShutdown sendAck => some (requestShutdown s sendAck)
  | .shutdownTerminalEventsEnqueued => some (notifyAll { s with shutdownTerminalEventsEnqueued := true })
  | .returned ids => some { s with settled := s.settled ++ ids }

/-! ## The engine thread -/

def goto (s : St) (pc : EnginePc) : St := { s with engine := pc }

/-- `_take_next_request`. -/
def takeNextRequest (s : St) : St :=
  match s.tables.pending with
  | [] => if s.shutdownRequested ∧ s.shutdownTerminalEventsEnqueued then goto s .loopEnded else goto s .waiting
  | id :: rest =>
    let t := { s.tables with pending := rest }
    match t.get? id with
    | none => { s with tables := t, engine := .loopEnded }
    | some _ => { s with tables := t.setSlot id ({ · with state := .running }), engine := .entry id }

/-- The `except` clauses around the chunk loop. -/
def onException (id : RequestId) : EngineError → EnginePc
  | .requestValidation code message => .terminalize id (.failed ⟨PyStr.lit "request_error", code, message⟩)
  | .safetyLimit message =>
    .terminalize id (.failed ⟨PyStr.lit "resource_error", PyStr.lit "safety_duration_limit", message⟩)
  | .sequenceCapacity message =>
    .terminalize id (.failed ⟨PyStr.lit "resource_error", PyStr.lit "sequence_capacity_exceeded", message⟩)
  | .other message => .raised id message
  | .base => .dead id

/-- `str(exc) or "synthesis failed"`. -/
def synthesisFailed (message : PyStr) : ErrorMessage :=
  ⟨PyStr.lit "model_error", PyStr.lit "synthesis_failed",
    if message.isEmpty then PyStr.lit "synthesis failed" else message⟩

/-- The region under the lock of `_finish_cancelled`. -/
def finishCancelled (s : St) (id : RequestId) : St :=
  let notified := ((s.tables.slots id).map (·.terminalNotified)).getD true
  let t := (s.tables.setSlot id ({ · with terminalNotified := true })).terminalizeLocked id
  if notified then { s with tables := t, engine := .take, settled := s.settled ++ [id] }
  else { s with tables := t, engine := .sendTerminal id .cancelled }

/-- An exception leaves `_run_one_request` after it released the slot. -/
def dieUnanswered (s : St) (id : RequestId) : St := { s with engine := .dead id, lost := s.lost ++ [id] }

/-- What the engine object does where `_run_one_request` calls it. -/
inductive EngineEv where
  /-- A step of the server's own code. -/
  | next
  /-- `describe_request` (or the server's check of its result) raises, or is done. -/
  | described (error : Option EngineError)
  /-- `synthesize_stream` yields a chunk, ends, or raises. -/
  | yields (pcm : List UInt8)
  | ends
  | raises (error : EngineError)
  /-- `pop_last_generation_trace` returns, or raises. -/
  | trace (t : Option Dict)
  | traceRaises

def stepEngine (cfg : Config) (s : St) : EngineEv → Option St
  | .next =>
    match s.engine with
    | .take => some (takeNextRequest s)
    | .entry id => some (goto s (if isSet s id then .finishCancelled id else .describe id))
    | .sendStarted id =>
      match s.tables.slots id with
      | none => none
      | some slot =>
        let f := OutFrame.started id slot.request.output
        if cfg.encodes f then some (goto (hand s .engine f) (.stream id)) else some (goto s (.dead id))
    | .chunkTest id pcm =>
      some (goto s (if isSet s id then .afterStream id else if pcm.isEmpty then .stream id else .chunkRetest id pcm))
    | .chunkRetest id pcm => some (goto s (if isSet s id then .afterStream id else .sendAudio id pcm))
    | .sendAudio id pcm =>
      let f := OutFrame.audioPcm id pcm
      match cfg.encode f with
      | .ok _ => some (goto (hand s .engine f) (.stream id))
      -- inside the `try`, as an exception of the engine is
      | .error message => some (goto s (.raised id message))
    | .raised id message =>
      some (goto s (if isSet s id then .finishCancelled id else .terminalize id (.failed (synthesisFailed message))))
    | .afterStream id => some (goto s (if isSet s id then .finishCancelled id else .terminalize id .completed))
    | .terminalize id outcome =>
      some { s with
        tables := s.tables.terminalizeLocked id
        engine := match outcome with
          | .completed => .popTrace id
          | .failed e => .sendTerminal id (.failed e) }
    | .finishCancelled id => some (finishCancelled s id)
    | .sendTerminal id answer =>
      if emitFinishedRaises s id || !cfg.encodes (answer.frame id) then some (dieUnanswered s id)
      else some { hand s .engine (answer.frame id) with engine := .take, settled := s.settled ++ [id] }
    | .loopEnded => some (goto s (if s.shutdownAckNeeded then .sendAck else .exited))
    | .sendAck => some (goto (hand s .engine .shutdownAck) .exited)
    | _ => none
  | .described error =>
    match s.engine with
    | .describe id =>
      some (goto s (match error with
        | none => .sendStarted id
        | some (.requestValidation code message) => onException id (.requestValidation code message)
        | some _ => .dead id))
    | _ => none
  | .yields pcm => match s.engine with
    | .stream id => some (goto s (.chunkTest id pcm))
    | _ => none
  | .ends => match s.engine with
    | .stream id => some (goto s (.afterStream id))
    | _ => none
  | .raises error => match s.engine with
    | .stream id => some (goto s (onException id error))
    -- the chunk's metrics are computed inside the same `try`
    | .sendAudio id _ => some (goto s (onException id error))
    | _ => none
  | .trace t => match s.engine with
    | .popTrace id => some (goto s (.sendTerminal id (.completed t)))
    | _ => none
  | .traceRaises => match s.engine with
    | .popTrace id => some (dieUnanswered s id)
    | _ => none

/-! ## Runs -/

inductive Ev where
  /-- The reader gets a frame. -/
  | receive (c : Command)
  /-- The stream ends, or its framing is fatally malformed. -/
  | eof
  /-- The reader's next act. -/
  | reader
  | engine (e : EngineEv)

def step (cfg : Config) (s : St) : Ev → Option St
  | .receive c => match s.reader with
    | .readLoop :: _ => some (handleFrame cfg s c)
    | _ => none
  | .eof => match s.reader with
    | .readLoop :: rest => some { s with reader := rest }
    | _ => none
  | .reader => match s.reader with
    | act :: rest => runAct cfg { s with reader := rest } act
    | [] => none
  | .engine e => stepEngine cfg s e

open QwenTtsBridge.Lib.Transition in
/-- Every interleaving of the two threads, every input and every engine. -/
abbrev Reachable (cfg : Config) : St → Prop := Reach (step cfg) anyStep init

end QwenTtsBridge.Worker.PyServer
