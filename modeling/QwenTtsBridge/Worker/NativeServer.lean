/-
  QwenTtsBridge.Worker.NativeServer — the native worker's `StdioServer`
  (`worker/native/qwentts/stdio_server.cpp`), with a writer that takes every frame and
  messages that all encode.

  As in the Python worker a reader thread and an engine thread share what `mutex_`
  guards (`Tables`); a step is one region under the mutex, one access to an atomic of a
  slot, or one frame handed to `OutputWriter`. `terminal` is taken with an atomic exchange:
  by the reader inside the mutex, by the engine thread outside it, before the region that
  erases the slot (`terminalize`).

  - A relaxed load of `cancelled` may miss a store: the event says what it saw, and a
    `true` has to be there.
  - `handle_cancel` erases a queued slot from `active_` through `it` and then copies from
    `slot`, a reference into the erased node. What that read gives is undefined; the event
    says whether it gave the slot (`stale`), and if it did not the `cancelled` frame is not
    sent (`dropped`).
  - `take_next_request` waits for its predicate: the step cannot happen before.
  - The check of the flags before each read only ends `read_loop` earlier.
  - The float samples of a chunk arrive converted (`float_pcm_to_s16le`).

  A slot object is named by its request id, which is admitted at most once.
-/

import QwenTtsBridge.Protocol.Control
import QwenTtsBridge.Lib.Transition

namespace QwenTtsBridge.Worker.NativeServer

open QwenTtsBridge.Protocol.Control

abbrev RequestId := Nat

/-! ## Frames -/

inductive OutFrame where
  | control (id : RequestId) (m : ControlMessage)
  | audioPcm (id : RequestId) (pcm : List UInt8)
  | error (id : RequestId) (e : ErrorMessage)

inductive Thread where
  | reader
  | engine
  deriving DecidableEq, Repr

structure Handed where
  by_ : Thread
  frame : OutFrame

/-- The request whose life a frame ends. An error frame of the reader refuses a frame of the
    client and ends no request. -/
def Handed.answers : Handed → Option RequestId
  | ⟨_, .control id (.completed _)⟩ => some id
  | ⟨_, .control id .cancelled⟩ => some id
  | ⟨.engine, .error id _⟩ => some id
  | _ => none

/-- What `handle_frame` decodes from a frame. -/
inductive Input where
  | wrongType (id : RequestId)
  | undecodable (id : RequestId) (code diagnostic : CppString)
  | message (id : RequestId) (m : ControlMessage)

inductive ValidationError where
  | invalidArgument (text : CppString)
  | other (text : CppString)

inductive SynthesisOutcome where
  | completed
  | cancelled
  | failed
  deriving DecidableEq, Repr

structure SynthesisResult where
  outcome : SynthesisOutcome := .failed
  category : CppString := []
  code : CppString := []
  message : CppString := []
  executionOutcome : CppString := []

/-! ## State -/

inductive RequestState where
  | queued
  | running
  deriving DecidableEq, Repr

structure RequestSlot where
  request : SynthesizeMessage
  state : RequestState := .queued
  cancelled : Bool := false
  terminal : Bool := false

/-- What `mutex_` guards. `admitted` is the history of admissions and `released` that of the
    `request_admission_released` metric. -/
structure Tables where
  pending : List RequestId := []
  active : List RequestId := []
  slots : RequestId → Option RequestSlot := fun _ => none
  admittedRequests : Nat := 0
  acceptedIdHighWater : RequestId := 0
  admitted : List RequestId := []
  released : List RequestId := []

/-- The terminal frame that `run_request` sends. -/
inductive Answer where
  | completed (executionOutcome : CppString)
  | cancelled
  | failed (e : ErrorMessage)

def Answer.frame (id : RequestId) : Answer → OutFrame
  | .completed outcome => .control id (.completed { hasExecutionOutcome := true, executionOutcome := outcome })
  | .cancelled => .control id .cancelled
  | .failed e => .error id e

def SynthesisResult.answer (r : SynthesisResult) : Answer :=
  match r.outcome with
  | .completed => .completed (if r.executionOutcome.isEmpty then CppString.lit "completed" else r.executionOutcome)
  | .cancelled => .cancelled
  | .failed => .failed ⟨r.category, r.code, r.message⟩

inductive EnginePc where
  /-- In `take_next_request`. -/
  | take
  /-- At the first load of `cancelled`. -/
  | entry (id : RequestId)
  | sendStarted (id : RequestId)
  /-- In `engine_.synthesize`, outside the callback. -/
  | synthesize (id : RequestId)
  /-- At the loads of the callback, with its chunk (`none`: null or not positive). -/
  | callback (id : RequestId) (pcm : Option (List UInt8))
  | sendAudio (id : RequestId) (pcm : List UInt8)
  /-- In `fail_fatal` of an invalid chunk. -/
  | failFatal (id : RequestId)
  /-- At `slot->terminal.exchange(true)` of `terminalize`. -/
  | exchange (id : RequestId) (answer : Answer)
  /-- At the mutex of `terminalize`. -/
  | release (id : RequestId) (answer : Answer)
  | sendTerminal (id : RequestId) (answer : Answer)
  /-- After the loop of `engine_loop`. -/
  | loopEnded
  | sendAck
  | exited

inductive Act where
  /-- Read and handle the next frame. -/
  | readLoop
  | send (f : OutFrame)
  | failFatal
  /-- `request_shutdown(send_ack)` up to its first release of the mutex. -/
  | requestShutdown (sendAck : Bool)
  | shutdownTerminalsEnqueued
  /-- The cancel or shutdown handler that released these slots returns. -/
  | returned (ids : List RequestId)

structure Config where
  maxAdmittedRequests : Nat
  ready : ReadyMessage
  /-- `engine_.validate_request`. -/
  validateRequest : SynthesizeMessage → Option ValidationError

/-- `settled` are the requests whose slot was released by a call that has returned; `dropped`
    are those whose frame the read of the erased node kept from being sent. -/
structure St where
  tables : Tables := {}
  helloSeen : Bool := false
  readySent : Bool := false
  shutdownRequested : Bool := false
  shutdownAckNeeded : Bool := false
  shutdownTerminalsEnqueued : Bool := false
  fatalError : Bool := false
  reader : List Act := [.readLoop, .requestShutdown false]
  engine : EnginePc := .take
  handed : List Handed := []
  settled : List RequestId := []
  dropped : List RequestId := []

def init : St := {}

/-! ## Regions under the mutex -/

namespace Tables

/-- `active_.find(request_id)`. -/
def get? (t : Tables) (id : RequestId) : Option RequestSlot := if id ∈ t.active then t.slots id else none

def setSlot (t : Tables) (id : RequestId) (f : RequestSlot → RequestSlot) : Tables :=
  { t with slots := fun i => if i = id then (t.slots i).map f else t.slots i }

/-- `slot->terminal`, of a slot that a thread holds. -/
def terminal (t : Tables) (id : RequestId) : Bool := ((t.slots id).map (·.terminal)).getD false

/-- `--admitted_requests_` of a `std::size_t`. -/
def decrement (n : Nat) : Nat := (n + (2 ^ 64 - 1)) % 2 ^ 64

/-- The admission branch of `handle_synthesize`. -/
def accept (t : Tables) (id : RequestId) (request : SynthesizeMessage) : Tables :=
  { t with
    acceptedIdHighWater := id
    admittedRequests := t.admittedRequests + 1
    active := if id ∈ t.active then t.active else t.active ++ [id]
    slots := fun i => if i = id then some { request } else t.slots i
    pending := t.pending ++ [id]
    admitted := t.admitted ++ [id] }

/-- `if (!slot->terminal.exchange(true))` with its body, inside the mutex. -/
def takeTerminal (t : Tables) (id : RequestId) : Tables :=
  let t := t.setSlot id ({ · with terminal := true })
  { t with
    active := t.active.erase id
    admittedRequests := decrement t.admittedRequests
    released := t.released ++ [id] }

def cancel (t : Tables) (id : RequestId) : Tables := t.setSlot id ({ · with cancelled := true })

/-- `while (!pending_.empty())` of `request_shutdown`, on the slots still in the deque;
    returns the requests that it released, in order. -/
def drainPending (t : Tables) : List RequestId → Tables × List RequestId
  | [] => (t, [])
  | id :: rest =>
    let t := { t with pending := rest }.cancel id
    if t.terminal id then drainPending t rest
    else
      let (t, ids) := drainPending (t.takeTerminal id) rest
      (t, id :: ids)

/-- `entry.second->cancelled.store(true)` over `active_`. -/
def cancelActive (t : Tables) : Tables :=
  { t with slots := fun i => if i ∈ t.active then (t.slots i).map ({ · with cancelled := true }) else t.slots i }

/-- The region of `request_shutdown` on the tables. -/
def shutdown (t : Tables) : Tables × List RequestId :=
  let (t, ids) := drainPending t t.pending
  (t.cancelActive, ids)

/-- The region of `terminalize`. -/
def release (t : Tables) (id : RequestId) : Tables :=
  { t with
    active := t.active.erase id
    admittedRequests := if t.admittedRequests > 0 then t.admittedRequests - 1 else t.admittedRequests
    released := t.released ++ [id] }

end Tables

/-! ## The reader -/

def push (s : St) (acts : List Act) : St := { s with reader := acts ++ s.reader }

def sendError (s : St) (id : RequestId) (e : ErrorMessage) : St := push s [.send (.error id e)]

def handleHello (cfg : Config) (s : St) (id : RequestId) : St :=
  if id ≠ 0 ∨ s.helloSeen ∨ s.shutdownRequested then
    sendError s id
      (.lit "protocol_error" "invalid_session_state" "hello is invalid in the current session state")
  else push { s with helloSeen := true, readySent := true } [.send (.control 0 (.ready cfg.ready))]

def handlePing (s : St) (id : RequestId) (hasSequence : Bool) (sequence : UInt64) : St :=
  if id ≠ 0 then
    sendError s id (.lit "protocol_error" "invalid_session_state" "ping must use request_id = 0")
  else push s [.send (.control 0 (.pong hasSequence sequence))]

/-- `text.find(part) != std::string::npos`. -/
def contains (text part : CppString) : Bool := text.tails.any part.isPrefixOf

/-- `error.what()` of an exception that was thrown with this text: a C string, which ends at the
    first NUL. -/
def what (text : CppString) : CppString := text.takeWhile (· ≠ 0)

/-- The two `catch` clauses around `validate_request`. -/
def validationFailure : ValidationError → ErrorMessage
  | .invalidArgument thrown =>
    let text := what thrown
    ⟨CppString.lit "request_error",
      if contains text (CppString.lit "output") then CppString.lit "unsupported_audio_format"
      else CppString.lit "invalid_native_request",
      text⟩
  | .other thrown => ⟨CppString.lit "worker_error", CppString.lit "worker_not_ready", what thrown⟩

/-- The region under the mutex of `handle_synthesize`, and what follows it. -/
def admission (cfg : Config) (s : St) (id : RequestId) (request : SynthesizeMessage) : St :=
  if s.shutdownRequested then
    sendError s id (.lit "protocol_error" "shutdown_in_progress" "native worker is shutting down")
  else if id ∈ s.tables.active ∨ id ≤ s.tables.acceptedIdHighWater then
    sendError s id
      (.lit "request_error" "duplicate_request_id" "request_id was already used in this session")
  else if s.tables.admittedRequests ≥ cfg.maxAdmittedRequests then
    sendError s id (.lit "resource_error" "resource_exhausted" "worker admission limit reached")
  else
    let t := s.tables.accept id request
    push { s with tables := t } [.send (.control id (.queued true (UInt32.ofNat t.pending.length)))]

def handleSynthesize (cfg : Config) (s : St) (id : RequestId) (request : SynthesizeMessage) : St :=
  if id = 0 then
    sendError s 0 (.lit "request_error" "missing_required_field" "synthesize requires a non-zero request_id")
  else
    match cfg.validateRequest request with
    | some e => sendError s id (validationFailure e)
    | none => admission cfg s id request

/-- `handle_cancel` up to the release of the mutex, and what follows it. -/
def handleCancel (s : St) (id : RequestId) (stale : Bool) : St :=
  if id = 0 then
    sendError s 0 (.lit "request_error" "unknown_request_id" "cancel requires a non-zero request_id")
  else
    match s.tables.get? id with
    | none =>
      if id > s.tables.acceptedIdHighWater then
        sendError s id (.lit "request_error" "unknown_request_id" "request_id is not active")
      else s
    | some slot =>
      let t := s.tables.cancel id
      match slot.state with
      | .running => { s with tables := t }
      | .queued =>
        let t := { t with pending := t.pending.filter (· ≠ id) }
        if slot.terminal then { s with tables := t }
        -- `cancelled_slot = slot` after `active_.erase(it)`
        else if stale then
          push { s with tables := t.takeTerminal id } [.send (.control id .cancelled), .returned [id]]
        else push { s with tables := t.takeTerminal id, dropped := s.dropped ++ [id] } [.returned [id]]

/-- `handle_shutdown` makes `read_loop` return when it accepts the message. -/
def handleShutdown (s : St) (id : RequestId) (mode : CppString) : St :=
  if id ≠ 0 ∨ mode ≠ CppString.lit "cancel" then
    sendError s id
      (.lit "protocol_error" "invalid_session_state" "shutdown must use request_id = 0 and mode = cancel")
  else { s with reader := .requestShutdown true :: s.reader.tail }

def needsReady : ControlMessage → Bool
  | .hello _ _ | .ping _ _ | .shutdown _ => false
  | _ => true

def handleFrame (cfg : Config) (s : St) (stale : Bool) : Input → St
  | .wrongType id =>
    sendError s id
      (.lit "protocol_error" "invalid_message_direction"
        "native worker accepts only client-to-worker control_json frames")
  | .undecodable id code diagnostic => sendError s id ⟨CppString.lit "protocol_error", code, diagnostic⟩
  | .message id m =>
    if !s.readySent && needsReady m then
      sendError s id (.lit "protocol_error" "invalid_session_state" "native worker is not ready")
    else
      match m with
      | .hello _ _ => handleHello cfg s id
      | .synthesize request => handleSynthesize cfg s id request
      | .cancel => handleCancel s id stale
      | .ping hasSequence sequence => handlePing s id hasSequence sequence
      | .shutdown mode => handleShutdown s id mode
      | _ =>
        sendError s id
          (.lit "protocol_error" "invalid_message_direction" "message is not accepted by the native worker")

/-- `request_shutdown` up to its first release of the mutex. -/
def requestShutdown (s : St) (sendAck : Bool) : St :=
  let s := { s with shutdownAckNeeded := s.shutdownAckNeeded || sendAck }
  if s.shutdownRequested then s
  else
    let (t, ids) := s.tables.shutdown
    push { s with shutdownRequested := true, tables := t }
      (ids.map (fun id => .send (.control id .cancelled)) ++ [.shutdownTerminalsEnqueued, .returned ids])

def failFatal (s : St) : St := { s with fatalError := true, tables := s.tables.cancelActive }

def hand (s : St) (by_ : Thread) (f : OutFrame) : St := { s with handed := s.handed ++ [⟨by_, f⟩] }

/-- The reader's next act, `readLoop` apart. -/
def runAct (s : St) : Act → Option St
  | .readLoop => none
  | .send f => some (hand s .reader f)
  | .failFatal => some (failFatal s)
  | .requestShutdown sendAck => some (requestShutdown s sendAck)
  | .shutdownTerminalsEnqueued => some { s with shutdownTerminalsEnqueued := true }
  | .returned ids => some { s with settled := s.settled ++ ids }

/-! ## The engine thread -/

def goto (s : St) (pc : EnginePc) : St := { s with engine := pc }

/-- `take_next_request`, once its predicate holds. -/
def takeNextRequest (s : St) : Option St :=
  match s.tables.pending with
  | [] =>
    if (s.shutdownRequested ∧ s.shutdownTerminalsEnqueued) ∨ s.fatalError then some (goto s .loopEnded) else none
  | id :: rest =>
    some { s with
      tables := { s.tables with pending := rest }.setSlot id ({ · with state := .running })
      engine := .entry id }

inductive EngineEv where
  /-- A step of the server's own code; `seen` is what a load of `cancelled` saw. -/
  | next (seen : Bool)
  /-- The engine calls back with a chunk, or returns. -/
  | chunk (pcm : Option (List UInt8))
  | result (r : SynthesisResult)

/-- `slot->cancelled`. -/
def isCancelled (s : St) (id : RequestId) : Bool := ((s.tables.slots id).map (·.cancelled)).getD false

def stepEngine (s : St) : EngineEv → Option St
  | .next seen =>
    match s.engine with
    | .take => takeNextRequest s
    | .entry id =>
      if seen && !isCancelled s id then none
      else some (goto s (if seen then .exchange id .cancelled else .sendStarted id))
    | .sendStarted id =>
      match s.tables.slots id with
      | none => none
      | some slot => some (goto (hand s .engine (.control id (.started slot.request.output))) (.synthesize id))
    | .callback id pcm =>
      if seen && !isCancelled s id then none
      else if seen || s.tables.terminal id then some (goto s (.synthesize id))
      else
        match pcm with
        | none => some (goto s (.failFatal id))
        | some pcm => some (goto s (.sendAudio id pcm))
    | .sendAudio id pcm => some (goto (hand s .engine (.audioPcm id pcm)) (.synthesize id))
    | .failFatal id => some (goto (failFatal s) (.synthesize id))
    | .exchange id answer =>
      if s.tables.terminal id then some (goto s .take)
      else some { s with
        tables := s.tables.setSlot id ({ · with terminal := true })
        engine := .release id answer }
    | .release id answer => some { s with tables := s.tables.release id, engine := .sendTerminal id answer }
    | .sendTerminal id answer =>
      some { hand s .engine (answer.frame id) with engine := .take, settled := s.settled ++ [id] }
    | .loopEnded => some (goto s (if s.shutdownAckNeeded then .sendAck else .exited))
    | .sendAck => some (goto (hand s .engine (.control 0 .shutdownAck)) .exited)
    | _ => none
  | .chunk pcm => match s.engine with
    | .synthesize id => some (goto s (.callback id pcm))
    | _ => none
  | .result r => match s.engine with
    | .synthesize id => some (goto s (.exchange id r.answer))
    | _ => none

/-! ## Runs -/

inductive Ev where
  /-- The reader gets a frame; `stale` is what a read of the erased node gives. -/
  | receive (input : Input) (stale : Bool)
  | framingError
  | eof
  | reader
  | engine (e : EngineEv)

def step (cfg : Config) (s : St) : Ev → Option St
  | .receive input stale => match s.reader with
    | .readLoop :: _ => some (handleFrame cfg s stale input)
    | _ => none
  | .framingError => match s.reader with
    | .readLoop :: rest => some { s with reader := .failFatal :: rest }
    | _ => none
  | .eof => match s.reader with
    | .readLoop :: rest => some { s with reader := rest }
    | _ => none
  | .reader => match s.reader with
    | act :: rest => runAct { s with reader := rest } act
    | [] => none
  | .engine e => stepEngine s e

open QwenTtsBridge.Lib.Transition in
/-- Every interleaving of the two threads, every input and every engine. -/
abbrev Reachable (cfg : Config) : St → Prop := Reach (step cfg) anyStep init

end QwenTtsBridge.Worker.NativeServer
