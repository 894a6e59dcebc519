/-
  QwenTtsBridge.Transport.StdIo — `StdIoTransport::Impl`
  (src/qwen_tts_bridge/transport/stdio/std_io_transport.cpp): the worker process with its
  two reader threads, the thread that watches for its exit, the callback thread with its
  queue, and the calls of `start()`, `stop()` and `send()`.

  A step is one region under `callback_mutex_` or `state_mutex_`, or one wait that ends.
  `start()` and `stop()` hold `lifecycle_mutex_` throughout, so at most one of them is
  past its first line (`Lifecycle`); others wait for it, the callback thread among them
  when a handler calls one of the two (`CallbackThread.wanting`).

  - `send()` looks at the state twice, the second time under `write_mutex_`, and there it
    reports a transport that is no longer running while it holds `state_mutex_`. The
    report locks `callback_mutex_` inside; what other threads do under that mutex in
    between does not touch what `state_mutex_` guards, so this is one step. When the report
    is the one that overflows the queue, `stop_after_callback_queue_overflow` locks
    `state_mutex_` again: the thread waits for itself, and the mutex is never free again
    (`stateMutexStuck`).
  - Every other error of `send()` is reported with no mutex held, with one of the texts of
    the source or the `what()` of a failed write (`sendFails`).
  - `start()` calls the error handler it was given while it holds `lifecycle_mutex_`, and
    `state_mutex_` too where it finds the transport already started. A handler that returns
    is part of the step (`starts`, `locks`, `advance`). One that calls `stop()` or
    `start()`, or anything that takes `state_mutex_` where that is held, waits for its own
    thread: the mutexes are never free again (`refusalReenters`, `failureReenters`).
  - `get_exit_status()` returns once both readers have been joined (`processExits`); a reader
    inside `stop_after_callback_queue_overflow` has not ended (`readerStopping`).
  - A killed process exits; that a process exits is always possible here.
  - Threads can be created, and the handlers given to `start()` are not empty.
  - The payloads in the queue are in memory, so their sizes add up to less than the
    address space (`Queue.fits`).
-/

import QwenTtsBridge.Protocol.Control
import QwenTtsBridge.Lib.Transition

namespace QwenTtsBridge.Transport

open QwenTtsBridge.Protocol.Control

/-! ## Events -/

inductive CallbackEventType where
  | receive
  | error
  | exit
  | stderr
  deriving DecidableEq, Repr

structure CallbackEvent where
  type : CallbackEventType := .error
  bytes : List UInt8 := []
  message : CppString := []
  exitStatus : Int := -1
  deriving DecidableEq, Repr

/-- `callback_event_payload_size`. -/
def CallbackEvent.payloadSize (event : CallbackEvent) : Nat := event.bytes.length + event.message.length

def CallbackEvent.isExit (event : CallbackEvent) : Bool := event.type == .exit

/-- `make_callback_queue_overflow_error`. -/
def makeCallbackQueueOverflowError : CallbackEvent := { message := .lit "stdio transport callback queue overflow" }

def notRunningError : CallbackEvent := { message := .lit "stdio transport is not running" }

/-! ## The callback queue -/

/-- `a + b` and `a - b` of `std::size_t`. -/
def sizeAdd (a b : Nat) : Nat := (a + b) % 2 ^ 64

def sizeSub (a b : Nat) : Nat := (a + 2 ^ 64 - b) % 2 ^ 64

structure Options where
  /-- `arguments` is not empty. -/
  hasArguments : Bool := true
  maxCallbackQueueEvents : Nat := 4096
  maxCallbackQueueBytes : Nat := 16 * 1024 * 1024
  hasStderrHandler : Bool := false
  /-- A `std::size_t`. -/
  bytes_lt : maxCallbackQueueBytes < 2 ^ 64 := by decide

/-- `start()` refuses these before it looks at the state. -/
def Options.refused (opts : Options) : Bool :=
  !opts.hasArguments || opts.maxCallbackQueueEvents == 0 || opts.maxCallbackQueueBytes == 0

/-- What `callback_mutex_` guards, and the events that went in and out since the callback
    thread was started. -/
structure Queue where
  events : List CallbackEvent := []
  queuedBytes : Nat := 0
  stopRequested : Bool := false
  accepting : Bool := false
  overflowed : Bool := false
  accepted : List CallbackEvent := []
  taken : List CallbackEvent := []
  /-- How often an overflow error was queued. -/
  overflows : Nat := 0
  deriving DecidableEq, Repr

namespace Queue

variable (opts : Options) (q : Queue) (event : CallbackEvent)

def payload : Nat := (q.events.map CallbackEvent.payloadSize).sum

def fits : Prop := q.payload + event.payloadSize + makeCallbackQueueOverflowError.payloadSize < 2 ^ 64

instance : Decidable (q.fits event) := inferInstanceAs (Decidable (_ < _))

/-- `would_overflow_regular_callback_queue`. -/
def wouldOverflow : Bool :=
  opts.maxCallbackQueueEvents ≤ q.events.length || opts.maxCallbackQueueBytes < event.payloadSize ||
    sizeSub opts.maxCallbackQueueBytes event.payloadSize < q.queuedBytes

/-- `enqueue_callback_event_locked`. -/
def push : Queue :=
  { q with
    queuedBytes := sizeAdd q.queuedBytes event.payloadSize
    events := q.events ++ [event]
    accepted := q.accepted ++ [event] }

/-- The region of `enqueue_event` under the mutex; the flag is `should_stop`. -/
def enqueue : Queue × Bool :=
  if !q.accepting then (q, false)
  else if q.overflowed && !event.isExit then (q, false)
  else if !event.isExit && q.wouldOverflow opts event then
    if !q.overflowed then
      ({ q with overflowed := true, overflows := q.overflows + 1 }.push makeCallbackQueueOverflowError, true)
    else (q, false)
  else (q.push event, false)

/-- The region of `callback_loop` that takes the front. -/
def pop : Option (CallbackEvent × Queue) :=
  match q.events with
  | [] => none
  | event :: rest =>
    some (event, { q with
      events := rest
      queuedBytes := sizeSub q.queuedBytes event.payloadSize
      taken := q.taken ++ [event] })

/-- The region of `request_callback_thread_stop`. -/
def requestStop : Queue := { q with accepting := false, stopRequested := true }

/-- The region of `start_callback_thread`. -/
def fresh : Queue := { accepting := true }

end Queue

/-! ## Threads -/

inductive ProcessState where
  | stopped
  | starting
  | running
  | stopping
  deriving DecidableEq, Repr

/-- What a handler can call that takes `lifecycle_mutex_`. -/
inductive Call where
  | stop
  | start
  deriving DecidableEq, Repr

inductive CallbackThread where
  | none
  | idle
  /-- An event is out of the queue and on its way to its handler. -/
  | holding (event : CallbackEvent)
  | inHandler
  | wanting (call : Call)
  /-- In the `stop()` that a handler called. -/
  | stopping
  | finished
  deriving DecidableEq, Repr

/-- Joinable threads that have ended, or none: a join returns. -/
def CallbackThread.ended : CallbackThread → Bool
  | .none | .finished => true
  | _ => false

def CallbackThread.isWanting : CallbackThread → Bool
  | .wanting _ => true
  | _ => false

/-- `watch_process_exit`. -/
inductive ExitThread where
  | none
  | watching (process : Nat)
  /-- `get_exit_status()` has returned. -/
  | noting (process : Nat) (status : Int)
  | reporting (status : Int)
  | done
  deriving DecidableEq, Repr

def ExitThread.ended : ExitThread → Bool
  | .none | .done => true
  | _ => false

inductive Owner where
  | callback
  | outside
  deriving DecidableEq, Repr

/-- Where the `start()` or `stop()` that holds `lifecycle_mutex_` stands. -/
inductive Lifecycle where
  | free
  /-- `close_stdin_if_write_is_idle` and `wait_for_process_or_kill`. -/
  | stopWaiting (owner : Owner)
  | stopJoiningExit (owner : Owner)
  | stopResetting (owner : Owner)
  | stopRequesting (owner : Owner)
  | stopJoining
  | startRequesting
  | startJoining
  | startSpawning
  | startLaunching
  | startPublishing
  | startWatching
  | failRequesting
  | failJoining
  /-- The thread that holds the mutex waits for itself. -/
  | stuck
  deriving DecidableEq, Repr

/-- The mutex is not free again before the callback thread has been joined. -/
def Lifecycle.joins : Lifecycle → Bool
  | .stopWaiting owner | .stopJoiningExit owner | .stopResetting owner | .stopRequesting owner => owner == .outside
  | .stopJoining | .startRequesting | .startJoining | .failRequesting | .failJoining | .stuck => true
  | .free | .startSpawning | .startLaunching | .startPublishing | .startWatching => false

def Lifecycle.isCallbackStop : Lifecycle → Bool
  | .stopWaiting owner | .stopJoiningExit owner | .stopResetting owner | .stopRequesting owner => owner == .callback
  | _ => false

/-- The events of one callback thread, after the session with it is over. -/
structure Session where
  queue : Queue
  dispatched : List CallbackEvent
  /-- `start()` returned true. -/
  started : Bool

structure St where
  queue : Queue := {}
  /-- A thread waits for `state_mutex_` while it holds it. -/
  stateMutexStuck : Bool := false
  state : ProcessState := .stopped
  process : Option Nat := none
  exited : Bool := false
  /-- The handlers of the last `start()` are in place. -/
  handlers : Bool := false
  lifecycle : Lifecycle := .free
  callbackThread : CallbackThread := .none
  exitThread : ExitThread := .none
  readers : Bool := false
  readerStopping : Bool := false
  /-- The calls of `send()` inside `stop_after_callback_queue_overflow`. -/
  senderStopping : Nat := 0
  /-- The processes of the calls of `send()` between their two looks at the state. -/
  senders : List Nat := []
  nextProcess : Nat := 0
  /-- The events given to a handler since the callback thread was started. -/
  dispatched : List CallbackEvent := []
  started : Bool := false
  past : List Session := []

def St.session (s : St) : Session := ⟨s.queue, s.dispatched, s.started⟩

/-! ## Steps -/

inductive Ev where
  | take
  | finish
  | dispatch
  | handlerReturns
  | handlerCalls (call : Call)
  /-- The callback thread gets `lifecycle_mutex_`. -/
  | locks
  /-- Another thread calls `stop()` or `start()` and gets `lifecycle_mutex_`. -/
  | stops
  | starts
  /-- The holder of `lifecycle_mutex_` goes on. -/
  | advance
  | launchFails
  /-- The error handler of a `start()` that refuses, of the callback thread or another one, or of
      one that fails, calls back. -/
  | refusalReenters (owner : Owner)
  | failureReenters
  | processExits (status : Int)
  | exitNoted
  | exitReported
  | stdout (bytes : List UInt8)
  | stderr (text : CppString)
  | readerStops
  | sendFails (message : CppString)
  | sendBegins
  | sendRechecks (process : Nat)
  | senderStops

/-- The steps of the threads that take no call and no data from outside. -/
def Ev.own : Ev → Bool
  | .take | .finish | .dispatch | .handlerReturns | .locks | .advance | .processExits _ | .exitNoted | .exitReported
  | .readerStops | .senderStops => true
  | _ => false

namespace St

variable (opts : Options) (s : St)

/-- `dispatch_event`: an event whose handler is gone is dropped. -/
def deliver (event : CallbackEvent) : St :=
  if (if event.type = .stderr then opts.hasStderrHandler else s.handlers) then
    { s with callbackThread := .inHandler, dispatched := s.dispatched ++ [event] }
  else { s with callbackThread := .idle }

/-- The first region of `stop()`. -/
def beginStop (owner : Owner) : St :=
  { s with
    state := if s.state = .running ∨ s.state = .starting then .stopping else s.state
    lifecycle := if s.process.isSome then .stopWaiting owner else .stopResetting owner }

/-- `start()` returns false before it changes anything. -/
def refusesStart : Bool := opts.refused || s.state != .stopped || s.process.isSome

/-- `stop_after_callback_queue_overflow`. -/
def stopAfterCallbackQueueOverflow : St :=
  { s with state := if s.state = .running ∨ s.state = .starting then .stopping else s.state }

/-- The second look of `send()` does not find the transport running with this process. -/
def closedTo (process : Nat) : Bool := s.state != .running || s.process != some process || s.exited

/-- The next region of the `start()` or `stop()` that holds `lifecycle_mutex_`. -/
def advance : Option St :=
  match s.lifecycle with
  | .free => none
  | .stopWaiting owner => if s.stateMutexStuck then none else some { s with lifecycle := .stopJoiningExit owner }
  | .stopJoiningExit owner => if s.exitThread.ended then some { s with lifecycle := .stopResetting owner } else none
  | .stopResetting owner =>
    if s.stateMutexStuck then none
    else some { s with process := none, state := .stopped, lifecycle := .stopRequesting owner }
  | .stopRequesting .callback =>
    some { s with queue := s.queue.requestStop, lifecycle := .free, callbackThread := .inHandler }
  | .stopRequesting .outside => some { s with queue := s.queue.requestStop, lifecycle := .stopJoining }
  | .stopJoining =>
    if s.callbackThread.ended && !s.stateMutexStuck then some { s with handlers := false, lifecycle := .free } else none
  | .startRequesting =>
    if s.exitThread.ended then some { s with queue := s.queue.requestStop, lifecycle := .startJoining } else none
  | .startJoining =>
    if s.callbackThread.ended && !s.stateMutexStuck then
      some { s with state := .starting, handlers := true, exited := false, lifecycle := .startSpawning }
    else none
  | .startSpawning =>
    some { s with
      queue := .fresh, callbackThread := .idle, exitThread := .none, dispatched := [], started := false
      past := s.past ++ [s.session], lifecycle := .startLaunching }
  | .startLaunching => some { s with readers := true, lifecycle := .startPublishing }
  | .startPublishing =>
    if s.stateMutexStuck then none
    else some { s with
      process := some s.nextProcess, nextProcess := s.nextProcess + 1, state := .running, lifecycle := .startWatching }
  | .startWatching =>
    s.process.map fun process => { s with exitThread := .watching process, started := true, lifecycle := .free }
  | .failRequesting => some { s with queue := s.queue.requestStop, lifecycle := .failJoining }
  | .failJoining =>
    if s.callbackThread.ended && !s.stateMutexStuck then
      some { s with process := none, state := .stopped, exited := false, handlers := false, lifecycle := .free }
    else none
  | .stuck => none

end St

/-- `enqueue_event` of a reader thread, up to its call of `stop_after_callback_queue_overflow`. -/
def readerEnqueue (opts : Options) (s : St) (event : CallbackEvent) : St :=
  let (queue, shouldStop) := s.queue.enqueue opts event
  { s with queue, readerStopping := s.readerStopping || shouldStop }

/-- `report_error` of a `send()` that holds no mutex. -/
def senderEnqueue (opts : Options) (s : St) (event : CallbackEvent) : St :=
  let (queue, shouldStop) := s.queue.enqueue opts event
  { s with queue, senderStopping := s.senderStopping + shouldStop.toNat }

/-- `report_error` of a `send()` that holds `state_mutex_`. -/
def lockedEnqueue (opts : Options) (s : St) (event : CallbackEvent) : St :=
  let (queue, shouldStop) := s.queue.enqueue opts event
  { s with queue, stateMutexStuck := shouldStop }

def step (opts : Options) (s : St) : Ev → Option St
  | .take =>
    match s.callbackThread, s.queue.pop with
    | .idle, some (event, queue) => some { s with queue, callbackThread := .holding event }
    | _, _ => none
  | .finish =>
    if s.callbackThread = .idle ∧ s.queue.events = [] ∧ s.queue.stopRequested then
      some { s with callbackThread := .finished }
    else none
  | .dispatch =>
    match s.callbackThread with
    | .holding event => if event.type ≠ .stderr ∧ s.stateMutexStuck then none else some (s.deliver opts event)
    | _ => none
  | .handlerReturns => if s.callbackThread = .inHandler then some { s with callbackThread := .idle } else none
  | .handlerCalls call =>
    if s.callbackThread = .inHandler then some { s with callbackThread := .wanting call } else none
  | .locks =>
    match s.callbackThread, s.lifecycle with
    | .wanting .start, .free => some { s with callbackThread := .inHandler }
    | .wanting .stop, .free =>
      if s.stateMutexStuck then none else some { s.beginStop .callback with callbackThread := .stopping }
    | _, _ => none
  | .stops => if s.lifecycle = .free ∧ ¬ s.stateMutexStuck then some (s.beginStop .outside) else none
  | .starts =>
    if s.lifecycle = .free ∧ ¬ s.stateMutexStuck then
      some (if s.refusesStart opts then s else { s with lifecycle := .startRequesting })
    else none
  | .advance => s.advance
  | .launchFails => if s.lifecycle = .startLaunching then some { s with lifecycle := .failRequesting } else none
  | .refusalReenters .outside =>
    if s.lifecycle = .free ∧ ¬ s.stateMutexStuck ∧ s.refusesStart opts then
      some { s with lifecycle := .stuck, stateMutexStuck := !opts.refused }
    else none
  | .refusalReenters .callback =>
    -- the handler's `start()` has the mutex, and waits for it again
    if s.callbackThread = .wanting .start ∧ s.lifecycle = .free then some { s with lifecycle := .stuck } else none
  | .failureReenters =>
    if s.lifecycle = .failJoining ∧ s.callbackThread.ended ∧ ¬ s.stateMutexStuck then
      some { s with process := none, state := .stopped, exited := false, handlers := false, lifecycle := .stuck }
    else none
  | .processExits status =>
    match s.exitThread with
    | .watching process =>
      if s.readerStopping then none else some { s with exitThread := .noting process status, readers := false }
    | _ => none
  | .exitNoted =>
    match s.exitThread with
    | .noting process status =>
      if s.stateMutexStuck then none
      else some { s with
        exitThread := .reporting status, exited := true
        state := if s.process = some process then .stopped else s.state }
    | _ => none
  | .exitReported =>
    match s.exitThread with
    | .reporting status =>
      some { s with
        queue := (s.queue.enqueue opts { type := .exit, exitStatus := status }).1
        exitThread := .done }
    | _ => none
  | .stdout bytes =>
    if s.readers ∧ bytes ≠ [] ∧ s.queue.fits { type := .receive, bytes } then
      some (readerEnqueue opts s { type := .receive, bytes })
    else none
  | .stderr text =>
    if s.readers ∧ text ≠ [] ∧ s.queue.fits { type := .stderr, message := text } then
      some (if opts.hasStderrHandler then readerEnqueue opts s { type := .stderr, message := text } else s)
    else none
  | .readerStops =>
    if s.readerStopping ∧ ¬ s.stateMutexStuck then
      some { s.stopAfterCallbackQueueOverflow with readerStopping := false }
    else none
  | .sendFails message =>
    if s.queue.fits { message } then some (senderEnqueue opts s { message }) else none
  | .sendBegins =>
    if s.state = .running ∧ ¬ s.exited ∧ ¬ s.stateMutexStuck then
      s.process.map fun process => { s with senders := process :: s.senders }
    else none
  | .sendRechecks process =>
    if process ∈ s.senders ∧ ¬ s.stateMutexStuck ∧ s.queue.fits notRunningError then
      let s := { s with senders := s.senders.erase process }
      some (if s.closedTo process then lockedEnqueue opts s notRunningError else s)
    else none
  | .senderStops =>
    if 0 < s.senderStopping ∧ ¬ s.stateMutexStuck then
      some { s.stopAfterCallbackQueueOverflow with senderStopping := s.senderStopping - 1 }
    else none

end QwenTtsBridge.Transport
