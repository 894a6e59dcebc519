/-
  QwenTtsBridge.Session.Event — the events a `WorkerSession` gives its client
  (`session/worker_session.hpp`).

  Events of the worker carry the request id of their frame. The session's own events
  (`make_transport_error`, `make_protocol_error`, `make_session_error`, and the exit
  event) keep the default `request_id = 0`, so they have none here.
-/

import QwenTtsBridge.Protocol.Control

namespace QwenTtsBridge.Session

open QwenTtsBridge.Protocol.Control

/-- `RequestId` of the C++ side. -/
abbrev RequestId := UInt64

inductive LocalEventType where
  | transportError
  | protocolError
  | sessionError
  | exited
  deriving DecidableEq, Repr

inductive WorkerSessionEvent where
  | control (requestId : RequestId) (control : ControlMessage)
  | audio (requestId : RequestId) (audio : List UInt8)
  | workerError (requestId : RequestId) (error : ErrorMessage)
  | localEvent (type : LocalEventType) (message : CppString)
  deriving DecidableEq, Repr

end QwenTtsBridge.Session
