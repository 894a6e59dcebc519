/-
  QwenTtsBridge.Session.Conforming — a session and a worker that keeps to protocol v1
  (`docs/protocol-v1.md`).

  `ConformingWorker.emit` is what the protocol lets the worker send next: errors at any
  time, `ready` once and before all else, for each request that the session asked for
  `queued`, `started`, audio and one terminal frame, and `shutdown_ack` after the terminal
  frames once the session sent `shutdown`. Its frames are bytes on a wire that the
  transport hands to the session in pieces of any size (`System.step`).

  Proved (`conforming_worker_is_clean`): in every run in which each control or audio frame
  reaches a session that is Starting or Ready, the session reports no protocol error.
  `stop` leaves Ready before it sends `shutdown`, so what the worker sends in answer to it
  never does (`the_ack_of_stop_is_a_violation`).
-/

import QwenTtsBridge.Session.Bounded

namespace QwenTtsBridge.Session

open QwenTtsBridge.Protocol.Control QwenTtsBridge.Protocol.Framing QwenTtsBridge.Lib.Transition

variable (lib : JsonLibrary) (options : WorkerSessionOptions)

/-! ## The worker of protocol v1 -/

/-- What a frame of the worker says. -/
inductive Reply where
  | control (id : RequestId) (message : ControlMessage)
  | audio (id : RequestId) (pcm : Bytes)
  | error (id : RequestId) (error : ErrorMessage)
  deriving DecidableEq, Repr

/-- A frame whose payload the client reads. -/
def replyOf (frame : Frame) : Option Reply :=
  if frame.header.frameType = FrameType.controlJson.value then
    match decodeControlMessage lib frame.payload .workerToClient with
    | .ok message => some (.control frame.header.requestId message)
    | .error _ => none
  else if frame.header.frameType = FrameType.audioPcm.value then some (.audio frame.header.requestId frame.payload)
  else if frame.header.frameType = FrameType.errorJson.value then
    match decodeErrorMessage lib frame.payload with
    | .ok error => some (.error frame.header.requestId error)
    | .error _ => none
  else none

/-- The requests are those the worker has in its queue, runs, or has ended. -/
structure ConformingWorker where
  ready : Bool := false
  queued : List RequestId := []
  running : List RequestId := []
  ended : List RequestId := []
  acked : Bool := false
  deriving DecidableEq, Repr

def Entry.greets : Entry → Bool
  | .handed 0 (.hello _ _) => true
  | _ => false

def Entry.asks (id : RequestId) : Entry → Bool
  | .handed id' (.synthesize _) => id' == id
  | _ => false

/-- The session has sent a `synthesize` of this id. -/
def asked (s : St) (id : RequestId) : Bool := id != 0 && s.log.any (Entry.asks id)

namespace ConformingWorker

def isOpen (w : ConformingWorker) (id : RequestId) : Bool := w.queued.contains id || w.running.contains id

def isFresh (w : ConformingWorker) (id : RequestId) : Bool := !(w.isOpen id || w.ended.contains id)

/-- The request has its terminal frame. -/
def finish (w : ConformingWorker) (id : RequestId) : ConformingWorker :=
  { w with queued := w.queued.filter (· != id), running := w.running.filter (· != id), ended := id :: w.ended }

/-- What the worker may send to a session in this state, and what it has then sent. The
    session pings only once it is Ready, so a `pong` follows `ready`. -/
def emit (w : ConformingWorker) (s : St) : Reply → Option ConformingWorker
  | .error id _ =>
    if w.acked then none
    else some (if w.isOpen id || (asked s id && w.isFresh id) then w.finish id else w)
  | .audio id pcm => if !w.acked && w.running.contains id && !pcm.isEmpty then some w else none
  | .control id message =>
    if w.acked then none
    else match message with
      | .ready _ => if id = 0 ∧ !w.ready ∧ s.log.any Entry.greets then some { w with ready := true } else none
      | .pong _ _ => if id = 0 ∧ w.ready then some w else none
      | .queued _ _ =>
        if w.ready ∧ asked s id ∧ w.isFresh id then some { w with queued := id :: w.queued } else none
      | .started _ =>
        if w.ready ∧ asked s id ∧ (w.isFresh id ∨ w.queued.contains id) then
          some { w with queued := w.queued.filter (· != id), running := id :: w.running }
        else none
      | .completed _ => if w.running.contains id then some (w.finish id) else none
      | .cancelled => if w.isOpen id then some (w.finish id) else none
      | .shutdownAck =>
        if id = 0 ∧ w.ready ∧ s.shutdownRequested ∧ w.queued = [] ∧ w.running = [] then some { w with acked := true }
        else none
      | _ => none

end ConformingWorker

/-! ## The two together -/

structure System where
  session : St := {}
  worker : ConformingWorker := {}
  /-- The bytes that the worker has written and the transport has not handed over. -/
  wire : Bytes := []

inductive SystemEv where
  /-- A step of the session other than `handle_bytes`. -/
  | session (e : Ev)
  | emit (frame : Frame)
  /-- The transport hands over the next bytes, at most this many. -/
  | deliver (n : Nat)

namespace System

def step (x : System) : SystemEv → Option System
  | .session (.receive _) => none
  | .session e => (Session.step lib options x.session e).map fun session => { x with session }
  | .emit frame =>
    match encodeFrameWithHeader frame.header frame.payload, replyOf lib frame with
    | .ok bytes, some reply =>
      if x.session.startAttempted then
        (x.worker.emit x.session reply).map fun worker => { x with worker, wire := x.wire ++ bytes }
      else none
    | _, _ => none
  | .deliver n =>
    (Session.step lib options x.session (.receive (x.wire.take n))).map fun session =>
      { x with session, wire := x.wire.drop n }

end System

/-- A protocol violation was reported. -/
def Entry.isProtocolError : Entry → Bool
  | .event (.localEvent .protocolError _) _ => true
  | _ => false

/-- The frames that the loop of `handle_bytes` takes, one after the other: a control or audio
    frame is met by a session that is Starting or Ready. -/
def meetsLive : Nat → St → Bool
  | 0, _ => true
  | fuel + 1, s =>
    match s.parser.parseNext with
    | (parser, .frameReady frame) =>
      (s.state.live || frame.header.frameType == FrameType.errorJson.value) &&
        ((handleFrame lib options { s with parser } frame).2 ||
          meetsLive fuel (handleFrame lib options { s with parser } frame).1)
    | _ => true

def meetsLiveBytes (s : St) (bytes : Bytes) : Bool :=
  let s := { s with parser := s.parser.append bytes }
  meetsLive lib options (s.parser.bufferedSize + 1) s

def inTime (x : System) : SystemEv → Bool
  | .deliver n => meetsLiveBytes lib options x.session (x.wire.take n)
  | _ => true

/-- No control or audio frame of the worker comes after the session left Starting and Ready. -/
def InTime (x : System) (e : SystemEv) : Prop := inTime lib options x e = true

instance (x : System) (e : SystemEv) : Decidable (InTime lib options x e) := inferInstanceAs (Decidable (_ = true))

/-! ## What the worker sends -/

def Reply.isError : Reply → Bool
  | .error _ _ => true
  | _ => false

/-- A session that is Ready enqueues it. -/
def served (s : St) : Reply → Bool
  | .control id message =>
    controlMessageType message != .ready &&
      isControlMessageAllowed { s with state := .ready } id (controlMessageType message)
  | .audio id _ => id != 0
  | .error _ _ => true

section Emit

variable {s s' : St} {w w' : ConformingWorker} {reply : Reply}

theorem served_mono (hs : s.shutdownRequested = true → s'.shutdownRequested = true) (h : served s reply = true) :
    served s' reply = true := by
  cases reply with
  | control id message =>
    cases message with
    | shutdownAck =>
      simp [served, isControlMessageAllowed, controlMessageType] at h ⊢
      exact ⟨h.1, hs h.2⟩
    | _ => exact h
  | audio id pcm => exact h
  | error id e => exact h

theorem ne_zero_of_asked {id : RequestId} (h : asked s id = true) : id ≠ 0 := by
  simp only [asked, Bool.and_eq_true, bne_iff_ne] at h
  exact h.1

theorem isOpen_finish {id r : RequestId} (h : (w.finish id).isOpen r = true) : w.isOpen r = true := by
  simp only [ConformingWorker.isOpen, ConformingWorker.finish, Bool.or_eq_true, List.contains_iff_mem,
    List.mem_filter] at h ⊢
  exact h.imp (·.1) (·.1)

theorem served_error (h : reply.isError = true) : served s reply = true := by
  cases reply <;> first | rfl | cases h

theorem served_request {id : RequestId} {message : ControlMessage}
    (hm : isRequestLevelWorkerControl (controlMessageType message) = true) (hne : id ≠ 0) :
    served s (.control id message) = true := by
  cases message <;> first
    | cases hm
      done
    | simpa [served, isControlMessageAllowed, controlMessageType, isSessionLevelWorkerControl,
        isRequestLevelWorkerControl] using hne

/-- An error, `ready` as the first other frame, or a frame that a Ready session takes. -/
theorem emit_cases (h : w.emit s reply = some w')
    (hopen : ∀ id, w.isOpen id = true → id ≠ 0 ∧ w.ready = true) :
    ((reply.isError = true ∧ w'.ready = w.ready) ∨
      (w.ready = false ∧ w'.ready = true ∧ ∃ m, reply = .control 0 (.ready m)) ∨
      (w.ready = true ∧ w'.ready = true ∧ served s reply = true)) ∧
    ∀ id, w'.isOpen id = true → id ≠ 0 ∧ w'.ready = true := by
  cases reply with
  | error id e =>
    unfold ConformingWorker.emit at h
    dsimp only at h
    split at h
    · cases h
    · cases h
      split
      · exact ⟨.inl ⟨rfl, rfl⟩, fun r hr => hopen r (isOpen_finish hr)⟩
      · exact ⟨.inl ⟨rfl, rfl⟩, hopen⟩
  | audio id pcm =>
    unfold ConformingWorker.emit at h
    dsimp only at h
    split at h
    · rename_i hrun
      cases h
      simp only [Bool.and_eq_true] at hrun
      obtain ⟨hne, hready⟩ := hopen id (by simp only [ConformingWorker.isOpen, hrun.1.2, Bool.or_true])
      exact ⟨.inr (.inr ⟨hready, hready, by simpa [served] using hne⟩), hopen⟩
    · cases h
  | control id message =>
    unfold ConformingWorker.emit at h
    dsimp only at h
    split at h
    · cases h
    cases message with
    | ready m =>
      dsimp only at h
      split at h
      · rename_i hready
        cases h
        obtain ⟨rfl, hnot, -⟩ := hready
        simp only [Bool.not_eq_true'] at hnot
        refine ⟨.inr (.inl ⟨hnot, rfl, _, rfl⟩), fun r hr => ⟨(hopen r hr).1, rfl⟩⟩
      · cases h
    | pong hasSequence sequence =>
      dsimp only at h
      split at h
      · rename_i hpong
        cases h
        obtain ⟨rfl, hready⟩ := hpong
        exact ⟨.inr (.inr ⟨hready, hready, rfl⟩), hopen⟩
      · cases h
    | queued hasPosition position =>
      dsimp only at h
      split at h
      · rename_i hqueued
        cases h
        obtain ⟨hready, hasked, -⟩ := hqueued
        have hne := ne_zero_of_asked hasked
        refine ⟨.inr (.inr ⟨hready, hready, served_request rfl hne⟩), fun r hr => ⟨?_, hready⟩⟩
        simp only [ConformingWorker.isOpen, Bool.or_eq_true, List.contains_iff_mem, List.mem_cons] at hr
        rcases hr with (rfl | hr) | hr
        · exact hne
        · exact (hopen r (by simp [ConformingWorker.isOpen, hr])).1
        · exact (hopen r (by simp [ConformingWorker.isOpen, hr])).1
      · cases h
    | started audioFormat =>
      dsimp only at h
      split at h
      · rename_i hstarted
        cases h
        obtain ⟨hready, hasked, -⟩ := hstarted
        have hne := ne_zero_of_asked hasked
        refine ⟨.inr (.inr ⟨hready, hready, served_request rfl hne⟩), fun r hr => ⟨?_, hready⟩⟩
        simp only [ConformingWorker.isOpen, Bool.or_eq_true, List.contains_iff_mem, List.mem_cons, List.mem_filter] at hr
        rcases hr with hr | rfl | hr
        · exact (hopen r (by simp [ConformingWorker.isOpen, hr.1])).1
        · exact hne
        · exact (hopen r (by simp [ConformingWorker.isOpen, hr])).1
      · cases h
    | completed m =>
      dsimp only at h
      split at h
      · rename_i hrun
        cases h
        obtain ⟨hne, hready⟩ := hopen id (by simp only [ConformingWorker.isOpen, hrun, Bool.or_true])
        exact ⟨.inr (.inr ⟨hready, hready, served_request rfl hne⟩), fun r hr => hopen r (isOpen_finish hr)⟩
      · cases h
    | cancelled =>
      dsimp only at h
      split at h
      · rename_i hisOpen
        cases h
        obtain ⟨hne, hready⟩ := hopen id hisOpen
        exact ⟨.inr (.inr ⟨hready, hready, served_request rfl hne⟩), fun r hr => hopen r (isOpen_finish hr)⟩
      · cases h
    | shutdownAck =>
      dsimp only at h
      split at h
      · rename_i hack
        cases h
        obtain ⟨rfl, hready, hshutdown, -⟩ := hack
        exact ⟨.inr (.inr ⟨hready, hready, by simpa [served, isControlMessageAllowed, controlMessageType]
          using hshutdown⟩), hopen⟩
      · cases h
    | hello | synthesize | cancel | ping | shutdown => cases h

end Emit

/-! ## What the session makes of it -/

/-- No protocol violation is reported, and the session stays in its state or ends. -/
structure Handled (s s' : St) : Prop where
  grows : Extends (fun entry => !entry.isProtocolError) s s'
  state : s'.state = s.state ∨ s'.state.live = false

section Frames

variable {lib : JsonLibrary} {options : WorkerSessionOptions} {s s' s'' : St} {frame : Frame} {reply : Reply}

theorem Aside.handled (h : Aside s s') : Handled s s' := by
  refine ⟨h.grows.mono fun entry hown => ?_, h.state⟩
  cases entry with
  | event event limit =>
    cases event with
    | localEvent type message =>
      cases limit with
      | exempt => cases type <;> first | rfl | cases hown
      | _ => cases hown
    | _ => rfl
  | _ => rfl

theorem Handled.trans (h : Handled s s') (h' : Handled s' s'') : Handled s s'' := by
  refine ⟨h.grows.trans h'.grows, ?_⟩
  rcases h'.state with heq | hended
  · rw [heq]
    exact h.state
  · exact .inr hended

theorem handled_enqueueRegular (s : St) {event : WorkerSessionEvent}
    (h : (Entry.event event .regular).isProtocolError = false) : Handled s (enqueueEvent options s event false).1 := by
  rcases enqueueRegular_cases options s event with ⟨-, -, heq⟩ | ⟨-, heq⟩ | ⟨-, -, heq⟩
  · rw [heq]
    have hfail := (aside_fail { s with eventQueueOverflowed := true }).handled
    have hended : (fail { s with eventQueueOverflowed := true }).state.live = false := by
      unfold fail
      split
      · rfl
      · rename_i hnot
        simpa using hnot
    have hmarked : Handled s (fail { s with eventQueueOverflowed := true }) :=
      ⟨⟨hfail.grows.log, hfail.grows.parser, hfail.grows.shutdown, hfail.grows.startAttempted, fun _ _ => hended⟩, .inr hended⟩
    exact hmarked.trans ⟨extends_pushBack _ rfl, .inl rfl⟩
  · rw [heq]
    exact ⟨.refl s, .inl rfl⟩
  · rw [heq]
    exact ⟨extends_pushBack s (by rw [h]; rfl), .inl rfl⟩

/-- The three kinds of frames that can be read. -/
theorem replyOf_cases (h : replyOf lib frame = some reply) :
    (∃ message, reply = .control frame.header.requestId message ∧
      decodeControlMessage lib frame.payload .workerToClient = .ok message ∧
      ∀ s, handleFrame lib options s frame = handleControlFrame lib options s frame) ∨
    (reply = .audio frame.header.requestId frame.payload ∧
      ∀ s, handleFrame lib options s frame = handleAudioFrame options s frame) ∨
    (∃ error, reply = .error frame.header.requestId error ∧ decodeErrorMessage lib frame.payload = .ok error ∧
      ∀ s, handleFrame lib options s frame = handleErrorFrame lib options s frame) := by
  unfold replyOf at h
  unfold handleFrame
  split at h
  · rename_i htype
    split at h
    · rename_i message hdecode
      cases h
      exact .inl ⟨message, rfl, hdecode, fun s => if_pos htype⟩
    · cases h
  · rename_i hcontrol
    simp only [if_neg hcontrol]
    split at h
    · rename_i htype
      cases h
      exact .inr (.inl ⟨rfl, fun s => if_pos htype⟩)
    · rename_i haudio
      simp only [if_neg haudio]
      split at h
      · rename_i htype
        split at h
        · rename_i error hdecode
          cases h
          exact .inr (.inr ⟨error, rfl, hdecode, fun s => if_pos htype⟩)
        · cases h
      · cases h

theorem isError_of_type (h : replyOf lib frame = some reply) (htype : frame.header.frameType = FrameType.errorJson.value) :
    reply.isError = true := by
  rcases @replyOf_cases lib {} frame reply h with ⟨message, rfl, -, -⟩ | ⟨rfl, -⟩ | ⟨error, rfl, -, -⟩
  all_goals
    unfold replyOf at h
    rw [htype] at h
  · cases hd : decodeErrorMessage lib frame.payload <;> simp [FrameType.value, hd] at h
  · cases hd : decodeErrorMessage lib frame.payload <;> simp [FrameType.value, hd] at h
  · rfl

/-- An error is passed on; before `ready` it ends the session. -/
theorem frame_error (h : replyOf lib frame = some reply) (he : reply.isError = true) :
    Handled s (handleFrame lib options s frame).1 ∧
      (s.state = .starting → (handleFrame lib options s frame).1.state.live = false) := by
  rcases @replyOf_cases lib options frame reply h with ⟨message, rfl, -, -⟩ | ⟨rfl, -⟩ | ⟨error, rfl, hdecode, hframe⟩
  · cases he
  · cases he
  · rw [hframe, handleErrorFrame, hdecode]
    simp only
    split
    · rename_i hstarting
      rw [failWithEvent, enqueueExempt_eq]
      refine ⟨(aside_fail s).handled.trans ⟨extends_pushBack _ rfl, .inl rfl⟩, fun _ => ?_⟩
      show (fail s).state.live = false
      rw [fail, if_pos (show s.state.live = true by rw [hstarting]; rfl)]
      rfl
    · rename_i hnot
      exact ⟨handled_enqueueRegular s rfl, fun hstarting => absurd hstarting hnot⟩

theorem frame_served (h : replyOf lib frame = some reply) (hserved : served s reply = true) (hstate : s.state = .ready) :
    Handled s (handleFrame lib options s frame).1 := by
  rcases @replyOf_cases lib options frame reply h with
    ⟨message, rfl, hdecode, hframe⟩ | ⟨rfl, hframe⟩ | ⟨error, rfl, hdecode, hframe⟩
  · rw [hframe, handleControlFrame, hdecode]
    simp only [served, Bool.and_eq_true, bne_iff_ne] at hserved
    have hallowed : isControlMessageAllowed s frame.header.requestId (controlMessageType message) = true := by
      rw [← hserved.2, ← hstate]
    simp only [hallowed, Bool.not_true, Bool.false_eq_true, if_false]
    cases message with
    | ready m => exact absurd rfl hserved.1
    | _ => exact handled_enqueueRegular s rfl
  · rw [hframe, handleAudioFrame, if_neg]
    · exact handled_enqueueRegular s rfl
    · simp only [served, bne_iff_ne] at hserved
      rintro (hne | hzero)
      · exact hne hstate
      · exact hserved hzero
  · exact (frame_error h rfl).1

/-- `ready` makes a session Ready, or fills its queue. -/
theorem frame_ready {m : ReadyMessage} (h : replyOf lib frame = some (.control 0 (.ready m))) (hstate : s.state = .starting)
    (hended : EndedByOverflow s) :
    Extends (fun entry => !entry.isProtocolError) s (handleFrame lib options s frame).1 ∧
      ((handleFrame lib options s frame).1.state = .ready ∨ (handleFrame lib options s frame).1.state.live = false) := by
  rcases @replyOf_cases lib options frame _ h with ⟨message, hmessage, hdecode, hframe⟩ | ⟨hnot, -⟩ | ⟨error, hnot, -⟩
  · rw [Reply.control.injEq] at hmessage
    obtain ⟨hid, rfl⟩ := hmessage
    rw [hframe, handleControlFrame, hdecode]
    have hallowed : isControlMessageAllowed s frame.header.requestId (controlMessageType (.ready m)) = true := by
      simp [isControlMessageAllowed, controlMessageType, hstate, ← hid]
    simp only [hallowed, Bool.not_true, Bool.false_eq_true, if_false]
    have henqueued : Handled s (enqueueEvent options s (.control frame.header.requestId (.ready m)) false).1 :=
      handled_enqueueRegular s rfl
    have hopen : s.eventQueueOverflowed = false := by
      cases ho : s.eventQueueOverflowed with
      | false => rfl
      | true =>
        have hnot := hended ho
        rw [hstate] at hnot
        cases hnot
    rcases enqueueRegular_cases options s (.control frame.header.requestId (.ready m)) with
      ⟨-, -, heq⟩ | ⟨ho, -⟩ | ⟨-, -, heq⟩
    · rw [heq] at henqueued ⊢
      simp only [if_true]
      refine ⟨henqueued.grows, .inr ?_⟩
      show (fail { s with eventQueueOverflowed := true }).state.live = false
      rw [fail, if_pos (show s.state.live = true by rw [hstate]; rfl)]
      rfl
    · rw [hopen] at ho
      cases ho
    · rw [heq] at henqueued ⊢
      simp only [Bool.false_eq_true, if_false]
      refine ⟨henqueued.grows.trans ?_, .inl rfl⟩
      refine .one ?_ rfl rfl (fun h => h) rfl fun _ ho => ?_
      · rfl
      have hnot : s.eventQueueOverflowed = true := ho
      rw [hopen] at hnot
      cases hnot
  · cases hnot
  · cases hnot

end Frames

/-! ## Frames in flight -/

/-- What a session that is Starting has still to read: errors, and from `ready` on what a
    Ready session takes. -/
def Opening (s : St) (ready : Bool) (replies : List Reply) : Prop :=
  ∃ errors rest, replies = errors ++ rest ∧ (∀ r ∈ errors, r.isError = true) ∧
    (ready = false → rest = []) ∧
    (ready = true → ∃ m later, rest = .control 0 (.ready m) :: later ∧ ∀ r ∈ later, served s r = true)

/-- `todo` are the frames that the worker sent and the session has not handled, and `replies`
    what they say. -/
structure Coupled (s : St) (w : ConformingWorker) (wire : Bytes) (todo : List Frame) (replies : List Reply) : Prop where
  flight : InFlight s.parser wire todo
  decoded : todo.map (replyOf lib) = replies.map some
  starting : s.state = .starting → Opening s w.ready replies
  ready : s.state = .ready → w.ready = true ∧ ∀ r ∈ replies, served s r = true
  unstarted : s.startAttempted = false → s.parser = {} ∧ wire = [] ∧ todo = [] ∧ w.ready = false
  isOpen : ∀ id, w.isOpen id = true → id ≠ 0 ∧ w.ready = true
  overflow : EndedByOverflow s
  clean : ∀ entry ∈ s.log, entry.isProtocolError = false

section Coupled

variable {lib : JsonLibrary} {options : WorkerSessionOptions} {s s' : St} {w w' : ConformingWorker} {wire : Bytes}
  {todo : List Frame} {replies : List Reply} {frame : Frame} {reply : Reply}

theorem Opening.mono {ready : Bool} (hs : s.shutdownRequested = true → s'.shutdownRequested = true)
    (h : Opening s ready replies) : Opening s' ready replies := by
  obtain ⟨errors, rest, heq, herrors, hnot, hready⟩ := h
  refine ⟨errors, rest, heq, herrors, hnot, fun hr => ?_⟩
  obtain ⟨m, later, hrest, hlater⟩ := hready hr
  exact ⟨m, later, hrest, fun r hr => served_mono hs (hlater r hr)⟩

theorem Extends.clean (h : Extends (fun entry => !entry.isProtocolError) s s')
    (hs : ∀ entry ∈ s.log, entry.isProtocolError = false) : ∀ entry ∈ s'.log, entry.isProtocolError = false := by
  obtain ⟨added, hlog, hadded⟩ := h.log
  intro entry hentry
  rw [hlog] at hentry
  rcases List.mem_append.mp hentry with hentry | hentry
  · exact hs entry hentry
  · simpa using hadded entry hentry

/-- A step of the session that reads no frame. -/
theorem Coupled.aside (h : Coupled lib s w wire todo replies) (ha : Aside s s') : Coupled lib s' w wire todo replies where
  flight := ha.grows.parser ▸ h.flight
  decoded := h.decoded
  starting := by
    intro hs'
    rcases ha.state with heq | hended
    · exact (h.starting (heq ▸ hs')).mono ha.grows.shutdown
    · rw [hs'] at hended
      cases hended
  ready := by
    intro hs'
    rcases ha.state with heq | hended
    · obtain ⟨hready, hserved⟩ := h.ready (heq ▸ hs')
      exact ⟨hready, fun r hr => served_mono ha.grows.shutdown (hserved r hr)⟩
    · rw [hs'] at hended
      cases hended
  unstarted := by
    rw [ha.grows.startAttempted, ha.grows.parser]
    exact h.unstarted
  isOpen := h.isOpen
  overflow := ha.grows.overflow h.overflow
  clean := ha.handled.grows.clean h.clean

theorem Coupled.start (h : Coupled lib s w wire todo replies) (hs : s.startAttempted = false) :
    Coupled lib (startBegin s) w wire todo replies := by
  obtain ⟨-, rfl, rfl, hready⟩ := h.unstarted hs
  have hnone : replies = [] := by
    have hmap := h.decoded
    rw [List.map_nil, eq_comm, List.map_eq_nil_iff] at hmap
    exact hmap
  refine ⟨inFlight_nil, h.decoded, fun _ => ?_, nofun, nofun, h.isOpen, nofun, fun entry hentry => ?_⟩
  · rw [hready, hnone]
    exact ⟨[], [], rfl, fun _ hr => (List.not_mem_nil hr).elim, fun _ => rfl, nofun⟩
  · rcases List.mem_append.mp hentry with hentry | hentry
    · exact h.clean entry hentry
    · rw [List.mem_singleton.mp hentry]
      rfl

/-- The worker sends a frame. -/
theorem Coupled.emit {bytes : Bytes} (h : Coupled lib s w wire todo replies)
    (hbytes : encodeFrameWithHeader frame.header frame.payload = .ok bytes) (hreply : replyOf lib frame = some reply)
    (ha : s.startAttempted = true) (he : w.emit s reply = some w') :
    Coupled lib s w' (wire ++ bytes) (todo ++ [frame]) (replies ++ [reply]) := by
  obtain ⟨hcases, hisOpen⟩ := emit_cases he h.isOpen
  refine ⟨h.flight.send hbytes, ?_, fun hstate => ?_, fun hstate => ?_, fun hnot => ?_, hisOpen, h.overflow, h.clean⟩
  · rw [List.map_append, List.map_append, h.decoded, List.map_singleton, List.map_singleton, hreply]
  · obtain ⟨errors, rest, heq, herrors, hunready, hready⟩ := h.starting hstate
    rcases hcases with ⟨herror, hsame⟩ | ⟨hnot, hnow, m, rfl⟩ | ⟨hwas, hnow, hserved⟩
    · rw [hsame]
      cases hw : w.ready with
      | false =>
        rw [hunready hw, List.append_nil] at heq
        refine ⟨errors ++ [reply], [], by rw [heq, List.append_nil], ?_, fun _ => rfl, nofun⟩
        exact List.forall_mem_append.mpr ⟨herrors, List.forall_mem_singleton.mpr herror⟩
      | true =>
        obtain ⟨m, later, rfl, hlater⟩ := hready hw
        refine ⟨errors, _, by rw [heq, List.append_assoc, List.cons_append], herrors, nofun, fun _ => ⟨m, later ++ [reply], rfl, ?_⟩⟩
        exact List.forall_mem_append.mpr ⟨hlater, List.forall_mem_singleton.mpr (served_error herror)⟩
    · rw [hunready hnot, List.append_nil] at heq
      refine ⟨errors, [.control 0 (.ready m)], by rw [heq], herrors, fun hw => ?_, fun _ => ⟨m, [], rfl, ?_⟩⟩
      · rw [hnow] at hw
        cases hw
      · exact fun _ hr => (List.not_mem_nil hr).elim
    · obtain ⟨m, later, rfl, hlater⟩ := hready hwas
      refine ⟨errors, _, by rw [heq, List.append_assoc, List.cons_append], herrors, fun hw => ?_,
        fun _ => ⟨m, later ++ [reply], rfl, ?_⟩⟩
      · rw [hnow] at hw
        cases hw
      · exact List.forall_mem_append.mpr ⟨hlater, List.forall_mem_singleton.mpr hserved⟩
  · obtain ⟨hready, hserved⟩ := h.ready hstate
    rcases hcases with ⟨herror, hsame⟩ | ⟨hnot, -⟩ | ⟨-, hnow, hs⟩
    · exact ⟨hsame.trans hready, List.forall_mem_append.mpr
        ⟨hserved, List.forall_mem_singleton.mpr (served_error herror)⟩⟩
    · rw [hready] at hnot
      cases hnot
    · exact ⟨hnow, List.forall_mem_append.mpr ⟨hserved, List.forall_mem_singleton.mpr hs⟩⟩
  · rw [ha] at hnot
    cases hnot

/-- The session handles the next frame, in time. -/
theorem Coupled.handleFrame {parser : FrameParser} (h : Coupled lib s w wire (frame :: todo) (reply :: replies))
    (hflight : InFlight parser wire todo) (ha : s.startAttempted = true)
    (htime : s.state.live = true ∨ frame.header.frameType = FrameType.errorJson.value) :
    Coupled lib (handleFrame lib options { s with parser } frame).1 w wire todo replies := by
  obtain ⟨hreply, hdecoded⟩ := List.cons_eq_cons.mp h.decoded
  -- `ready` apart, a frame leaves the session in its state, or ends it
  have hhandled : Handled { s with parser } (Session.handleFrame lib options { s with parser } frame).1 →
      (s.state = .starting → (Session.handleFrame lib options { s with parser } frame).1.state.live = false) →
      Coupled lib (Session.handleFrame lib options { s with parser } frame).1 w wire todo replies := by
    intro hh hstarting
    refine ⟨hh.grows.parser ▸ hflight, hdecoded, fun hs' => ?_, fun hs' => ?_, fun hnot => ?_, h.isOpen,
      hh.grows.overflow h.overflow, hh.grows.clean h.clean⟩
    · rcases hh.state with heq | hended
      · have hlive := hstarting (heq ▸ hs')
        rw [hs'] at hlive
        cases hlive
      · rw [hs'] at hended
        cases hended
    · rcases hh.state with heq | hended
      · obtain ⟨hready, hserved⟩ := h.ready (heq ▸ hs')
        exact ⟨hready, fun r hr => served_mono hh.grows.shutdown (hserved r (List.mem_cons_of_mem _ hr))⟩
      · rw [hs'] at hended
        cases hended
    · rw [hh.grows.startAttempted] at hnot
      rw [ha] at hnot
      cases hnot
  by_cases hready : s.state = .ready
  · have hserved := (h.ready hready).2 reply List.mem_cons_self
    exact hhandled (frame_served hreply hserved hready) fun hstarting => by rw [hready] at hstarting; cases hstarting
  by_cases herror : reply.isError = true
  · obtain ⟨hh, hended⟩ := @frame_error lib options { s with parser } frame reply hreply herror
    exact hhandled hh hended
  by_cases hstarting : s.state = .starting
  · obtain ⟨errors, rest, heq, herrors, hunready, hready'⟩ := h.starting hstarting
    cases errors with
    | cons e errors =>
      obtain ⟨rfl, -⟩ := List.cons_eq_cons.mp heq
      exact absurd (herrors reply List.mem_cons_self) herror
    | nil =>
      rw [List.nil_append] at heq
      cases hw : w.ready with
      | false =>
        rw [hunready hw] at heq
        cases heq
      | true =>
        obtain ⟨m, later, rfl, hlater⟩ := hready' hw
        obtain ⟨rfl, rfl⟩ := List.cons_eq_cons.mp heq
        obtain ⟨hgrows, hstate⟩ := @frame_ready lib options { s with parser } frame m hreply hstarting h.overflow
        refine ⟨hgrows.parser ▸ hflight, hdecoded, fun hs' => ?_, fun hs' => ⟨hw, fun r hr => ?_⟩, fun hnot => ?_,
          h.isOpen, hgrows.overflow h.overflow, hgrows.clean h.clean⟩
        · rcases hstate with heq | hended
          · rw [heq] at hs'
            cases hs'
          · rw [hs'] at hended
            cases hended
        · exact served_mono hgrows.shutdown (hlater r hr)
        · rw [hgrows.startAttempted] at hnot
          rw [ha] at hnot
          cases hnot
  · -- a session that has ended gets errors only
    refine absurd (isError_of_type hreply (htime.resolve_left fun hlive => ?_)) herror
    cases hs : s.state <;> rw [hs] at hlive hready hstarting <;> first
      | cases hlive
        done
      | exact hready rfl
      | exact hstarting rfl

theorem Coupled.handleFrames (fuel : Nat) (h : Coupled lib s w wire todo replies) (ha : s.startAttempted = true)
    (htime : meetsLive lib options fuel s = true) :
    ∃ todo replies, Coupled lib (handleFrames lib options fuel s) w wire todo replies := by
  induction fuel generalizing s todo replies with
  | zero => exact ⟨todo, replies, h⟩
  | succ fuel ih =>
    rcases h.flight.parse with ⟨parser, hparse, hflight⟩ | ⟨frame, rest, parser, rfl, hparse, hflight⟩
    · rw [handleFrames_wait lib options fuel s hparse]
      refine ⟨todo, replies, hflight, h.decoded, h.starting, h.ready, fun hnot => ?_, h.isOpen, h.overflow, h.clean⟩
      have hattempted : s.startAttempted = false := hnot
      rw [ha] at hattempted
      cases hattempted
    · cases replies with
      | nil => cases h.decoded
      | cons reply replies =>
        simp only [meetsLive, hparse, Bool.and_eq_true, Bool.or_eq_true, beq_iff_eq] at htime
        have hframe : Coupled lib (Session.handleFrame lib options { s with parser } frame).1 w wire rest replies :=
          h.handleFrame hflight ha htime.1
        have hattempted : (Session.handleFrame lib options { s with parser } frame).1.startAttempted = true :=
          moves_startAttempted (moves_handleFrame frame ha) ha
        rw [handleFrames_frame lib options fuel s hparse]
        split
        · exact ⟨rest, replies, hframe⟩
        · rename_i hstop
          exact ih hframe hattempted (htime.2.resolve_left hstop)

/-- The frames in flight of a system. -/
def System.Coupled (lib : JsonLibrary) (x : System) : Prop :=
  ∃ todo replies, Session.Coupled lib x.session x.worker x.wire todo replies

theorem session_step {x x' : System} {e : Ev} (h : x.step lib options (.session e) = some x') :
    (∀ bytes, e ≠ .receive bytes) ∧ ∃ session, step lib options x.session e = some session ∧ x' = { x with session } := by
  cases e with
  | receive bytes => cases h
  | _ =>
    simp only [System.step] at h
    obtain ⟨session, hstep, rfl⟩ := Option.map_eq_some_iff.mp h
    exact ⟨nofun, session, hstep, rfl⟩

theorem coupled_step {x x' : System} {e : SystemEv} (h : x.Coupled lib) (htime : InTime lib options x e)
    (hs : x.step lib options e = some x') : x'.Coupled lib := by
  obtain ⟨todo, replies, h⟩ := h
  cases e with
  | emit frame =>
    simp only [System.step] at hs
    split at hs
    · rename_i bytes reply hbytes hreply
      split at hs
      · rename_i ha
        obtain ⟨worker, hemit, rfl⟩ := Option.map_eq_some_iff.mp hs
        exact ⟨_, _, h.emit hbytes hreply ha hemit⟩
      · cases hs
    · cases hs
  | deliver n =>
    obtain ⟨session, hstep, rfl⟩ := Option.map_eq_some_iff.mp hs
    simp only [step] at hstep
    split at hstep
    · rename_i ha
      cases hstep
      have happended : Session.Coupled lib { x.session with parser := x.session.parser.append (x.wire.take n) } x.worker
          (x.wire.drop n) todo replies := by
        refine ⟨h.flight.deliver n, h.decoded, h.starting, h.ready, fun hnot => ?_, h.isOpen, h.overflow, h.clean⟩
        have hattempted : x.session.startAttempted = false := hnot
        rw [ha] at hattempted
        cases hattempted
      exact happended.handleFrames _ ha htime
    · cases hstep
  | session e =>
    obtain ⟨hbytes, session, hstep, rfl⟩ := session_step hs
    by_cases hstart : e = .start
    · rw [hstart] at hstep
      simp only [step] at hstep
      split at hstep
      · cases hstep
      · rename_i hrefused
        cases hstep
        simp only [startRefused, Bool.not_eq_true, Bool.or_eq_false_iff] at hrefused
        have hbegun := h.start hrefused.1.1.1
        exact ⟨todo, replies, hbegun.aside ⟨.same rfl rfl (fun h => h) rfl fun h => h, .inl rfl⟩⟩
    · exact ⟨todo, replies, h.aside (aside_step hstart hbytes hstep)⟩

end Coupled

/-- Whatever the worker of the protocol sends and however its bytes are cut, while its control
    and audio frames come in time no protocol error is enqueued. -/
theorem conforming_worker_is_clean {x : System} (h : Reach (System.step lib options) (InTime lib options) {} x) :
    ∀ message limit, .event (makeProtocolError message) limit ∉ x.session.log := by
  have hcoupled : x.Coupled lib := by
    refine h.inv (I := System.Coupled lib) ⟨[], [], ?_⟩ fun _ _ _ _ hc htime hs => coupled_step hc htime hs
    exact ⟨inFlight_nil, rfl, nofun, nofun, fun _ => ⟨rfl, rfl, rfl, rfl⟩, nofun, nofun,
      fun _ hentry => (List.not_mem_nil hentry).elim⟩
  obtain ⟨todo, replies, hc⟩ := hcoupled
  intro message limit hmem
  cases hc.clean _ hmem

/-! ## A session that is stopped -/

/-- A control frame of the worker. -/
def workerFrame (id : RequestId) (m : ControlMessage) : Frame :=
  match encodeControlMessage sampleLibrary m with
  | .ok payload => ⟨{ payloadSize := payload.length.toUInt32, requestId := id }, payload⟩
  | .error _ => ⟨{}, []⟩

/-- The handshake, its bytes in two pieces. -/
def handshake : List SystemEv :=
  [.session .start, .session (.run 0 {}), .session (.run 0 {}), .session (.run 0 {}), .emit (workerFrame 0 sampleReady),
    .deliver 7, .deliver 1000, .session (.run 0 {})]

/-- `stop`, up to the `shutdown` that it sends. -/
def stopRun : List SystemEv := [.session .stop, .session (.run 1 {}), .session (.run 1 {}), .session (.run 1 {})]

/-- The handshake ends with a session that is Ready and reports nothing. -/
theorem a_handshake_is_clean :
    ∃ x, Reach (System.step sampleLibrary {}) (InTime sampleLibrary {}) {} x ∧ x.session.state = .ready ∧
      ∀ message limit, .event (makeProtocolError message) limit ∉ x.session.log := by
  have hrun : ∃ x, Reach (System.step sampleLibrary {}) (InTime sampleLibrary {}) {} x ∧
      decide (x.session.state = .ready) = true := exists_reach_of_run handshake (by decide +kernel)
  obtain ⟨x, hreach, hready⟩ := hrun
  exact ⟨x, hreach, of_decide_eq_true hready, conforming_worker_is_clean sampleLibrary {} hreach⟩

/-- The worker answers the `shutdown` of `stop` as the protocol asks. -/
theorem the_ack_of_stop_is_a_violation :
    ∃ x, Reach (System.step sampleLibrary {}) anyStep {} x ∧
      ∃ message limit, .event (makeProtocolError message) limit ∈ x.session.log := by
  have hrun : ∃ x, Reach (System.step sampleLibrary {}) anyStep {} x ∧
      decide (.event (makeProtocolError (CppString.lit "control message is invalid in the current session state")) .exempt ∈
        x.session.log) = true :=
    exists_reach_of_run (handshake ++ stopRun ++ [.emit (workerFrame 0 .shutdownAck), .deliver 1000]) (by decide +kernel)
  obtain ⟨x, hreach, hmem⟩ := hrun
  exact ⟨x, hreach, _, _, of_decide_eq_true hmem⟩

end QwenTtsBridge.Session
