/-
  QwenTtsBridge.Worker.PyHandleFrame — `_handle_frame` of the Python worker, from the frame
  that the parser delivers to the handler's return.

  `command` is what the handler makes of a frame's bytes; `PyServer.handleFrame` runs it.
  The handler's remaining work stands on the reader's stack above `readLoop`
  (`frame_cases`).

  Proved: in every state of every run, a reader that will read again has only plain acts to
  do first, no exception has escaped and no shutdown is under way (`reach_stack`).
-/

import QwenTtsBridge.Protocol.FrameParser
import QwenTtsBridge.Worker.PyRequest
import QwenTtsBridge.Worker.PyTerminal
import QwenTtsBridge.Lib.Watermark

namespace QwenTtsBridge.Worker.PyServer

open QwenTtsBridge.Python QwenTtsBridge.Lib QwenTtsBridge.Lib.Transition QwenTtsBridge.Lib.Watermark
open QwenTtsBridge.Protocol.Framing

/-! ## From frame to command -/

/-- A frame that `parse_next` returns. -/
def Delivered (f : PyFrame) : Prop := ∃ p : PyFrameParser, p.parseNext.2 = .frameReady f

def frameId (f : PyFrame) : RequestId := f.header.requestId.toNat

def isControl (f : PyFrame) : Bool := f.header.frameType == FrameType.controlJson.value.toNat

def clientMessageTypes : List PyStr := ["hello", "synthesize", "cancel", "ping", "shutdown"].map PyStr.lit

def invalidDirection : ErrorMessage :=
  .lit "protocol_error" "invalid_message_direction" "worker accepts only client-to-worker control_json frames"

def unknownMessageType (messageType : PyStr) : ErrorMessage :=
  ⟨PyStr.lit "protocol_error", PyStr.lit "unknown_message_type",
    PyStr.lit "unknown client message_type: " ++ messageType⟩

/-- `message.get("mode", "cancel") == "cancel"`. -/
def modeIsCancel (message : Dict) : Bool :=
  match message.get? (PyStr.lit "mode") with
  | none => true
  | some (.str mode) => mode == PyStr.lit "cancel"
  | some _ => false

/-- The dispatch of `_handle_frame` on a decoded message. -/
def dispatch (py : Interpreter) (validate : Validate) (id : RequestId) (message : Dict) (messageType : PyStr) : Command :=
  if messageType ∉ clientMessageTypes then .refused id (unknownMessageType messageType)
  else if messageType = PyStr.lit "hello" then .hello id
  else if messageType = PyStr.lit "ping" then .ping id (message.get? (PyStr.lit "sequence"))
  else if messageType = PyStr.lit "synthesize" then .synthesize id (parseSynthesisRequest py validate id message)
  else if messageType = PyStr.lit "cancel" then .cancel id
  else .shutdown id (modeIsCancel message)

/-- What `_handle_frame` makes of a frame. -/
def command (py : Interpreter) (validate : Validate) (f : PyFrame) : Command :=
  if !isControl f then .refused (frameId f) invalidDirection
  else match decodeControlPayload py f.payload with
    | .error (.controlMessageError code text) => .refused 0 (.lit "protocol_error" code text)
    | .error (.other _) => .raises
    | .ok (message, messageType) => dispatch py validate (frameId f) message messageType

/-- The commands of a run come from frames, whatever the engine's `validate_request` says of
    each. -/
def FromFrames (py : Interpreter) (_ : St) : Ev → Prop
  | .receive c => ∃ f validate, Delivered f ∧ c = command py validate f
  | _ => True

/-- A control frame of id 0 with this payload. -/
def controlFrame (payload : String) : PyFrame where
  header := { frameType := 1, payloadSize := payload.length }
  payload := payload.toList.map fun c => .ofNat c.toNat

theorem delivered_id {f : PyFrame} (h : Delivered f) : frameId f < 2 ^ 64 := by
  obtain ⟨p, hp⟩ := h
  unfold PyFrameParser.parseNext at hp
  simp only [PyFrameParser.makeFatal] at hp
  repeat' split at hp
  all_goals first
    | cases hp
      done
    | skip
  cases hp
  exact LittleEndian.readLe_lt 8 _

/-! ## What stands above the read loop -/

def Act.isReadLoop : Act → Bool
  | .readLoop => true
  | _ => false

/-- What a handler leaves to do, a shutdown apart. -/
def Act.isPlain : Act → Bool
  | .send _ | .emitFinished _ | .notifyAll | .returned _ => true
  | _ => false

@[simp] theorem notifyAll_fatalError (s : St) : (notifyAll s).fatalError = s.fatalError := by
  unfold notifyAll; split <;> rfl

@[simp] theorem notifyAll_shutdownRequested (s : St) : (notifyAll s).shutdownRequested = s.shutdownRequested := by
  unfold notifyAll; split <;> rfl

@[simp] theorem notifyAll_helloSeen (s : St) : (notifyAll s).helloSeen = s.helloSeen := by
  unfold notifyAll; split <;> rfl

/-- A handler leaves plain acts to do. -/
structure Leaves (s s' : St) (acts : List Act) : Prop where
  plain : ∀ a ∈ acts, a.isPlain = true
  reader : s'.reader = acts ++ s.reader
  fatal : s'.fatalError = s.fatalError
  shutdown : s'.shutdownRequested = s.shutdownRequested
  ready : s.readySent = s.helloSeen → s'.readySent = s'.helloSeen

section Leaves

variable {cfg : Config} {s s' : St} {acts rest : List Act} {id : RequestId}

theorem not_readLoop_of_plain {a : Act} (h : a.isPlain = true) : a.isReadLoop = false := by
  cases a <;> first | rfl | cases h

theorem sendError_leaves (s : St) (id : RequestId) (e : ErrorMessage) :
    Leaves s (sendError s id e) [.send (.error id e)] :=
  ⟨by simp [Act.isPlain], rfl, rfl, rfl, fun h => h⟩

theorem quiet_leaves (hr : s'.reader = s.reader) (hf : s'.fatalError = s.fatalError)
    (hs : s'.shutdownRequested = s.shutdownRequested) (hready : s'.readySent = s.readySent)
    (hhello : s'.helloSeen = s.helloSeen) : Leaves s s' [] :=
  ⟨fun _ ha => (List.not_mem_nil ha).elim, hr, hf, hs, fun h => by rw [hready, hhello, h]⟩

theorem Leaves.push (h : Leaves s s' []) (hplain : ∀ a ∈ acts, a.isPlain = true) : Leaves s (push s' acts) acts :=
  ⟨hplain, congrArg (acts ++ ·) h.reader, h.fatal, h.shutdown, h.ready⟩

theorem notifyAll_leaves {s' : St} (h : Leaves s s' []) : Leaves s (notifyAll s') [] :=
  ⟨h.plain, by simpa using h.reader, by simpa using h.fatal, by simpa using h.shutdown, by simpa using h.ready⟩

theorem tables_leaves (s : St) (t : Tables) : Leaves s { s with tables := t } [] := quiet_leaves rfl rfl rfl rfl rfl

theorem admission_leaves (s : St) (id : RequestId) (request : SynthesisRequest) :
    ∃ acts, Leaves s (admission cfg s id request) acts := by
  unfold admission
  split
  · exact ⟨_, sendError_leaves s id _⟩
  split
  · exact ⟨_, sendError_leaves s id _⟩
  · exact ⟨_, (tables_leaves s _).push (by simp [Act.isPlain])⟩

theorem cancel_leaves (s : St) (id : RequestId) : ∃ acts, Leaves s (handleCancel s id) acts := by
  unfold handleCancel
  split
  · exact ⟨_, sendError_leaves s 0 _⟩
  split
  · split
    · exact ⟨_, (notifyAll_leaves (tables_leaves s s.tables)).push (by simp [Act.isPlain])⟩
    · exact ⟨[], notifyAll_leaves (tables_leaves s s.tables)⟩
  split
  · split
    · exact ⟨_, (notifyAll_leaves (tables_leaves s _)).push (by simp [Act.isPlain])⟩
    · exact ⟨[], notifyAll_leaves (tables_leaves s _)⟩
  · simp only
    split
    · exact ⟨[], notifyAll_leaves (tables_leaves s _)⟩
    · exact ⟨_, (notifyAll_leaves (tables_leaves s _)).push (by simp [Act.isPlain])⟩

/-- What a frame does to the reader: an exception escapes, a shutdown begins, or plain acts are
    left to do. -/
theorem frame_cases (cfg : Config) (s : St) (c : Command) :
    handleFrame cfg s c = unwind s ∨ handleFrame cfg s c = { s with reader := .requestShutdown true :: s.reader.tail } ∨
      ∃ acts, Leaves s (handleFrame cfg s c) acts := by
  cases c with
  | refused id e => exact .inr (.inr ⟨_, sendError_leaves s id e⟩)
  | raises => exact .inl rfl
  | hello id =>
    refine .inr (.inr ?_)
    simp only [handleFrame, handleHello]
    split
    · exact ⟨_, sendError_leaves s id _⟩
    · exact ⟨[.send (.ready cfg.ready)], by simp [Act.isPlain], rfl, rfl, rfl, fun _ => rfl⟩
  | ping id sequence =>
    refine .inr (.inr ?_)
    simp only [handleFrame, handlePing]
    split
    · exact ⟨_, sendError_leaves s id _⟩
    · exact ⟨_, (tables_leaves s s.tables).push (by simp [Act.isPlain])⟩
  | synthesize id parsed =>
    simp only [handleFrame]
    split
    · exact .inr (.inr ⟨_, sendError_leaves s id _⟩)
    · unfold handleSynthesize
      split
      · exact .inr (.inr ⟨_, sendError_leaves s id _⟩)
      split
      · exact .inr (.inr ⟨_, sendError_leaves s 0 _⟩)
      split
      · exact .inl rfl
      · exact .inr (.inr ⟨_, sendError_leaves s id _⟩)
      · exact .inr (.inr (admission_leaves s id _))
  | cancel id =>
    refine .inr (.inr ?_)
    simp only [handleFrame]
    split
    · exact ⟨_, sendError_leaves s id _⟩
    · exact cancel_leaves s id
  | shutdown id modeIsCancel =>
    simp only [handleFrame, handleShutdown]
    split
    · exact .inr (.inr ⟨_, sendError_leaves s id _⟩)
    split
    · exact .inr (.inr ⟨_, sendError_leaves s 0 _⟩)
    · exact .inr (.inl rfl)

end Leaves

/-! ## The stack over a run -/

structure Stack (s : St) : Prop where
  reads : (∀ a ∈ s.reader, a.isReadLoop = false) ∨
    (s.fatalError = false ∧ s.shutdownRequested = false ∧ ∃ acts, (∀ a ∈ acts, a.isPlain = true) ∧
      s.reader = acts ++ [.readLoop, .requestShutdown false])
  ready : s.readySent = s.helloSeen

section Stack

variable {cfg : Config} {s s' : St} {acts rest : List Act}

theorem Stack.start : Stack init := ⟨.inr ⟨rfl, rfl, [], fun _ ha => (List.not_mem_nil ha).elim, rfl⟩, rfl⟩

theorem unwind_not_readLoop (s : St) : ∀ a ∈ (unwind s).reader, a.isReadLoop = false := by
  intro a ha
  have hfinally : isFinally a = true := (List.mem_filter.mp ha).2
  cases a <;> first | rfl | cases hfinally

/-- A reader about to read has nothing else to do but the `finally` of `run`. -/
theorem Stack.reading (h : Stack s) (hr : s.reader = .readLoop :: rest) :
    s.fatalError = false ∧ s.shutdownRequested = false ∧ rest = [.requestShutdown false] := by
  rcases h.reads with hnone | ⟨hf, hs, acts, hplain, heq⟩
  · have := hnone .readLoop (hr ▸ List.mem_cons_self)
    cases this
  · rw [hr] at heq
    cases acts with
    | nil => exact ⟨hf, hs, by simpa using heq⟩
    | cons a acts =>
      have ha := hplain a List.mem_cons_self
      rw [List.cons_append, List.cons.injEq] at heq
      rw [← heq.1] at ha
      cases ha

theorem Stack.frame (h : Stack s) (hr : s.reader = .readLoop :: rest) (c : Command) : Stack (handleFrame cfg s c) := by
  obtain ⟨hf, hs, hrest⟩ := h.reading hr
  rcases frame_cases cfg s c with heq | heq | ⟨acts, hleaves⟩
  · rw [heq]
    exact ⟨.inl (unwind_not_readLoop s), h.ready⟩
  · rw [heq]
    refine ⟨.inl ?_, h.ready⟩
    simp only [hr, hrest, List.tail_cons]
    intro a ha
    simp only [List.mem_cons, List.not_mem_nil, or_false] at ha
    rcases ha with rfl | rfl <;> rfl
  · refine ⟨.inr ⟨hleaves.fatal.trans hf, hleaves.shutdown.trans hs, acts, hleaves.plain, ?_⟩, hleaves.ready h.ready⟩
    rw [hleaves.reader, hr, hrest]

theorem shutdownActs_not_readLoop (ids : List RequestId) :
    ∀ a ∈ ids.flatMap (fun id => [Act.emitFinished id, .send (.cancelled id)]) ++
      [.shutdownTerminalEventsEnqueued, .returned ids], a.isReadLoop = false := by
  intro a ha
  rcases List.mem_append.mp ha with ha | ha
  · obtain ⟨id, -, ha⟩ := List.mem_flatMap.mp ha
    simp only [List.mem_cons, List.not_mem_nil, or_false] at ha
    rcases ha with rfl | rfl <;> rfl
  · simp only [List.mem_cons, List.not_mem_nil, or_false] at ha
    rcases ha with rfl | rfl <;> rfl

/-- What the reader's next act leaves of its stack. -/
theorem act_cases {act : Act} (h : runAct cfg s act = some s') :
    s' = unwind s ∨ (∃ f, act = .send f ∧ s' = unwind (push s [.send f])) ∨
      (act.isPlain = true ∧ s'.reader = s.reader ∧ s'.fatalError = s.fatalError ∧
        s'.shutdownRequested = s.shutdownRequested) ∨
      (act.isPlain = false ∧ act.isReadLoop = false ∧ ∃ acts, (∀ a ∈ acts, a.isReadLoop = false) ∧
        s'.reader = acts ++ s.reader) := by
  cases act with
  | readLoop => cases h
  | send f =>
    simp only [runAct] at h
    split at h <;> cases h
    · exact .inr (.inr (.inl ⟨rfl, rfl, rfl, rfl⟩))
    · exact .inr (.inl ⟨f, rfl, rfl⟩)
  | emitFinished id =>
    simp only [runAct] at h
    split at h <;> cases h
    · exact .inl rfl
    · exact .inr (.inr (.inl ⟨rfl, rfl, rfl, rfl⟩))
  | notifyAll =>
    cases h
    exact .inr (.inr (.inl ⟨rfl, by simp, by simp, by simp⟩))
  | returned ids =>
    cases h
    exact .inr (.inr (.inl ⟨rfl, rfl, rfl, rfl⟩))
  | requestShutdown sendAck =>
    cases h
    refine .inr (.inr (.inr ⟨rfl, rfl, ?_⟩))
    unfold requestShutdown
    split
    · exact ⟨[], fun _ ha => (List.not_mem_nil ha).elim, by simp⟩
    · exact ⟨_, shutdownActs_not_readLoop _, rfl⟩
  | shutdownTerminalEventsEnqueued =>
    cases h
    exact .inr (.inr (.inr ⟨rfl, rfl, [], fun _ ha => (List.not_mem_nil ha).elim, by simp⟩))

theorem act_ready {act : Act} (h : runAct cfg s act = some s') :
    s'.readySent = s.readySent ∧ s'.helloSeen = s.helloSeen := by
  cases act with
  | readLoop => cases h
  | send f =>
    simp only [runAct] at h
    split at h <;> cases h <;> exact ⟨rfl, rfl⟩
  | emitFinished id =>
    simp only [runAct] at h
    split at h <;> cases h <;> exact ⟨rfl, rfl⟩
  | notifyAll =>
    cases h
    exact ⟨by simp, by simp⟩
  | returned ids =>
    cases h
    exact ⟨rfl, rfl⟩
  | requestShutdown sendAck =>
    cases h
    unfold requestShutdown
    split
    · exact ⟨by simp, by simp⟩
    · exact ⟨rfl, rfl⟩
  | shutdownTerminalEventsEnqueued =>
    cases h
    exact ⟨by simp, by simp⟩

theorem Stack.act (h : Stack s) {act : Act} (hr : s.reader = act :: rest)
    (hact : runAct cfg { s with reader := rest } act = some s') : Stack s' := by
  obtain ⟨hready, hhello⟩ := act_ready hact
  refine ⟨?_, by rw [hready, hhello]; exact h.ready⟩
  rcases act_cases hact with heq | ⟨f, -, heq⟩ | ⟨hplain, hreader, hf, hs⟩ | ⟨hplain, hread, acts, hacts, hreader⟩
  · rw [heq]
    exact .inl (unwind_not_readLoop _)
  · rw [heq]
    exact .inl (unwind_not_readLoop _)
  · rcases h.reads with hnone | ⟨hfatal, hshut, acts, hplains, heq⟩
    · exact .inl fun a ha => hnone a (by rw [hr]; rw [hreader] at ha; exact List.mem_cons_of_mem _ ha)
    · cases acts with
      | nil =>
        rw [hr] at heq
        cases heq
        cases hplain
      | cons a acts =>
        rw [hr, List.cons_append, List.cons.injEq] at heq
        exact .inr ⟨hf.trans hfatal, hs.trans hshut, acts, fun b hb => hplains b (List.mem_cons_of_mem _ hb),
          hreader.trans heq.2⟩
  · rcases h.reads with hnone | ⟨hfatal, hshut, acts', hplains, heq⟩
    · refine .inl fun a ha => ?_
      rw [hreader] at ha
      rcases List.mem_append.mp ha with ha | ha
      · exact hacts a ha
      · exact hnone a (by rw [hr]; exact List.mem_cons_of_mem _ ha)
    · cases acts' with
      | nil =>
        rw [hr] at heq
        cases heq
        cases hread
      | cons a acts' =>
        rw [hr, List.cons_append, List.cons.injEq] at heq
        rw [heq.1, hplains a List.mem_cons_self] at hplain
        cases hplain

theorem Stack.step {e : Ev} (h : Stack s) (hs : step cfg s e = some s') : Stack s' := by
  cases e with
  | receive c =>
    simp only [PyServer.step] at hs
    split at hs
    · rename_i rest hr
      cases hs
      exact h.frame hr c
    · cases hs
  | eof =>
    simp only [PyServer.step] at hs
    split at hs
    · rename_i rest hr
      cases hs
      refine ⟨.inl ?_, h.ready⟩
      obtain ⟨-, -, hrest⟩ := h.reading hr
      simp only [hrest]
      intro a ha
      rw [List.mem_singleton.mp ha]
      rfl
    · cases hs
  | reader =>
    simp only [PyServer.step] at hs
    split at hs
    · rename_i act rest hr
      exact h.act hr hs
    · cases hs
  | engine e =>
    have hf := engine_frame hs
    refine ⟨?_, by rw [hf.ready, hf.flags.1]; exact h.ready⟩
    rw [hf.reader, hf.flags.2.1, hf.flags.2.2]
    exact h.reads

theorem reach_stack {ok : St → Ev → Prop} (h : Reach (step cfg) ok init s) : Stack s :=
  h.inv (I := Stack) Stack.start fun _ _ _ _ hi _ hs => hi.step hs

end Stack

end QwenTtsBridge.Worker.PyServer
