/-
  QwenTtsBridge.Worker.PyShutdown — how the Python worker ends (`PyServer`).

  The engine thread leaves its loop when `_shutdown_terminal_events_enqueued` is set and the
  queue is empty. By then the reader has only quiet acts left (`Closing`) and no slot is
  held, so every admitted request has had its terminal frame (`reach_owed_le`), and nothing
  is handed over after the ack. An exception in the reader is a fatal error; one that leaves
  `_run_one_request` ends the engine thread before the ack.
-/

import QwenTtsBridge.Worker.PyTerminal

namespace QwenTtsBridge.Worker.PyServer

open QwenTtsBridge.Python QwenTtsBridge.Lib QwenTtsBridge.Lib.Transition QwenTtsBridge.Lib.EventLog

def OutFrame.isAck : OutFrame → Bool
  | .shutdownAck => true
  | _ => false

/-- Acts that hand nothing over and read nothing. -/
def Act.isQuiet : Act → Bool
  | .requestShutdown _ | .returned _ => true
  | _ => false

/-- Acts that only quiet ones follow. -/
def Act.isEnd : Act → Bool
  | .readLoop | .requestShutdown _ | .shutdownTerminalEventsEnqueued => true
  | _ => false

/-- Acts by which the reader answers a frame. -/
def Act.isReply : Act → Bool
  | .send f => !f.isAck && !(Act.send f).speaks
  | .emitFinished _ | .notifyAll | .returned _ => true
  | _ => false

def Act.sendsAck : Act → Bool
  | .send f => f.isAck
  | _ => false

/-- The reader accepts a `shutdown`. -/
def Ev.shutsDown : Ev → Bool
  | .receive (.shutdown id modeIsCancel) => id == 0 && modeIsCancel
  | _ => false

/-- The ack is the last frame, after the terminal frame of every admitted request. -/
def AckLast (s : St) : Prop := Sealed (·.frame.isAck) Handed.answers s.tables.admitted s.handed

/-- The flags of the shutdown. -/
def shutdownFlags (s : St) : Bool × Bool × Bool :=
  (s.shutdownRequested, s.shutdownAckNeeded, s.shutdownTerminalEventsEnqueued)

/-- `notify_all` wakes the engine thread, if it waits. -/
def Woken (s s' : St) : Prop := s'.engine = s.engine ∨ (s.engine = .waiting ∧ s'.engine = .take)

/-! ## Frames -/

/-- A frame is answered with acts on top of the reader's. -/
structure Replied (s s' : St) : Prop where
  handed : s'.handed = s.handed
  lost : s'.lost = s.lost
  flags : shutdownFlags s' = shutdownFlags s
  engine : Woken s s'
  reader : ∃ acts, s'.reader = acts ++ s.reader ∧ ∀ a ∈ acts, a.isReply = true

section Frames

variable {cfg : Config} {s s' : St} {acts : List Act} {id : RequestId}

theorem replied_tables (t : Tables) : Replied s { s with tables := t } :=
  ⟨rfl, rfl, rfl, .inl rfl, [], rfl, fun _ ha => (List.not_mem_nil ha).elim⟩

theorem replied_notifyAll (t : Tables) : Replied s (notifyAll { s with tables := t }) := by
  unfold notifyAll
  split
  · rename_i hwaiting
    exact ⟨rfl, rfl, rfl, .inr ⟨hwaiting, rfl⟩, [], rfl, fun _ ha => (List.not_mem_nil ha).elim⟩
  · exact replied_tables t

theorem Replied.push (h : Replied s s') (hacts : ∀ a ∈ acts, a.isReply = true) : Replied s (push s' acts) := by
  obtain ⟨acts', hreader, hacts'⟩ := h.reader
  refine ⟨h.handed, h.lost, h.flags, h.engine, acts ++ acts', ?_, ?_⟩
  · show acts ++ s'.reader = _
    rw [hreader, List.append_assoc]
  · intro a ha
    rcases List.mem_append.mp ha with ha | ha
    · exact hacts a ha
    · exact hacts' a ha

theorem replied_sendError (e : ErrorMessage) : Replied s (sendError s id e) :=
  (replied_tables s.tables).push fun a ha => by rw [List.mem_singleton.mp ha]; rfl

theorem replied_cancel : Replied s (handleCancel s id) := by
  have hreport : ∀ rest : List Act, (∀ a ∈ rest, a.isReply = true) →
      ∀ a ∈ Act.emitFinished id :: .send (.cancelled id) :: rest, a.isReply = true := by
    intro rest hrest a ha
    rcases List.mem_cons.mp ha with rfl | ha
    · rfl
    rcases List.mem_cons.mp ha with rfl | ha
    · rfl
    · exact hrest a ha
  unfold handleCancel
  split
  · exact replied_sendError _
  split
  · split
    · exact (replied_notifyAll s.tables).push fun a ha => by rw [List.mem_singleton.mp ha]; rfl
    · exact replied_notifyAll s.tables
  split
  · split
    · exact (replied_notifyAll _).push (hreport _ fun a ha => by rw [List.mem_singleton.mp ha]; rfl)
    · exact replied_notifyAll _
  · simp only
    split
    · exact replied_notifyAll _
    · exact (replied_notifyAll _).push (hreport _ fun a ha => (List.not_mem_nil ha).elim)

/-- What a frame does: it is answered, an exception escapes, or a shutdown is accepted. -/
theorem frame_replied (cfg : Config) (s : St) (c : Command) :
    Replied s (handleFrame cfg s c) ∨ handleFrame cfg s c = unwind s ∨
      (c = .shutdown 0 true ∧ handleFrame cfg s c = { s with reader := .requestShutdown true :: s.reader.tail }) := by
  cases c with
  | refused id e => exact .inl (replied_sendError e)
  | raises => exact .inr (.inl rfl)
  | hello id =>
    simp only [handleFrame, handleHello]
    split
    · exact .inl (replied_sendError _)
    · refine .inl ⟨rfl, rfl, rfl, .inl rfl, [.send (.ready cfg.ready)], rfl, fun a ha => ?_⟩
      rw [List.mem_singleton.mp ha]
      rfl
  | ping id sequence =>
    simp only [handleFrame, handlePing]
    split
    · exact .inl (replied_sendError _)
    · exact .inl ((replied_tables s.tables).push fun a ha => by rw [List.mem_singleton.mp ha]; rfl)
  | synthesize id parsed =>
    simp only [handleFrame]
    split
    · exact .inl (replied_sendError _)
    unfold handleSynthesize
    split
    · exact .inl (replied_sendError _)
    split
    · exact .inl (replied_sendError _)
    split
    · exact .inr (.inl rfl)
    · exact .inl (replied_sendError _)
    · unfold admission
      split
      · exact .inl (replied_sendError _)
      split
      · exact .inl (replied_sendError _)
      · refine .inl ((replied_tables _).push fun a ha => ?_)
        rcases List.mem_pair.mp ha with rfl | rfl <;> rfl
  | cancel id =>
    simp only [handleFrame]
    split
    · exact .inl (replied_sendError _)
    · exact .inl replied_cancel
  | shutdown id modeIsCancel =>
    simp only [handleFrame, handleShutdown]
    split
    · exact .inl (replied_sendError _)
    rename_i hid
    split
    · exact .inl (replied_sendError _)
    · rename_i hmode
      rw [not_not] at hid
      have hcancel : modeIsCancel = true := by simpa using hmode
      exact .inr (.inr ⟨by rw [hid, hcancel], rfl⟩)

end Frames

/-! ## The engine thread -/

def EnginePc.hasEnded : EnginePc → Bool
  | .loopEnded | .sendAck | .exited => true
  | _ => false

/-- A step of the engine thread in its loop. -/
structure Works (s s' : St) : Prop where
  before : s.engine.hasEnded = false
  after : s'.engine.hasEnded = false
  alive : ∀ id, s.engine ≠ .dead id
  handed : s'.handed = s.handed ∨ ∃ f, OutFrame.isAck f = false ∧ s'.handed = s.handed ++ [⟨.engine, f⟩]
  lost : s'.lost = s.lost ∨ ∃ id, s'.engine = .dead id
  flags : shutdownFlags s' = shutdownFlags s

section Engine

variable {cfg : Config} {s s' : St} {e : EngineEv}

theorem works_goto {pc : EnginePc} (hpc : s.engine.hasEnded = false) (halive : ∀ id, s.engine ≠ .dead id)
    (h : pc.hasEnded = false) : Works s (goto s pc) :=
  ⟨hpc, h, halive, .inl rfl, .inl rfl, rfl⟩

theorem works_speak {pc : EnginePc} {f : OutFrame} (hpc : s.engine.hasEnded = false) (halive : ∀ id, s.engine ≠ .dead id)
    (h : pc.hasEnded = false) (hf : f.isAck = false) : Works s (goto (hand s .engine f) pc) :=
  ⟨hpc, h, halive, .inr ⟨f, hf, rfl⟩, .inl rfl, rfl⟩

theorem Answer.frame_isAck (id : RequestId) (answer : Answer) : (answer.frame id).isAck = false := by
  cases answer <;> rfl

theorem hasEnded_onException (id : RequestId) (error : EngineError) : (onException id error).hasEnded = false := by
  cases error <;> rfl

/-- What the engine thread does, by where it is. -/
theorem engine_ends (h : stepEngine cfg s e = some s') :
    Works s s' ∨
    (s.engine = .take ∧ s.tables.pending = [] ∧ s.shutdownTerminalEventsEnqueued = true ∧ s' = goto s .loopEnded) ∨
    (s.engine = .take ∧ ∃ id rest, s.tables.pending = id :: rest ∧ s.tables.get? id = none) ∨
    (s.engine = .loopEnded ∧ s' = goto s (if s.shutdownAckNeeded then .sendAck else .exited)) ∨
    (s.engine = .sendAck ∧ s' = goto (hand s .engine .shutdownAck) .exited) := by
  cases e with
  | next =>
    simp only [stepEngine] at h
    split at h
    · rename_i hpc
      have hin : s.engine.hasEnded = false ∧ ∀ id, s.engine ≠ .dead id := by
        rw [hpc]
        exact ⟨rfl, fun _ hdead => by cases hdead⟩
      cases h
      unfold takeNextRequest
      split
      · rename_i hp
        split
        · rename_i hready
          exact .inr (.inl ⟨hpc, hp, hready.2, rfl⟩)
        · exact .inl (works_goto hin.1 hin.2 rfl)
      · rename_i id rest hp
        simp only
        split
        · rename_i hmissing
          exact .inr (.inr (.inl ⟨hpc, id, rest, hp, hmissing⟩))
        · exact .inl ⟨hin.1, rfl, hin.2, .inl rfl, .inl rfl, rfl⟩
    · rename_i id hpc
      cases h
      refine .inl (works_goto (by rw [hpc]; rfl) (by simp [hpc]) ?_)
      split <;> rfl
    · rename_i id hpc
      split at h
      · cases h
      · split at h <;> cases h
        · exact .inl (works_speak (by rw [hpc]; rfl) (by simp [hpc]) rfl rfl)
        · exact .inl (works_goto (by rw [hpc]; rfl) (by simp [hpc]) rfl)
    · rename_i id pcm hpc
      cases h
      refine .inl (works_goto (by rw [hpc]; rfl) (by simp [hpc]) ?_)
      split
      · rfl
      · split <;> rfl
    · rename_i id pcm hpc
      cases h
      refine .inl (works_goto (by rw [hpc]; rfl) (by simp [hpc]) ?_)
      split <;> rfl
    · rename_i id pcm hpc
      split at h <;> cases h
      · exact .inl (works_speak (by rw [hpc]; rfl) (by simp [hpc]) rfl rfl)
      · exact .inl (works_goto (by rw [hpc]; rfl) (by simp [hpc]) rfl)
    · rename_i id message hpc
      cases h
      refine .inl (works_goto (by rw [hpc]; rfl) (by simp [hpc]) ?_)
      split <;> rfl
    · rename_i id hpc
      cases h
      refine .inl (works_goto (by rw [hpc]; rfl) (by simp [hpc]) ?_)
      split <;> rfl
    · rename_i id outcome hpc
      cases h
      refine .inl ⟨by rw [hpc]; rfl, ?_, by simp [hpc], .inl rfl, .inl rfl, rfl⟩
      cases outcome <;> rfl
    · rename_i id hpc
      cases h
      unfold finishCancelled
      simp only
      split <;> exact .inl ⟨by rw [hpc]; rfl, rfl, by simp [hpc], .inl rfl, .inl rfl, rfl⟩
    · rename_i id answer hpc
      split at h <;> cases h
      · exact .inl ⟨by rw [hpc]; rfl, rfl, by simp [hpc], .inl rfl, .inr ⟨id, rfl⟩, rfl⟩
      · exact .inl ⟨by rw [hpc]; rfl, rfl, by simp [hpc], .inr ⟨_, answer.frame_isAck id, rfl⟩, .inl rfl, rfl⟩
    · rename_i hpc
      cases h
      exact .inr (.inr (.inr (.inl ⟨hpc, rfl⟩)))
    · rename_i hpc
      cases h
      exact .inr (.inr (.inr (.inr ⟨hpc, rfl⟩)))
    · cases h
  | described error =>
    simp only [stepEngine] at h
    split at h
    · rename_i id hpc
      cases h
      refine .inl (works_goto (by rw [hpc]; rfl) (by simp [hpc]) ?_)
      split <;> rfl
    · cases h
  | yields pcm =>
    simp only [stepEngine] at h
    split at h
    · rename_i id hpc
      cases h
      exact .inl (works_goto (by rw [hpc]; rfl) (by simp [hpc]) rfl)
    · cases h
  | ends =>
    simp only [stepEngine] at h
    split at h
    · rename_i id hpc
      cases h
      exact .inl (works_goto (by rw [hpc]; rfl) (by simp [hpc]) rfl)
    · cases h
  | raises error =>
    simp only [stepEngine] at h
    split at h
    · rename_i id hpc
      cases h
      exact .inl (works_goto (by rw [hpc]; rfl) (by simp [hpc]) (hasEnded_onException id error))
    · rename_i id pcm hpc
      cases h
      exact .inl (works_goto (by rw [hpc]; rfl) (by simp [hpc]) (hasEnded_onException id error))
    · cases h
  | trace t =>
    simp only [stepEngine] at h
    split at h
    · rename_i id hpc
      cases h
      exact .inl (works_goto (by rw [hpc]; rfl) (by simp [hpc]) rfl)
    · cases h
  | traceRaises =>
    simp only [stepEngine] at h
    split at h
    · rename_i id hpc
      cases h
      exact .inl ⟨by rw [hpc]; rfl, rfl, by simp [hpc], .inl rfl, .inr ⟨id, rfl⟩, rfl⟩
    · cases h

/-- `_take_next_request` finds the slot of every id that it pops. -/
theorem take_finds (hinv : Inv cfg s.tables s.engine.role) {id : RequestId} {rest : List RequestId}
    (hp : s.tables.pending = id :: rest) : s.tables.get? id ≠ none := by
  have hmem : id ∈ s.tables.pending := hp ▸ List.mem_cons_self
  obtain ⟨slot, hslot, -⟩ := hinv.pendingQueued id hmem
  rw [Tables.get?, if_pos (hinv.pendingActive id hmem), hslot]
  exact Option.some_ne_none slot

end Engine

/-! ## How the reader ends -/

/-- The reader's script while no exception has left it. -/
structure Closing (s : St) : Prop where
  script : Script Act.isEnd Act.isQuiet s.reader
  readNoMore : s.shutdownRequested = true → Act.readLoop ∉ s.reader
  draining : Act.shutdownTerminalEventsEnqueued ∈ s.reader → s.shutdownRequested = true
  enqueued : s.shutdownTerminalEventsEnqueued = true → s.shutdownRequested = true ∧ ∀ a ∈ s.reader, a.isQuiet = true
  noAck : ∀ a ∈ s.reader, a.sendsAck = false
  lost : s.lost = [] ∨ ∃ id, s.engine = .dead id

section Closing

variable {cfg : Config} {s s' : St} {act : Act} {rest : List Act}

theorem isReply_spec {a : Act} (h : a.isReply = true) : a.isEnd = false ∧ a.sendsAck = false := by
  cases a with
  | send f =>
    simp only [Act.isReply, Bool.and_eq_true, Bool.not_eq_true'] at h
    exact ⟨rfl, h.1⟩
  | emitFinished id => exact ⟨rfl, rfl⟩
  | notifyAll => exact ⟨rfl, rfl⟩
  | returned ids => exact ⟨rfl, rfl⟩
  | _ => cases h

theorem isQuiet_spec {a : Act} (h : a.isQuiet = true) : a.sendsAck = false := by
  cases a with
  | send f => cases h
  | _ => rfl

theorem not_readLoop_of_quiet {acts : List Act} (h : ∀ a ∈ acts, a.isQuiet = true) : Act.readLoop ∉ acts := by
  intro hm
  cases h _ hm

/-- The frames of a shutdown, and the acts after them. -/
theorem shutdownActs_isReply (ids : List RequestId) :
    ∀ a ∈ ids.flatMap (fun id => [Act.emitFinished id, .send (.cancelled id)]), a.isReply = true := by
  intro a ha
  obtain ⟨id, -, ha⟩ := List.mem_flatMap.mp ha
  rcases List.mem_pair.mp ha with rfl | rfl <;> rfl

theorem Woken.dead {id : RequestId} (h : Woken s s') (hdead : s.engine = .dead id) : s'.engine = .dead id := by
  rcases h with heq | ⟨hwaiting, -⟩
  · exact heq.trans hdead
  · rw [hdead] at hwaiting
    cases hwaiting

/-- The reader drops its first act; the engine thread may be woken. -/
theorem Closing.pop (h : Closing s) (hr : s.reader = act :: rest) (hreader : s'.reader = rest)
    (hflags : shutdownFlags s' = shutdownFlags s) (hlost : s'.lost = s.lost) (hengine : Woken s s') : Closing s' := by
  simp only [shutdownFlags, Prod.mk.injEq] at hflags
  obtain ⟨hreq, -, henq⟩ := hflags
  have hscript := h.script
  rw [hr] at hscript
  constructor
  · rw [hreader]
    exact hscript.tail
  · rw [hreq, hreader]
    intro hs hm
    exact h.readNoMore hs (hr ▸ List.mem_cons_of_mem _ hm)
  · rw [hreq, hreader]
    intro hm
    exact h.draining (hr ▸ List.mem_cons_of_mem _ hm)
  · rw [henq, hreq, hreader]
    intro he
    obtain ⟨hs, hquiet⟩ := h.enqueued he
    exact ⟨hs, fun a ha => hquiet a (hr ▸ List.mem_cons_of_mem _ ha)⟩
  · rw [hreader]
    intro a ha
    exact h.noAck a (hr ▸ List.mem_cons_of_mem _ ha)
  · rw [hlost]
    refine h.lost.imp_right ?_
    rintro ⟨id, hdead⟩
    exact ⟨id, hengine.dead hdead⟩

theorem Closing.quiet_rest (h : Closing s) (hr : s.reader = act :: rest) (hend : act.isEnd = true) :
    ∀ a ∈ rest, a.isQuiet = true := by
  have hscript := h.script
  rw [hr] at hscript
  exact hscript.rest hend

theorem woken_notifyAll (s : St) : Woken s (notifyAll s) := by
  unfold notifyAll
  split
  · rename_i hwaiting
    exact .inr ⟨hwaiting, rfl⟩
  · exact .inl rfl

theorem notifyAll_flags (s : St) : shutdownFlags (notifyAll s) = shutdownFlags s := by
  unfold notifyAll
  split <;> rfl

/-- `_request_shutdown`: the first call leaves its frames on top of quiet acts. -/
theorem Closing.requestShutdown {sendAck : Bool} (h : Closing s) (hr : s.reader = .requestShutdown sendAck :: rest) :
    Closing (requestShutdown { s with reader := rest } sendAck) := by
  have hrest := h.quiet_rest hr rfl
  unfold PyServer.requestShutdown
  split
  · rename_i hs
    have hreader : (notifyAll { s with
        reader := rest
        shutdownAckNeeded := s.shutdownAckNeeded || sendAck
        shutdownTerminalEventsEnqueued := true }).reader = rest := notifyAll_reader _
    have hflags := notifyAll_flags { s with
        reader := rest
        shutdownAckNeeded := s.shutdownAckNeeded || sendAck
        shutdownTerminalEventsEnqueued := true }
    simp only [shutdownFlags, Prod.mk.injEq] at hflags
    refine ⟨?_, ?_, ?_, ?_, ?_, ?_⟩
    · exact hreader.symm ▸ script_of_quiet hrest
    · exact fun _ => hreader.symm ▸ not_readLoop_of_quiet hrest
    · exact fun _ => hflags.1.trans hs
    · exact fun _ => ⟨hflags.1.trans hs, hreader.symm ▸ hrest⟩
    · exact hreader.symm ▸ fun a ha => isQuiet_spec (hrest a ha)
    · refine (h.lost).imp (fun hl => (notifyAll_lost _).trans hl) ?_
      rintro ⟨id, hdead⟩
      exact ⟨id, (woken_notifyAll _).dead hdead⟩
  · rename_i hs
    have hreturned : ∀ a ∈ Act.returned s.tables.shutdown.2 :: rest, a.isQuiet = true := by
      intro a ha
      rcases List.mem_cons.mp ha with rfl | ha
      · rfl
      · exact hrest a ha
    refine ⟨?_, ?_, fun _ => rfl, ?_, ?_, h.lost⟩
    · show Script _ _ (_ ++ _ :: _ :: [] ++ rest)
      rw [List.append_assoc]
      exact Script.push (script_cons hreturned) fun a ha => (isReply_spec (shutdownActs_isReply _ a ha)).1
    · intro _ hm
      rcases List.mem_append.mp hm with hm | hm
      · rcases List.mem_append.mp hm with hm | hm
        · cases shutdownActs_isReply _ _ hm
        · rcases List.mem_pair.mp hm with heq | heq <;> cases heq
      · exact not_readLoop_of_quiet hrest hm
    · intro he
      exact absurd (h.enqueued he).1 hs
    · intro a ha
      rcases List.mem_append.mp ha with ha | ha
      · rcases List.mem_append.mp ha with ha | ha
        · exact (isReply_spec (shutdownActs_isReply _ a ha)).2
        · rcases List.mem_pair.mp ha with rfl | rfl <;> rfl
      · exact isQuiet_spec (hrest a ha)

theorem Closing.runAct (h : Closing s) (hr : s.reader = act :: rest)
    (hs : runAct cfg { s with reader := rest } act = some s') (hf : s'.fatalError = false) : Closing s' := by
  cases act with
  | readLoop => cases hs
  | send f =>
    simp only [PyServer.runAct] at hs
    split at hs <;> cases hs
    · exact h.pop hr rfl rfl rfl (.inl rfl)
    · cases hf
  | emitFinished id =>
    simp only [PyServer.runAct] at hs
    split at hs <;> cases hs
    · cases hf
    · exact h.pop hr rfl rfl rfl (.inl rfl)
  | notifyAll =>
    cases hs
    exact h.pop hr (notifyAll_reader _) (notifyAll_flags _) (notifyAll_lost _) (woken_notifyAll { s with reader := rest })
  | requestShutdown sendAck =>
    cases hs
    exact h.requestShutdown hr
  | shutdownTerminalEventsEnqueued =>
    cases hs
    have hquiet := h.quiet_rest hr rfl
    have hreq : s.shutdownRequested = true := h.draining (hr ▸ List.mem_cons_self)
    have hp : Closing { s with reader := rest, shutdownTerminalEventsEnqueued := true } := by
      have hpop : Closing { s with reader := rest } := h.pop hr rfl rfl rfl (.inl rfl)
      exact ⟨hpop.script, hpop.readNoMore, hpop.draining, fun _ => ⟨hreq, hquiet⟩, hpop.noAck, hpop.lost⟩
    unfold PyServer.notifyAll
    split
    · rename_i hwaiting
      refine ⟨hp.script, hp.readNoMore, hp.draining, hp.enqueued, hp.noAck, ?_⟩
      refine hp.lost.imp_right ?_
      rintro ⟨id, hdead⟩
      rw [hwaiting] at hdead
      cases hdead
    · exact hp
  | returned ids =>
    cases hs
    exact h.pop hr rfl rfl rfl (.inl rfl)

theorem Closing.frame (cfg : Config) (h : Closing s) (hr : s.reader = .readLoop :: rest) (c : Command)
    (hf : (handleFrame cfg s c).fatalError = false) : Closing (handleFrame cfg s c) := by
  have hopen : s.shutdownRequested ≠ true := fun hs => h.readNoMore hs (hr ▸ List.mem_cons_self)
  have hlate : s.shutdownTerminalEventsEnqueued ≠ true := fun he => hopen (h.enqueued he).1
  have hreader : Act.shutdownTerminalEventsEnqueued ∉ s.reader := fun hm => hopen (h.draining hm)
  rcases frame_replied cfg s c with hreplied | heq | ⟨-, heq⟩
  · have hflags := hreplied.flags
    simp only [shutdownFlags, Prod.mk.injEq] at hflags
    obtain ⟨acts, hacts, hreply⟩ := hreplied.reader
    constructor
    · rw [hacts]
      exact h.script.push fun a ha => (isReply_spec (hreply a ha)).1
    · rw [hflags.1]
      exact fun hs => absurd hs hopen
    · rw [hacts]
      intro hm
      rcases List.mem_append.mp hm with hm | hm
      · cases hreply _ hm
      · exact absurd hm hreader
    · rw [hflags.2.2]
      exact fun he => absurd he hlate
    · rw [hacts]
      intro a ha
      rcases List.mem_append.mp ha with ha | ha
      · exact (isReply_spec (hreply a ha)).2
      · exact h.noAck a ha
    · rw [hreplied.lost]
      refine h.lost.imp_right ?_
      rintro ⟨id, hdead⟩
      exact ⟨id, hreplied.engine.dead hdead⟩
  · rw [heq] at hf
    cases hf
  · have hrest := h.quiet_rest hr rfl
    have hnew : handleFrame cfg s c = { s with reader := .requestShutdown true :: rest } := by
      rw [heq, hr, List.tail_cons]
    rw [hnew]
    refine ⟨script_cons hrest, fun hs => absurd hs hopen, ?_, fun he => absurd he hlate, ?_, h.lost⟩
    · intro hm
      rcases List.mem_cons.mp hm with heq | hm
      · cases heq
      · exact absurd (hr ▸ List.mem_cons_of_mem _ hm) hreader
    · intro a ha
      rcases List.mem_cons.mp ha with rfl | ha
      · rfl
      · exact isQuiet_spec (hrest a ha)

theorem Closing.engine {e : EngineEv} (h : Closing s) (hinv : Inv cfg s.tables s.engine.role)
    (hs : stepEngine cfg s e = some s') : Closing s' := by
  have hreader := (engine_frame hs).reader
  have hlost : (∀ id, s.engine ≠ .dead id) → s.lost = [] := by
    intro halive
    refine h.lost.resolve_right ?_
    rintro ⟨id, hdead⟩
    exact halive id hdead
  rcases engine_ends hs with hworks | ⟨hpc, -, -, rfl⟩ | ⟨-, id, rest, hp, hmissing⟩ | ⟨hpc, rfl⟩ | ⟨hpc, rfl⟩
  · have hflags := hworks.flags
    simp only [shutdownFlags, Prod.mk.injEq] at hflags
    refine ⟨hreader ▸ h.script, ?_, ?_, ?_, hreader ▸ h.noAck, ?_⟩
    · rw [hflags.1, hreader]
      exact h.readNoMore
    · rw [hflags.1, hreader]
      exact h.draining
    · rw [hflags.2.2, hflags.1, hreader]
      exact h.enqueued
    · exact hworks.lost.imp_left fun heq => heq.trans (hlost hworks.alive)
  · exact ⟨h.script, h.readNoMore, h.draining, h.enqueued, h.noAck, .inl (hlost (by rw [hpc]; nofun))⟩
  · exact absurd hmissing (take_finds hinv hp)
  · exact ⟨h.script, h.readNoMore, h.draining, h.enqueued, h.noAck, .inl (hlost (by rw [hpc]; nofun))⟩
  · exact ⟨h.script, h.readNoMore, h.draining, h.enqueued, h.noAck, .inl (hlost (by rw [hpc]; nofun))⟩

theorem Closing.step {e : Ev} (h : Closing s) (hinv : Inv cfg s.tables s.engine.role) (hs : step cfg s e = some s')
    (hf : s'.fatalError = false) : Closing s' := by
  cases e with
  | receive c =>
    simp only [PyServer.step] at hs
    split at hs
    · rename_i rest hr
      cases hs
      exact h.frame cfg hr c hf
    · cases hs
  | eof =>
    simp only [PyServer.step] at hs
    split at hs
    · rename_i rest hr
      cases hs
      exact h.pop hr rfl rfl rfl (.inl rfl)
    · cases hs
  | reader =>
    simp only [PyServer.step] at hs
    split at hs
    · rename_i act rest hr
      exact h.runAct hr hs hf
    · cases hs
  | engine e => exact h.engine hinv hs

theorem closing_init : Closing init := by
  refine ⟨script_cons fun a ha => by rw [List.mem_singleton.mp ha]; rfl, nofun, ?_, nofun, ?_, .inl rfl⟩
  · simp [init]
  · simp [init, Act.sendsAck]

end Closing

/-! ## The ack is the last frame -/

/-- The terminal frames sent, due or lost are at least those owed. -/
theorem reach_owed_le {cfg : Config} {ok : St → Ev → Prop} {s : St} (h : Reach (step cfg) ok init s) :
    ∀ r, owed s.tables r ≤ answers s r := by
  refine h.inv (I := fun s => ∀ r, owed s.tables r ≤ answers s r) (fun _ => Nat.le_refl _) ?_
  intro s e s' hr hi _ hs r
  obtain ⟨d, ha, ho, -⟩ := effect_delta (step_effect False False.elim hs) (reach_inv hr) r
  have := hi r
  simp only [view] at ha ho
  omega

structure Ending (s : St) : Prop where
  ended : s.engine.hasEnded = true →
    s.shutdownTerminalEventsEnqueued = true ∧ ∀ id ∈ s.tables.admitted, id ∈ answered s.handed
  before : s.engine ≠ .exited → ∀ h ∈ s.handed, h.frame.isAck = false
  log : AckLast s

section Ending

variable {cfg : Config} {s s' : St} {act : Act} {rest : List Act}

theorem dueIn_quiet {acts : List Act} (h : ∀ a ∈ acts, a.isQuiet = true) : dueIn acts = [] := by
  refine List.filterMap_eq_nil_iff.mpr fun a ha => ?_
  have hquiet := h a ha
  cases a with
  | send f => cases hquiet
  | _ => rfl

/-- With an idle engine thread, an empty queue and a quiet reader nobody is owed a frame. -/
theorem all_answered (hinv : Inv cfg s.tables s.engine.role) (howed : ∀ r, owed s.tables r ≤ answers s r)
    (hc : Closing s) (hpc : s.engine = .take) (hp : s.tables.pending = [])
    (hquiet : ∀ a ∈ s.reader, a.isQuiet = true) : ∀ id ∈ s.tables.admitted, id ∈ answered s.handed := by
  intro id hid
  have hgone : id ∉ s.tables.physical := by
    intro hm
    rcases hinv.heldBy id hm with hm | hm
    · rw [hp] at hm
      cases hm
    · rw [hpc] at hm
      cases hm
  have hlost : s.lost = [] := by
    refine hc.lost.resolve_right ?_
    rintro ⟨i, hdead⟩
    rw [hpc] at hdead
    cases hdead
  have hcount := howed id
  rw [owed_released hgone hid, answers, dueIn_quiet hquiet, hlost, hpc] at hcount
  refine List.count_pos_iff.mp ?_
  simpa [EnginePc.role, Role.due] using hcount

/-- More frames, none of them an ack. -/
theorem no_ack_after {by_ : Thread} (hnone : ∀ x ∈ s.handed, x.frame.isAck = false)
    (hhanded : s'.handed = s.handed ∨ ∃ f, OutFrame.isAck f = false ∧ s'.handed = s.handed ++ [⟨by_, f⟩]) :
    ∀ x ∈ s'.handed, x.frame.isAck = false := by
  rcases hhanded with heq | ⟨f, hack, heq⟩
  · rw [heq]
    exact hnone
  · rw [heq]
    intro x hx
    rcases List.mem_append.mp hx with hx | hx
    · exact hnone x hx
    · rw [List.mem_singleton.mp hx]
      exact hack

theorem Ending.engine {e : EngineEv} (h : Ending s) (hc : Closing s) (hinv : Inv cfg s.tables s.engine.role)
    (howed : ∀ r, owed s.tables r ≤ answers s r) (hs : stepEngine cfg s e = some s') : Ending s' := by
  rcases engine_ends hs with hworks | ⟨hpc, hp, henq, rfl⟩ | ⟨-, id, rest, hp, hmissing⟩ | ⟨hpc, rfl⟩ | ⟨hpc, rfl⟩
  · have hrunning : s.engine ≠ .exited := by
      intro heq
      have := hworks.before
      rw [heq] at this
      cases this
    have hnone := no_ack_after (h.before hrunning) hworks.handed
    refine ⟨fun hended => ?_, fun _ => hnone, sealed_of_open hnone⟩
    rw [hworks.after] at hended
    cases hended
  · have hnone := h.before (by rw [hpc]; nofun)
    have hall := all_answered hinv howed hc hpc hp (hc.enqueued henq).2
    exact ⟨fun _ => ⟨henq, hall⟩, fun _ => hnone, h.log⟩
  · exact absurd hmissing (take_finds hinv hp)
  · have hended := h.ended (by rw [hpc]; rfl)
    exact ⟨fun _ => hended, fun _ => h.before (by rw [hpc]; nofun), h.log⟩
  · have hended := h.ended (by rw [hpc]; rfl)
    refine ⟨fun _ => ⟨hended.1, fun id hid => ?_⟩, fun hne => absurd rfl hne, ?_⟩
    · show id ∈ answered (s.handed ++ _)
      rw [answered_append]
      exact List.mem_append_left _ (hended.2 id hid)
    · exact sealed_snoc (h.before (by rw [hpc]; nofun)) hended.2

/-- The reader's side of a step: nothing once the terminals are enqueued, no ack before. -/
theorem Ending.reader (h : Ending s) (hengine : Woken s s')
    (hhanded : s'.handed = s.handed ∨ ∃ f, OutFrame.isAck f = false ∧ s'.handed = s.handed ++ [⟨.reader, f⟩])
    (hquiet : s.shutdownTerminalEventsEnqueued = true → s'.shutdownTerminalEventsEnqueued = true ∧
      s'.handed = s.handed ∧ s'.tables.admitted = s.tables.admitted) : Ending s' := by
  have hended : s'.engine.hasEnded = s.engine.hasEnded := by
    rcases hengine with heq | ⟨hpc, hpc'⟩
    · rw [heq]
    · rw [hpc, hpc']
      rfl
  by_cases henq : s.shutdownTerminalEventsEnqueued = true
  · obtain ⟨henq', hsame, hadm⟩ := hquiet henq
    constructor
    · rw [hended, hsame, hadm]
      exact fun he => ⟨henq', (h.ended he).2⟩
    · rw [hsame]
      intro hne
      refine h.before fun heq => hne ?_
      rcases hengine with hsame | ⟨hpc, -⟩
      · exact hsame.trans heq
      · rw [heq] at hpc
        cases hpc
    · rw [AckLast, hsame, hadm]
      exact h.log
  · have hopen : s.engine.hasEnded = false := by
      by_contra he
      rw [Bool.not_eq_false] at he
      exact henq (h.ended he).1
    have hrunning : s.engine ≠ .exited := by
      intro heq
      rw [heq] at hopen
      cases hopen
    have hnone := no_ack_after (h.before hrunning) hhanded
    refine ⟨fun he => ?_, fun _ => hnone, sealed_of_open hnone⟩
    rw [hended, hopen] at he
    cases he

theorem Ending.runAct (h : Ending s) (hc : Closing s) (hr : s.reader = act :: rest)
    (hs : runAct cfg { s with reader := rest } act = some s') (hf : s'.fatalError = false) : Ending s' := by
  have hquiet : s.shutdownTerminalEventsEnqueued = true → act.isQuiet = true :=
    fun henq => (hc.enqueued henq).2 act (hr ▸ List.mem_cons_self)
  cases act with
  | readLoop => cases hs
  | send f =>
    simp only [PyServer.runAct] at hs
    split at hs <;> cases hs
    · exact h.reader (.inl rfl) (.inr ⟨f, hc.noAck (.send f) (hr ▸ List.mem_cons_self), rfl⟩)
        fun henq => by cases hquiet henq
    · cases hf
  | emitFinished id =>
    simp only [PyServer.runAct] at hs
    split at hs <;> cases hs
    · cases hf
    · exact h.reader (.inl rfl) (.inl rfl) fun henq => by cases hquiet henq
  | notifyAll =>
    cases hs
    exact h.reader (woken_notifyAll { s with reader := rest }) (.inl (notifyAll_handed _)) fun henq => by cases hquiet henq
  | requestShutdown sendAck =>
    cases hs
    unfold PyServer.requestShutdown
    split
    · let t : St := { s with
        reader := rest
        shutdownAckNeeded := s.shutdownAckNeeded || sendAck
        shutdownTerminalEventsEnqueued := true }
      have hflags := notifyAll_flags t
      simp only [shutdownFlags, Prod.mk.injEq] at hflags
      exact h.reader (woken_notifyAll t) (.inl (notifyAll_handed t))
        fun _ => ⟨hflags.2.2, notifyAll_handed t, congrArg Tables.admitted (notifyAll_tables t)⟩
    · rename_i hnot
      exact h.reader (.inl rfl) (.inl rfl) fun henq => absurd (hc.enqueued henq).1 hnot
  | shutdownTerminalEventsEnqueued =>
    cases hs
    exact h.reader (woken_notifyAll { s with reader := rest, shutdownTerminalEventsEnqueued := true })
      (.inl (notifyAll_handed _)) fun henq => by cases hquiet henq
  | returned ids =>
    cases hs
    exact h.reader (.inl rfl) (.inl rfl) fun henq => ⟨henq, rfl, rfl⟩

theorem Ending.step {e : Ev} (h : Ending s) (hc : Closing s) (hinv : Inv cfg s.tables s.engine.role)
    (howed : ∀ r, owed s.tables r ≤ answers s r) (hs : step cfg s e = some s') (hf : s'.fatalError = false) :
    Ending s' := by
  -- the reader reads only before the terminals are enqueued
  have hlate : ∀ rest, s.reader = .readLoop :: rest → s.shutdownTerminalEventsEnqueued ≠ true := by
    intro rest hr henq
    exact hc.readNoMore (hc.enqueued henq).1 (hr ▸ List.mem_cons_self)
  cases e with
  | receive c =>
    simp only [PyServer.step] at hs
    split at hs
    · rename_i rest hr
      cases hs
      rcases frame_replied cfg s c with hreplied | heq | ⟨-, heq⟩
      · exact h.reader hreplied.engine (.inl hreplied.handed) fun henq => absurd henq (hlate rest hr)
      · rw [heq] at hf
        cases hf
      · rw [heq]
        exact h.reader (.inl rfl) (.inl rfl) fun henq => absurd henq (hlate rest hr)
    · cases hs
  | eof =>
    simp only [PyServer.step] at hs
    split at hs
    · rename_i rest hr
      cases hs
      exact h.reader (.inl rfl) (.inl rfl) fun henq => absurd henq (hlate rest hr)
    · cases hs
  | reader =>
    simp only [PyServer.step] at hs
    split at hs
    · rename_i act rest hr
      exact h.runAct hc hr hs hf
    · cases hs
  | engine e => exact h.engine hc hinv howed hs

theorem cancel_fatal (s : St) (id : RequestId) : (handleCancel s id).fatalError = s.fatalError := by
  have hnotify : ∀ s : St, (notifyAll s).fatalError = s.fatalError := by
    intro s
    unfold notifyAll
    split <;> rfl
  unfold handleCancel
  split
  · rfl
  split
  · split <;> exact hnotify s
  split
  · split
    · exact hnotify { s with tables := s.tables.cancelQueued id }
    · exact hnotify { s with tables := s.tables.setSlot id ({ · with state := .running, cancelEvent := true }) }
  · simp only
    split <;> exact hnotify { s with tables := s.tables.cancelRunning id }

theorem frame_fatal (c : Command) (h : s.fatalError = true) : (handleFrame cfg s c).fatalError = true := by
  cases c with
  | refused id e => exact h
  | raises => rfl
  | hello id =>
    simp only [handleFrame, handleHello]
    split <;> exact h
  | ping id sequence =>
    simp only [handleFrame, handlePing]
    split <;> exact h
  | synthesize id parsed =>
    simp only [handleFrame, handleSynthesize]
    split
    · exact h
    split
    · exact h
    split
    · exact h
    cases parsed with
    | raises => rfl
    | refused e => exact h
    | request request =>
      simp only [admission]
      split
      · exact h
      · split <;> exact h
  | cancel id =>
    simp only [handleFrame]
    split
    · exact h
    · exact (cancel_fatal s id).trans h
  | shutdown id modeIsCancel =>
    simp only [handleFrame, handleShutdown]
    split
    · exact h
    · split <;> exact h

theorem act_fatal (h : runAct cfg s act = some s') (hf : s.fatalError = true) : s'.fatalError = true := by
  cases act with
  | readLoop => cases h
  | send f =>
    simp only [runAct] at h
    split at h <;> cases h
    · exact hf
    · rfl
  | emitFinished id =>
    simp only [runAct] at h
    split at h <;> cases h
    · rfl
    · exact hf
  | notifyAll =>
    cases h
    unfold notifyAll
    split <;> exact hf
  | requestShutdown sendAck =>
    cases h
    unfold requestShutdown notifyAll
    split
    · split <;> exact hf
    · exact hf
  | shutdownTerminalEventsEnqueued =>
    cases h
    unfold notifyAll
    split <;> exact hf
  | returned ids =>
    cases h
    exact hf

/-- A fatal error is never taken back. -/
theorem fatal_step {e : Ev} (hs : step cfg s e = some s') (hf : s.fatalError = true) : s'.fatalError = true := by
  cases e with
  | receive c =>
    simp only [step] at hs
    split at hs
    · cases hs
      exact frame_fatal c hf
    · cases hs
  | eof =>
    simp only [step] at hs
    split at hs <;> cases hs
    exact hf
  | reader =>
    simp only [step] at hs
    split at hs
    · exact act_fatal hs hf
    · cases hs
  | engine e => exact (engine_frame hs).flags.2.1.trans hf

theorem ending_init : Ending init :=
  ⟨nofun, fun _ _ hm => (List.not_mem_nil hm).elim, sealed_of_open fun _ hm => (List.not_mem_nil hm).elim⟩

/-- Absent a fatal error, the ack closes what is handed over. -/
theorem reach_ackLast {ok : St → Ev → Prop} (h : Reach (step cfg) ok init s) (hf : s.fatalError = false) : AckLast s := by
  suffices hending : s.fatalError = false → Closing s ∧ Ending s from (hending hf).2.log
  refine h.inv (I := fun s => s.fatalError = false → Closing s ∧ Ending s) (fun _ => ⟨closing_init, ending_init⟩) ?_
  intro s e s' hr hi _ hs hf'
  have hf : s.fatalError = false := by
    by_contra hfatal
    rw [Bool.not_eq_false] at hfatal
    rw [fatal_step hs hfatal] at hf'
    cases hf'
  obtain ⟨hc, hending⟩ := hi hf
  exact ⟨hc.step (reach_inv hr) hs hf', hending.step hc (reach_inv hr) (reach_owed_le hr) hs hf'⟩

end Ending

/-! ## The ack follows a shutdown -/

/-- No shutdown was accepted. -/
structure Unasked (s : St) : Prop where
  needed : s.shutdownAckNeeded = false
  reader : Act.requestShutdown true ∉ s.reader
  noAck : ∀ a ∈ s.reader, a.sendsAck = false
  engine : s.engine ≠ .sendAck
  handed : ∀ h ∈ s.handed, h.frame.isAck = false

section Unasked

variable {cfg : Config} {s s' : St} {act : Act} {rest : List Act}

theorem Woken.ne_sendAck (h : Woken s s') (hne : s.engine ≠ .sendAck) : s'.engine ≠ .sendAck := by
  rcases h with heq | ⟨-, heq⟩
  · exact heq ▸ hne
  · rw [heq]
    nofun

/-- The reader gets acts that neither ask for the ack nor send it. -/
theorem Unasked.reads (h : Unasked s) (hneeded : s'.shutdownAckNeeded = s.shutdownAckNeeded)
    (hreader : ∀ a ∈ s'.reader, a ∈ s.reader ∨ a.sendsAck = false ∧ a ≠ .requestShutdown true) (hengine : Woken s s')
    (hhanded : s'.handed = s.handed ∨ ∃ f, OutFrame.isAck f = false ∧ s'.handed = s.handed ++ [⟨.reader, f⟩]) :
    Unasked s' := by
  refine ⟨hneeded.trans h.needed, ?_, ?_, hengine.ne_sendAck h.engine, no_ack_after h.handed hhanded⟩
  · intro hm
    rcases hreader _ hm with hm | ⟨-, hne⟩
    · exact h.reader hm
    · exact hne rfl
  · intro a ha
    rcases hreader a ha with hm | ⟨hack, -⟩
    · exact h.noAck a hm
    · exact hack

theorem Unasked.unwind (h : Unasked s) : Unasked (unwind s) :=
  h.reads rfl (fun _ ha => .inl (List.mem_filter.mp ha).1) (.inl rfl) (.inl rfl)

theorem reply_unasked {a : Act} (h : a.isReply = true) : a.sendsAck = false ∧ a ≠ .requestShutdown true := by
  refine ⟨(isReply_spec h).2, ?_⟩
  rintro rfl
  cases h

theorem Unasked.runAct (h : Unasked s) (hr : s.reader = act :: rest)
    (hs : runAct cfg { s with reader := rest } act = some s') : Unasked s' := by
  have hrest : ∀ a ∈ rest, a ∈ s.reader := fun a ha => hr ▸ List.mem_cons_of_mem _ ha
  have hpop : Unasked { s with reader := rest } := h.reads rfl (fun a ha => .inl (hrest a ha)) (.inl rfl) (.inl rfl)
  cases act with
  | readLoop => cases hs
  | send f =>
    have hack : f.isAck = false := h.noAck (.send f) (hr ▸ List.mem_cons_self)
    simp only [PyServer.runAct] at hs
    split at hs <;> cases hs
    · exact hpop.reads rfl (fun a ha => .inl ha) (.inl rfl) (.inr ⟨f, hack, rfl⟩)
    · refine Unasked.unwind (hpop.reads rfl (fun a ha => ?_) (.inl rfl) (.inl rfl))
      rcases List.mem_cons.mp ha with rfl | ha
      · exact .inr ⟨hack, fun hadmits => by cases hadmits⟩
      · exact .inl ha
  | emitFinished id =>
    simp only [PyServer.runAct] at hs
    split at hs <;> cases hs
    · exact hpop.unwind
    · exact hpop
  | notifyAll =>
    cases hs
    let t : St := { s with reader := rest }
    have hflags := notifyAll_flags t
    simp only [shutdownFlags, Prod.mk.injEq] at hflags
    exact hpop.reads hflags.2.1 (fun a ha => .inl (notifyAll_reader t ▸ ha)) (woken_notifyAll t) (.inl (notifyAll_handed t))
  | requestShutdown sendAck =>
    have hsend : sendAck = false := by
      by_contra hsend
      rw [Bool.not_eq_false] at hsend
      rw [hsend] at hr
      exact h.reader (hr ▸ List.mem_cons_self)
    cases hs
    unfold PyServer.requestShutdown
    split
    · let t : St := { s with
        reader := rest
        shutdownAckNeeded := s.shutdownAckNeeded || sendAck
        shutdownTerminalEventsEnqueued := true }
      have hflags := notifyAll_flags t
      simp only [shutdownFlags, Prod.mk.injEq] at hflags
      have hneeded : t.shutdownAckNeeded = s.shutdownAckNeeded := by simp [t, hsend]
      exact hpop.reads (hflags.2.1.trans hneeded) (fun a ha => .inl (notifyAll_reader t ▸ ha)) (woken_notifyAll t)
        (.inl (notifyAll_handed t))
    · refine hpop.reads ?_ (fun a ha => ?_) (.inl rfl) (.inl rfl)
      · exact hsend.trans h.needed.symm
      · rcases List.mem_append.mp ha with ha | ha
        · rcases List.mem_append.mp ha with ha | ha
          · exact .inr (reply_unasked (shutdownActs_isReply _ a ha))
          · refine .inr ?_
            rcases List.mem_pair.mp ha with rfl | rfl <;> exact ⟨rfl, fun hadmits => by cases hadmits⟩
        · exact .inl ha
  | shutdownTerminalEventsEnqueued =>
    cases hs
    let t : St := { s with reader := rest, shutdownTerminalEventsEnqueued := true }
    have hflags := notifyAll_flags t
    simp only [shutdownFlags, Prod.mk.injEq] at hflags
    exact hpop.reads hflags.2.1 (fun a ha => .inl (notifyAll_reader t ▸ ha)) (woken_notifyAll t) (.inl (notifyAll_handed t))
  | returned ids =>
    cases hs
    exact hpop.reads rfl (fun a ha => .inl ha) (.inl rfl) (.inl rfl)

theorem Unasked.engine_step {e : EngineEv} (h : Unasked s) (hinv : Inv cfg s.tables s.engine.role)
    (hs : stepEngine cfg s e = some s') : Unasked s' := by
  have hreader := (engine_frame hs).reader
  rcases engine_ends hs with hworks | ⟨-, -, -, rfl⟩ | ⟨-, id, rest, hp, hmissing⟩ | ⟨-, rfl⟩ | ⟨hpc, -⟩
  · have hflags := hworks.flags
    simp only [shutdownFlags, Prod.mk.injEq] at hflags
    refine ⟨hflags.2.1.trans h.needed, hreader ▸ h.reader, hreader ▸ h.noAck, ?_, no_ack_after h.handed hworks.handed⟩
    intro heq
    have := hworks.after
    rw [heq] at this
    cases this
  · exact ⟨h.needed, h.reader, h.noAck, nofun, h.handed⟩
  · exact absurd hmissing (take_finds hinv hp)
  · refine ⟨h.needed, h.reader, h.noAck, ?_, h.handed⟩
    simp [goto, h.needed]
  · exact absurd hpc h.engine

theorem Unasked.step {e : Ev} (h : Unasked s) (hinv : Inv cfg s.tables s.engine.role) (hok : e.shutsDown = false)
    (hs : step cfg s e = some s') : Unasked s' := by
  cases e with
  | receive c =>
    simp only [PyServer.step] at hs
    split at hs
    · cases hs
      rcases frame_replied cfg s c with hreplied | heq | ⟨rfl, -⟩
      · have hflags := hreplied.flags
        simp only [shutdownFlags, Prod.mk.injEq] at hflags
        obtain ⟨acts, hacts, hreply⟩ := hreplied.reader
        refine h.reads hflags.2.1 (fun a ha => ?_) hreplied.engine (.inl hreplied.handed)
        rw [hacts] at ha
        rcases List.mem_append.mp ha with ha | ha
        · exact .inr (reply_unasked (hreply a ha))
        · exact .inl ha
      · rw [heq]
        exact h.unwind
      · cases hok
    · cases hs
  | eof =>
    simp only [PyServer.step] at hs
    split at hs
    · rename_i rest hr
      cases hs
      exact h.reads rfl (fun a ha => .inl (hr ▸ List.mem_cons_of_mem _ ha)) (.inl rfl) (.inl rfl)
    · cases hs
  | reader =>
    simp only [PyServer.step] at hs
    split at hs
    · rename_i act rest hr
      exact h.runAct hr hs
    · cases hs
  | engine e => exact h.engine_step hinv hs

theorem reach_unasked (h : Reach (step cfg) (fun _ e => e.shutsDown = false) init s) :
    ∀ x ∈ s.handed, x.frame.isAck = false := by
  have hunasked : Unasked s := by
    refine h.inv ⟨rfl, ?_, ?_, ?_, fun _ hm => (List.not_mem_nil hm).elim⟩ ?_
    · simp [init]
    · simp [init, Act.sendsAck]
    · simp [init]
    · intro s e s' hr hu hok hs
      exact hu.step (reach_inv hr) hok hs
  exact hunasked.handed

end Unasked

end QwenTtsBridge.Worker.PyServer
