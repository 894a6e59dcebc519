/-
  QwenTtsBridge.Session.Moves — what the steps of a session are made of.

  Every region under the mutex is a sequence of a few updates, each with what the code has
  checked before it (`Move`). `step_moves` says so once; what is kept by every move holds
  in every reachable state (`reach_moves`).
-/

import QwenTtsBridge.Session.WorkerSession
import Mathlib.Logic.Relation

namespace QwenTtsBridge.Session

open QwenTtsBridge.Protocol.Control QwenTtsBridge.Protocol.Framing QwenTtsBridge.Lib.Transition

variable (lib : JsonLibrary) (options : WorkerSessionOptions)

/-- What is checked before a regular event other than `ready` is enqueued. -/
def Admissible (s : St) : WorkerSessionEvent → Prop
  | .control id message =>
    controlMessageType message ≠ .ready ∧ isControlMessageAllowed s id (controlMessageType message) = true
  | .audio id _ => s.state = .ready ∧ id ≠ 0
  | .workerError _ _ => s.state ≠ .starting
  | .localEvent _ _ => False

/-- Worker errors and the session's own events, which may be exempt from the limits. -/
def WorkerSessionEvent.isDiagnostic : WorkerSessionEvent → Bool
  | .workerError _ _ | .localEvent _ _ => true
  | _ => false

inductive Move : St → St → Prop
  | parser (s : St) (parser : FrameParser) : Move s { s with parser }
  | calls (s : St) (calls : List (List Act)) : Move s { s with calls }
  | begin {s : St} : startRefused options s = false → Move s (startBegin s)
  | state {s : St} {state : WorkerSessionState} :
    state.live = false → s.startAttempted = true → Move s (setState s state)
  | exempt {s : St} {event : WorkerSessionEvent} :
    event.isDiagnostic = true → s.startAttempted = true → Move s (pushBack s event .exempt)
  | regular {s : St} {event : WorkerSessionEvent} :
    s.eventQueueOverflowed = false → isFull options s event = false → Admissible s event → s.startAttempted = true →
      Move s (pushBack s event .regular)
  | ready {s : St} (message : ReadyMessage) :
    s.eventQueueOverflowed = false → isFull options s (.control 0 (.ready message)) = false → s.state = .starting →
      s.startAttempted = true →
      Move s (setState { pushBack s (.control 0 (.ready message)) .regular with readyMessage := message } .ready)
  | overflow {s : St} {event : WorkerSessionEvent} :
    s.eventQueueOverflowed = false → isFull options s event = true → s.startAttempted = true →
      Move s (pushBack (fail { s with eventQueueOverflowed := true }) overflowEvent .overflow)
  | handed (s : St) (id : RequestId) (message : ControlMessage) :
    s.startAttempted = true → Move s { s with log := s.log ++ [.handed id message] }
  | shutdown {s : St} {mode : CppString} :
    .handed 0 (.shutdown mode) ∈ s.log → s.startAttempted = true → Move s { s with shutdownRequested := true }
  | wait {s : St} {event : WorkerSessionEvent} {events : List WorkerSessionEvent} :
    s.events = event :: events → Move s { s with
      events
      queuedEventBytes := s.queuedEventBytes - min s.queuedEventBytes (eventPayloadSize event)
      returned := s.returned ++ [event] }

abbrev Moves : St → St → Prop := Relation.ReflTransGen (Move options)

section Basics

variable {options : WorkerSessionOptions} {s s' : St}

@[simp] theorem setState_startAttempted (s : St) (st : WorkerSessionState) :
    (setState s st).startAttempted = s.startAttempted := rfl

@[simp] theorem pushBack_startAttempted (s : St) (e : WorkerSessionEvent) (l : Limit) :
    (pushBack s e l).startAttempted = s.startAttempted := rfl

@[simp] theorem fail_startAttempted (s : St) : (fail s).startAttempted = s.startAttempted := by
  unfold fail
  split <;> rfl

theorem move_startAttempted (h : Move options s s') (ha : s.startAttempted = true) : s'.startAttempted = true := by
  cases h with
  | begin h => rfl
  | overflow h1 h2 h3 => simpa using ha
  | _ => exact ha

theorem moves_startAttempted (h : Moves options s s') (ha : s.startAttempted = true) : s'.startAttempted = true := by
  induction h with
  | refl => exact ha
  | tail _ hm ih => exact move_startAttempted hm ih

theorem moves_fail (ha : s.startAttempted = true) : Moves options s (fail s) := by
  unfold fail
  split
  · exact .single (.state rfl ha)
  · exact .refl

@[simp] theorem enqueueExempt_eq (options : WorkerSessionOptions) (s : St) (event : WorkerSessionEvent) :
    enqueueEvent options s event true = (pushBack s event .exempt, false) := by
  simp [enqueueEvent]

theorem moves_enqueueExempt {event : WorkerSessionEvent} (he : event.isDiagnostic = true) (ha : s.startAttempted = true) :
    Moves options s (enqueueEvent options s event true).1 := by
  rw [enqueueExempt_eq]
  exact .single (.exempt he ha)

theorem moves_failWithEvent {event : WorkerSessionEvent} (he : event.isDiagnostic = true) (ha : s.startAttempted = true) :
    Moves options s (failWithEvent options s event true).1 :=
  (moves_fail ha).trans (moves_enqueueExempt he (by simpa using ha))

/-- A regular event is enqueued, or the queue overflows, or it has overflowed. -/
theorem enqueueRegular_cases (options : WorkerSessionOptions) (s : St) (event : WorkerSessionEvent) :
    (s.eventQueueOverflowed = false ∧ isFull options s event = true ∧
      enqueueEvent options s event false =
        (pushBack (fail { s with eventQueueOverflowed := true }) overflowEvent .overflow, true)) ∨
    (s.eventQueueOverflowed = true ∧ enqueueEvent options s event false = (s, true)) ∨
    (s.eventQueueOverflowed = false ∧ isFull options s event = false ∧
      enqueueEvent options s event false = (pushBack s event .regular, false)) := by
  unfold enqueueEvent
  cases ho : s.eventQueueOverflowed <;> cases hf : isFull options s event <;> simp

theorem moves_enqueueRegular {event : WorkerSessionEvent} (he : Admissible s event) (ha : s.startAttempted = true) :
    Moves options s (enqueueEvent options s event false).1 := by
  rcases enqueueRegular_cases options s event with ⟨ho, hf, heq⟩ | ⟨-, heq⟩ | ⟨ho, hf, heq⟩
  · rw [heq]
    exact .single (.overflow ho hf ha)
  · rw [heq]
  · rw [heq]
    exact .single (.regular ho hf he ha)

end Basics

/-! ## Frames -/

section Frames

variable {lib : JsonLibrary} {options : WorkerSessionOptions} {s s' : St}

theorem controlMessageType_ready {m : ControlMessage} (h : controlMessageType m = .ready) : ∃ ready, m = .ready ready := by
  cases m <;> simp [controlMessageType] at h
  exact ⟨_, rfl⟩

theorem moves_handleControlFrame (frame : Frame) (ha : s.startAttempted = true) :
    Moves options s (handleControlFrame lib options s frame).1 := by
  unfold handleControlFrame
  split
  · exact moves_failWithEvent rfl ha
  · rename_i message _
    split
    · exact moves_failWithEvent rfl ha
    · rename_i hnot
      have hallowed : isControlMessageAllowed s frame.header.requestId (controlMessageType message) = true := by
        simpa using hnot
      clear hnot
      split
      · rename_i ready _
        simp only [isControlMessageAllowed, controlMessageType, if_true, Bool.and_eq_true, beq_iff_eq] at hallowed
        rw [hallowed.2]
        rcases enqueueRegular_cases options s (.control 0 (.ready ready)) with ⟨ho, hf, heq⟩ | ⟨-, heq⟩ | ⟨ho, hf, heq⟩
        · simp only [heq, if_true]
          exact .single (.overflow ho hf ha)
        · simp only [heq, if_true]
          exact .refl
        · simp only [heq, Bool.false_eq_true, if_false]
          exact .single (.ready ready ho hf hallowed.1 ha)
      · rename_i hready
        refine moves_enqueueRegular ⟨fun htype => ?_, hallowed⟩ ha
        obtain ⟨ready, rfl⟩ := controlMessageType_ready htype
        exact hready ready rfl

theorem moves_handleAudioFrame (frame : Frame) (ha : s.startAttempted = true) :
    Moves options s (handleAudioFrame options s frame).1 := by
  unfold handleAudioFrame
  split
  · exact moves_failWithEvent rfl ha
  · rename_i h
    rw [not_or, not_not] at h
    exact moves_enqueueRegular h ha

theorem moves_handleErrorFrame (frame : Frame) (ha : s.startAttempted = true) :
    Moves options s (handleErrorFrame lib options s frame).1 := by
  unfold handleErrorFrame
  split
  · exact moves_failWithEvent rfl ha
  · split
    · exact moves_failWithEvent rfl ha
    · rename_i h
      exact moves_enqueueRegular h ha

theorem moves_handleFrame (frame : Frame) (ha : s.startAttempted = true) :
    Moves options s (handleFrame lib options s frame).1 := by
  unfold handleFrame
  split
  · exact moves_handleControlFrame frame ha
  split
  · exact moves_handleAudioFrame frame ha
  split
  · exact moves_handleErrorFrame frame ha
  · exact moves_failWithEvent rfl ha

theorem moves_handleFrames (fuel : Nat) (ha : s.startAttempted = true) :
    Moves options s (handleFrames lib options fuel s) := by
  induction fuel generalizing s with
  | zero => exact .refl
  | succ fuel ih =>
    simp only [handleFrames]
    split
    · exact .single (.parser s _)
    · exact (Relation.ReflTransGen.single (.parser s _)).trans (moves_failWithEvent rfl ha)
    · rename_i parser frame _
      have hframe : Moves options s (handleFrame lib options { s with parser } frame).1 :=
        (Relation.ReflTransGen.single (.parser s parser)).trans (moves_handleFrame frame ha)
      split
      · exact hframe
      · exact hframe.trans (ih (moves_startAttempted hframe ha))

theorem moves_handleBytes (bytes : Bytes) (ha : s.startAttempted = true) :
    Moves options s (handleBytes lib options s bytes) :=
  (Relation.ReflTransGen.single (.parser s _)).trans (moves_handleFrames _ ha)

end Frames

/-! ## Calls -/

/-- A region that only a session which was started gets to. -/
def Act.isInner : Act → Bool
  | .sendControl _ _ | .stop => false
  | _ => true

/-- Before `start` nothing but the first regions of calls can run. -/
structure Attempted (s : St) : Prop where
  state : s.state ≠ .stopped → s.startAttempted = true
  calls : ∀ call ∈ s.calls, ∀ act ∈ call, act.isInner = true → s.startAttempted = true

section Calls

variable {lib : JsonLibrary} {options : WorkerSessionOptions} {s s' : St} {o : Outcome}

theorem moves_localSendError (message : CppString) (ha : s.startAttempted = true) :
    Moves options s (localSendError options s message) := by
  unfold localSendError
  split
  · exact moves_failWithEvent rfl ha
  · exact moves_enqueueExempt rfl ha

theorem moves_transportSendError (result : SendResult) (ha : s.startAttempted = true) :
    Moves options s (transportSendError options s result) := by
  unfold transportSendError
  split
  · exact moves_failWithEvent rfl ha
  · exact moves_enqueueExempt rfl ha

theorem controlMessageType_shutdown {m : ControlMessage} (h : controlMessageType m = .shutdown) :
    ∃ mode, m = .shutdown mode := by
  cases m <;> simp [controlMessageType] at h
  exact ⟨_, rfl⟩

theorem moves_sendControlFrame (caller : Caller) (id : RequestId) (message : ControlMessage)
    (ha : s.startAttempted = true) : Moves options s (sendControlFrame lib options s caller id message).1 := by
  refine (Relation.ReflTransGen.single (.handed s id message ha)).trans ?_
  unfold sendControlFrame
  split
  · exact moves_enqueueExempt rfl ha
  split
  · exact moves_localSendError _ ha
  split
  · exact moves_localSendError _ ha
  · unfold markOutboundControl
    split
    · rename_i h
      obtain ⟨mode, rfl⟩ := controlMessageType_shutdown h.2
      rw [h.1]
      exact .single (.shutdown (List.mem_append_right _ List.mem_cons_self) ha)
    · exact .refl

/-- A region changes nothing before `start`, and is made of moves after it. -/
theorem moves_runAct (hs : Attempted s) (act : Act) (hact : act.isInner = true → s.startAttempted = true) :
    Moves options s (runAct lib options s o act).1 := by
  cases act with
  | startTransport =>
    have ha := hact rfl
    simp only [runAct]
    split
    · exact .single (.state rfl ha)
    · split <;> exact .refl
  | startWait => exact .refl
  | sendControl id message => exact .refl
  | sendFrame caller id message => exact moves_sendControlFrame caller id message (hact rfl)
  | transportSend caller =>
    simp only [runAct]
    split
    · exact .refl
    · exact moves_transportSendError _ (hact rfl)
  | stop =>
    simp only [runAct]
    split
    · exact .refl
    · rename_i h
      simp only
      split
      · exact .single (.state rfl (hs.state fun hstopped => h (.inl hstopped)))
      · exact .refl
  | stopTransport sendShutdown => exact .refl
  | stopEnd =>
    simp only [runAct]
    split
    · exact .single (.state rfl (hact rfl))
    · exact .refl

/-- The regions that a region adds are inner ones only where the session was started. -/
theorem runAct_inner (hs : Attempted s) {act : Act} (hact : act.isInner = true → s.startAttempted = true) :
    ∀ a ∈ (runAct lib options s o act).2, a.isInner = true → s.startAttempted = true := by
  intro a ha hinner
  cases act with
  | sendControl id message =>
    simp only [runAct] at ha
    split at ha
    · exact (List.not_mem_nil ha).elim
    · rename_i h
      refine hs.state fun hstopped => h (.inl ?_)
      rw [hstopped]
      decide
  | stop =>
    simp only [runAct] at ha
    split at ha
    · exact (List.not_mem_nil ha).elim
    · rename_i h
      exact hs.state fun hstopped => h (.inl hstopped)
  | startTransport => exact hact rfl
  | startWait => exact hact rfl
  | sendFrame caller id message => exact hact rfl
  | transportSend caller => exact hact rfl
  | stopTransport sendShutdown => exact hact rfl
  | stopEnd => exact hact rfl

theorem moves_handleTransportError (message : CppString) (ha : s.startAttempted = true) :
    Moves options s (handleTransportError options s message) := by
  unfold handleTransportError
  split
  · exact moves_failWithEvent rfl ha
  · exact moves_enqueueExempt rfl ha

theorem moves_handleExit (ha : s.startAttempted = true) : Moves options s (handleExit options s) := by
  have henqueued : Moves options s (enqueueEvent options s (.localEvent .exited []) true).1 := moves_enqueueExempt rfl ha
  exact henqueued.trans (.single (.state rfl (moves_startAttempted henqueued ha)))

end Calls

/-! ## Steps -/

section Steps

variable {lib : JsonLibrary} {options : WorkerSessionOptions} {s s' : St} {e : Ev}

/-- A step is made of moves. -/
theorem step_moves (hs : Attempted s) (h : step lib options s e = some s') : Moves options s s' := by
  cases e with
  | start =>
    simp only [step] at h
    split at h
    · cases h
    · rename_i hrefused
      cases h
      exact (Relation.ReflTransGen.single (.begin (by simpa using hrefused))).trans (.single (.calls _ _))
  | sendControl id message =>
    cases h
    exact .single (.calls s _)
  | stop =>
    cases h
    exact .single (.calls s _)
  | run call o =>
    simp only [step] at h
    split at h
    · rename_i act rest hcall
      cases h
      refine (moves_runAct hs act fun hinner => ?_).trans (.single (.calls _ _))
      exact hs.calls _ (List.mem_of_getElem? hcall) act List.mem_cons_self hinner
    · cases h
  | waitForEvent =>
    simp only [step] at h
    split at h
    · rename_i event events hevents
      cases h
      exact .single (.wait hevents)
    · cases h
  | receive bytes =>
    simp only [step] at h
    split at h
    · rename_i ha
      cases h
      exact moves_handleBytes bytes ha
    · cases h
  | transportError message =>
    simp only [step] at h
    split at h
    · rename_i ha
      cases h
      exact moves_handleTransportError message ha
    · cases h
  | exit =>
    simp only [step] at h
    split at h
    · rename_i ha
      cases h
      exact moves_handleExit ha
    · cases h

/-- Once `start` was attempted there is nothing left to show. -/
theorem attempted_of (ha : s.startAttempted = true) : Attempted s := ⟨fun _ => ha, fun _ _ _ _ _ => ha⟩

theorem attempted_step (hs : Attempted s) (h : step lib options s e = some s') : Attempted s' := by
  by_cases ha : s.startAttempted = true
  · exact attempted_of (moves_startAttempted (step_moves hs h) ha)
  · cases e with
    | start =>
      simp only [step] at h
      split at h
      · cases h
      · cases h
        exact attempted_of rfl
    | sendControl id message =>
      cases h
      refine ⟨hs.state, fun call hcall act hact hinner => ?_⟩
      rcases List.mem_append.mp hcall with hcall | hcall
      · exact hs.calls call hcall act hact hinner
      · rw [List.mem_singleton.mp hcall, List.mem_singleton] at hact
        rw [hact] at hinner
        cases hinner
    | stop =>
      cases h
      refine ⟨hs.state, fun call hcall act hact hinner => ?_⟩
      rcases List.mem_append.mp hcall with hcall | hcall
      · exact hs.calls call hcall act hact hinner
      · rw [List.mem_singleton.mp hcall, List.mem_singleton] at hact
        rw [hact] at hinner
        cases hinner
    | run call o =>
      simp only [step] at h
      split at h
      · rename_i act rest hcall
        have hmem := List.mem_of_getElem? hcall
        have hact : act.isInner = true → s.startAttempted = true := hs.calls _ hmem act List.mem_cons_self
        -- the only regions that can run before `start` leave the session as it is
        have hsame : (runAct lib options s o act).1 = s := by
          have hstate : s.state = .stopped := by
            by_contra hne
            exact ha (hs.state hne)
          cases act with
          | sendControl id message => rfl
          | stop => simp [runAct, hstate]
          | _ => exact absurd (hact rfl) ha
        cases h
        rw [hsame]
        refine ⟨hs.state, fun c hc a hmema hinner => ?_⟩
        rcases List.mem_or_eq_of_mem_set hc with hc | rfl
        · exact hs.calls c hc a hmema hinner
        · rcases List.mem_append.mp hmema with hmema | hmema
          · show s.startAttempted = true
            exact runAct_inner hs hact a hmema hinner
          · exact hs.calls _ hmem a (List.mem_cons_of_mem _ hmema) hinner
      · cases h
    | waitForEvent =>
      simp only [step] at h
      split at h
      · cases h
        exact ⟨hs.state, hs.calls⟩
      · cases h
    | receive bytes =>
      simp only [step, if_neg ha] at h
      cases h
    | transportError message =>
      simp only [step, if_neg ha] at h
      cases h
    | exit =>
      simp only [step, if_neg ha] at h
      cases h

theorem reach_attempted {ok : St → Ev → Prop} (h : Reach (step lib options) ok init s) : Attempted s :=
  h.inv (I := Attempted) ⟨fun hne => absurd rfl hne, fun _ hcall => (List.not_mem_nil hcall).elim⟩
    fun _ _ _ _ hs _ hstep => attempted_step hs hstep

/-- Every reachable state is reached by moves. -/
theorem reach_moves {ok : St → Ev → Prop} (h : Reach (step lib options) ok init s) : Moves options init s := by
  induction h with
  | init => exact .refl
  | step e hr _ hs ih => exact ih.trans (step_moves (reach_attempted hr) hs)

/-- The invariant rule over moves. -/
theorem moves_inv {I : St → Prop} (hinit : I init) (hmove : ∀ s s', I s → Move options s s' → I s')
    (h : Moves options init s) : I s := by
  induction h with
  | refl => exact hinit
  | tail _ hm ih => exact hmove _ _ ih hm

end Steps

/-! ## Steps that read no frame -/

/-- What the calls of the client and the other callbacks of the transport log. -/
def Entry.isOwn : Entry → Bool
  | .state st => !st.live
  | .handed _ _ => true
  | .event (.localEvent type _) .exempt => type != .protocolError
  | _ => false

/-- An overflow has ended the session. -/
def EndedByOverflow (s : St) : Prop := s.eventQueueOverflowed = true → s.state.live = false

/-- The log grows by entries with `p`, and nothing is parsed or forgotten. -/
structure Extends (p : Entry → Bool) (s s' : St) : Prop where
  log : ∃ added, s'.log = s.log ++ added ∧ ∀ entry ∈ added, p entry = true
  parser : s'.parser = s.parser
  shutdown : s.shutdownRequested = true → s'.shutdownRequested = true
  startAttempted : s'.startAttempted = s.startAttempted
  overflow : EndedByOverflow s → EndedByOverflow s'

/-- Such a step, which at most ends the session. -/
structure Aside (s s' : St) : Prop where
  grows : Extends Entry.isOwn s s'
  state : s'.state = s.state ∨ s'.state.live = false

section Aside

variable {lib : JsonLibrary} {options : WorkerSessionOptions} {s s' s'' : St} {o : Outcome} {p q : Entry → Bool}

/-- The log is as it was. -/
theorem Extends.same (hlog : s'.log = s.log) (hparser : s'.parser = s.parser)
    (hshutdown : s.shutdownRequested = true → s'.shutdownRequested = true)
    (hattempted : s'.startAttempted = s.startAttempted) (hoverflow : EndedByOverflow s → EndedByOverflow s') :
    Extends p s s' :=
  ⟨⟨[], by rw [hlog, List.append_nil], fun _ h => (List.not_mem_nil h).elim⟩, hparser, hshutdown, hattempted, hoverflow⟩

/-- The log has one entry more. -/
theorem Extends.one {entry : Entry} (h : p entry = true) (hlog : s'.log = s.log ++ [entry]) (hparser : s'.parser = s.parser)
    (hshutdown : s.shutdownRequested = true → s'.shutdownRequested = true)
    (hattempted : s'.startAttempted = s.startAttempted) (hoverflow : EndedByOverflow s → EndedByOverflow s') :
    Extends p s s' := by
  refine ⟨⟨[entry], hlog, fun e he => ?_⟩, hparser, hshutdown, hattempted, hoverflow⟩
  rw [List.mem_singleton.mp he]
  exact h

theorem Extends.refl (s : St) : Extends p s s := .same rfl rfl id rfl id

theorem Extends.trans (h : Extends p s s') (h' : Extends p s' s'') : Extends p s s'' := by
  obtain ⟨added, hlog, hp⟩ := h.log
  obtain ⟨added', hlog', hp'⟩ := h'.log
  refine ⟨⟨added ++ added', ?_, fun entry hentry => ?_⟩, h'.parser.trans h.parser, h'.shutdown ∘ h.shutdown,
    h'.startAttempted.trans h.startAttempted, h'.overflow ∘ h.overflow⟩
  · rw [hlog', hlog, List.append_assoc]
  · rcases List.mem_append.mp hentry with hentry | hentry
    · exact hp entry hentry
    · exact hp' entry hentry

theorem Extends.mono (hpq : ∀ entry, p entry = true → q entry = true) (h : Extends p s s') : Extends q s s' := by
  obtain ⟨added, hlog, hp⟩ := h.log
  exact ⟨⟨added, hlog, fun entry hentry => hpq entry (hp entry hentry)⟩, h.parser, h.shutdown, h.startAttempted, h.overflow⟩

theorem extends_setState (s : St) {state : WorkerSessionState} (h : p (.state state) = true) (hlive : state.live = false) :
    Extends p s (setState s state) := .one h rfl rfl id rfl fun _ _ => hlive

theorem extends_pushBack (s : St) {event : WorkerSessionEvent} {limit : Limit} (h : p (.event event limit) = true) :
    Extends p s (pushBack s event limit) := .one h rfl rfl id rfl id

theorem Aside.refl (s : St) : Aside s s := ⟨.refl s, .inl rfl⟩

theorem Aside.trans (h : Aside s s') (h' : Aside s' s'') : Aside s s'' := by
  refine ⟨h.grows.trans h'.grows, ?_⟩
  rcases h'.state with heq | hended
  · rw [heq]
    exact h.state
  · exact .inr hended

theorem aside_setState (s : St) {state : WorkerSessionState} (h : state.live = false) : Aside s (setState s state) :=
  ⟨extends_setState s (by simp [Entry.isOwn, h]) h, .inr h⟩

theorem aside_fail (s : St) : Aside s (fail s) := by
  unfold fail
  split
  · exact aside_setState s rfl
  · exact .refl s

/-- The session's own events, protocol errors apart. -/
theorem aside_enqueueExempt (s : St) {event : WorkerSessionEvent} (h : (Entry.event event .exempt).isOwn = true) :
    Aside s (enqueueEvent options s event true).1 := by
  rw [enqueueExempt_eq]
  exact ⟨extends_pushBack s h, .inl rfl⟩

theorem aside_failWithEvent (s : St) {event : WorkerSessionEvent} (h : (Entry.event event .exempt).isOwn = true) :
    Aside s (failWithEvent options s event true).1 :=
  (aside_fail s).trans (aside_enqueueExempt _ h)

theorem aside_localSendError (s : St) (message : CppString) : Aside s (localSendError options s message) := by
  unfold localSendError
  split
  · exact aside_failWithEvent s rfl
  · exact aside_enqueueExempt s rfl

theorem aside_transportError (s : St) (message : CppString) :
    Aside s (if s.state.live then (failWithEvent options s (makeTransportError message) true).1
      else (enqueueEvent options s (makeTransportError message) true).1) := by
  split
  · exact aside_failWithEvent s rfl
  · exact aside_enqueueExempt s rfl

theorem aside_sendControlFrame (s : St) (caller : Caller) (id : RequestId) (message : ControlMessage) :
    Aside s (sendControlFrame lib options s caller id message).1 := by
  have hhanded : Aside s { s with log := s.log ++ [.handed id message] } :=
    ⟨.one rfl rfl rfl (fun h => h) rfl fun h => h, .inl rfl⟩
  refine hhanded.trans ?_
  unfold sendControlFrame
  split
  · exact aside_enqueueExempt _ rfl
  split
  · exact aside_localSendError _ _
  split
  · exact aside_localSendError _ _
  · unfold markOutboundControl
    split
    · exact ⟨.same rfl rfl (fun _ => rfl) rfl fun h => h, .inl rfl⟩
    · exact .refl _

theorem aside_runAct (s : St) (act : Act) : Aside s (runAct lib options s o act).1 := by
  cases act with
  | startTransport =>
    simp only [runAct]
    split
    · exact aside_setState s rfl
    · split <;> exact .refl s
  | startWait => exact .refl s
  | sendControl id message => exact .refl s
  | sendFrame caller id message => exact aside_sendControlFrame s caller id message
  | transportSend caller =>
    simp only [runAct]
    split
    · exact .refl s
    · exact aside_transportError s _
  | stop =>
    simp only [runAct]
    split
    · exact .refl s
    · simp only
      split
      · exact aside_setState s rfl
      · exact .refl s
  | stopTransport sendShutdown => exact .refl s
  | stopEnd =>
    simp only [runAct]
    split
    · exact aside_setState s rfl
    · exact .refl s

/-- Every step but `start` and the bytes of the worker. -/
theorem aside_step {e : Ev} (hstart : e ≠ .start) (hbytes : ∀ bytes, e ≠ .receive bytes)
    (h : step lib options s e = some s') : Aside s s' := by
  have hsame : ∀ (s : St) (calls : List (List Act)), Aside s { s with calls } :=
    fun s calls => ⟨.same rfl rfl (fun h => h) rfl fun h => h, .inl rfl⟩
  cases e with
  | start => exact absurd rfl hstart
  | receive bytes => exact absurd rfl (hbytes bytes)
  | sendControl id message =>
    cases h
    exact hsame s _
  | stop =>
    cases h
    exact hsame s _
  | run call o =>
    simp only [step] at h
    split at h
    · rename_i act rest hcall
      cases h
      exact (aside_runAct s act).trans (hsame _ _)
    · cases h
  | waitForEvent =>
    simp only [step] at h
    split at h
    · cases h
      exact ⟨.same rfl rfl (fun h => h) rfl fun h => h, .inl rfl⟩
    · cases h
  | transportError message =>
    simp only [step] at h
    split at h
    · cases h
      exact aside_transportError s message
    · cases h
  | exit =>
    simp only [step] at h
    split at h
    · cases h
      have hexit : Aside s (enqueueEvent options s (.localEvent .exited []) true).1 := aside_enqueueExempt s rfl
      exact hexit.trans (aside_setState _ rfl)
    · cases h

end Aside

end QwenTtsBridge.Session
