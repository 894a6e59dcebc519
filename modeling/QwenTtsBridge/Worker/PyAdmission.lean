/-
  QwenTtsBridge.Worker.PyAdmission — the admission accounting of the Python worker
  (`PyServer`), over every interleaving of its two threads.

  `Effect` says once what a step can do to the tables, to the request that the engine
  thread holds (`Role`) and to the terminal frames sent, due or lost (`answers`);
  `step_effect` is the proof. The invariant (`Tables.Inv`) is then one lemma for each
  region under the lock.

  Proved: `admission_accounting` — in every reachable state the admitted count is the
  number of physically held slots and within the limit, pending ids are distinct, active
  and queued, active slots are physically held, no slot is released twice, a held slot is
  pending or its `_run_one_request` has not returned, a running one keeps its slot until
  the engine call unwinds, and `_take_next_request` finds the slot of every pending id;
  and over every step the high-water mark only grows, exactly when a request is admitted.
-/

import QwenTtsBridge.Worker.PyServer

namespace QwenTtsBridge.Worker.PyServer

open QwenTtsBridge.Python QwenTtsBridge.Lib QwenTtsBridge.Lib.Transition

/-! ## What a step does to the tables -/

/-- The engine thread's hold on a request: none, running it with its slot still held, past
    `_terminalize_locked` with the terminal frame still to send, or ended by an exception. -/
inductive Role where
  | idle
  | holds (id : RequestId)
  | answers (id : RequestId)
  | died (id : RequestId)
  deriving DecidableEq, Repr

def EnginePc.role : EnginePc → Role
  | .take | .waiting | .loopEnded | .sendAck | .exited => .idle
  | .entry id | .describe id | .sendStarted id | .stream id | .chunkTest id _ | .chunkRetest id _
  | .sendAudio id _ | .raised id _ | .afterStream id | .terminalize id _ | .finishCancelled id => .holds id
  | .popTrace id | .sendTerminal id _ => .answers id
  | .dead id => .died id

/-- The request that the engine thread has still to answer. -/
def Role.due : Role → List RequestId
  | .answers id => [id]
  | _ => []

/-- The requests that were sent a terminal frame of theirs, in order. -/
def answered (handed : List Handed) : List RequestId := handed.filterMap Handed.answers

/-- The terminal frames of `r` that were sent, are due, or were lost to an exception. -/
def answers (s : St) (r : RequestId) : Nat :=
  (answered s.handed).count r + (dueIn s.reader).count r + s.engine.role.due.count r + s.lost.count r

structure View where
  tables : Tables
  role : Role
  answers : RequestId → Nat

def view (s : St) : View := ⟨s.tables, s.engine.role, answers s⟩

namespace Tables

/-- The branch of `_handle_cancel` on a pending request. -/
def cancelQueued (t : Tables) (id : RequestId) : Tables :=
  { t with pending := t.pending.erase id }.terminalizeLocked id

/-- An iteration of the drain loop of `_request_shutdown`. -/
def cancelPending (t : Tables) (id : RequestId) : Tables :=
  (t.setSlot id ({ · with cancelEvent := true })).cancelQueued id

/-- The region of `_take_next_request` when it finds the slot. -/
def take (t : Tables) (id : RequestId) (rest : List RequestId) : Tables :=
  { t with pending := rest }.setSlot id ({ · with state := .running })

/-- The region of `_finish_cancelled`. -/
def finish (t : Tables) (id : RequestId) : Tables :=
  (t.setSlot id ({ · with terminalNotified := true })).terminalizeLocked id

def notified (t : Tables) (id : RequestId) : Bool := ((t.slots id).map (·.terminalNotified)).getD true

end Tables

/-- One more terminal frame for each of `ids`. -/
def owe (a : RequestId → Nat) (ids : List RequestId) : RequestId → Nat := fun r => a r + ids.count r

/-- What one step can do, guards included. `calm` is the proviso that the engine thread ends
    a request as completed or failed only when no cancel has answered it already. -/
inductive Effect (cfg : Config) (calm : Prop) (v : View) : View → Prop
  | none : Effect cfg calm v v
  | dies (id : RequestId) : v.role = .holds id ∨ v.role = .answers id → Effect cfg calm v { v with role := .died id }
  | answered (id : RequestId) : v.role = .answers id → Effect cfg calm v { v with role := .idle }
  | accept (id : RequestId) (request : SynthesisRequest) : id ∉ v.tables.active →
      v.tables.acceptedRequestIdHighWater < id → v.tables.admittedRequests < cfg.maxAdmittedRequests →
      Effect cfg calm v { v with tables := v.tables.accept id request }
  | take (id : RequestId) (rest : List RequestId) : v.role = .idle → v.tables.pending = id :: rest →
      id ∈ v.tables.active → Effect cfg calm v { v with tables := v.tables.take id rest, role := .holds id }
  | takeMissing (id : RequestId) (rest : List RequestId) : v.role = .idle → v.tables.pending = id :: rest →
      v.tables.get? id = Option.none → Effect cfg calm v { v with tables := { v.tables with pending := rest } }
  | cancelQueued (id : RequestId) : id ∈ v.tables.pending →
      Effect cfg calm v { v with tables := v.tables.cancelQueued id, answers := owe v.answers [id] }
  | cancelUnlisted (id : RequestId) (slot : Slot) : v.tables.get? id = some slot → slot.state = .queued →
      id ∉ v.tables.pending → Effect cfg calm v
        { v with tables := v.tables.setSlot id ({ · with state := .running, cancelEvent := true }) }
  | cancelRunning (id : RequestId) (slot : Slot) : v.tables.get? id = some slot → slot.state = .running →
      Effect cfg calm v
        { v with
          tables := v.tables.cancelRunning id
          answers := if slot.terminalNotified then v.answers else owe v.answers [id] }
  | shutdown : Effect cfg calm v
      { v with
        tables := v.tables.shutdown.1
        answers := owe v.answers v.tables.shutdown.2 }
  | terminalize (id : RequestId) : v.role = .holds id → (calm → v.tables.notified id = false) →
      Effect cfg calm v
        { v with tables := v.tables.terminalizeLocked id, role := .answers id, answers := owe v.answers [id] }
  | finishNotified (id : RequestId) : v.role = .holds id → v.tables.notified id = true →
      Effect cfg calm v { v with tables := v.tables.finish id, role := .idle }
  | finishCancelled (id : RequestId) : v.role = .holds id → v.tables.notified id = false →
      Effect cfg calm v { v with tables := v.tables.finish id, role := .answers id, answers := owe v.answers [id] }

section Frames

variable {cfg : Config} {s s' : St} {r id : RequestId} {acts : List Act}

theorem view_eq {v : View} (ht : s.tables = v.tables) (hr : s.engine.role = v.role)
    (ha : ∀ r, answers s r = v.answers r) : view s = v := by
  cases v
  simp only at ht hr ha
  subst ht hr
  simp only [view, View.mk.injEq, true_and]
  exact funext ha

theorem answers_congr (hh : s'.handed = s.handed) (hr : dueIn s'.reader = dueIn s.reader)
    (he : s'.engine.role.due = s.engine.role.due) (hl : s'.lost = s.lost) (r : RequestId) :
    answers s' r = answers s r := by
  simp only [answers, hh, hr, he, hl]

@[simp] theorem dueIn_append (a b : List Act) : dueIn (a ++ b) = dueIn a ++ dueIn b := by simp [dueIn]

theorem dueIn_cons (a : Act) : dueIn (a :: acts) = a.due.toList ++ dueIn acts := by
  cases h : a.due <;> simp [dueIn, h]

@[simp] theorem dueIn_filter_isFinally : dueIn (acts.filter isFinally) = [] := by
  refine List.filterMap_eq_nil_iff.mpr fun a ha => ?_
  have hf := (List.mem_filter.mp ha).2
  cases a <;> first | rfl | cases hf

theorem view_push : view (push s acts) = { view s with answers := owe (view s).answers (dueIn acts) } := by
  refine view_eq rfl rfl fun r => ?_
  simp only [view, push, answers, owe, dueIn_append, List.count_append]
  omega

theorem view_push_silent (h : dueIn acts = []) : view (push s acts) = view s := by
  rw [view_push, h]
  rfl

@[simp] theorem view_sendError (e : ErrorMessage) : view (sendError s id e) = view s := view_push_silent rfl

@[simp] theorem view_notifyAll : view (notifyAll s) = view s := by
  unfold notifyAll
  split
  · rename_i h
    have hrole : EnginePc.take.role = s.engine.role := by rw [h]; rfl
    exact view_eq rfl hrole (answers_congr rfl rfl (congrArg Role.due hrole) rfl)
  · rfl

@[simp] theorem view_unwind : view (unwind s) = view s := by
  refine view_eq rfl rfl fun r => ?_
  simp only [view, unwind, answers, dueIn_filter_isFinally, List.count_append, List.count_nil]
  omega

theorem view_reader {acts : List Act} (h : dueIn acts = dueIn s.reader) : view { s with reader := acts } = view s := by
  exact view_eq rfl rfl (answers_congr rfl h rfl rfl)

end Frames

section Reader

variable {cfg : Config} {calm : Prop} {s s' : St} {id : RequestId} {rest : List Act} {f : OutFrame}

theorem hello_effect : Effect cfg calm (view s) (view (handleHello cfg s id)) := by
  unfold handleHello
  split
  · rw [view_sendError]; exact .none
  · rw [view_push_silent rfl]; exact .none

theorem ping_effect (sequence : Option Value) : Effect cfg calm (view s) (view (handlePing s id sequence)) := by
  unfold handlePing
  split
  · rw [view_sendError]; exact .none
  · rw [view_push_silent rfl]; exact .none

theorem admission_effect (request : SynthesisRequest) : Effect cfg calm (view s) (view (admission cfg s id request)) := by
  unfold admission
  split
  · rw [view_sendError]; exact .none
  · rename_i hdup
    obtain ⟨hactive, hwater⟩ := not_or.mp hdup
    split
    · rw [view_sendError]; exact .none
    · rename_i hfull
      rw [view_push_silent rfl]
      exact .accept id request hactive (Nat.lt_of_not_le hwater) (Int.lt_of_not_ge hfull)

theorem synthesize_effect (parsed : Parsed) : Effect cfg calm (view s) (view (handleSynthesize cfg s id parsed)) := by
  unfold handleSynthesize
  split
  · rw [view_sendError]; exact .none
  split
  · rw [view_sendError]; exact .none
  cases parsed with
  | raises => rw [view_unwind]; exact .none
  | refused e => rw [view_sendError]; exact .none
  | request request => exact admission_effect request

theorem cancel_effect : Effect cfg calm (view s) (view (handleCancel s id)) := by
  unfold handleCancel
  split
  · rw [view_sendError]; exact .none
  split
  · split
    · rw [view_sendError, view_notifyAll]; exact .none
    · rw [view_notifyAll]; exact .none
  · rename_i slot hget
    split
    · rename_i hstate
      split
      · rename_i hpending
        rw [view_push, view_notifyAll]
        exact .cancelQueued id hpending
      · rename_i hpending
        rw [view_notifyAll]
        exact .cancelUnlisted id slot hget hstate hpending
    · rename_i hstate
      have h : Effect cfg calm (view s) _ := .cancelRunning id slot hget hstate
      simp only
      split
      · rename_i hn
        rw [if_pos hn] at h
        rw [view_notifyAll]
        exact h
      · rename_i hn
        rw [if_neg hn] at h
        rw [view_push, view_notifyAll]
        exact h

theorem frame_effect (hr : s.reader = .readLoop :: rest) (c : Command) :
    Effect cfg calm (view s) (view (handleFrame cfg s c)) := by
  cases c with
  | refused id e => rw [handleFrame, view_sendError]; exact .none
  | raises => rw [handleFrame, view_unwind]; exact .none
  | hello id => exact hello_effect
  | ping id sequence => exact ping_effect sequence
  | synthesize id parsed =>
    simp only [handleFrame]
    split
    · rw [view_sendError]; exact .none
    · exact synthesize_effect parsed
  | cancel id =>
    simp only [handleFrame]
    split
    · rw [view_sendError]; exact .none
    · exact cancel_effect
  | shutdown id modeIsCancel =>
    simp only [handleFrame, handleShutdown]
    split
    · rw [view_sendError]; exact .none
    split
    · rw [view_sendError]; exact .none
    · have hv : view { s with reader := .requestShutdown true :: s.reader.tail } = view s :=
        view_reader (by rw [hr]; rfl)
      rw [hv]; exact .none

theorem requestShutdown_effect (sendAck : Bool) : Effect cfg calm (view s) (view (requestShutdown s sendAck)) := by
  unfold requestShutdown
  split
  · rw [view_notifyAll]; exact .none
  · have hdue : ∀ ids : List RequestId, dueIn (ids.flatMap (fun id => [.emitFinished id, .send (.cancelled id)]) ++
        [.shutdownTerminalEventsEnqueued, .returned ids]) = ids := by
      intro ids
      rw [dueIn_append]
      refine (List.append_nil _).trans ?_
      induction ids with
      | nil => rfl
      | cons id ids ih => exact congrArg (id :: ·) ih
    rw [view_push, hdue]
    exact .shutdown

/-- The reader hands a frame over: it was due, and now it is sent. -/
theorem view_hand_reader (hr : s.reader = .send f :: rest) : view (hand { s with reader := rest } .reader f) = view s := by
  refine view_eq rfl rfl fun r => ?_
  simp only [view, hand, answers, hr, answered, List.filterMap_append, List.count_append, dueIn_cons]
  have : List.filterMap Handed.answers [⟨.reader, f⟩] = (Act.due (.send f)).toList := by
    simp only [Act.due]
    cases h : Handed.answers ⟨.reader, f⟩ <;> simp [h]
  rw [this]
  omega

theorem act_effect {act : Act} (hr : s.reader = act :: rest) (h : runAct cfg { s with reader := rest } act = some s') :
    Effect cfg calm (view s) (view s') := by
  have drop : act.due = none → view { s with reader := rest } = view s := fun hd =>
    view_reader (by rw [hr, dueIn_cons, hd]; rfl)
  cases act with
  | readLoop => cases h
  | send f =>
    simp only [runAct] at h
    split at h
    · cases h
      rw [view_hand_reader hr]; exact .none
    · cases h
      have hv : view (push { s with reader := rest } [.send f]) = view s := view_reader (congrArg dueIn hr.symm)
      rw [view_unwind, hv]; exact .none
  | emitFinished id =>
    simp only [runAct] at h
    split at h
    · cases h
      rw [view_unwind, drop rfl]; exact .none
    · cases h
      rw [drop rfl]; exact .none
  | notifyAll =>
    cases h
    rw [view_notifyAll, drop rfl]; exact .none
  | requestShutdown sendAck =>
    cases h
    rw [← drop rfl]
    exact requestShutdown_effect sendAck
  | shutdownTerminalEventsEnqueued =>
    cases h
    rw [view_notifyAll, ← drop rfl]; exact .none
  | returned ids =>
    cases h
    rw [← drop rfl]; exact .none

end Reader

section Engine

variable {cfg : Config} {calm : Prop} {s s' : St} {id : RequestId} {pc : EnginePc}

/-- The engine thread goes on with the same request. -/
theorem view_goto (h : pc.role = s.engine.role) : view (goto s pc) = view s := by
  exact view_eq rfl h (answers_congr rfl rfl (congrArg Role.due h) rfl)

theorem view_hand_engine {f : OutFrame} (hf : Handed.answers ⟨.engine, f⟩ = none) : view (hand s .engine f) = view s := by
  refine view_eq rfl rfl fun r => ?_
  simp [view, hand, answers, answered, hf]

theorem role_onException (e : EngineError) :
    (onException id e).role = .holds id ∨ (onException id e).role = .died id := by
  cases e <;> simp [onException, EnginePc.role]

/-- A step inside `_run_one_request` that keeps the slot, or an exception that leaves it. -/
theorem goto_effect (id : RequestId) (hs : s.engine.role = .holds id) (h : pc.role = .holds id ∨ pc.role = .died id) :
    Effect cfg calm (view s) (view (goto s pc)) := by
  rcases h with h | h
  · rw [view_goto (h.trans hs.symm)]; exact .none
  · have hv : view (goto s pc) = { view s with role := .died id } := by
      refine view_eq rfl h (answers_congr rfl rfl ?_ rfl)
      show pc.role.due = s.engine.role.due
      rw [hs, h]
      rfl
    rw [hv]
    exact .dies id (.inl hs)

/-- A `started` or `audio_pcm` frame. -/
theorem speak_effect {f : OutFrame} (hs : s.engine.role = .holds id) (hf : Handed.answers ⟨.engine, f⟩ = none)
    (hpc : pc.role = .holds id) : Effect cfg calm (view s) (view (goto (hand s .engine f) pc)) := by
  have hrole : pc.role = (hand s .engine f).engine.role := hpc.trans hs.symm
  rw [view_goto hrole, view_hand_engine hf]
  exact .none

theorem take_effect (hs : s.engine = .take) : Effect cfg calm (view s) (view (takeNextRequest s)) := by
  have hrole : s.engine.role = .idle := by rw [hs]; rfl
  unfold takeNextRequest
  split
  · split
    all_goals
      rw [view_goto (by rw [hrole]; rfl)]; exact .none
  · rename_i id rest hp
    simp only
    split
    · rename_i hget
      have hv : view { s with tables := { s.tables with pending := rest }, engine := .loopEnded } =
          { view s with tables := { s.tables with pending := rest } } := by
        refine view_eq rfl hrole.symm (answers_congr rfl rfl ?_ rfl)
        rw [hrole]
        rfl
      rw [hv]
      exact .takeMissing id rest hrole hp hget
    · rename_i slot hget
      have hactive : id ∈ s.tables.active := by
        by_contra hn
        simp [Tables.get?, hn] at hget
      have hv : view { s with tables := s.tables.take id rest, engine := .entry id } =
          { view s with tables := s.tables.take id rest, role := .holds id } := by
        refine view_eq rfl rfl (answers_congr rfl rfl ?_ rfl)
        rw [hrole]
        rfl
      exact hv ▸ .take id rest hrole hp hactive

theorem dieUnanswered_effect (hs : s.engine.role = .answers id) : Effect cfg calm (view s) (view (dieUnanswered s id)) := by
  have hv : view (dieUnanswered s id) = { view s with role := .died id } := by
    refine view_eq rfl rfl fun r => ?_
    simp only [view, dieUnanswered, answers, hs, Role.due, List.count_append]
    show _ + List.count r [] + _ = _
    rw [List.count_nil]
    omega
  rw [hv]
  exact .dies id (.inr hs)

theorem finishCancelled_effect (hs : s.engine.role = .holds id) :
    Effect cfg calm (view s) (view (finishCancelled s id)) := by
  unfold finishCancelled
  simp only
  split
  · rename_i hn
    have hv : view { s with tables := s.tables.finish id, engine := .take, settled := s.settled ++ [id] } =
        { view s with tables := s.tables.finish id, role := .idle } := by
      refine view_eq rfl rfl (answers_congr rfl rfl ?_ rfl)
      rw [hs]
      rfl
    exact hv ▸ .finishNotified id hs hn
  · rename_i hn
    have hv : view { s with tables := s.tables.finish id, engine := .sendTerminal id .cancelled } =
        { view s with tables := s.tables.finish id, role := .answers id, answers := owe (view s).answers [id] } := by
      refine view_eq rfl rfl fun r => ?_
      simp only [view, answers, owe, hs, Role.due]
      show _ + List.count r [id] + _ = _
      rw [List.count_nil]
      omega
    exact hv ▸ .finishCancelled id hs (Bool.not_eq_true _ ▸ hn)

theorem next_effect (hcalm : calm → ∀ id outcome, s.engine = .terminalize id outcome → s.tables.notified id = false)
    (h : stepEngine cfg s .next = some s') : Effect cfg calm (view s) (view s') := by
  simp only [stepEngine] at h
  split at h
  · rename_i hpc
    cases h
    exact take_effect hpc
  · rename_i id hpc
    cases h
    refine goto_effect id (by rw [hpc]; rfl) (.inl ?_)
    split <;> rfl
  · -- started
    rename_i id hpc
    have hs : s.engine.role = .holds id := by rw [hpc]; rfl
    split at h
    · cases h
    · split at h
      · cases h
        exact speak_effect hs rfl rfl
      · cases h
        exact goto_effect id hs (.inr rfl)
  · rename_i id pcm hpc
    cases h
    refine goto_effect id (by rw [hpc]; rfl) (.inl ?_)
    split
    · rfl
    · split <;> rfl
  · rename_i id pcm hpc
    cases h
    refine goto_effect id (by rw [hpc]; rfl) (.inl ?_)
    split <;> rfl
  · -- audio
    rename_i id pcm hpc
    have hs : s.engine.role = .holds id := by rw [hpc]; rfl
    split at h
    · cases h
      exact speak_effect hs rfl rfl
    · cases h
      exact goto_effect id hs (.inl rfl)
  · rename_i id message hpc
    cases h
    refine goto_effect id (by rw [hpc]; rfl) (.inl ?_)
    split <;> rfl
  · rename_i id hpc
    cases h
    refine goto_effect id (by rw [hpc]; rfl) (.inl ?_)
    split <;> rfl
  · -- the completed and failed outcomes release the slot without a look at it
    rename_i id outcome hpc
    cases h
    have hs : s.engine.role = .holds id := by rw [hpc]; rfl
    have hpc' : ∀ pc : EnginePc, pc.role = .answers id →
        view { s with tables := s.tables.terminalizeLocked id, engine := pc } =
          { view s with
            tables := s.tables.terminalizeLocked id, role := .answers id, answers := owe (view s).answers [id] } := by
      intro pc hrole
      refine view_eq rfl hrole fun r => ?_
      simp only [view, answers, owe, hs, hrole, Role.due, List.count_nil]
      omega
    cases outcome with
    | completed => rw [hpc' _ rfl]; exact .terminalize id hs fun hc => hcalm hc id _ hpc
    | failed e => rw [hpc' _ rfl]; exact .terminalize id hs fun hc => hcalm hc id _ hpc
  · rename_i id hpc
    cases h
    exact finishCancelled_effect (by rw [hpc]; rfl)
  · rename_i id answer hpc
    have hs : s.engine.role = .answers id := by rw [hpc]; rfl
    split at h
    · cases h
      exact dieUnanswered_effect hs
    · cases h
      have hv : view { hand s .engine (answer.frame id) with engine := .take, settled := s.settled ++ [id] } =
          { view s with role := .idle } := by
        refine view_eq rfl rfl fun r => ?_
        have ha : Handed.answers ⟨.engine, answer.frame id⟩ = some id := by cases answer <;> rfl
        simp only [view, hand, answers, answered, hs, Role.due, List.filterMap_append,
          List.filterMap_cons, ha, List.filterMap_nil, List.count_append]
        show _ + List.count r [] + _ = _
        rw [List.count_nil]
        omega
      exact hv ▸ .answered id hs
  · rename_i hpc
    cases h
    rw [view_goto (by rw [hpc]; split <;> rfl)]; exact .none
  · rename_i hpc
    cases h
    rw [view_goto (by rw [hand, hpc]; rfl), view_hand_engine rfl]; exact .none
  · cases h

theorem engine_effect {e : EngineEv}
    (hcalm : calm → ∀ id outcome, e = .next → s.engine = .terminalize id outcome → s.tables.notified id = false)
    (h : stepEngine cfg s e = some s') : Effect cfg calm (view s) (view s') := by
  cases e with
  | next => exact next_effect (fun hc id outcome hpc => hcalm hc id outcome rfl hpc) h
  | described error =>
    simp only [stepEngine] at h
    split at h
    · rename_i id hpc
      cases h
      refine goto_effect id (by rw [hpc]; rfl) ?_
      split
      · exact .inl rfl
      · exact .inl rfl
      · exact .inr rfl
    · cases h
  | yields pcm =>
    simp only [stepEngine] at h
    split at h
    · rename_i id hpc
      cases h
      exact goto_effect id (by rw [hpc]; rfl) (.inl rfl)
    · cases h
  | ends =>
    simp only [stepEngine] at h
    split at h
    · rename_i id hpc
      cases h
      exact goto_effect id (by rw [hpc]; rfl) (.inl rfl)
    · cases h
  | raises error =>
    simp only [stepEngine] at h
    split at h
    · rename_i id hpc
      cases h
      exact goto_effect id (by rw [hpc]; rfl) (role_onException error)
    · rename_i id pcm hpc
      cases h
      exact goto_effect id (by rw [hpc]; rfl) (role_onException error)
    · cases h
  | trace t =>
    simp only [stepEngine] at h
    split at h
    · rename_i id hpc
      cases h
      rw [view_goto (by rw [hpc]; rfl)]; exact .none
    · cases h
  | traceRaises =>
    simp only [stepEngine] at h
    split at h
    · rename_i id hpc
      cases h
      exact dieUnanswered_effect (by rw [hpc]; rfl)
    · cases h

end Engine

/-- Every step of either thread is one of the effects. -/
theorem step_effect {cfg : Config} {s s' : St} {e : Ev} (calm : Prop)
    (hcalm : calm → ∀ id outcome, e = .engine .next → s.engine = .terminalize id outcome →
      s.tables.notified id = false)
    (h : step cfg s e = some s') : Effect cfg calm (view s) (view s') := by
  cases e with
  | receive c =>
    simp only [step] at h
    split at h
    · rename_i rest hr
      cases h
      exact frame_effect hr c
    · cases h
  | eof =>
    simp only [step] at h
    split at h
    · rename_i rest hr
      cases h
      have hv : view { s with reader := rest } = view s := view_reader (by rw [hr]; rfl)
      rw [hv]; exact .none
    · cases h
  | reader =>
    simp only [step] at h
    split at h
    · rename_i act rest hr
      exact act_effect hr h
    · cases h
  | engine e => exact engine_effect (fun hc id outcome he => hcalm hc id outcome (congrArg Ev.engine he)) h

/-! ## The invariant -/

/-- The request that the engine thread took and has not returned from. -/
def Role.current : Role → Option RequestId
  | .idle => none
  | .holds id | .answers id | .died id => some id

structure Inv (cfg : Config) (t : Tables) (role : Role) : Prop where
  pendingNodup : t.pending.Nodup
  pendingActive : ∀ id ∈ t.pending, id ∈ t.active
  pendingQueued : ∀ id ∈ t.pending, ∃ slot, t.slots id = some slot ∧ slot.state = .queued
  activeNodup : t.active.Nodup
  activePhysical : ∀ id ∈ t.active, id ∈ t.physical
  activeOpen : ∀ id ∈ t.active, ∃ slot, t.slots id = some slot ∧ slot.terminalNotified = false
  physicalNodup : t.physical.Nodup
  count : t.admittedRequests = t.physical.length
  bound : t.physical.length ≤ cfg.maxAdmittedRequests
  ledger : ∀ id, id ∈ t.admitted ↔ id ∈ t.physical ∨ id ∈ t.released
  releasedNodup : t.released.Nodup
  releasedGone : ∀ id ∈ t.released, id ∉ t.physical
  admittedBelow : ∀ id ∈ t.admitted, 0 < id ∧ id ≤ t.acceptedRequestIdHighWater
  admittedSorted : t.admitted.Pairwise (· < ·)
  heldBy : ∀ id ∈ t.physical, id ∈ t.pending ∨ role.current = some id
  current : ∀ id, role.current = some id →
    id ∉ t.pending ∧ id ∈ t.admitted ∧ ∃ slot, t.slots id = some slot ∧ slot.state = .running
  holds : ∀ id, role = .holds id → id ∈ t.physical
  answers : ∀ id, role = .answers id → id ∉ t.physical

section Regions

variable {cfg : Config} {t : Tables} {role role' : Role} {id : RequestId}

theorem Inv.start : Inv cfg {} .idle := by
  constructor <;> simp [Role.current]

theorem Inv.admitted_of_physical (h : Inv cfg t role) (hid : id ∈ t.physical) : id ∈ t.admitted :=
  (h.ledger id).mpr (.inl hid)

/-- Only the slots change: no state does, and no active slot is marked notified. -/
theorem Inv.slots {slots : RequestId → Option Slot} (h : Inv cfg t role)
    (hs : ∀ i slot, t.slots i = some slot → ∃ slot', slots i = some slot' ∧ slot'.state = slot.state ∧
      (i ∈ t.active → slot'.terminalNotified = slot.terminalNotified)) :
    Inv cfg { t with slots := slots } role where
  __ := h
  pendingQueued := by
    intro i hi
    obtain ⟨slot, hslot, hq⟩ := h.pendingQueued i hi
    obtain ⟨slot', hslot', hstate, -⟩ := hs i slot hslot
    exact ⟨slot', hslot', hstate.trans hq⟩
  activeOpen := by
    intro i hi
    obtain ⟨slot, hslot, hn⟩ := h.activeOpen i hi
    obtain ⟨slot', hslot', -, hnot⟩ := hs i slot hslot
    exact ⟨slot', hslot', (hnot hi).trans hn⟩
  current := by
    intro i hi
    obtain ⟨hp, ha, slot, hslot, hr⟩ := h.current i hi
    obtain ⟨slot', hslot', hstate, -⟩ := hs i slot hslot
    exact ⟨hp, ha, slot', hslot', hstate.trans hr⟩

theorem Inv.setSlot {f : Slot → Slot} (h : Inv cfg t role) (hstate : ∀ slot, (f slot).state = slot.state)
    (hn : id ∈ t.active → ∀ slot, (f slot).terminalNotified = slot.terminalNotified) :
    Inv cfg (t.setSlot id f) role := by
  refine h.slots fun i slot hslot => ?_
  by_cases hi : i = id
  · refine ⟨f slot, by simp [hi, hi ▸ hslot], hstate slot, fun ha => hn (hi ▸ ha) slot⟩
  · exact ⟨slot, by simp [hi, hslot], rfl, fun _ => rfl⟩

theorem Inv.accept (h : Inv cfg t role) (request : SynthesisRequest) (hactive : id ∉ t.active)
    (hwater : t.acceptedRequestIdHighWater < id) (hfull : t.admittedRequests < cfg.maxAdmittedRequests) :
    Inv cfg (t.accept id request) role := by
  have fresh : id ∉ t.admitted := fun hm => Nat.not_lt_of_le (h.admittedBelow id hm).2 hwater
  have hphys : id ∉ t.physical := fun hm => fresh (h.admitted_of_physical hm)
  have hpend : id ∉ t.pending := fun hm => hactive (h.pendingActive id hm)
  have hrel : id ∉ t.released := fun hm => fresh ((h.ledger id).mpr (.inr hm))
  have hcur : role.current ≠ some id := fun hc => fresh (h.current id hc).2.1
  have hlen := h.count
  constructor
  all_goals simp only [Tables.accept, Tables.insertKey, if_neg hactive, if_neg hphys]
  · exact List.nodup_append.mpr ⟨h.pendingNodup, by simp, by rintro a ha b hb rfl; simp_all⟩
  · intro i hi
    rcases List.mem_append.mp hi with hi | hi
    · exact List.mem_append_left _ (h.pendingActive i hi)
    · exact List.mem_append_right _ hi
  · intro i hi
    rcases List.mem_append.mp hi with hi | hi
    · have hne : i ≠ id := fun he => hpend (he ▸ hi)
      simpa only [if_neg hne] using h.pendingQueued i hi
    · rw [List.mem_singleton.mp hi, if_pos rfl]
      exact ⟨_, rfl, rfl⟩
  · exact List.nodup_append.mpr ⟨h.activeNodup, by simp, by rintro a ha b hb rfl; simp_all⟩
  · intro i hi
    rcases List.mem_append.mp hi with hi | hi
    · exact List.mem_append_left _ (h.activePhysical i hi)
    · exact List.mem_append_right _ hi
  · intro i hi
    rcases List.mem_append.mp hi with hi | hi
    · have hne : i ≠ id := fun he => hactive (he ▸ hi)
      simpa only [if_neg hne] using h.activeOpen i hi
    · rw [List.mem_singleton.mp hi, if_pos rfl]
      exact ⟨_, rfl, rfl⟩
  · exact List.nodup_append.mpr ⟨h.physicalNodup, by simp, by rintro a ha b hb rfl; simp_all⟩
  · simp only [List.length_append, List.length_singleton]; omega
  · simp only [List.length_append, List.length_singleton]; omega
  · intro i
    simp only [List.mem_append, h.ledger i]
    tauto
  · exact h.releasedNodup
  · intro i hi hm
    rcases List.mem_append.mp hm with hm | hm
    · exact h.releasedGone i hi hm
    · exact hrel (List.mem_singleton.mp hm ▸ hi)
  · intro i hi
    rcases List.mem_append.mp hi with hi | hi
    · obtain ⟨hpos, hle⟩ := h.admittedBelow i hi
      exact ⟨hpos, Nat.le_trans hle (Nat.le_of_lt hwater)⟩
    · rw [List.mem_singleton.mp hi]
      exact ⟨Nat.lt_of_le_of_lt (Nat.zero_le _) hwater, Nat.le_refl _⟩
  · refine List.pairwise_append.mpr ⟨h.admittedSorted, by simp, ?_⟩
    intro a ha b hb
    rw [List.mem_singleton.mp hb]
    exact Nat.lt_of_le_of_lt (h.admittedBelow a ha).2 hwater
  · intro i hi
    rcases List.mem_append.mp hi with hi | hi
    · exact (h.heldBy i hi).imp_left (List.mem_append_left _)
    · exact .inl (List.mem_append_right _ hi)
  · intro i hi
    have hne : i ≠ id := fun he => hcur (he ▸ hi)
    obtain ⟨hp, ha, hslot⟩ := h.current i hi
    refine ⟨fun hm => ?_, List.mem_append_left _ ha, by simpa only [if_neg hne] using hslot⟩
    rcases List.mem_append.mp hm with hm | hm
    · exact hp hm
    · exact hne (List.mem_singleton.mp hm)
  · intro i hi
    exact List.mem_append_left _ (h.holds i hi)
  · intro i hi hm
    rcases List.mem_append.mp hm with hm | hm
    · exact h.answers i hi hm
    · exact hcur (by rw [← List.mem_singleton.mp hm, hi]; rfl)

theorem Inv.take {rest : List RequestId} (h : Inv cfg t .idle) (hp : t.pending = id :: rest) :
    Inv cfg (t.take id rest) (.holds id) := by
  have hmem : ∀ i ∈ rest, i ∈ t.pending := fun i hi => hp ▸ List.mem_cons_of_mem _ hi
  have hid : id ∈ t.pending := hp ▸ List.mem_cons_self
  obtain ⟨hnot, hrest⟩ := List.nodup_cons.mp (hp ▸ h.pendingNodup)
  have hne : ∀ i ∈ rest, i ≠ id := fun i hi he => hnot (he ▸ hi)
  have hphys : id ∈ t.physical := h.activePhysical id (h.pendingActive id hid)
  constructor
  all_goals simp only [Tables.take, Tables.setSlot]
  · exact hrest
  · exact fun i hi => h.pendingActive i (hmem i hi)
  · intro i hi
    simpa only [if_neg (hne i hi)] using h.pendingQueued i (hmem i hi)
  · exact h.activeNodup
  · exact h.activePhysical
  · intro i hi
    obtain ⟨slot, hslot, hn⟩ := h.activeOpen i hi
    by_cases he : i = id
    · exact ⟨{ slot with state := .running }, by simp [he, he ▸ hslot], hn⟩
    · exact ⟨slot, by simp [he, hslot], hn⟩
  · exact h.physicalNodup
  · exact h.count
  · exact h.bound
  · exact h.ledger
  · exact h.releasedNodup
  · exact h.releasedGone
  · exact h.admittedBelow
  · exact h.admittedSorted
  · intro i hi
    rcases h.heldBy i hi with hpend | hcur
    · rw [hp] at hpend
      rcases List.mem_cons.mp hpend with rfl | hr
      · exact .inr rfl
      · exact .inl hr
    · cases hcur
  · intro i hi
    cases hi
    obtain ⟨slot, hslot, -⟩ := h.pendingQueued id hid
    exact ⟨hnot, h.admitted_of_physical hphys, { slot with state := .running }, by simp [hslot], rfl⟩
  · intro i hi
    cases hi
    exact hphys
  · intro i hi
    cases hi

/-- The slot is released: by a cancel or a shutdown while it is pending, or by the engine
    thread that holds it. The role may only lose `id`. -/
theorem Inv.release (h : Inv cfg t role) (hid : id ∈ t.physical)
    (hcur : ∀ i, role'.current = some i → role.current = some i)
    (hkeep : ∀ i, role.current = some i → i ≠ id → role'.current = some i)
    (hholds : ∀ i, role' = .holds i → role = .holds i ∧ i ≠ id)
    (hans : ∀ i, role' = .answers i → i = id ∨ role = .answers i) :
    Inv cfg (t.cancelQueued id) role' := by
  have herase : ∀ {l : List RequestId} {i}, l.Nodup → (i ∈ l.erase id ↔ i ≠ id ∧ i ∈ l) :=
    fun hl => hl.mem_erase_iff
  have hlen : (t.physical.erase id).length = t.physical.length - 1 := List.length_erase_of_mem hid
  have hpos := List.length_pos_of_mem hid
  have hcount := h.count
  have hbound := h.bound
  constructor
  all_goals simp only [Tables.cancelQueued, Tables.terminalizeLocked, if_pos hid]
  · exact h.pendingNodup.erase id
  · intro i hi
    obtain ⟨hne, hi⟩ := (herase h.pendingNodup).mp hi
    exact (herase h.activeNodup).mpr ⟨hne, h.pendingActive i hi⟩
  · intro i hi
    exact h.pendingQueued i ((herase h.pendingNodup).mp hi).2
  · exact h.activeNodup.erase id
  · intro i hi
    obtain ⟨hne, hi⟩ := (herase h.activeNodup).mp hi
    exact (herase h.physicalNodup).mpr ⟨hne, h.activePhysical i hi⟩
  · intro i hi
    exact h.activeOpen i ((herase h.activeNodup).mp hi).2
  · exact h.physicalNodup.erase id
  · omega
  · omega
  · intro i
    rw [h.ledger i, herase h.physicalNodup, List.mem_append, List.mem_singleton]
    by_cases he : i = id
    · simp [he, hid]
    · simp [he]
  · refine List.nodup_append.mpr ⟨h.releasedNodup, by simp, ?_⟩
    intro a ha b hb he
    rw [he, List.mem_singleton.mp hb] at ha
    exact h.releasedGone id ha hid
  · intro i hi hm
    obtain ⟨hne, hm⟩ := (herase h.physicalNodup).mp hm
    rcases List.mem_append.mp hi with hi | hi
    · exact h.releasedGone i hi hm
    · exact hne (List.mem_singleton.mp hi)
  · exact h.admittedBelow
  · exact h.admittedSorted
  · intro i hi
    obtain ⟨hne, hi⟩ := (herase h.physicalNodup).mp hi
    rcases h.heldBy i hi with hp | hc
    · exact .inl ((herase h.pendingNodup).mpr ⟨hne, hp⟩)
    · exact .inr (hkeep i hc hne)
  · intro i hi
    obtain ⟨hp, hrest⟩ := h.current i (hcur i hi)
    exact ⟨fun hm => hp ((herase h.pendingNodup).mp hm).2, hrest⟩
  · intro i hi
    obtain ⟨hr, hne⟩ := hholds i hi
    exact (herase h.physicalNodup).mpr ⟨hne, h.holds i hr⟩
  · intro i hi hm
    obtain ⟨hne, hm⟩ := (herase h.physicalNodup).mp hm
    rcases hans i hi with he | hr
    · exact hne he
    · exact h.answers i hr hm

theorem Inv.cancelQueued (h : Inv cfg t role) (hid : id ∈ t.pending) : Inv cfg (t.cancelQueued id) role := by
  have hphys := h.activePhysical id (h.pendingActive id hid)
  refine h.release hphys (fun i hi => hi) (fun i hi _ => hi) (fun i hi => ⟨hi, ?_⟩) (fun i hi => .inr hi)
  rintro rfl
  exact (h.current i (by rw [hi]; rfl)).1 hid

/-- `_terminalize_locked` of a request that is not pending. -/
theorem terminalizeLocked_eq (hid : id ∉ t.pending) : t.terminalizeLocked id = t.cancelQueued id := by
  rw [Tables.cancelQueued, List.erase_of_not_mem hid]

/-- The engine thread releases the slot it holds. -/
theorem Inv.terminalize (h : Inv cfg t (.holds id)) (hrole : role' = .idle ∨ role' = .answers id) :
    Inv cfg (t.terminalizeLocked id) role' := by
  obtain ⟨hpend, -⟩ := h.current id rfl
  rw [terminalizeLocked_eq hpend]
  refine h.release (h.holds id rfl) ?_ ?_ ?_ ?_
  · rcases hrole with rfl | rfl
    · intro i hi; cases hi
    · exact fun i hi => hi
  · intro i hi hne
    cases hi
    exact absurd rfl hne
  · rcases hrole with rfl | rfl <;> (intro i hi; cases hi)
  · rcases hrole with rfl | rfl
    · intro i hi; cases hi
    · intro i hi; cases hi; exact .inl rfl

theorem terminalizeLocked_setSlot (f : Slot → Slot) :
    (t.setSlot id f).terminalizeLocked id = (t.terminalizeLocked id).setSlot id f := by
  by_cases hid : id ∈ t.physical
  · simp only [Tables.terminalizeLocked, Tables.setSlot, if_pos hid]
    exact if_pos hid
  · simp only [Tables.terminalizeLocked, Tables.setSlot, if_neg hid]
    exact if_neg hid

theorem active_terminalizeLocked : (t.terminalizeLocked id).active = t.active.erase id := by
  unfold Tables.terminalizeLocked
  simp only
  split <;> rfl

theorem Inv.finish (h : Inv cfg t (.holds id)) (hrole : role' = .idle ∨ role' = .answers id) :
    Inv cfg (t.finish id) role' := by
  rw [Tables.finish, terminalizeLocked_setSlot]
  refine (h.terminalize hrole).setSlot (fun _ => rfl) fun ha => ?_
  rw [active_terminalizeLocked] at ha
  exact absurd rfl (h.activeNodup.mem_erase_iff.mp ha).1

theorem Inv.cancelRunning (h : Inv cfg t role) (hrun : ∀ slot, t.slots id = some slot → slot.state = .running) :
    Inv cfg (t.cancelRunning id) role := by
  have hpend : id ∉ t.pending := by
    intro hm
    obtain ⟨slot, hslot, hq⟩ := h.pendingQueued id hm
    rw [hrun slot hslot] at hq
    cases hq
  have herase : Inv cfg { t with active := t.active.erase id } role :=
    { h with
      pendingActive := fun i hi =>
        h.activeNodup.mem_erase_iff.mpr ⟨fun he => hpend (he ▸ hi), h.pendingActive i hi⟩
      activeNodup := h.activeNodup.erase id
      activePhysical := fun i hi => h.activePhysical i (List.mem_of_mem_erase hi)
      activeOpen := fun i hi => h.activeOpen i (List.mem_of_mem_erase hi) }
  refine herase.setSlot (fun _ => rfl) fun ha => ?_
  exact absurd rfl (h.activeNodup.mem_erase_iff.mp ha).1

theorem Inv.cancelPending (h : Inv cfg t role) (hid : id ∈ t.pending) : Inv cfg (t.cancelPending id) role :=
  (h.setSlot (f := ({ · with cancelEvent := true })) (fun _ => rfl) fun _ _ => rfl).cancelQueued hid

theorem pending_terminalizeLocked : (t.terminalizeLocked id).pending = t.pending := by
  unfold Tables.terminalizeLocked
  simp only
  split <;> rfl

theorem pending_cancelPending {rest : List RequestId} (hp : t.pending = id :: rest) :
    (t.cancelPending id).pending = rest := by
  rw [Tables.cancelPending, Tables.cancelQueued, pending_terminalizeLocked]
  simp only [Tables.setSlot, hp, List.erase_cons_head]

/-- The slot of a pending id is never missing, so the drain cancels every pending request. -/
theorem Inv.drainPending {ids : List RequestId} (h : Inv cfg t role) (hp : t.pending = ids) :
    t.drainPending ids = (ids.foldl Tables.cancelPending t, ids) := by
  induction ids generalizing t with
  | nil => rfl
  | cons id rest ih =>
    have hid : id ∈ t.pending := hp ▸ List.mem_cons_self
    obtain ⟨slot, hslot, -⟩ := h.pendingQueued id hid
    have hget : { t with pending := rest }.get? id = some slot := by
      simp only [Tables.get?, if_pos (h.pendingActive id hid), hslot]
    have heq : ({ t with pending := rest }.setSlot id ({ · with cancelEvent := true })).terminalizeLocked id =
        t.cancelPending id := by
      simp only [Tables.cancelPending, Tables.cancelQueued, Tables.setSlot, hp, List.erase_cons_head]
    simp only [Tables.drainPending, hget, heq]
    rw [ih (h.cancelPending hid) (pending_cancelPending hp)]
    rfl

theorem Inv.foldl_cancelPending {ids : List RequestId} (h : Inv cfg t role) (hp : t.pending = ids) :
    Inv cfg (ids.foldl Tables.cancelPending t) role := by
  induction ids generalizing t with
  | nil => exact h
  | cons id rest ih =>
    exact ih (h.cancelPending (hp ▸ List.mem_cons_self)) (pending_cancelPending hp)

theorem Inv.shutdown_eq (h : Inv cfg t role) :
    t.shutdown = ((t.pending.foldl Tables.cancelPending t).cancelActive, t.pending) := by
  simp only [Tables.shutdown, h.drainPending rfl]

theorem Inv.shutdown (h : Inv cfg t role) : Inv cfg t.shutdown.1 role := by
  rw [h.shutdown_eq]
  refine (h.foldl_cancelPending rfl).slots fun i slot hslot => ?_
  by_cases ha : i ∈ (t.pending.foldl Tables.cancelPending t).active
  · exact ⟨{ slot with cancelEvent := true }, by simp [ha, hslot], rfl, fun _ => rfl⟩
  · exact ⟨slot, by simp [ha, hslot], rfl, fun _ => rfl⟩

end Regions

/-! ## Every run -/

theorem effect_inv {cfg : Config} {calm : Prop} {v v' : View} (e : Effect cfg calm v v') (h : Inv cfg v.tables v.role) :
    Inv cfg v'.tables v'.role := by
  cases e with
  | none => exact h
  | dies id hrole =>
    have hc : v.role.current = some id := by rcases hrole with hr | hr <;> rw [hr] <;> rfl
    exact { h with
      heldBy := fun i hi => (h.heldBy i hi).imp_right hc.symm.trans
      current := fun i hi => h.current i (hc.trans hi)
      holds := fun i hi => by cases hi
      answers := fun i hi => by cases hi }
  | answered id hrole =>
    rw [hrole] at h
    exact { h with
      heldBy := fun i hi => (h.heldBy i hi).imp_right fun hc => by
        cases hc
        exact absurd hi (h.answers _ rfl)
      current := fun i hi => by cases hi
      holds := fun i hi => by cases hi
      answers := fun i hi => by cases hi }
  | accept id request hactive hwater hfull => exact h.accept request hactive hwater hfull
  | take id rest hrole hp hactive =>
    rw [hrole] at h
    exact h.take hp
  | takeMissing id rest hrole hp hget =>
    have hid : id ∈ v.tables.pending := hp ▸ List.mem_cons_self
    obtain ⟨slot, hslot, -⟩ := h.pendingQueued id hid
    simp [Tables.get?, h.pendingActive id hid, hslot] at hget
  | cancelQueued id hid => exact h.cancelQueued hid
  | cancelUnlisted id slot hget hstate hnot =>
    -- an active request that is not pending is the engine thread's, and runs
    have hactive : id ∈ v.tables.active := by
      by_contra hn
      simp [Tables.get?, hn] at hget
    have hslot : v.tables.slots id = some slot := by simpa [Tables.get?, hactive] using hget
    rcases h.heldBy id (h.activePhysical id hactive) with hp | hc
    · exact absurd hp hnot
    · obtain ⟨-, -, slot', hslot', hr⟩ := h.current id hc
      rw [hslot] at hslot'
      cases hslot'
      rw [hstate] at hr
      cases hr
  | cancelRunning id slot hget hstate =>
    refine h.cancelRunning fun slot' hslot' => ?_
    have hslot : v.tables.slots id = some slot := by
      by_cases hactive : id ∈ v.tables.active
      · simpa [Tables.get?, hactive] using hget
      · simp [Tables.get?, hactive] at hget
    rw [hslot] at hslot'
    cases hslot'
    exact hstate
  | shutdown => exact h.shutdown
  | terminalize id hrole _ =>
    rw [hrole] at h
    exact h.terminalize (.inr rfl)
  | finishNotified id hrole _ =>
    rw [hrole] at h
    exact h.finish (.inl rfl)
  | finishCancelled id hrole _ =>
    rw [hrole] at h
    exact h.finish (.inr rfl)

theorem reach_inv {cfg : Config} {ok : St → Ev → Prop} {s : St} (h : Reach (step cfg) ok init s) :
    Inv cfg s.tables s.engine.role :=
  h.inv (I := fun s => Inv cfg s.tables s.engine.role) Inv.start
    fun _ _ _ _ hi _ hs => effect_inv (step_effect False False.elim hs) hi

/-- The high-water mark and the admissions move together, upwards. -/
theorem effect_highWater {cfg : Config} {calm : Prop} {v v' : View} (e : Effect cfg calm v v') :
    (v'.tables.acceptedRequestIdHighWater = v.tables.acceptedRequestIdHighWater ∧
      v'.tables.admitted = v.tables.admitted) ∨
    (v.tables.acceptedRequestIdHighWater < v'.tables.acceptedRequestIdHighWater ∧
      v'.tables.admitted = v.tables.admitted ++ [v'.tables.acceptedRequestIdHighWater]) := by
  have terminalize : ∀ (t : Tables) id,
      (t.terminalizeLocked id).acceptedRequestIdHighWater = t.acceptedRequestIdHighWater ∧
        (t.terminalizeLocked id).admitted = t.admitted := by
    intro t id
    unfold Tables.terminalizeLocked
    simp only
    split <;> exact ⟨rfl, rfl⟩
  have drain : ∀ (ids : List RequestId) (t : Tables),
      (t.drainPending ids).1.acceptedRequestIdHighWater = t.acceptedRequestIdHighWater ∧
        (t.drainPending ids).1.admitted = t.admitted := by
    intro ids
    induction ids with
    | nil => exact fun t => ⟨rfl, rfl⟩
    | cons id rest ih =>
      intro t
      simp only [Tables.drainPending]
      split
      · exact ih _
      · exact ⟨(ih _).1.trans (terminalize _ id).1, (ih _).2.trans (terminalize _ id).2⟩
  cases e with
  | accept id request _ hwater _ => exact .inr ⟨hwater, rfl⟩
  | none | dies | answered | take | takeMissing | cancelUnlisted | cancelRunning => exact .inl ⟨rfl, rfl⟩
  | cancelQueued id _ => exact .inl (terminalize _ id)
  | shutdown => exact .inl (drain _ _)
  | terminalize id _ _ => exact .inl (terminalize _ id)
  | finishNotified id _ _ => exact .inl (terminalize _ id)
  | finishCancelled id _ _ => exact .inl (terminalize _ id)

/-- The request that `_run_one_request` returns from has released its slot. -/
theorem effect_return {cfg : Config} {calm : Prop} {v v' : View} {id : RequestId} (e : Effect cfg calm v v')
    (h : Inv cfg v.tables v.role) (hc : v.role.current = some id) (hc' : v'.role.current ≠ some id) :
    id ∉ v'.tables.physical := by
  cases e with
  | none | accept | takeMissing | cancelQueued | cancelUnlisted | cancelRunning | shutdown => exact absurd hc hc'
  | dies i hrole =>
    refine absurd ?_ hc'
    rcases hrole with hr | hr <;> (rw [hr] at hc; exact hc)
  | answered i hrole =>
    rw [hrole] at hc h
    cases hc
    exact h.answers _ rfl
  | take i rest hrole =>
    rw [hrole] at hc
    cases hc
  | terminalize i hrole _ =>
    rw [hrole] at hc
    exact absurd hc hc'
  | finishNotified i hrole _ =>
    rw [hrole] at hc h
    cases hc
    exact (h.finish (.inr rfl)).answers _ rfl
  | finishCancelled i hrole _ =>
    rw [hrole] at hc
    exact absurd hc hc'

/-- What holds at every release of the lock. -/
structure Accounted (cfg : Config) (s : St) : Prop where
  /-- The admitted count is the number of physically held slots. -/
  counted : s.tables.physical.Nodup ∧ s.tables.admittedRequests = s.tables.physical.length
  limited : s.tables.admittedRequests ≤ cfg.maxAdmittedRequests
  pendingDistinct : s.tables.pending.Nodup
  pendingQueued : ∀ id ∈ s.tables.pending,
    id ∈ s.tables.active ∧ ∃ slot, s.tables.slots id = some slot ∧ slot.state = .queued
  activeHeld : ∀ id ∈ s.tables.active, id ∈ s.tables.physical
  /-- Every admitted slot is still held or was released, and released once. -/
  releasedOnce : s.tables.released.Nodup ∧
    ∀ id, id ∈ s.tables.admitted ↔ (id ∈ s.tables.physical ∧ id ∉ s.tables.released) ∨
      (id ∈ s.tables.released ∧ id ∉ s.tables.physical)
  /-- A held slot waits in the queue or its `_run_one_request` has not returned. -/
  heldBy : ∀ id ∈ s.tables.physical, id ∈ s.tables.pending ∨ s.engine.role.current = some id
  /-- While the engine call runs its slot is held, cancelled or not. -/
  runningHeld : ∀ id, s.engine.role = .holds id → id ∈ s.tables.physical
  /-- `_take_next_request` finds the slot of the id that it pops. -/
  slotFound : ∀ id rest, s.tables.pending = id :: rest → ∃ slot, s.tables.get? id = some slot

/-- What holds of every step between two releases of the lock. -/
structure AccountedStep (s s' : St) : Prop where
  highWater : (s'.tables.acceptedRequestIdHighWater = s.tables.acceptedRequestIdHighWater ∧
      s'.tables.admitted = s.tables.admitted) ∨
    (s.tables.acceptedRequestIdHighWater < s'.tables.acceptedRequestIdHighWater ∧
      s'.tables.admitted = s.tables.admitted ++ [s'.tables.acceptedRequestIdHighWater])
  /-- `_run_one_request` returns with its slot released. -/
  returned : ∀ id, s.engine.role.current = some id → s'.engine.role.current ≠ some id → id ∉ s'.tables.physical

theorem Inv.accounted {cfg : Config} {s : St} (h : Inv cfg s.tables s.engine.role) : Accounted cfg s where
  counted := ⟨h.physicalNodup, h.count⟩
  limited := by
    have hc := h.count
    have hb := h.bound
    omega
  pendingDistinct := h.pendingNodup
  pendingQueued := fun id hid => ⟨h.pendingActive id hid, h.pendingQueued id hid⟩
  activeHeld := h.activePhysical
  releasedOnce := by
    refine ⟨h.releasedNodup, fun id => ?_⟩
    rw [h.ledger id]
    have := h.releasedGone id
    tauto
  heldBy := h.heldBy
  runningHeld := h.holds
  slotFound := by
    intro id rest hp
    have hid : id ∈ s.tables.pending := hp ▸ List.mem_cons_self
    obtain ⟨slot, hslot, -⟩ := h.pendingQueued id hid
    exact ⟨slot, by rw [Tables.get?, if_pos (h.pendingActive id hid), hslot]⟩

/-- The worker's admission accounting, over every interleaving of its threads, every input
    and every engine. -/
theorem admission_accounting (cfg : Config) :
    (∀ s, Reachable cfg s → Accounted cfg s) ∧
      ∀ s e s', Reachable cfg s → step cfg s e = some s' → AccountedStep s s' := by
  refine ⟨fun s hs => (reach_inv hs).accounted, fun s e s' hs he => ⟨?_, ?_⟩⟩
  · exact effect_highWater (step_effect False False.elim he)
  · intro id hc hc'
    exact effect_return (step_effect False False.elim he) (reach_inv hs) hc hc'

/-! ## A run with a cancelled request in the engine -/

/-- A configuration whose encoder accepts every frame. -/
def sampleConfig (maxAdmittedRequests : Nat) : Config where
  maxAdmittedRequests := maxAdmittedRequests
  ready := ⟨PyStr.lit "0.2.0", [], true, ⟨true, true, true, true, true, true, true, true⟩, []⟩
  encode := fun _ => .ok []

/-- Request 1 is admitted, taken and started, and cancelled while the engine runs it. -/
def cancelWhileRunning : List Ev :=
  [.receive (.hello 0), .reader, .receive (.synthesize 1 (.request { requestId := 1, text := PyStr.lit "a" })),
    .reader, .reader, .engine .next, .engine .next, .engine (.described none), .engine .next,
    .receive (.cancel 1)]

theorem admission_accounting_cancelled_while_running :
    ∃ s, run (step (sampleConfig 1)) anyStep init cancelWhileRunning = some s ∧
      s.tables.active = [] ∧ s.tables.physical = [1] ∧ Accounted (sampleConfig 1) s := by
  have hrun : (run (step (sampleConfig 1)) anyStep init cancelWhileRunning).isSome := by decide
  obtain ⟨s, hs⟩ := Option.isSome_iff_exists.mp hrun
  have htables : (run (step (sampleConfig 1)) anyStep init cancelWhileRunning).map
      (fun s => (s.tables.active, s.tables.physical)) = some ([], [1]) := by decide
  rw [hs, Option.map_some, Option.some.injEq, Prod.mk.injEq] at htables
  exact ⟨s, hs, htables.1, htables.2, (admission_accounting (sampleConfig 1)).1 s (reach_of_run .init hs)⟩

end QwenTtsBridge.Worker.PyServer
