/-
  QwenTtsBridge.Worker.NativeTerminal — the terminal frames of the native worker
  (`NativeServer`).

  Every path that ends a request takes `terminal` with one exchange, so the frames sent,
  due or dropped for a request are one when the flag is set and none before (`Inv.answers`).
  A request that the engine thread runs has the flag clear until that thread takes it, so
  whatever the thread says comes before the frame (`Inv.running`).

  Proved: `one_terminal_then_silence` — over every interleaving, every input and every
  engine, an admitted request has at most one terminal frame of its own, one once the call
  that released its slot has returned (unless the frame was dropped), and no `started` or
  `audio_pcm` frame after it; error frames by which the reader refuses a frame are counted
  apart (`a_duplicate_is_refused_under_the_same_id`).
-/

import QwenTtsBridge.Worker.NativeServer
import QwenTtsBridge.Lib.EventLog
import Mathlib.Data.List.Nodup

namespace QwenTtsBridge.Worker.NativeServer

open QwenTtsBridge.Protocol.Control QwenTtsBridge.Lib.Transition QwenTtsBridge.Lib.EventLog

/-! ## What a step does to the tables -/

/-- The engine thread's hold on a request: none, running it, or past its exchange of
    `terminal` with the terminal frame still to send. -/
inductive Role where
  | idle
  | runs (id : RequestId)
  | answers (id : RequestId)
  deriving DecidableEq, Repr

def EnginePc.role : EnginePc → Role
  | .take | .loopEnded | .sendAck | .exited => .idle
  | .entry id | .sendStarted id | .synthesize id | .callback id _ | .sendAudio id _ | .failFatal id
  | .exchange id _ => .runs id
  | .release id _ | .sendTerminal id _ => .answers id

def Role.due : Role → List RequestId
  | .answers id => [id]
  | _ => []

def Role.current : Role → Option RequestId
  | .idle => none
  | .runs id | .answers id => some id

def answered (handed : List Handed) : List RequestId := handed.filterMap Handed.answers

def Act.due : Act → Option RequestId
  | .send f => Handed.answers ⟨.reader, f⟩
  | _ => none

def dueIn (acts : List Act) : List RequestId := acts.filterMap Act.due

/-- The terminal frames of `r` that were sent, are due, or were dropped. -/
def answers (s : St) (r : RequestId) : Nat :=
  (answered s.handed).count r + (dueIn s.reader).count r + s.engine.role.due.count r + s.dropped.count r

structure View where
  tables : Tables
  role : Role
  answers : RequestId → Nat

def view (s : St) : View := ⟨s.tables, s.engine.role, answers s⟩

def owe (a : RequestId → Nat) (ids : List RequestId) : RequestId → Nat := fun r => a r + ids.count r

namespace Tables

/-- The region of `take_next_request`. -/
def take (t : Tables) (id : RequestId) (rest : List RequestId) : Tables :=
  { t with pending := rest }.setSlot id ({ · with state := .running })

/-- The region of `handle_cancel` on a queued slot, before the exchange. -/
def unqueue (t : Tables) (id : RequestId) : Tables :=
  { t.cancel id with pending := t.pending.filter (· ≠ id) }

end Tables

/-- What one step can do, guards included. -/
inductive Effect (v : View) : View → Prop
  | none : Effect v v
  | answered (id : RequestId) : v.role = .answers id → Effect v { v with role := .idle }
  | accept (id : RequestId) (request : SynthesizeMessage) : v.tables.acceptedIdHighWater < id →
      Effect v { v with tables := v.tables.accept id request }
  | take (id : RequestId) (rest : List RequestId) : v.role = .idle → v.tables.pending = id :: rest →
      Effect v { v with tables := v.tables.take id rest, role := .runs id }
  | cancelRunning (id : RequestId) : Effect v { v with tables := v.tables.cancel id }
  | cancelAgain (id : RequestId) : Effect v { v with tables := v.tables.unqueue id }
  | cancelQueued (id : RequestId) (slot : RequestSlot) : v.tables.slots id = some slot → slot.state = .queued →
      slot.terminal = false →
      Effect v { v with tables := (v.tables.unqueue id).takeTerminal id, answers := owe v.answers [id] }
  | shutdown : Effect v
      { v with tables := v.tables.shutdown.1, answers := owe v.answers v.tables.shutdown.2 }
  | cancelActive : Effect v { v with tables := v.tables.cancelActive }
  | exchange (id : RequestId) : v.role = .runs id → v.tables.terminal id = false →
      Effect v
        { v with
          tables := v.tables.setSlot id ({ · with terminal := true })
          role := .answers id
          answers := owe v.answers [id] }
  | exchanged (id : RequestId) : v.role = .runs id → v.tables.terminal id = true →
      Effect v { v with role := .idle }
  | release (id : RequestId) : v.role = .answers id → Effect v { v with tables := v.tables.release id }

section Frames

variable {s s' : St} {id : RequestId} {acts rest : List Act} {f : OutFrame} {pc : EnginePc}

theorem view_eq {v : View} (ht : s.tables = v.tables) (hr : s.engine.role = v.role)
    (ha : ∀ r, answers s r = v.answers r) : view s = v := by
  cases v
  simp only at ht hr ha
  subst ht hr
  simp only [view, View.mk.injEq, true_and]
  exact funext ha

theorem answers_congr (hh : s'.handed = s.handed) (hr : dueIn s'.reader = dueIn s.reader)
    (he : s'.engine.role.due = s.engine.role.due) (hd : s'.dropped = s.dropped) (r : RequestId) :
    answers s' r = answers s r := by
  simp only [answers, hh, hr, he, hd]

@[simp] theorem dueIn_append (a b : List Act) : dueIn (a ++ b) = dueIn a ++ dueIn b := by simp [dueIn]

theorem dueIn_cons (a : Act) : dueIn (a :: acts) = a.due.toList ++ dueIn acts := by
  cases h : a.due <;> simp [dueIn, h]

theorem view_push : view (push s acts) = { view s with answers := owe (view s).answers (dueIn acts) } := by
  refine view_eq rfl rfl fun r => ?_
  simp only [view, push, answers, owe, dueIn_append, List.count_append]
  omega

theorem view_push_silent (h : dueIn acts = []) : view (push s acts) = view s := by
  rw [view_push, h]
  rfl

@[simp] theorem view_sendError (e : ErrorMessage) : view (sendError s id e) = view s := view_push_silent rfl

theorem view_reader (h : dueIn acts = dueIn s.reader) : view { s with reader := acts } = view s :=
  view_eq rfl rfl (answers_congr rfl h rfl rfl)

theorem view_goto (h : pc.role = s.engine.role) : view (goto s pc) = view s :=
  view_eq rfl h (answers_congr rfl rfl (congrArg Role.due h) rfl)

theorem view_hand_engine (hf : Handed.answers ⟨.engine, f⟩ = none) : view (hand s .engine f) = view s := by
  refine view_eq rfl rfl fun r => ?_
  simp [view, hand, answers, answered, hf]

theorem view_hand_reader (hr : s.reader = .send f :: rest) : view (hand { s with reader := rest } .reader f) = view s := by
  refine view_eq rfl rfl fun r => ?_
  simp only [view, hand, answers, hr, answered, List.filterMap_append, List.count_append, dueIn_cons]
  have : List.filterMap Handed.answers [⟨.reader, f⟩] = (Act.due (.send f)).toList := by
    simp only [Act.due]
    cases h : Handed.answers ⟨.reader, f⟩ <;> simp [h]
  rw [this]
  omega

end Frames

section Reader

variable {cfg : Config} {s s' : St} {id : RequestId} {rest : List Act}

theorem synthesize_effect (request : SynthesizeMessage) :
    Effect (view s) (view (handleSynthesize cfg s id request)) := by
  unfold handleSynthesize
  split
  · rw [view_sendError]; exact .none
  split
  · rw [view_sendError]; exact .none
  unfold admission
  split
  · rw [view_sendError]; exact .none
  split
  · rw [view_sendError]; exact .none
  rename_i hdup
  split
  · rw [view_sendError]; exact .none
  · rw [view_push_silent rfl]
    exact .accept id request (Nat.lt_of_not_le (not_or.mp hdup).2)

theorem cancel_effect (stale : Bool) : Effect (view s) (view (handleCancel s id stale)) := by
  unfold handleCancel
  split
  · rw [view_sendError]; exact .none
  split
  · split
    · rw [view_sendError]; exact .none
    · exact .none
  rename_i slot hget
  have hactive : id ∈ s.tables.active := by
    by_contra hn
    simp [Tables.get?, hn] at hget
  have hslot : s.tables.slots id = some slot := by simpa [Tables.get?, hactive] using hget
  simp only
  split
  · exact .cancelRunning id
  · rename_i hstate
    split
    · exact .cancelAgain id
    · rename_i hterm
      have h : Effect (view s) _ := .cancelQueued id slot hslot hstate (by simpa using hterm)
      split
      · rw [view_push]
        exact h
      · -- the frame is dropped instead of sent
        rw [view_push_silent rfl]
        have hv : view { s with tables := (s.tables.unqueue id).takeTerminal id, dropped := s.dropped ++ [id] } =
            { view s with
              tables := (s.tables.unqueue id).takeTerminal id, answers := owe (view s).answers [id] } := by
          refine view_eq rfl rfl fun r => ?_
          simp only [view, answers, owe, List.count_append]
          omega
        exact hv ▸ h

theorem frame_effect (hr : s.reader = .readLoop :: rest) (stale : Bool) (input : Input) :
    Effect (view s) (view (handleFrame cfg s stale input)) := by
  cases input with
  | wrongType id => rw [handleFrame, view_sendError]; exact .none
  | undecodable id code diagnostic => rw [handleFrame, view_sendError]; exact .none
  | message id m =>
    simp only [handleFrame]
    split
    · rw [view_sendError]; exact .none
    split
    · unfold handleHello
      split
      · rw [view_sendError]; exact .none
      · rw [view_push_silent rfl]; exact .none
    · exact synthesize_effect _
    · exact cancel_effect stale
    · unfold handlePing
      split
      · rw [view_sendError]; exact .none
      · rw [view_push_silent rfl]; exact .none
    · unfold handleShutdown
      split
      · rw [view_sendError]; exact .none
      · have hv : view { s with reader := .requestShutdown true :: s.reader.tail } = view s :=
          view_reader (by rw [hr]; rfl)
        rw [hv]; exact .none
    · rw [view_sendError]; exact .none

theorem requestShutdown_effect (sendAck : Bool) : Effect (view s) (view (requestShutdown s sendAck)) := by
  unfold requestShutdown
  simp only
  split
  · exact .none
  · have hdue : ∀ ids : List RequestId, dueIn (ids.map (fun id => Act.send (.control id .cancelled)) ++
        [.shutdownTerminalsEnqueued, .returned ids]) = ids := by
      intro ids
      rw [dueIn_append]
      refine (List.append_nil _).trans ?_
      induction ids with
      | nil => rfl
      | cons id ids ih => exact congrArg (id :: ·) ih
    rw [view_push, hdue]
    exact .shutdown

theorem act_effect {act : Act} (hr : s.reader = act :: rest) (h : runAct { s with reader := rest } act = some s') :
    Effect (view s) (view s') := by
  have drop : act.due = none → view { s with reader := rest } = view s := fun hd =>
    view_reader (by rw [hr, dueIn_cons, hd]; rfl)
  cases act with
  | readLoop => cases h
  | send f =>
    cases h
    rw [view_hand_reader hr]; exact .none
  | failFatal =>
    cases h
    rw [← drop rfl]
    exact .cancelActive
  | requestShutdown sendAck =>
    cases h
    rw [← drop rfl]
    exact requestShutdown_effect sendAck
  | shutdownTerminalsEnqueued =>
    cases h
    rw [← drop rfl]; exact .none
  | returned ids =>
    cases h
    rw [← drop rfl]; exact .none

end Reader

section Engine

variable {s s' : St} {pc : EnginePc}

theorem goto_effect (id : RequestId) (hs : s.engine.role = .runs id) (h : pc.role = .runs id) :
    Effect (view s) (view (goto s pc)) := by
  rw [view_goto (h.trans hs.symm)]
  exact .none

theorem speak_effect {f : OutFrame} (id : RequestId) (hs : s.engine.role = .runs id) (hf : Handed.answers ⟨.engine, f⟩ = none)
    (hpc : pc.role = .runs id) : Effect (view s) (view (goto (hand s .engine f) pc)) := by
  have hrole : pc.role = (hand s .engine f).engine.role := hpc.trans hs.symm
  rw [view_goto hrole, view_hand_engine hf]
  exact .none

theorem take_effect (hs : s.engine = .take) (h : takeNextRequest s = some s') : Effect (view s) (view s') := by
  have hrole : s.engine.role = .idle := by rw [hs]; rfl
  unfold takeNextRequest at h
  split at h
  · split at h
    · cases h
      rw [view_goto (by rw [hrole]; rfl)]; exact .none
    · cases h
  · rename_i id rest hp
    cases h
    have hv : view { s with tables := s.tables.take id rest, engine := .entry id } =
        { view s with tables := s.tables.take id rest, role := .runs id } := by
      refine view_eq rfl rfl (answers_congr rfl rfl ?_ rfl)
      rw [hrole]
      rfl
    exact hv ▸ .take id rest hrole hp

theorem next_effect {seen : Bool} (h : stepEngine s (.next seen) = some s') : Effect (view s) (view s') := by
  simp only [stepEngine] at h
  split at h
  · rename_i hpc
    exact take_effect hpc h
  · rename_i id hpc
    split at h
    · cases h
    · cases h
      refine goto_effect id (by rw [hpc]; rfl) ?_
      split <;> rfl
  · rename_i id hpc
    split at h
    · cases h
    · cases h
      exact speak_effect id (by rw [hpc]; rfl) rfl rfl
  · rename_i id pcm hpc
    have hs : s.engine.role = .runs id := by rw [hpc]; rfl
    split at h
    · cases h
    split at h
    · cases h
      exact goto_effect id hs rfl
    · split at h <;> cases h <;> exact goto_effect id hs rfl
  · rename_i id pcm hpc
    cases h
    exact speak_effect id (by rw [hpc]; rfl) rfl rfl
  · rename_i id hpc
    cases h
    have hrole : EnginePc.role (.synthesize id) = (failFatal s).engine.role := by
      show _ = s.engine.role
      rw [hpc]
      rfl
    rw [view_goto hrole]
    exact .cancelActive
  · rename_i id answer hpc
    have hs : s.engine.role = .runs id := by rw [hpc]; rfl
    split at h
    · rename_i hterm
      cases h
      have hv : view (goto s .take) = { view s with role := .idle } := by
        refine view_eq rfl rfl (answers_congr rfl rfl ?_ rfl)
        rw [hs]
        rfl
      rw [hv]
      exact .exchanged id hs hterm
    · rename_i hterm
      cases h
      have hv : view { s with
            tables := s.tables.setSlot id ({ · with terminal := true }), engine := .release id answer } =
          { view s with
            tables := s.tables.setSlot id ({ · with terminal := true })
            role := .answers id
            answers := owe (view s).answers [id] } := by
        refine view_eq rfl rfl fun r => ?_
        simp only [view, answers, owe, hs, Role.due]
        show _ + List.count r [id] + _ = _
        rw [List.count_nil]
        omega
      have hclear : s.tables.terminal id = false := by simpa using hterm
      rw [hv]
      exact .exchange id hs hclear
  · rename_i id answer hpc
    cases h
    have hs : s.engine.role = .answers id := by rw [hpc]; rfl
    have hv : view { s with tables := s.tables.release id, engine := .sendTerminal id answer } =
        { view s with tables := s.tables.release id } := by
      refine view_eq rfl hs.symm (answers_congr rfl rfl ?_ rfl)
      rw [hs]
      rfl
    rw [hv]
    exact .release id hs
  · rename_i id answer hpc
    cases h
    have hs : s.engine.role = .answers id := by rw [hpc]; rfl
    have hv : view { hand s .engine (answer.frame id) with engine := .take, settled := s.settled ++ [id] } =
        { view s with role := .idle } := by
      refine view_eq rfl rfl fun r => ?_
      have ha : Handed.answers ⟨.engine, answer.frame id⟩ = some id := by cases answer <;> rfl
      simp only [view, hand, answers, answered, hs, Role.due, List.filterMap_append,
        List.filterMap_cons, ha, List.filterMap_nil, List.count_append]
      show _ + List.count r [] + _ = _
      rw [List.count_nil]
      omega
    exact hv ▸ .answered id hs
  · rename_i hpc
    cases h
    rw [view_goto (by rw [hpc]; split <;> rfl)]; exact .none
  · rename_i hpc
    cases h
    rw [view_goto (by rw [hand, hpc]; rfl), view_hand_engine rfl]; exact .none
  · cases h

end Engine

/-- Every step of either thread is one of the effects. -/
theorem step_effect {cfg : Config} {s s' : St} {e : Ev} (h : step cfg s e = some s') : Effect (view s) (view s') := by
  cases e with
  | receive input stale =>
    simp only [step] at h
    split at h
    · rename_i rest hr
      cases h
      exact frame_effect hr stale input
    · cases h
  | framingError =>
    simp only [step] at h
    split at h
    · rename_i rest hr
      cases h
      have hv : view { s with reader := .failFatal :: rest } = view s := view_reader (by rw [hr]; rfl)
      rw [hv]; exact .none
    · cases h
  | eof =>
    simp only [step] at h
    split at h
    · rename_i rest hr
      cases h
      have hv : view { s with reader := rest } = view s := view_reader (by rw [hr]; rfl)
      rw [hv]; exact .none
    · cases h
  | reader =>
    simp only [step] at h
    split at h
    · rename_i act rest hr
      exact act_effect hr h
    · cases h
  | engine e =>
    cases e with
    | next seen => exact next_effect h
    | chunk pcm =>
      simp only [step, stepEngine] at h
      split at h
      · rename_i id hpc
        cases h
        exact goto_effect id (by rw [hpc]; rfl) rfl
      · cases h
    | result r =>
      simp only [step, stepEngine] at h
      split at h
      · rename_i id hpc
        cases h
        exact goto_effect id (by rw [hpc]; rfl) rfl
      · cases h

/-! ## One terminal frame -/

namespace Tables

/-- `slot->state`, of a slot that was ever made. -/
def state (t : Tables) (id : RequestId) : Option RequestState := (t.slots id).map (·.state)

variable {t : Tables} {id r : RequestId}

theorem terminal_setSlot {f : RequestSlot → RequestSlot} (hf : ∀ slot, (f slot).terminal = slot.terminal) :
    (t.setSlot id f).terminal r = t.terminal r := by
  simp only [terminal, setSlot]
  split
  · cases t.slots r <;> simp [hf]
  · rfl

theorem state_setSlot {f : RequestSlot → RequestSlot} (hf : ∀ slot, (f slot).state = slot.state) :
    (t.setSlot id f).state r = t.state r := by
  simp only [state, setSlot]
  split
  · cases t.slots r <;> simp [hf]
  · rfl

/-- `slot->terminal.exchange(true)` on a slot that was made. -/
theorem terminal_exchange {state : RequestState} (h : t.state id = some state) :
    (t.setSlot id ({ · with terminal := true })).terminal r = (t.terminal r || decide (r = id)) := by
  simp only [terminal, setSlot]
  split
  · rename_i he
    subst he
    obtain ⟨slot, hslot, -⟩ := Option.map_eq_some_iff.mp h
    simp [hslot]
  · rename_i hne
    simp [hne]

theorem state_take {rest : List RequestId} : (t.take id rest).state r = if r = id then (t.state r).map fun _ => .running else t.state r := by
  simp only [state, take, setSlot]
  split
  · cases t.slots r <;> rfl
  · rfl

theorem terminal_take {rest : List RequestId} : (t.take id rest).terminal r = t.terminal r := terminal_setSlot fun _ => rfl

theorem state_accept {request : SynthesizeMessage} : (t.accept id request).state r = if r = id then some .queued else t.state r := by
  simp only [state, accept]
  split <;> rfl

theorem terminal_accept {request : SynthesizeMessage} :
    (t.accept id request).terminal r = if r = id then false else t.terminal r := by
  simp only [terminal, accept]
  split <;> rfl

theorem state_takeTerminal : (t.takeTerminal id).state r = t.state r := state_setSlot fun _ => rfl

theorem terminal_takeTerminal {state : RequestState} (h : t.state id = some state) :
    (t.takeTerminal id).terminal r = (t.terminal r || decide (r = id)) := terminal_exchange h

theorem state_cancelActive : t.cancelActive.state r = t.state r := by
  simp only [state, cancelActive]
  split
  · cases t.slots r <;> rfl
  · rfl

theorem terminal_cancelActive : t.cancelActive.terminal r = t.terminal r := by
  simp only [terminal, cancelActive]
  split
  · cases t.slots r <;> rfl
  · rfl

end Tables

structure Inv (v : View) : Prop where
  nodup : v.tables.pending.Nodup
  queued : ∀ r ∈ v.tables.pending, v.tables.state r = some .queued ∧ v.tables.terminal r = false
  below : ∀ r ∈ v.tables.admitted, r ≤ v.tables.acceptedIdHighWater
  made : ∀ r, v.tables.state r ≠ none ↔ r ∈ v.tables.admitted
  current : ∀ r, v.role.current = some r → v.tables.state r = some .running
  running : ∀ r, v.role = .runs r → v.tables.terminal r = false
  answering : ∀ r, v.role = .answers r → v.tables.terminal r = true
  answers : ∀ r, v.answers r = (v.tables.terminal r).toNat

/-- What `request_shutdown` leaves when every slot in `pending_` is open. -/
structure Drained (t t' : Tables) (ids : List RequestId) : Prop where
  pending : t'.pending = []
  admitted : t'.admitted = t.admitted
  highWater : t'.acceptedIdHighWater = t.acceptedIdHighWater
  state : ∀ r, t'.state r = t.state r
  terminal : ∀ r, t'.terminal r = (t.terminal r || decide (r ∈ ids))

theorem drained_drainPending {t : Tables} {ids : List RequestId} (hp : t.pending = ids) (hnodup : ids.Nodup)
    (hopen : ∀ r ∈ ids, t.state r = some .queued ∧ t.terminal r = false) :
    (t.drainPending ids).2 = ids ∧ Drained t (t.drainPending ids).1 ids := by
  induction ids generalizing t with
  | nil => exact ⟨rfl, hp, rfl, rfl, fun _ => rfl, fun r => by simp [Tables.drainPending]⟩
  | cons id ids ih =>
    obtain ⟨hnew, hnodup⟩ := List.nodup_cons.mp hnodup
    obtain ⟨hstate, hterm⟩ := hopen id List.mem_cons_self
    let t₁ := { t with pending := ids }.cancel id
    have hstate₁ : ∀ r, t₁.state r = t.state r := fun r => Tables.state_setSlot fun _ => rfl
    have hterm₁ : ∀ r, t₁.terminal r = t.terminal r := fun r => Tables.terminal_setSlot fun _ => rfl
    have htake : ∀ r, (t₁.takeTerminal id).terminal r = (t.terminal r || decide (r = id)) := fun r => by
      rw [Tables.terminal_takeTerminal ((hstate₁ id).trans hstate), hterm₁]
    have heq : t.drainPending (id :: ids) =
        (((t₁.takeTerminal id).drainPending ids).1, id :: ((t₁.takeTerminal id).drainPending ids).2) := by
      rw [Tables.drainPending]
      exact if_neg (by rw [hterm₁ id, hterm]; exact Bool.false_ne_true)
    have hrest : ∀ r ∈ ids, (t₁.takeTerminal id).state r = some .queued ∧ (t₁.takeTerminal id).terminal r = false := by
      intro r hr
      have hne : r ≠ id := fun he => hnew (he ▸ hr)
      obtain ⟨hs, ht⟩ := hopen r (List.mem_cons_of_mem _ hr)
      rw [Tables.state_takeTerminal, hstate₁, htake, ht]
      exact ⟨hs, by simp [hne]⟩
    obtain ⟨hids, hd⟩ := ih (t := t₁.takeTerminal id) rfl hnodup hrest
    rw [heq]
    refine ⟨congrArg (id :: ·) hids, hd.pending, hd.admitted, hd.highWater, fun r => ?_, fun r => ?_⟩
    · rw [hd.state, Tables.state_takeTerminal, hstate₁]
    · rw [hd.terminal, htake, Bool.or_assoc, ← Bool.decide_or]
      exact congrArg _ (decide_eq_decide.mpr List.mem_cons.symm)

theorem drained_shutdown {t : Tables} (hnodup : t.pending.Nodup)
    (hopen : ∀ r ∈ t.pending, t.state r = some .queued ∧ t.terminal r = false) :
    t.shutdown.2 = t.pending ∧ Drained t t.shutdown.1 t.pending := by
  obtain ⟨hids, hd⟩ := drained_drainPending rfl hnodup hopen
  refine ⟨hids, hd.pending, hd.admitted, hd.highWater, fun r => ?_, fun r => ?_⟩
  · exact Tables.state_cancelActive.trans (hd.state r)
  · exact Tables.terminal_cancelActive.trans (hd.terminal r)

section Kept

variable {v v' : View} {t' : Tables} {id : RequestId}

/-- Terminal frames become owed for open slots that the engine thread does not hold, and
    these leave `pending_`. -/
theorem Inv.settle (t' : Tables) (ids : List RequestId) (h : Inv v) (hnodup : ids.Nodup) (hopen : ∀ r ∈ ids, v.tables.terminal r = false)
    (hfree : ∀ r ∈ ids, v.role.current ≠ some r) (hp : t'.pending.Sublist v.tables.pending)
    (hgone : ∀ r ∈ ids, r ∉ t'.pending) (hadm : t'.admitted = v.tables.admitted)
    (hwater : t'.acceptedIdHighWater = v.tables.acceptedIdHighWater)
    (hstate : ∀ r, t'.state r = v.tables.state r)
    (hterm : ∀ r, t'.terminal r = (v.tables.terminal r || decide (r ∈ ids))) :
    Inv { v with tables := t', answers := owe v.answers ids } where
  nodup := h.nodup.sublist hp
  queued := by
    intro r hr
    obtain ⟨hs, ht⟩ := h.queued r (hp.subset hr)
    refine ⟨(hstate r).trans hs, ?_⟩
    have hnot : r ∉ ids := fun hm => hgone r hm hr
    rw [hterm, ht, decide_eq_false hnot]
    rfl
  below := by rw [hadm, hwater]; exact h.below
  made := by
    intro r
    rw [hstate, hadm]
    exact h.made r
  current := by
    intro r hr
    rw [hstate]
    exact h.current r hr
  running := by
    intro r hr
    have hnot : r ∉ ids := fun hm => hfree r hm (by rw [hr]; rfl)
    rw [hterm, h.running r hr, decide_eq_false hnot]
    rfl
  answering := by
    intro r hr
    rw [hterm, h.answering r hr]
    rfl
  answers := by
    intro r
    simp only [owe]
    rw [hterm, h.answers r]
    by_cases hm : r ∈ ids
    · rw [hopen r hm, List.count_eq_one_of_mem hnodup hm, decide_eq_true hm]
      rfl
    · rw [List.count_eq_zero.mpr hm, decide_eq_false hm, Bool.or_false]
      rfl

/-- Nothing changes but the order of what is not looked at. -/
theorem Inv.same (h : Inv v) (hp : t'.pending.Sublist v.tables.pending) (hadm : t'.admitted = v.tables.admitted)
    (hwater : t'.acceptedIdHighWater = v.tables.acceptedIdHighWater)
    (hstate : ∀ r, t'.state r = v.tables.state r) (hterm : ∀ r, t'.terminal r = v.tables.terminal r) :
    Inv { v with tables := t' } := by
  have := h.settle t' [] List.nodup_nil (fun _ hm => (List.not_mem_nil hm).elim)
    (fun _ hm => (List.not_mem_nil hm).elim) hp (fun _ hm => (List.not_mem_nil hm).elim) hadm hwater hstate
    (fun r => by simp [hterm])
  exact this

theorem Inv.idle (h : Inv v) : Inv { v with role := .idle } :=
  ⟨h.nodup, h.queued, h.below, h.made, nofun, nofun, nofun, h.answers⟩

theorem Inv.accept (h : Inv v) (request : SynthesizeMessage) (hid : v.tables.acceptedIdHighWater < id) :
    Inv { v with tables := v.tables.accept id request } := by
  have hnew : id ∉ v.tables.admitted := fun hm => Nat.lt_irrefl _ (Nat.lt_of_lt_of_le hid (h.below id hm))
  have hnone : v.tables.state id = none := by
    by_contra hs
    exact hnew ((h.made id).mp hs)
  have hpending : id ∉ v.tables.pending := fun hm => by
    rw [(h.queued id hm).1] at hnone
    cases hnone
  have hclear : v.tables.terminal id = false := by
    have hslot : v.tables.slots id = none := Option.map_eq_none_iff.mp hnone
    simp [Tables.terminal, hslot]
  have hne : ∀ r, v.role.current = some r → r ≠ id := by
    intro r hr he
    rw [← he, h.current r hr] at hnone
    cases hnone
  have hterm : ∀ r, (v.tables.accept id request).terminal r = v.tables.terminal r := by
    intro r
    rw [Tables.terminal_accept]
    split
    · rename_i he
      rw [he, hclear]
    · rfl
  refine ⟨?_, ?_, ?_, ?_, ?_, ?_, ?_, ?_⟩
  · refine List.nodup_append.mpr ⟨h.nodup, List.nodup_singleton id, ?_⟩
    intro a ha b hb he
    rw [he, List.mem_singleton.mp hb] at ha
    exact hpending ha
  · intro r hr
    rw [Tables.state_accept, hterm]
    rcases List.mem_append.mp hr with hr | hr
    · have hne : r ≠ id := fun he => hpending (he ▸ hr)
      rw [if_neg hne]
      exact h.queued r hr
    · rw [List.mem_singleton.mp hr, if_pos rfl]
      exact ⟨rfl, hclear⟩
  · intro r hr
    show r ≤ id
    rcases List.mem_append.mp hr with hr | hr
    · exact Nat.le_of_lt (Nat.lt_of_le_of_lt (h.below r hr) hid)
    · exact Nat.le_of_eq (List.mem_singleton.mp hr)
  · intro r
    rw [Tables.state_accept]
    show _ ↔ r ∈ v.tables.admitted ++ [id]
    rw [List.mem_append, List.mem_singleton]
    split
    · rename_i he
      simp [he]
    · rename_i hn
      simp [hn, h.made r]
  · intro r hr
    rw [Tables.state_accept, if_neg (hne r hr)]
    exact h.current r hr
  · intro r hr
    rw [hterm]
    exact h.running r hr
  · intro r hr
    rw [hterm]
    exact h.answering r hr
  · intro r
    rw [hterm]
    exact h.answers r

theorem Inv.take {rest : List RequestId} (h : Inv v) (hp : v.tables.pending = id :: rest) :
    Inv { v with tables := v.tables.take id rest, role := .runs id } := by
  have hcons : (id :: rest).Nodup := hp ▸ h.nodup
  obtain ⟨hnew, hnodup⟩ := List.nodup_cons.mp hcons
  obtain ⟨hstate, hterm⟩ := h.queued id (hp ▸ List.mem_cons_self)
  refine ⟨hnodup, ?_, h.below, ?_, ?_, ?_, nofun, ?_⟩
  · intro r hr
    have hne : r ≠ id := fun he => hnew (he ▸ hr)
    rw [Tables.state_take, Tables.terminal_take, if_neg hne]
    exact h.queued r (hp ▸ List.mem_cons_of_mem _ hr)
  · intro r
    rw [Tables.state_take]
    split
    · exact Iff.trans (by simp) (h.made r)
    · exact h.made r
  · intro r hr
    cases hr
    rw [Tables.state_take, if_pos rfl, hstate]
    rfl
  · intro r hr
    cases hr
    rw [Tables.terminal_take]
    exact hterm
  · intro r
    rw [Tables.terminal_take]
    exact h.answers r

theorem Inv.exchange (h : Inv v) (hrole : v.role = .runs id) :
    Inv { v with
      tables := v.tables.setSlot id ({ · with terminal := true })
      role := .answers id
      answers := owe v.answers [id] } := by
  have hcur : v.tables.state id = some .running := h.current id (by rw [hrole]; rfl)
  have hpending : id ∉ v.tables.pending := fun hm => by
    rw [(h.queued id hm).1] at hcur
    cases hcur
  have hidle := h.idle.settle (v.tables.setSlot id ({ · with terminal := true })) [id] (List.nodup_singleton id)
    (fun r hm => by rw [List.mem_singleton.mp hm]; exact h.running id hrole) (fun _ _ => nofun)
    (List.Sublist.refl _) (fun r hm => by rw [List.mem_singleton.mp hm]; exact hpending) rfl rfl
    (fun r => Tables.state_setSlot fun _ => rfl) (fun r => by simp [Tables.terminal_exchange hcur])
  refine ⟨hidle.nodup, hidle.queued, hidle.below, hidle.made, ?_, nofun, ?_, hidle.answers⟩
  · intro r hr
    cases hr
    rw [← hcur]
    exact Tables.state_setSlot fun _ => rfl
  · intro r hr
    cases hr
    rw [Tables.terminal_exchange hcur]
    simp

theorem Inv.effect (h : Inv v) (e : Effect v v') : Inv v' := by
  cases e with
  | none => exact h
  | answered id _ => exact h.idle
  | accept id request hid => exact h.accept request hid
  | take id rest _ hp => exact h.take hp
  | cancelRunning id =>
    exact h.same (List.Sublist.refl _) rfl rfl (fun _ => Tables.state_setSlot fun _ => rfl)
      (fun _ => Tables.terminal_setSlot fun _ => rfl)
  | cancelAgain id =>
    exact h.same List.filter_sublist rfl rfl (fun _ => Tables.state_setSlot fun _ => rfl)
      (fun _ => Tables.terminal_setSlot fun _ => rfl)
  | cancelQueued id slot hslot hqueued hclear =>
    have hstate : v.tables.state id = some .queued := by simp [Tables.state, hslot, hqueued]
    have hsame : ∀ r, (v.tables.unqueue id).state r = v.tables.state r := fun r => Tables.state_setSlot fun _ => rfl
    have hterm : v.tables.terminal id = false := by simp [Tables.terminal, hslot, hclear]
    refine h.settle _ [id] (List.nodup_singleton id) (fun r hm => by rw [List.mem_singleton.mp hm]; exact hterm) ?_
      List.filter_sublist ?_ rfl rfl ?_ ?_
    · intro r hm hcur
      rw [List.mem_singleton.mp hm] at hcur
      rw [h.current id hcur] at hstate
      cases hstate
    · intro r hm hmem
      have : r ≠ id := by simpa using (List.mem_filter.mp hmem).2
      exact this (List.mem_singleton.mp hm)
    · intro r
      exact Tables.state_takeTerminal.trans (hsame r)
    · intro r
      have hkept : (v.tables.unqueue id).terminal r = v.tables.terminal r := Tables.terminal_setSlot fun _ => rfl
      rw [Tables.terminal_takeTerminal ((hsame id).trans hstate), hkept]
      simp
  | shutdown =>
    obtain ⟨hids, hd⟩ := drained_shutdown h.nodup h.queued
    rw [hids]
    refine h.settle _ _ h.nodup (fun r hm => (h.queued r hm).2) ?_ (hd.pending ▸ List.nil_sublist _) ?_ hd.admitted
      hd.highWater hd.state hd.terminal
    · intro r hm hcur
      have hq := (h.queued r hm).1
      rw [h.current r hcur] at hq
      cases hq
    · intro r _ hm
      rw [hd.pending] at hm
      cases hm
  | cancelActive =>
    exact h.same (List.Sublist.refl _) rfl rfl (fun _ => Tables.state_cancelActive) (fun _ => Tables.terminal_cancelActive)
  | exchange id hrole _ => exact h.exchange hrole
  | exchanged id _ _ => exact h.idle
  | release id _ => exact h.same (List.Sublist.refl _) rfl rfl (fun _ => rfl) (fun _ => rfl)

end Kept

theorem inv_init : Inv (view init) where
  nodup := List.nodup_nil
  queued := nofun
  below := nofun
  made := fun _ => ⟨fun h => (h rfl).elim, nofun⟩
  current := nofun
  running := nofun
  answering := nofun
  answers := fun _ => rfl

theorem reach_inv {cfg : Config} {s : St} (h : Reachable cfg s) : Inv (view s) :=
  h.inv (I := fun s => Inv (view s)) inv_init fun _ _ _ _ hi _ hs => hi.effect (step_effect hs)

/-! ## What the threads hand over -/

def OutFrame.isTerminal (r : RequestId) : OutFrame → Bool
  | .control id (.completed _) | .control id .cancelled | .error id _ => id == r
  | _ => false

def OutFrame.isSpeech (r : RequestId) : OutFrame → Bool
  | .control id (.started _) | .audioPcm id _ => id == r
  | _ => false

def Act.isSpeech (r : RequestId) : Act → Bool
  | .send f => f.isSpeech r
  | _ => false

def Act.returns : Act → List RequestId
  | .returned ids => ids
  | _ => []

/-- The requests whose terminal frame was handed over or dropped. -/
def closed (s : St) : List RequestId := answered s.handed ++ s.dropped

/-- No `started` or `audio_pcm` frame of a request after its terminal frame. -/
def SilentAfterAnswer (handed : List Handed) : Prop :=
  Silent (fun r h => h.answers == some r) (fun r h => h.frame.isSpeech r) handed

structure LogInv (s : St) : Prop where
  returns : Settles Act.due Act.returns (closed s) s.reader
  mute : ∀ r, ∀ a ∈ s.reader, a.isSpeech r = false
  settled : ∀ r ∈ s.settled, r ∈ closed s
  silent : SilentAfterAnswer s.handed

/-- What handling a frame does, `shutdown` apart. -/
structure Replies (s s' : St) (acts : List Act) : Prop where
  reader : s'.reader = acts ++ s.reader
  handed : s'.handed = s.handed
  settled : s'.settled = s.settled
  dropped : ∀ r ∈ s.dropped, r ∈ s'.dropped
  returns : Settles Act.due Act.returns (closed s') acts
  mute : ∀ r, ∀ a ∈ acts, a.isSpeech r = false

section Replying

variable {cfg : Config} {s s' : St} {id : RequestId} {acts : List Act}

theorem closed_mono (hh : s'.handed = s.handed) (hd : ∀ r ∈ s.dropped, r ∈ s'.dropped) :
    ∀ r ∈ closed s, r ∈ closed s' := by
  intro r hr
  rcases List.mem_append.mp hr with hr | hr
  · exact List.mem_append_left _ (hh ▸ hr)
  · exact List.mem_append_right _ (hd r hr)

theorem keep_replies (hr : s'.reader = s.reader) (hh : s'.handed = s.handed) (hs : s'.settled = s.settled)
    (hd : s'.dropped = s.dropped) : ∃ acts, Replies s s' acts :=
  ⟨[], hr, hh, hs, fun _ hm => hd ▸ hm, trivial, fun _ _ hm => (List.not_mem_nil hm).elim⟩

/-- One frame that neither speaks nor declares a request settled. -/
theorem send_replies {f : OutFrame} (hr : s'.reader = s.reader) (hh : s'.handed = s.handed)
    (hs : s'.settled = s.settled) (hd : s'.dropped = s.dropped) (hf : ∀ r, f.isSpeech r = false) :
    ∃ acts, Replies s (push s' [.send f]) acts := by
  refine ⟨[.send f], congrArg ([Act.send f] ++ ·) hr, hh, hs, fun r hm => hd ▸ hm, ?_, fun r a ha => ?_⟩
  · exact settles_of_forall fun a ha => by rw [List.mem_singleton.mp ha]; rfl
  · rw [List.mem_singleton.mp ha]
    exact hf r

theorem error_replies (e : ErrorMessage) : ∃ acts, Replies s (sendError s id e) acts :=
  send_replies rfl rfl rfl rfl fun _ => rfl

theorem synthesize_replies (request : SynthesizeMessage) :
    ∃ acts, Replies s (handleSynthesize cfg s id request) acts := by
  unfold handleSynthesize
  split
  · exact error_replies _
  split
  · exact error_replies _
  unfold admission
  split
  · exact error_replies _
  split
  · exact error_replies _
  split
  · exact error_replies _
  · exact send_replies rfl rfl rfl rfl fun _ => rfl

theorem cancel_replies (stale : Bool) : ∃ acts, Replies s (handleCancel s id stale) acts := by
  unfold handleCancel
  split
  · exact error_replies _
  split
  · split
    · exact error_replies _
    · exact keep_replies rfl rfl rfl rfl
  simp only
  split
  · exact keep_replies rfl rfl rfl rfl
  split
  · exact keep_replies rfl rfl rfl rfl
  split
  · refine ⟨[.send (.control id .cancelled), .returned [id]], rfl, rfl, rfl, fun _ hm => hm, ?_, ?_⟩
    · exact ⟨nofun, fun r hr => List.mem_append_left _ hr, trivial⟩
    · intro r a ha
      rcases List.mem_pair.mp ha with rfl | rfl <;> rfl
  · refine ⟨[.returned [id]], rfl, rfl, rfl, fun _ hm => List.mem_append_left _ hm, ?_, ?_⟩
    · refine ⟨fun r hr => ?_, trivial⟩
      exact List.mem_append_right _ (List.mem_append_right _ hr)
    · intro r a ha
      rw [List.mem_singleton.mp ha]
      rfl

/-- Every frame is answered with acts of the reader, or `shutdown` ends `read_loop`. -/
theorem frame_replies (stale : Bool) (input : Input) :
    (∃ acts, Replies s (handleFrame cfg s stale input) acts) ∨
      handleFrame cfg s stale input = { s with reader := .requestShutdown true :: s.reader.tail } := by
  cases input with
  | wrongType id => exact .inl (error_replies _)
  | undecodable id code diagnostic => exact .inl (error_replies _)
  | message id m =>
    simp only [handleFrame]
    split
    · exact .inl (error_replies _)
    split
    · unfold handleHello
      split
      · exact .inl (error_replies _)
      · exact .inl (send_replies rfl rfl rfl rfl fun _ => rfl)
    · exact .inl (synthesize_replies _)
    · exact .inl (cancel_replies stale)
    · unfold handlePing
      split
      · exact .inl (error_replies _)
      · exact .inl (send_replies rfl rfl rfl rfl fun _ => rfl)
    · unfold handleShutdown
      split
      · exact .inl (error_replies _)
      · exact .inr rfl
    · exact .inl (error_replies _)

end Replying

section Logged

variable {cfg : Config} {s s' : St} {act : Act} {rest acts : List Act}

theorem answered_append (a b : List Handed) : answered (a ++ b) = answered a ++ answered b := by simp [answered]

theorem LogInv.replies (h : LogInv s) (hrep : Replies s s' acts) : LogInv s' := by
  have hsub := closed_mono hrep.handed hrep.dropped
  refine ⟨?_, ?_, ?_, ?_⟩
  · rw [hrep.reader]
    exact hrep.returns.append (h.returns.mono hsub)
  · intro r a ha
    rw [hrep.reader] at ha
    rcases List.mem_append.mp ha with ha | ha
    · exact hrep.mute r a ha
    · exact h.mute r a ha
  · intro r hr
    exact hsub r (h.settled r (hrep.settled ▸ hr))
  · rw [hrep.handed]
    exact h.silent

/-- The reader drops the act at the top, or puts a silent one in its place. -/
theorem LogInv.top (acts : List Act) (h : LogInv s) (hr : s.reader = act :: rest) (hd : act.due = none)
    (hnew : ∀ a ∈ acts, a.returns = []) (hmute : ∀ r, ∀ a ∈ acts, a.isSpeech r = false) :
    LogInv { s with reader := acts ++ rest } := by
  have hret : Settles Act.due Act.returns (act.due.toList ++ closed s) rest := (hr ▸ h.returns).2
  rw [hd] at hret
  refine ⟨(settles_of_forall hnew).append hret, fun r a ha => ?_, h.settled, h.silent⟩
  rcases List.mem_append.mp ha with ha | ha
  · exact hmute r a ha
  · exact h.mute r a (hr ▸ List.mem_cons_of_mem _ ha)

theorem LogInv.pop (h : LogInv s) (hr : s.reader = act :: rest) (hd : act.due = none) :
    LogInv { s with reader := rest } := 
  h.top [] hr hd (fun _ hm => (List.not_mem_nil hm).elim) (fun _ _ hm => (List.not_mem_nil hm).elim)

theorem LogInv.send {f : OutFrame} (h : LogInv s) (hr : s.reader = .send f :: rest) :
    LogInv (hand { s with reader := rest } .reader f) := by
  have hret : Settles Act.due Act.returns ((Act.due (.send f)).toList ++ closed s) rest := (hr ▸ h.returns).2
  have hf : ∀ r, f.isSpeech r = false := fun r => h.mute r (.send f) (hr ▸ List.mem_cons_self)
  have hlog : ∀ r ∈ (Act.due (.send f)).toList ++ closed s, r ∈ closed (hand { s with reader := rest } .reader f) := by
    intro r hm
    simp only [closed, hand, answered_append] at hm ⊢
    rcases List.mem_append.mp hm with hm | hm
    · refine List.mem_append_left _ (List.mem_append_right _ (List.mem_filterMap.mpr ⟨_, List.mem_singleton.mpr rfl, ?_⟩))
      exact Option.mem_toList.mp hm
    · rcases List.mem_append.mp hm with hm | hm
      · exact List.mem_append_left _ (List.mem_append_left _ hm)
      · exact List.mem_append_right _ hm
  refine ⟨hret.mono hlog, fun r a ha => h.mute r a (hr ▸ List.mem_cons_of_mem _ ha), ?_, ?_⟩
  · intro r hm
    exact hlog r (List.mem_append_right _ (h.settled r hm))
  · refine h.silent.snoc fun r hspeech => ?_
    rw [hf r] at hspeech
    cases hspeech

theorem settles_shutdown (ids : List RequestId) : ∀ done : List RequestId,
    Settles Act.due Act.returns done (ids.map (fun id => Act.send (.control id .cancelled)) ++
      [.shutdownTerminalsEnqueued, .returned ids]) := by
  -- the ids still to be sent are those not yet among the ones that were
  have key : ∀ (rest done : List RequestId), (∀ r ∈ ids, r ∈ rest ∨ r ∈ done) →
      Settles Act.due Act.returns done (rest.map (fun id => Act.send (.control id .cancelled)) ++
        [.shutdownTerminalsEnqueued, .returned ids]) := by
    intro rest
    induction rest with
    | nil => exact fun done hall => ⟨nofun, fun r hr => (hall r hr).resolve_left nofun, trivial⟩
    | cons id rest ih =>
      intro done hall
      refine ⟨nofun, ih _ fun r hr => ?_⟩
      rcases hall r hr with hm | hm
      · rcases List.mem_cons.mp hm with rfl | hm
        · exact .inr List.mem_cons_self
        · exact .inl hm
      · exact .inr (List.mem_cons_of_mem _ hm)
  exact fun done => key ids done fun r hr => .inl hr

theorem LogInv.requestShutdown (h : LogInv s) (sendAck : Bool) : LogInv (requestShutdown s sendAck) := by
  unfold NativeServer.requestShutdown
  simp only
  split
  · exact ⟨h.returns, h.mute, h.settled, h.silent⟩
  · refine ⟨(settles_shutdown _ _).append h.returns, fun r a ha => ?_, h.settled, h.silent⟩
    rcases List.mem_append.mp ha with ha | ha
    · rcases List.mem_append.mp ha with ha | ha
      · obtain ⟨id, -, rfl⟩ := List.mem_map.mp ha
        rfl
      · rcases List.mem_pair.mp ha with rfl | rfl <;> rfl
    · exact h.mute r a ha

theorem LogInv.runAct (h : LogInv s) (hr : s.reader = act :: rest)
    (hs : NativeServer.runAct { s with reader := rest } act = some s') : LogInv s' := by
  cases act with
  | readLoop => cases hs
  | send f =>
    cases hs
    exact h.send hr
  | failFatal =>
    cases hs
    have := h.pop hr rfl
    exact ⟨this.returns, this.mute, this.settled, this.silent⟩
  | requestShutdown sendAck =>
    cases hs
    exact (h.pop hr rfl).requestShutdown sendAck
  | shutdownTerminalsEnqueued =>
    cases hs
    have := h.pop hr rfl
    exact ⟨this.returns, this.mute, this.settled, this.silent⟩
  | returned ids =>
    cases hs
    have := h.pop hr rfl
    have hids : ∀ r ∈ ids, r ∈ closed s := (hr ▸ h.returns : Settles Act.due Act.returns (closed s) (.returned ids :: rest)).1
    refine ⟨this.returns, this.mute, fun r hm => ?_, this.silent⟩
    rcases List.mem_append.mp hm with hm | hm
    · exact h.settled r hm
    · exact hids r hm

end Logged

/-- What the engine thread hands over in one step, and that it speaks only for the request it
    runs. -/
structure Said (s s' : St) (out : Option OutFrame) : Prop where
  reader : s'.reader = s.reader
  dropped : s'.dropped = s.dropped
  handed : s'.handed = s.handed ++ out.toList.map (⟨.engine, ·⟩)
  settled : ∀ r ∈ s'.settled, r ∈ s.settled ∨ r ∈ answered s'.handed
  speech : ∀ r, out.any (·.isSpeech r) = true → s.engine.role = .runs r

section Engine

variable {s s' : St} {e : EngineEv}

/-- A step that hands over nothing and releases no slot. -/
theorem said_nothing (hr : s'.reader = s.reader) (hd : s'.dropped = s.dropped) (hh : s'.handed = s.handed)
    (hs : s'.settled = s.settled) : ∃ out, Said s s' out :=
  ⟨none, hr, hd, by simp [hh], fun _ hm => .inl (hs ▸ hm), nofun⟩

theorem said_hand {f : OutFrame} {pc : EnginePc} (hf : ∀ r, f.isSpeech r = true → s.engine.role = .runs r) :
    ∃ out, Said s (goto (hand s .engine f) pc) out :=
  ⟨some f, rfl, rfl, rfl, fun _ hm => .inl hm, hf⟩

theorem said_terminal {id : RequestId} {answer : Answer} :
    ∃ out, Said s { hand s .engine (answer.frame id) with engine := .take, settled := s.settled ++ [id] } out := by
  refine ⟨some (answer.frame id), rfl, rfl, rfl, fun r hm => ?_, fun r hspeech => ?_⟩
  · rcases List.mem_append.mp hm with hm | hm
    · exact .inl hm
    · refine .inr (List.mem_filterMap.mpr ⟨_, List.mem_append_right _ List.mem_cons_self, ?_⟩)
      rw [List.mem_singleton.mp hm]
      cases answer <;> rfl
  · cases answer <;> cases hspeech

theorem engine_said (h : stepEngine s e = some s') : ∃ out, Said s s' out := by
  cases e with
  | chunk pcm | result r =>
    simp only [stepEngine] at h
    split at h
    · cases h
      exact said_nothing rfl rfl rfl rfl
    · cases h
  | next seen =>
    simp only [stepEngine] at h
    split at h
    · unfold takeNextRequest at h
      split at h
      · split at h
        · cases h
          exact said_nothing rfl rfl rfl rfl
        · cases h
      · cases h
        exact said_nothing rfl rfl rfl rfl
    · split at h <;> cases h
      exact said_nothing rfl rfl rfl rfl
    · rename_i id hpc
      split at h <;> cases h
      refine said_hand fun r hspeech => ?_
      rw [hpc, ← eq_of_beq hspeech]
      rfl
    · split at h
      · cases h
      split at h
      · cases h
        exact said_nothing rfl rfl rfl rfl
      · split at h <;> cases h <;> exact said_nothing rfl rfl rfl rfl
    · rename_i id pcm hpc
      cases h
      refine said_hand fun r hspeech => ?_
      rw [hpc, ← eq_of_beq hspeech]
      rfl
    · cases h
      exact said_nothing rfl rfl rfl rfl
    · split at h <;> cases h <;> exact said_nothing rfl rfl rfl rfl
    · cases h
      exact said_nothing rfl rfl rfl rfl
    · cases h
      exact said_terminal
    · cases h
      exact said_nothing rfl rfl rfl rfl
    · cases h
      exact said_hand nofun
    · cases h

theorem LogInv.engine {out : Option OutFrame} (h : LogInv s) (hinv : Inv (view s)) (hsaid : Said s s' out) : LogInv s' := by
  have hlog : ∀ r ∈ answered s.handed, r ∈ answered s'.handed := by
    intro r hm
    rw [hsaid.handed, answered_append]
    exact List.mem_append_left _ hm
  have hsub : ∀ r ∈ closed s, r ∈ closed s' := by
    intro r hm
    rcases List.mem_append.mp hm with hm | hm
    · exact List.mem_append_left _ (hlog r hm)
    · exact List.mem_append_right _ (hsaid.dropped ▸ hm)
  refine ⟨?_, ?_, ?_, ?_⟩
  · rw [hsaid.reader]
    exact h.returns.mono hsub
  · rw [hsaid.reader]
    exact h.mute
  · intro r hm
    rcases hsaid.settled r hm with hm | hm
    · exact hsub r (h.settled r hm)
    · exact List.mem_append_left _ hm
  · rw [hsaid.handed]
    cases out with
    | none => simpa using h.silent
    | some f =>
      refine h.silent.snoc fun r hspeech x hx => ?_
      -- the thread runs `r`, so `terminal` is clear and no terminal frame of `r` exists
      have hzero : answers s r = 0 := by
        have hterm := hinv.running r (hsaid.speech r hspeech)
        exact (hinv.answers r).trans (congrArg Bool.toNat hterm)
      by_contra hends
      have hmem : r ∈ answered s.handed := List.mem_filterMap.mpr ⟨x, hx, by simpa using hends⟩
      have hpos := List.count_pos_iff.mpr hmem
      unfold answers at hzero
      omega

end Engine

theorem LogInv.step {cfg : Config} {s s' : St} {e : Ev} (h : LogInv s) (hinv : Inv (view s))
    (hs : step cfg s e = some s') : LogInv s' := by
  cases e with
  | receive input stale =>
    simp only [NativeServer.step] at hs
    split at hs
    · rename_i rest hr
      cases hs
      rcases frame_replies stale input with ⟨acts, hrep⟩ | heq
      · exact h.replies hrep
      · rw [heq, hr]
        exact h.top [.requestShutdown true] hr rfl (by simp [Act.returns]) (by simp [Act.isSpeech])
    · cases hs
  | framingError =>
    simp only [NativeServer.step] at hs
    split at hs
    · rename_i rest hr
      cases hs
      exact h.top [.failFatal] hr rfl (by simp [Act.returns]) (by simp [Act.isSpeech])
    · cases hs
  | eof =>
    simp only [NativeServer.step] at hs
    split at hs
    · rename_i rest hr
      cases hs
      exact h.pop hr rfl
    · cases hs
  | reader =>
    simp only [NativeServer.step] at hs
    split at hs
    · rename_i act rest hr
      exact h.runAct hr hs
    · cases hs
  | engine e =>
    obtain ⟨out, hsaid⟩ := engine_said hs
    exact h.engine hinv hsaid

theorem reach_logInv {cfg : Config} {s : St} (h : Reachable cfg s) : LogInv s := by
  refine h.inv (I := LogInv) ?_ fun _ _ _ hr hi _ hs => hi.step (reach_inv hr) hs
  refine ⟨settles_of_forall ?_, ?_, nofun, silent_nil⟩
  · simp [init, Act.returns]
  · simp [init, Act.isSpeech]

/-! ## The result -/

def Handed.refuses : Handed → Option RequestId
  | ⟨.reader, .error id _⟩ => some id
  | _ => none

def refused (handed : List Handed) : List RequestId := handed.filterMap Handed.refuses

/-- The frames of the terminal types that carry `r`. -/
def terminals (r : RequestId) (handed : List Handed) : Nat := handed.countP (·.frame.isTerminal r)

/-- They are the terminal frames of request `r` and the refusals of frames that carry `r`. -/
theorem terminals_eq (r : RequestId) (handed : List Handed) :
    terminals r handed = (answered handed).count r + (refused handed).count r := by
  induction handed with
  | nil => rfl
  | cons h handed ih =>
    have hone : (if h.frame.isTerminal r then 1 else 0) = h.answers.toList.count r + h.refuses.toList.count r := by
      have single : ∀ id : RequestId, (if (id == r) = true then 1 else 0) = [id].count r := fun id =>
        List.count_singleton.symm
      obtain ⟨th, f⟩ := h
      cases f with
      | audioPcm id pcm => cases th <;> rfl
      | error id e =>
        cases th with
        | engine => exact single id
        | reader => exact (single id).trans (Nat.zero_add _).symm
      | control id m => cases m <;> cases th <;> first | rfl | exact single id
    have hans : answered (h :: handed) = h.answers.toList ++ answered handed := by
      cases ha : h.answers <;> simp [answered, ha]
    have href : refused (h :: handed) = h.refuses.toList ++ refused handed := by
      cases ha : h.refuses <;> simp [refused, ha]
    rw [hans, href, List.count_append, List.count_append]
    unfold terminals at ih ⊢
    rw [List.countP_cons, ih, hone]
    omega

/-- Exactly one terminal frame for each admitted request and silence after it. The frames of
    the terminal types that carry its id are that one and the refusals of later frames under
    the same id. -/
theorem one_terminal_then_silence (cfg : Config) (s : St) (h : Reachable cfg s) :
    (∀ r ∈ s.tables.admitted,
      (answered s.handed).count r ≤ 1 ∧
        terminals r s.handed = (answered s.handed).count r + (refused s.handed).count r) ∧
      (∀ r ∈ s.settled, r ∉ s.dropped → r ∈ s.tables.admitted ∧ (answered s.handed).count r = 1) ∧
      SilentAfterAnswer s.handed := by
  have hinv := reach_inv h
  have hlog := reach_logInv h
  have hcount : ∀ r, answers s r = (s.tables.terminal r).toNat := hinv.answers
  have hmost : ∀ r, (answered s.handed).count r ≤ 1 := by
    intro r
    have := hcount r
    have := Bool.toNat_le (s.tables.terminal r)
    unfold answers at *
    omega
  refine ⟨fun r _ => ⟨hmost r, terminals_eq r s.handed⟩, fun r hr hdrop => ?_, hlog.silent⟩
  have hsent : r ∈ answered s.handed := (List.mem_append.mp (hlog.settled r hr)).resolve_right hdrop
  have hpos := List.count_pos_iff.mpr hsent
  refine ⟨?_, Nat.le_antisymm (hmost r) hpos⟩
  -- a slot with its flag set was made by an admission
  refine (hinv.made r).mp fun hnone => ?_
  have hslot : s.tables.slots r = none := Option.map_eq_none_iff.mp hnone
  have := hcount r
  simp only [Tables.terminal, hslot, answers] at this
  simp at this
  omega

def sampleConfig : Config where
  maxAdmittedRequests := 1
  ready := {}
  validateRequest := fun _ => none

/-- The client asks for request 1, and the reader answers. -/
def synthesizeOne : List Ev :=
  [.receive (.message 0 (.hello [] [])) true, .reader, .receive (.message 1 (.synthesize {})) true, .reader]

/-- The engine thread runs request 1 to its end. -/
def runOne : List Ev :=
  [.engine (.next false), .engine (.next false), .engine (.next false), .engine (.chunk (some [0, 0])),
    .engine (.next false), .engine (.next false), .engine (.result { outcome := .completed }),
    .engine (.next false), .engine (.next false), .engine (.next false)]

theorem one_terminal_of_a_completed_request : ∃ s, Reachable sampleConfig s ∧ 1 ∈ s.settled ∧
    (answered s.handed).count 1 = 1 ∧ SilentAfterAnswer s.handed := by
  have hrun : ∃ s, Reachable sampleConfig s ∧ decide (1 ∈ s.settled ∧ 1 ∉ s.dropped) = true :=
    exists_reach_of_run (synthesizeOne ++ runOne) (by decide +kernel)
  obtain ⟨s, hs, hp⟩ := hrun
  obtain ⟨hsettled, hdrop⟩ := of_decide_eq_true hp
  have hone := one_terminal_then_silence sampleConfig s hs
  exact ⟨s, hs, hsettled, (hone.2.1 1 hsettled hdrop).2, hone.2.2⟩

/-- A second `synthesize` with the id of an admitted request is refused with an error frame
    that carries this id, so the id has two frames of the terminal types, and the first one
    comes before `started`. -/
theorem a_duplicate_is_refused_under_the_same_id : ∃ s, Reachable sampleConfig s ∧ 1 ∈ s.settled ∧
    terminals 1 s.handed = 2 ∧
      ∃ i j : Fin s.handed.length, i < j ∧ (s.handed.get i).frame.isTerminal 1 = true ∧
        (s.handed.get j).frame.isSpeech 1 = true := by
  have hrun : ∃ s, Reachable sampleConfig s ∧ decide (1 ∈ s.settled ∧ terminals 1 s.handed = 2 ∧
      ∃ i j : Fin s.handed.length, i < j ∧ (s.handed.get i).frame.isTerminal 1 = true ∧
        (s.handed.get j).frame.isSpeech 1 = true) = true :=
    exists_reach_of_run
      (synthesizeOne ++ [.receive (.message 1 (.synthesize {})) true, .reader] ++ runOne) (by decide +kernel)
  obtain ⟨s, hs, hp⟩ := hrun
  exact ⟨s, hs, of_decide_eq_true hp⟩

end QwenTtsBridge.Worker.NativeServer
