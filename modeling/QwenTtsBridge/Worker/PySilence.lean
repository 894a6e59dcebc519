/-
  QwenTtsBridge.Worker.PySilence — no `started` or `audio_pcm` frame of the Python worker
  (`PyServer`) after a terminal frame of the same request.

  The engine thread tests a slot's cancel event and then sends outside the lock, so a
  cancel handler can hand `cancelled` over between the test and the frame that it guards
  (`EnginePc.speaking`; `audio_after_cancelled` is a run that does). In every run where it
  does not, the log is silent after each terminal frame (`silent_after_terminal`): a
  terminal frame of a request means that it is out of the queue and that the engine
  thread, if it still runs it, will see the cancel event before it speaks again (`Quiet`).
-/

import QwenTtsBridge.Worker.PyTerminal

namespace QwenTtsBridge.Worker.PyServer

open QwenTtsBridge.Python QwenTtsBridge.Lib QwenTtsBridge.Lib.Transition QwenTtsBridge.Lib.EventLog

/-! ## A cancelled request stays cancelled -/

/-- The request whose next frame the engine thread sends without another test. -/
def EnginePc.speaking : EnginePc → Option RequestId
  | .describe id | .sendStarted id | .sendAudio id _ => some id
  | _ => none

def Tables.isSet (t : Tables) (id : RequestId) : Bool := ((t.slots id).map (·.cancelEvent)).getD false

/-- Out of the queue, and if the engine thread runs it then its cancel event is set. -/
structure Cancelled (t : Tables) (role : Role) (r : RequestId) : Prop where
  admitted : r ∈ t.admitted
  unqueued : r ∉ t.pending
  set : role = .holds r → t.isSet r = true

section Stable

variable {cfg : Config} {t : Tables} {id r : RequestId} {v v' : View}

theorem isSet_setSlot {f : Slot → Slot} (hf : ∀ slot, slot.cancelEvent = true → (f slot).cancelEvent = true)
    (h : t.isSet r = true) : (t.setSlot id f).isSet r = true := by
  unfold Tables.isSet Tables.setSlot at *
  simp only
  split
  · cases hslot : t.slots r with
    | none => simp [hslot] at h
    | some slot => exact hf slot (by simpa [hslot] using h)
  · exact h

theorem isSet_terminalizeLocked : (t.terminalizeLocked id).isSet r = t.isSet r := by
  rw [Tables.isSet, slots_terminalizeLocked, Tables.isSet]

theorem isSet_cancelQueued : (t.cancelQueued id).isSet r = t.isSet r := isSet_terminalizeLocked

theorem isSet_foldl_cancelPending (ids : List RequestId) (h : t.isSet r = true) :
    (ids.foldl Tables.cancelPending t).isSet r = true := by
  induction ids generalizing t with
  | nil => exact h
  | cons id ids ih =>
    refine ih ?_
    rw [Tables.cancelPending, isSet_cancelQueued]
    exact isSet_setSlot (fun _ _ => rfl) h

theorem pending_foldl_cancelPending {ids : List RequestId} (hp : t.pending = ids) :
    (ids.foldl Tables.cancelPending t).pending = [] := by
  induction ids generalizing t with
  | nil => exact hp
  | cons id ids ih => exact ih (pending_cancelPending hp)

theorem admitted_foldl_cancelPending (ids : List RequestId) :
    (ids.foldl Tables.cancelPending t).admitted = t.admitted := by
  induction ids generalizing t with
  | nil => rfl
  | cons id ids ih => exact ih.trans admitted_terminalizeLocked

/-- The engine thread releases a slot and with it the request that it ran. -/
theorem Cancelled.released {role role' : Role} (h : Cancelled t role r) (hrole : role' ≠ .holds r) :
    Cancelled (t.terminalizeLocked id) role' r := by
  refine ⟨?_, ?_, fun hr => absurd hr hrole⟩
  · rw [admitted_terminalizeLocked]; exact h.admitted
  · rw [pending_terminalizeLocked]; exact h.unqueued

/-- No step puts a request back in the queue, hands it to the engine thread or clears its
    cancel event. -/
theorem Cancelled.effect {calm : Prop} (e : Effect cfg calm v v') (hinv : Inv cfg v.tables v.role)
    (h : Cancelled v.tables v.role r) : Cancelled v'.tables v'.role r := by
  cases e with
  | none => exact h
  | dies => exact ⟨h.admitted, h.unqueued, fun hr => by cases hr⟩
  | answered => exact ⟨h.admitted, h.unqueued, fun hr => by cases hr⟩
  | accept id request _ hwater _ =>
    have hne : r ≠ id := fun he => Nat.not_lt_of_le (hinv.admittedBelow r h.admitted).2 (he ▸ hwater)
    refine ⟨List.mem_append_left _ h.admitted, fun hm => ?_, fun hr => ?_⟩
    · rcases List.mem_append.mp hm with hm | hm
      · exact h.unqueued hm
      · exact hne (List.mem_singleton.mp hm)
    · have hset := h.set hr
      unfold Tables.isSet at hset ⊢
      simpa only [Tables.accept, if_neg hne] using hset
  | take id rest hrole hp _ =>
    have hne : r ≠ id := fun he => h.unqueued (by rw [hp, he]; exact List.mem_cons_self)
    refine ⟨h.admitted, fun hm => h.unqueued ?_, fun hr => ?_⟩
    · rw [hp]
      exact List.mem_cons_of_mem _ hm
    · cases hr
      exact absurd rfl hne
  | takeMissing id rest hrole hp _ =>
    refine ⟨h.admitted, fun hm => h.unqueued ?_, h.set⟩
    rw [hp]
    exact List.mem_cons_of_mem _ hm
  | cancelQueued id _ =>
    refine ⟨?_, fun hm => ?_, fun hr => ?_⟩
    · rw [Tables.cancelQueued, admitted_terminalizeLocked]
      exact h.admitted
    · rw [Tables.cancelQueued, pending_terminalizeLocked] at hm
      exact h.unqueued (List.mem_of_mem_erase hm)
    · exact isSet_cancelQueued.trans (h.set hr)
  | cancelUnlisted => exact ⟨h.admitted, h.unqueued, fun hr => isSet_setSlot (fun _ _ => rfl) (h.set hr)⟩
  | cancelRunning => exact ⟨h.admitted, h.unqueued, fun hr => isSet_setSlot (fun _ _ => rfl) (h.set hr)⟩
  | shutdown =>
    rw [hinv.shutdown_eq]
    refine ⟨?_, ?_, fun hr => ?_⟩
    · show r ∈ (v.tables.pending.foldl Tables.cancelPending v.tables).admitted
      rw [admitted_foldl_cancelPending]
      exact h.admitted
    · show r ∉ (v.tables.pending.foldl Tables.cancelPending v.tables).pending
      rw [pending_foldl_cancelPending rfl]
      exact List.not_mem_nil
    · have hset := isSet_foldl_cancelPending v.tables.pending (h.set hr)
      unfold Tables.isSet Tables.cancelActive at *
      simp only
      split
      · cases hslot : (v.tables.pending.foldl Tables.cancelPending v.tables).slots r with
        | none => simp [hslot] at hset
        | some slot => rfl
      · exact hset
  | terminalize id _ _ => exact h.released (by simp)
  | finishNotified id _ _ =>
    have hset : Cancelled (v.tables.setSlot id ({ · with terminalNotified := true })) .idle r :=
      ⟨h.admitted, h.unqueued, fun hr => by cases hr⟩
    exact hset.released (by simp)
  | finishCancelled id _ _ =>
    have hset : Cancelled (v.tables.setSlot id ({ · with terminalNotified := true })) .idle r :=
      ⟨h.admitted, h.unqueued, fun hr => by cases hr⟩
    exact hset.released (by simp)

end Stable

/-! ## What the reader has still to answer -/

section Due

variable {cfg : Config} {s s' : St} {id : RequestId} {rest : List Act} {act : Act}

/-- The cancel handler answers requests that are cancelled by then. -/
theorem cancel_due (hinv : Inv cfg s.tables s.engine.role) : ∀ r ∈ dueIn (handleCancel s id).reader,
    r ∈ dueIn s.reader ∨ Cancelled (handleCancel s id).tables (handleCancel s id).engine.role r := by
  have hrole : ∀ s : St, (notifyAll s).engine.role = s.engine.role := fun s => congrArg View.role view_notifyAll
  unfold handleCancel
  split
  · exact fun r hr => .inl hr
  split
  · split
    · intro r hr
      refine .inl ?_
      simpa [sendError, push, dueIn_cons, Act.due, Handed.answers] using hr
    · intro r hr
      exact .inl (by simpa using hr)
  · rename_i slot hget
    have hactive : id ∈ s.tables.active := by
      by_contra hn
      simp [Tables.get?, hn] at hget
    have hslot : s.tables.slots id = some slot := by simpa [Tables.get?, hactive] using hget
    have hadm := hinv.admitted_of_physical (hinv.activePhysical id hactive)
    have hpush : ∀ (s' : St) (acts : List Act), dueIn acts = [id] → s'.reader = s.reader →
        Cancelled s'.tables s'.engine.role id → ∀ r ∈ dueIn (push s' acts).reader,
          r ∈ dueIn s.reader ∨ Cancelled (push s' acts).tables (push s' acts).engine.role r := by
      intro s' acts hacts hreader hc r hr
      simp only [push, dueIn_append, hacts, hreader, List.singleton_append, List.mem_cons] at hr
      rcases hr with rfl | hr
      · exact .inr hc
      · exact .inl hr
    split
    · rename_i hstate
      split
      · rename_i hpend
        refine hpush _ _ rfl (by simp) ?_
        rw [notifyAll_tables, hrole]
        refine ⟨?_, ?_, fun hr => ?_⟩
        · rw [admitted_terminalizeLocked]; exact hadm
        · rw [pending_terminalizeLocked]
          exact fun hm => (hinv.pendingNodup.mem_erase_iff.mp hm).1 rfl
        · exact absurd hpend (hinv.current id (by rw [hr]; rfl)).1
      · intro r hr
        exact .inl (by simpa using hr)
    · rename_i hstate
      simp only
      split
      · intro r hr
        exact .inl (by simpa using hr)
      · refine hpush _ _ rfl (by simp) ?_
        rw [notifyAll_tables, hrole]
        refine ⟨hadm, fun hm => ?_, fun _ => ?_⟩
        · obtain ⟨slot', hslot', hq⟩ := hinv.pendingQueued id hm
          rw [hslot] at hslot'
          cases hslot'
          rw [hstate] at hq
          cases hq
        · simp [Tables.isSet, Tables.cancelRunning, Tables.setSlot, hslot]

theorem frame_due (hinv : Inv cfg s.tables s.engine.role) (hr : s.reader = .readLoop :: rest) (c : Command) :
    ∀ r ∈ dueIn (handleFrame cfg s c).reader, r ∈ dueIn s.reader ∨
      Cancelled (handleFrame cfg s c).tables (handleFrame cfg s c).engine.role r := by
  have hsilent : ∀ (s' : St) (acts : List Act), dueIn acts = [] → s'.reader = s.reader →
      ∀ r ∈ dueIn (push s' acts).reader, r ∈ dueIn s.reader := by
    intro s' acts hacts hreader r hmem
    simpa [push, hacts, hreader] using hmem
  have herror : ∀ id e, ∀ r ∈ dueIn (sendError s id e).reader, r ∈ dueIn s.reader :=
    fun id e => hsilent s _ rfl rfl
  have hunwind : ∀ r ∈ dueIn (unwind s).reader, r ∈ dueIn s.reader := by
    intro r hmem
    rw [unwind, dueIn_filter_isFinally] at hmem
    cases hmem
  cases c with
  | refused id e => exact fun r hm => .inl (herror id e r hm)
  | raises => exact fun r hm => .inl (hunwind r hm)
  | hello id =>
    simp only [handleFrame, handleHello]
    split
    · exact fun r hm => .inl (herror _ _ r hm)
    · exact fun r hm => .inl (hsilent { s with helloSeen := true, readySent := true } _ rfl rfl r hm)
  | ping id sequence =>
    simp only [handleFrame, handlePing]
    split
    · exact fun r hm => .inl (herror _ _ r hm)
    · exact fun r hm => .inl (hsilent s _ rfl rfl r hm)
  | synthesize id parsed =>
    simp only [handleFrame, handleSynthesize]
    split
    · exact fun r hm => .inl (herror _ _ r hm)
    split
    · exact fun r hm => .inl (herror _ _ r hm)
    split
    · exact fun r hm => .inl (herror _ _ r hm)
    cases parsed with
    | raises => exact fun r hm => .inl (hunwind r hm)
    | refused e => exact fun r hm => .inl (herror _ _ r hm)
    | request request =>
      simp only [admission]
      split
      · exact fun r hm => .inl (herror _ _ r hm)
      split
      · exact fun r hm => .inl (herror _ _ r hm)
      · exact fun r hm => .inl (hsilent { s with tables := s.tables.accept id request } _ rfl rfl r hm)
  | cancel id =>
    simp only [handleFrame]
    split
    · exact fun r hm => .inl (herror _ _ r hm)
    · exact cancel_due hinv
  | shutdown id modeIsCancel =>
    simp only [handleFrame, handleShutdown]
    split
    · exact fun r hm => .inl (herror _ _ r hm)
    split
    · exact fun r hm => .inl (herror _ _ r hm)
    · intro r hm
      rw [hr]
      rw [hr] at hm
      exact .inl hm

theorem requestShutdown_due (hinv : Inv cfg s.tables s.engine.role) (sendAck : Bool) :
    ∀ r ∈ dueIn (requestShutdown s sendAck).reader, r ∈ dueIn s.reader ∨
      Cancelled (requestShutdown s sendAck).tables (requestShutdown s sendAck).engine.role r := by
  unfold requestShutdown
  split
  · intro r hm
    exact .inl (by simpa using hm)
  · simp only [hinv.shutdown_eq]
    intro r hm
    simp only [push, dueIn_append, List.mem_append] at hm
    rcases hm with (hm | hm) | hm
    · -- a drained request was pending, so the engine thread does not run it
      have hpend : r ∈ s.tables.pending := by
        obtain ⟨a, ha, hd⟩ := List.mem_filterMap.mp hm
        obtain ⟨i, hi, ha⟩ := List.mem_flatMap.mp ha
        rcases List.mem_cons.mp ha with rfl | ha
        · cases hd
        · cases List.mem_singleton.mp ha
          cases hd
          exact hi
      refine .inr ⟨?_, ?_, fun hr => ?_⟩
      · show r ∈ (s.tables.pending.foldl Tables.cancelPending s.tables).admitted
        rw [admitted_foldl_cancelPending]
        exact hinv.admitted_of_physical (hinv.activePhysical r (hinv.pendingActive r hpend))
      · show r ∉ (s.tables.pending.foldl Tables.cancelPending s.tables).pending
        rw [pending_foldl_cancelPending rfl]
        exact List.not_mem_nil
      · have hrole : s.engine.role = .holds r := hr
        exact absurd hpend (hinv.current r (by rw [hrole]; rfl)).1
    · cases hm
    · exact .inl hm

end Due

/-! ## What the engine thread says -/

/-- The engine thread speaks for the request it is past its tests of, and ends the one that
    it answers. -/
structure Said (s s' : St) (f : OutFrame) : Prop where
  handed : s'.handed = s.handed ++ [⟨.engine, f⟩]
  speech : ∀ r, f.isSpeech r = true → s.engine.speaking = some r ∧ s.engine.role = .holds r
  answer : ∀ r, Handed.answers ⟨.engine, f⟩ = some r → s.engine.role = .answers r ∧ s'.engine = .take

section Said

variable {cfg : Config} {s s' : St} {e : EngineEv} {r : RequestId}

theorem engine_said (h : stepEngine cfg s e = some s') : s'.handed = s.handed ∨ ∃ f, Said s s' f := by
  cases e with
  | next =>
    simp only [stepEngine] at h
    split at h
    · cases h
      unfold takeNextRequest
      split
      · split <;> exact .inl rfl
      · simp only
        split <;> exact .inl rfl
    · cases h; exact .inl rfl
    · rename_i id hpc
      split at h
      · cases h
      · split at h <;> cases h
        · refine .inr ⟨_, rfl, fun r hr => ?_, fun r hr => by cases hr⟩
          cases (beq_iff_eq.mp hr : id = r)
          exact ⟨by rw [hpc]; rfl, by rw [hpc]; rfl⟩
        · exact .inl rfl
    · cases h; exact .inl rfl
    · cases h; exact .inl rfl
    · rename_i id pcm hpc
      split at h <;> cases h
      · refine .inr ⟨_, rfl, fun r hr => ?_, fun r hr => by cases hr⟩
        cases (beq_iff_eq.mp hr : id = r)
        exact ⟨by rw [hpc]; rfl, by rw [hpc]; rfl⟩
      · exact .inl rfl
    · cases h; exact .inl rfl
    · cases h; exact .inl rfl
    · cases h; exact .inl rfl
    · cases h
      unfold finishCancelled
      simp only
      split <;> exact .inl rfl
    · rename_i id answer hpc
      split at h <;> cases h
      · exact .inl rfl
      · refine .inr ⟨_, rfl, fun r hr => ?_, fun r hr => ?_⟩
        · cases answer <;> cases hr
        · have ha : Handed.answers ⟨.engine, answer.frame id⟩ = some id := by cases answer <;> rfl
          rw [ha] at hr
          cases hr
          exact ⟨by rw [hpc]; rfl, rfl⟩
    · cases h; exact .inl rfl
    · cases h
      exact .inr ⟨_, rfl, (fun r hr => by cases hr), fun r hr => by cases hr⟩
    · cases h
  | described | yields | ends | raises | trace | traceRaises =>
    simp only [stepEngine] at h
    split at h <;> cases h
    all_goals exact .inl rfl

theorem speaking_onException (id : RequestId) (error : EngineError) : (onException id error).speaking = none := by
  cases error <;> rfl

/-- A request whose cancel event is set is not spoken for again: every way to a frame leads
    through a test. -/
theorem engine_speaking (h : stepEngine cfg s e = some s') (hset : s.engine.role = .holds r → isSet s r = true)
    (hquiet : s.engine.speaking ≠ some r) : s'.engine.speaking ≠ some r := by
  have tested : ∀ id pc, s.engine.role = .holds id → isSet s id = false → pc = some id → pc ≠ some r := by
    rintro id pc hrole hn rfl heq
    cases heq
    rw [hset hrole] at hn
    cases hn
  cases e with
  | next =>
    simp only [stepEngine] at h
    split at h
    · cases h
      unfold takeNextRequest
      split
      · split <;> simp [goto, EnginePc.speaking]
      · simp only
        split <;> simp [EnginePc.speaking]
    · rename_i id hpc
      cases h
      simp only [goto]
      split
      · simp [EnginePc.speaking]
      · rename_i hn
        exact tested id _ (by rw [hpc]; rfl) (by simpa using hn) rfl
    · split at h
      · cases h
      · split at h <;> cases h <;> simp [goto, EnginePc.speaking]
    · cases h
      simp only [goto]
      split
      · simp [EnginePc.speaking]
      · split <;> simp [EnginePc.speaking]
    · rename_i id pcm hpc
      cases h
      simp only [goto]
      split
      · simp [EnginePc.speaking]
      · rename_i hn
        exact tested id _ (by rw [hpc]; rfl) (by simpa using hn) rfl
    · split at h <;> cases h <;> simp [goto, EnginePc.speaking]
    · cases h
      simp only [goto]
      split <;> simp [EnginePc.speaking]
    · cases h
      simp only [goto]
      split <;> simp [EnginePc.speaking]
    · rename_i id outcome hpc
      cases h
      cases outcome <;> simp [EnginePc.speaking]
    · cases h
      unfold finishCancelled
      simp only
      split <;> simp [EnginePc.speaking]
    · split at h <;> cases h <;> simp [dieUnanswered, EnginePc.speaking]
    · cases h
      simp only [goto]
      split <;> simp [EnginePc.speaking]
    · cases h
      simp [goto, EnginePc.speaking]
    · cases h
  | described error =>
    simp only [stepEngine] at h
    split at h
    · rename_i id hpc
      cases h
      rw [hpc] at hquiet
      simp only [goto]
      split
      · exact hquiet
      · simp [speaking_onException]
      · simp [EnginePc.speaking]
    · cases h
  | raises error =>
    simp only [stepEngine] at h
    split at h <;> cases h
    all_goals simp [goto, speaking_onException]
  | yields | ends | trace | traceRaises =>
    simp only [stepEngine] at h
    split at h <;> cases h
    all_goals simp [goto, dieUnanswered, EnginePc.speaking]

end Said

/-! ## Silence -/

/-- The reader moves the engine thread only by waking it. -/
def Wakes (s s' : St) : Prop := s'.engine = s.engine ∨ s'.engine = .take

section Wakes

variable {cfg : Config} {s s' : St}

theorem wakes_notifyAll (s : St) : Wakes s (notifyAll s) := by
  unfold notifyAll
  split
  · exact .inr rfl
  · exact .inl rfl

theorem Wakes.speaking {r : RequestId} (h : Wakes s s') (hq : s.engine.speaking ≠ some r) :
    s'.engine.speaking ≠ some r := by
  rcases h with h | h <;> rw [h]
  · exact hq
  · simp [EnginePc.speaking]

theorem cancel_wakes (id : RequestId) : Wakes s (handleCancel s id) := by
  unfold handleCancel
  split
  · exact .inl rfl
  split
  · split <;> exact wakes_notifyAll s
  split
  · split
    · exact wakes_notifyAll { s with tables := s.tables.cancelQueued id }
    · exact wakes_notifyAll { s with tables := s.tables.setSlot id ({ · with state := .running, cancelEvent := true }) }
  · simp only
    split <;> exact wakes_notifyAll { s with tables := s.tables.cancelRunning id }

theorem frame_wakes (c : Command) : Wakes s (handleFrame cfg s c) := by
  cases c with
  | refused | raises => exact .inl rfl
  | hello id =>
    simp only [handleFrame, handleHello]
    split <;> exact .inl rfl
  | ping id sequence =>
    simp only [handleFrame, handlePing]
    split <;> exact .inl rfl
  | synthesize id parsed =>
    simp only [handleFrame, handleSynthesize]
    split
    · exact .inl rfl
    split
    · exact .inl rfl
    split
    · exact .inl rfl
    cases parsed with
    | raises | refused => exact .inl rfl
    | request request =>
      simp only [admission]
      split
      · exact .inl rfl
      · split <;> exact .inl rfl
  | cancel id =>
    simp only [handleFrame]
    split
    · exact .inl rfl
    · exact cancel_wakes id
  | shutdown id modeIsCancel =>
    simp only [handleFrame, handleShutdown]
    split
    · exact .inl rfl
    · split <;> exact .inl rfl

/-- What an act of the reader does to the log and to what is due. -/
theorem act_due {act : Act} {rest : List Act} (hinv : Inv cfg s.tables s.engine.role) (hr : s.reader = act :: rest)
    (h : runAct cfg { s with reader := rest } act = some s') :
    Wakes s s' ∧
      (s'.handed = s.handed ∨ ∃ f, act = .send f ∧ s'.handed = s.handed ++ [⟨.reader, f⟩]) ∧
      ∀ r ∈ dueIn s'.reader, r ∈ dueIn s.reader ∨ Cancelled s'.tables s'.engine.role r := by
  have hrest : ∀ r ∈ dueIn rest, r ∈ dueIn s.reader := by
    intro r hm
    rw [hr, dueIn_cons]
    exact List.mem_append_right _ hm
  have hunwind : ∀ (s' : St), ∀ r ∈ dueIn (unwind s').reader, r ∈ dueIn s.reader := by
    intro s' r hm
    rw [unwind, dueIn_filter_isFinally] at hm
    cases hm
  cases act with
  | readLoop => cases h
  | send f =>
    simp only [runAct] at h
    split at h <;> cases h
    · exact ⟨.inl rfl, .inr ⟨f, rfl, rfl⟩, fun r hm => .inl (hrest r hm)⟩
    · exact ⟨.inl rfl, .inl rfl, fun r hm => .inl (hunwind _ r hm)⟩
  | emitFinished id =>
    simp only [runAct] at h
    split at h <;> cases h
    · exact ⟨.inl rfl, .inl rfl, fun r hm => .inl (hunwind _ r hm)⟩
    · exact ⟨.inl rfl, .inl rfl, fun r hm => .inl (hrest r hm)⟩
  | notifyAll =>
    cases h
    exact ⟨wakes_notifyAll _, .inl (by simp), fun r hm => .inl (hrest r (by simpa using hm))⟩
  | requestShutdown sendAck =>
    cases h
    refine ⟨?_, .inl ?_, fun r hm => ?_⟩
    · unfold requestShutdown
      split
      · exact wakes_notifyAll _
      · exact .inl rfl
    · unfold requestShutdown
      split
      · simp
      · rfl
    · rcases requestShutdown_due (s := { s with reader := rest }) hinv sendAck r hm with hm | hm
      · exact .inl (hrest r hm)
      · exact .inr hm
  | shutdownTerminalEventsEnqueued =>
    cases h
    exact ⟨wakes_notifyAll _, .inl (by simp), fun r hm => .inl (hrest r (by simpa using hm))⟩
  | returned ids =>
    cases h
    exact ⟨.inl rfl, .inl rfl, fun r hm => .inl (hrest r hm)⟩

end Wakes

/-- The request that the reader's next act answers. -/
def answering (s : St) : Option RequestId := s.reader.head?.bind Act.due

/-- The reader hands a `cancelled` frame over only while the engine thread is not between a
    test of that request's cancel event and the frame that the test guards, and the client
    keeps each id to one request. -/
def Hushed (s : St) (e : Ev) : Prop :=
  Lawful s e ∧ (e.isReader = true → answering s = none ∨ answering s ≠ s.engine.speaking)

/-- No `started` or `audio_pcm` frame follows a terminal frame of its request. -/
def SilentAfterTerminal (handed : List Handed) : Prop :=
  Silent (fun r h => h.frame.isTerminal r) (fun r h => h.frame.isSpeech r) handed

structure Hush (s : St) : Prop where
  due : ∀ r ∈ dueIn s.reader, Cancelled s.tables s.engine.role r
  answered : ∀ r ∈ answered s.handed, Cancelled s.tables s.engine.role r ∧ s.engine.speaking ≠ some r
  silent : SilentAfterTerminal s.handed

/-- A frame of a request that no terminal frame carries yet. -/
theorem silent_snoc {handed : List Handed} {h : Handed} (hs : SilentAfterTerminal handed)
    (hn : ∀ r, h.frame.isSpeech r = true → terminals r handed = 0) : SilentAfterTerminal (handed ++ [h]) := by
  refine Silent.snoc hs fun r hspeech a ha => ?_
  exact Bool.eq_false_iff.mpr (List.countP_eq_zero.mp (hn r hspeech) a ha)

theorem hush_step {cfg : Config} {s s' : St} {e : Ev} (hinv : Inv cfg s.tables s.engine.role) (hr : ReaderInv s)
    (h : Hush s) (hok : Hushed s e) (hs : step cfg s e = some s') : Hush s' := by
  have heff : Effect cfg False (view s) (view s') := step_effect False False.elim hs
  have keep : ∀ r, Cancelled s.tables s.engine.role r → Cancelled s'.tables s'.engine.role r :=
    fun r hc => Cancelled.effect heff hinv hc
  cases e with
  | receive c =>
    simp only [step] at hs
    split at hs
    · rename_i rest hread
      cases hs
      have hwake : Wakes s (handleFrame cfg s c) := frame_wakes c
      have hhanded : (handleFrame cfg s c).handed = s.handed := by
        rcases frame_replies hinv hr.ready c hok.1 with ⟨acts, hrep⟩ | hu | hd
        · exact hrep.handed
        · rw [hu]; rfl
        · rw [hd]
      refine ⟨fun r hm => ?_, fun r hm => ?_, ?_⟩
      · rcases frame_due hinv hread c r hm with hm | hm
        · exact keep r (h.due r hm)
        · exact hm
      · rw [hhanded] at hm
        obtain ⟨hc, hq⟩ := h.answered r hm
        exact ⟨keep r hc, hwake.speaking hq⟩
      · rw [hhanded]; exact h.silent
    · cases hs
  | eof =>
    simp only [step] at hs
    split at hs
    · rename_i rest hread
      cases hs
      refine ⟨fun r hm => h.due r ?_, h.answered, h.silent⟩
      rw [hread, dueIn_cons]
      exact List.mem_append_right _ hm
    · cases hs
  | reader =>
    simp only [step] at hs
    split at hs
    · rename_i act rest hread
      obtain ⟨hwake, hlog, hdue⟩ := act_due hinv hread hs
      have hold : ∀ r ∈ answered s.handed, Cancelled s'.tables s'.engine.role r ∧ s'.engine.speaking ≠ some r := by
        intro r hm
        obtain ⟨hc, hq⟩ := h.answered r hm
        exact ⟨keep r hc, hwake.speaking hq⟩
      refine ⟨fun r hm => ?_, fun r hm => ?_, ?_⟩
      · rcases hdue r hm with hm | hm
        · exact keep r (h.due r hm)
        · exact hm
      · rcases hlog with hlog | ⟨f, rfl, hlog⟩
        · exact hold r (hlog ▸ hm)
        · rw [hlog, answered_append] at hm
          rcases List.mem_append.mp hm with hm | hm
          · exact hold r hm
          · -- the frame was due, and the engine thread is not past a test of this request
            obtain ⟨x, hx, hans⟩ := List.mem_filterMap.mp hm
            cases List.mem_singleton.mp hx
            have hhead : answering s = some r := by
              simp only [answering, hread, List.head?_cons, Option.bind_some]
              exact hans
            have hmem : r ∈ dueIn s.reader := by
              rw [hread, dueIn_cons]
              exact List.mem_append_left _ (Option.mem_toList.mpr hans)
            refine ⟨keep r (h.due r hmem), hwake.speaking fun hspeak => ?_⟩
            rcases hok.2 rfl with hnone | hne
            · rw [hnone] at hhead
              cases hhead
            · exact hne (hhead.trans hspeak.symm)
      · rcases hlog with hlog | ⟨f, hact, hlog⟩
        · rw [hlog]; exact h.silent
        · rw [hlog]
          refine silent_snoc h.silent fun r hspeech => ?_
          have hmute := hr.mute act (hread ▸ List.mem_cons_self)
          rw [hact] at hmute
          cases f <;> first | cases hspeech | cases hmute
    · cases hs
  | engine e =>
    have hquiet : ∀ r, Cancelled s.tables s.engine.role r → s.engine.speaking ≠ some r →
        s'.engine.speaking ≠ some r := fun r hc hq => engine_speaking hs hc.set hq
    have hreader := (engine_frame hs).reader
    refine ⟨fun r hm => keep r (h.due r (hreader ▸ hm)), fun r hm => ?_, ?_⟩
    · rcases engine_said hs with hlog | ⟨f, hsaid⟩
      · obtain ⟨hc, hq⟩ := h.answered r (hlog ▸ hm)
        exact ⟨keep r hc, hquiet r hc hq⟩
      · rw [hsaid.handed, answered_append] at hm
        rcases List.mem_append.mp hm with hm | hm
        · obtain ⟨hc, hq⟩ := h.answered r hm
          exact ⟨keep r hc, hquiet r hc hq⟩
        · obtain ⟨x, hx, hans⟩ := List.mem_filterMap.mp hm
          cases List.mem_singleton.mp hx
          obtain ⟨hrole, htake⟩ := hsaid.answer r hans
          have hcur := hinv.current r (by rw [hrole]; rfl)
          have hc : Cancelled s.tables s.engine.role r := ⟨hcur.2.1, hcur.1, fun hr => by rw [hrole] at hr; cases hr⟩
          exact ⟨keep r hc, by rw [htake]; simp [EnginePc.speaking]⟩
    · rcases engine_said hs with hlog | ⟨f, hsaid⟩
      · rw [hlog]; exact h.silent
      · rw [hsaid.handed]
        refine silent_snoc h.silent fun r hspeech => ?_
        obtain ⟨hspeak, hrole⟩ := hsaid.speech r hspeech
        have hadm := (hinv.current r (by rw [hrole]; rfl)).2.1
        rw [terminals_eq, List.count_eq_zero.mpr (hr.unrefused r hadm).1, Nat.add_zero, List.count_eq_zero]
        exact fun hm => (h.answered r hm).2 hspeak

/-- Silence after the terminal frame, in every run where no `cancelled` frame is handed over
    between a test of the cancel event and the frame it guards. -/
theorem silent_after_terminal (cfg : Config) (s : St) (h : Reach (step cfg) Hushed init s) :
    SilentAfterTerminal s.handed := by
  have hush : Hush s := by
    refine h.inv (I := Hush) ?_ ?_
    · exact ⟨by simp [init, dueIn, Act.due], by simp [init, answered], silent_nil⟩
    · intro s e s' hr hi hok hs
      exact hush_step (reach_inv hr) (reach_readerInv (fun _ _ h => h.1) hr) hi hok hs
  exact hush.silent

instance (s : St) (e : Ev) : Decidable (Hushed s e) := inferInstanceAs (Decidable (_ ∧ _))

/-- The running request 1 yields a chunk that passes both tests of the cancel event. -/
def chunkTested : List Ev :=
  [.receive (.hello 0), .reader, .receive (.synthesize 1 (.request { requestId := 1, text := PyStr.lit "a" })),
    .reader, .reader, .engine .next, .engine .next, .engine (.described none), .engine .next,
    .engine (.yields [0, 0]), .engine .next, .engine .next]

/-- A cancel handled after the engine thread's last test of the chunk: `cancelled` is handed
    over, and then the chunk. -/
theorem audio_after_cancelled :
    ∃ s, Reach (step (sampleConfig 1)) Lawful init s ∧ ¬ SilentAfterTerminal s.handed := by
  have hrun : ∃ s, Reach (step (sampleConfig 1)) Lawful init s ∧
      decide (s.handed.map (fun h => (h.frame.isTerminal 1, h.frame.isSpeech 1)) =
        [(false, false), (false, false), (false, true), (true, false), (false, true)]) = true :=
    exists_reach_of_run (chunkTested ++ handleRunningCancel ++ [.engine .next]) (by decide +kernel)
  obtain ⟨s, hs, hp⟩ := hrun
  refine ⟨s, hs, fun hsilent => ?_⟩
  have hmap : (s.handed.map (fun h => (h.frame.isTerminal 1, h.frame.isSpeech 1))).Pairwise
      fun a b => a.1 = true → b.2 = false :=
    List.pairwise_map.mpr (hsilent.imp fun hab => hab 1)
  rw [of_decide_eq_true hp] at hmap
  exact absurd hmap (by decide)

/-- The chunk is sent before the cancel is handled. -/
theorem silent_after_a_prompt_cancel :
    ∃ s, Reach (step (sampleConfig 1)) Hushed init s ∧ terminals 1 s.handed = 1 ∧ SilentAfterTerminal s.handed := by
  have hrun : ∃ s, Reach (step (sampleConfig 1)) Hushed init s ∧ decide (terminals 1 s.handed = 1) = true :=
    exists_reach_of_run (chunkTested ++ [.engine .next] ++ handleRunningCancel) (by decide +kernel)
  obtain ⟨s, hs, hp⟩ := hrun
  exact ⟨s, hs, of_decide_eq_true hp, silent_after_terminal _ s hs⟩

end QwenTtsBridge.Worker.PyServer
