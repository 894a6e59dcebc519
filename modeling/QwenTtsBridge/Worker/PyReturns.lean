/-
  QwenTtsBridge.Worker.PyReturns — how a handler of the Python worker ends.

  The handler runs interleaved with the engine thread, which takes requests off the queue
  meanwhile but changes no request (`Kept`). `Calm` says that no act which the reader gets
  to before it reads again raises.

  Proved: a calm state stays calm whatever the threads do (`calm_after`); a handler that
  leaves an act which raises, or a shutdown of a request whose report raises, lets an
  exception escape in some run (`escapes_of_plain`, `escapes_of_shutdown`), so a handler
  lets none escape exactly when it leaves calm (`noEscape_iff_calm`); and its steps are
  bounded (`work_after`).
-/

import QwenTtsBridge.Worker.PyHandleFrame

namespace QwenTtsBridge.Worker.PyServer

open QwenTtsBridge.Python QwenTtsBridge.Lib QwenTtsBridge.Lib.Transition QwenTtsBridge.Lib.Watermark
open QwenTtsBridge.Protocol.Framing

/-! ## What the threads leave alone -/

/-- No request changed, and none was queued. -/
structure Kept (t t' : Tables) : Prop where
  request : ∀ id, (t'.slots id).map (·.request) = (t.slots id).map (·.request)
  pending : t'.pending.Sublist t.pending

section Kept

variable {cfg : Config} {t t' t'' : Tables} {s s' : St} {id : RequestId}

theorem Kept.refl : Kept t t := ⟨fun _ => rfl, List.Sublist.refl _⟩

theorem Kept.trans (h : Kept t t') (h' : Kept t' t'') : Kept t t'' :=
  ⟨fun id => (h'.request id).trans (h.request id), h'.pending.trans h.pending⟩

theorem kept_slots {slots : RequestId → Option Slot}
    (h : ∀ id, (slots id).map (·.request) = (t.slots id).map (·.request)) : Kept t { t with slots := slots } :=
  ⟨h, List.Sublist.refl _⟩

theorem kept_setSlot (f : Slot → Slot) (hf : ∀ slot, (f slot).request = slot.request) : Kept t (t.setSlot id f) := by
  refine kept_slots fun i => ?_
  by_cases hi : i = id
  · simp only [hi, if_true, Option.map_map]
    exact congrArg (Option.map · (t.slots id)) (funext hf)
  · simp only [hi, if_false]

theorem kept_pending {pending : List RequestId} (h : pending.Sublist t.pending) : Kept t { t with pending := pending } :=
  ⟨fun _ => rfl, h⟩

theorem kept_terminalizeLocked : Kept t (t.terminalizeLocked id) :=
  ⟨fun i => by rw [slots_terminalizeLocked], by rw [pending_terminalizeLocked]⟩

theorem kept_cancelQueued : Kept t (t.cancelQueued id) :=
  (kept_pending List.erase_sublist).trans kept_terminalizeLocked

theorem kept_drainPending {ids : List RequestId} (h : ids.Sublist t.pending) : Kept t (t.drainPending ids).1 := by
  induction ids generalizing t with
  | nil => exact Kept.refl
  | cons id rest ih =>
    have hrest : Kept t { t with pending := rest } := kept_pending ((List.sublist_cons_self id rest).trans h)
    simp only [Tables.drainPending]
    split
    · exact hrest.trans (ih (List.Sublist.refl _))
    · have hone : Kept { t with pending := rest }
          (({ t with pending := rest }.setSlot id ({ · with cancelEvent := true })).terminalizeLocked id) :=
        (kept_setSlot ({ · with cancelEvent := true }) fun _ => rfl).trans kept_terminalizeLocked
      refine (hrest.trans hone).trans (ih ?_)
      rw [pending_terminalizeLocked]
      exact List.Sublist.refl _

theorem kept_shutdown : Kept t t.shutdown.1 := by
  refine (kept_drainPending (List.Sublist.refl _)).trans (kept_slots fun i => ?_)
  split
  · rw [Option.map_map]
    rfl
  · rfl

theorem kept_finish : Kept t (t.finish id) :=
  (kept_setSlot ({ · with terminalNotified := true }) fun _ => rfl).trans kept_terminalizeLocked

theorem kept_cancelRunning : Kept t (t.cancelRunning id) :=
  (kept_setSlot ({ · with cancelEvent := true, terminalNotified := true }) fun _ => rfl).trans
    ⟨fun _ => rfl, List.Sublist.refl _⟩

/-- Only an admission brings a request. -/
theorem effect_kept {calm : Prop} {v v' : View} (e : Effect cfg calm v v')
    (h : v'.tables.admitted = v.tables.admitted) : Kept v.tables v'.tables := by
  cases e with
  | none | dies | answered => exact Kept.refl
  | accept id request _ _ _ =>
    have hlen := congrArg List.length h
    simp [Tables.accept] at hlen
  | take id rest _ hp _ =>
    exact (kept_pending (hp ▸ List.sublist_cons_self id rest)).trans
      (kept_setSlot ({ · with state := .running }) fun _ => rfl)
  | takeMissing id rest _ hp _ => exact kept_pending (hp ▸ List.sublist_cons_self id rest)
  | cancelQueued id _ => exact kept_cancelQueued
  | cancelUnlisted id slot _ _ _ => exact kept_setSlot ({ · with state := .running, cancelEvent := true }) fun _ => rfl
  | cancelRunning id slot _ _ => exact kept_cancelRunning
  | shutdown => exact kept_shutdown
  | terminalize id _ _ => exact kept_terminalizeLocked
  | finishNotified id _ _ => exact kept_finish
  | finishCancelled id _ _ => exact kept_finish

theorem emitFinishedRaises_kept (h : Kept s.tables s'.tables) : emitFinishedRaises s' id = emitFinishedRaises s id := by
  have hfun : ∀ s : St, emitFinishedRaises s id =
      (((s.tables.slots id).map (·.request)).map fun r => pcmDurationRaises r.output).getD false := by
    intro s
    rw [Option.map_map]
    rfl
  rw [hfun, hfun, h.request id]

end Kept

/-! ## Calm -/

/-- A step of one of the threads, with nothing read. -/
def Ev.isThread : Ev → Bool
  | .reader | .engine _ => true
  | .receive _ | .eof => false

/-- The act raises nothing. -/
def Act.Safe (cfg : Config) (s : St) : Act → Prop
  | .send f => cfg.encodes f = true
  | .emitFinished id => emitFinishedRaises s id = false
  | .requestShutdown _ => ∀ id ∈ s.tables.pending, emitFinishedRaises s id = false ∧ cfg.encodes (.cancelled id) = true
  | _ => True

/-- What the reader gets to before it reads again. -/
def ahead (acts : List Act) : List Act := acts.takeWhile (!·.isReadLoop)

structure Calm (cfg : Config) (s : St) : Prop where
  fatal : s.fatalError = false
  safe : ∀ a ∈ ahead s.reader, a.Safe cfg s

section Calm

variable {cfg : Config} {s s' : St} {acts rest : List Act}

theorem Act.Safe.kept {a : Act} (h : a.Safe cfg s) (hk : Kept s.tables s'.tables) : a.Safe cfg s' := by
  cases a with
  | emitFinished id => exact (emitFinishedRaises_kept hk).trans h
  | requestShutdown sendAck =>
    intro id hid
    obtain ⟨hraise, hsend⟩ := h id (hk.pending.subset hid)
    exact ⟨(emitFinishedRaises_kept hk).trans hraise, hsend⟩
  | send f => exact h
  | _ => trivial

theorem mem_ahead_append {a : Act} (h : a ∈ ahead (acts ++ rest)) : a ∈ acts ∨ a ∈ ahead rest := by
  induction acts with
  | nil => exact .inr h
  | cons b acts ih =>
    simp only [ahead, List.cons_append, List.takeWhile_cons] at h
    split at h
    · rcases List.mem_cons.mp h with rfl | h
      · exact .inl List.mem_cons_self
      · exact (ih h).imp_left (List.mem_cons_of_mem _)
    · cases h

theorem ahead_cons {a : Act} (ha : a.isReadLoop = false) : ahead (a :: rest) = a :: ahead rest := by
  simp [ahead, ha]

theorem drainPending_sublist (ids : List RequestId) : ∀ t : Tables, (t.drainPending ids).2.Sublist ids := by
  induction ids with
  | nil => exact fun _ => List.Sublist.refl _
  | cons id rest ih =>
    intro t
    simp only [Tables.drainPending]
    split
    · exact (ih _).cons id
    · exact (ih _).cons_cons id

/-- A safe act raises nothing, and leaves safe acts. -/
theorem safe_act {act : Act} (hsafe : act.Safe cfg s) (h : runAct cfg s act = some s') :
    s'.fatalError = s.fatalError ∧ Kept s.tables s'.tables ∧
      ∃ acts, s'.reader = acts ++ s.reader ∧ ∀ a ∈ acts, a.Safe cfg s' := by
  cases act with
  | readLoop => cases h
  | send f =>
    simp only [runAct, show cfg.encodes f = true from hsafe, if_true] at h
    cases h
    exact ⟨rfl, Kept.refl, [], rfl, fun _ ha => (List.not_mem_nil ha).elim⟩
  | emitFinished id =>
    simp only [runAct, show emitFinishedRaises s id = false from hsafe, Bool.false_eq_true, if_false] at h
    cases h
    exact ⟨rfl, Kept.refl, [], rfl, fun _ ha => (List.not_mem_nil ha).elim⟩
  | notifyAll =>
    cases h
    exact ⟨by simp, by rw [notifyAll_tables]; exact Kept.refl, [], by simp, fun _ ha => (List.not_mem_nil ha).elim⟩
  | returned ids =>
    cases h
    exact ⟨rfl, Kept.refl, [], rfl, fun _ ha => (List.not_mem_nil ha).elim⟩
  | shutdownTerminalEventsEnqueued =>
    cases h
    exact ⟨by simp, by rw [notifyAll_tables]; exact Kept.refl, [], by simp, fun _ ha => (List.not_mem_nil ha).elim⟩
  | requestShutdown sendAck =>
    cases h
    unfold requestShutdown
    split
    · exact ⟨by simp, by rw [notifyAll_tables]; exact Kept.refl, [], by simp, fun _ ha => (List.not_mem_nil ha).elim⟩
    · have hk : Kept s.tables s.tables.shutdown.1 := kept_shutdown
      refine ⟨rfl, hk, _, rfl, fun a ha => ?_⟩
      rcases List.mem_append.mp ha with ha | ha
      · obtain ⟨id, hid, ha⟩ := List.mem_flatMap.mp ha
        obtain ⟨hraise, hsend⟩ := hsafe id ((drainPending_sublist _ _).subset hid)
        simp only [List.mem_cons, List.not_mem_nil, or_false] at ha
        rcases ha with rfl | rfl
        · exact (emitFinishedRaises_kept hk).trans hraise
        · exact hsend
      · simp only [List.mem_cons, List.not_mem_nil, or_false] at ha
        rcases ha with rfl | rfl <;> trivial

theorem engine_kept {e : EngineEv} (h : stepEngine cfg s e = some s') : Kept s.tables s'.tables :=
  effect_kept (step_effect (e := .engine e) False False.elim h) (engine_frame h).admitted

theorem calm_step {e : Ev} (hc : Calm cfg s) (he : e.isThread = true) (h : step cfg s e = some s') : Calm cfg s' := by
  cases e with
  | receive c => cases he
  | eof => cases he
  | reader =>
    simp only [step] at h
    split at h
    · rename_i act rest hr
      have hread : act.isReadLoop = false := by
        cases act with
        | readLoop => cases h
        | _ => rfl
      have hahead : ahead s.reader = act :: ahead rest := by rw [hr, ahead_cons hread]
      have hact : act.Safe cfg { s with reader := rest } := hc.safe act (hahead ▸ List.mem_cons_self)
      obtain ⟨hf, hk, acts, hreader, hacts⟩ := safe_act hact h
      refine ⟨hf.trans hc.fatal, fun a ha => ?_⟩
      rw [hreader] at ha
      rcases mem_ahead_append ha with ha | ha
      · exact hacts a ha
      · exact (hc.safe a (hahead ▸ List.mem_cons_of_mem _ ha)).kept hk
    · cases h
  | engine e =>
    have hf := engine_frame h
    refine ⟨hf.flags.2.1.trans hc.fatal, fun a ha => ?_⟩
    rw [hf.reader] at ha
    exact (hc.safe a ha).kept (engine_kept h)

theorem calm_after {es : List Ev} (hc : Calm cfg s) (hes : ∀ e ∈ es, e.isThread = true)
    (h : after (step cfg) s es = some s') : Calm cfg s' := by
  induction es generalizing s with
  | nil =>
    cases h
    exact hc
  | cons e es ih =>
    obtain ⟨s₁, h₁, h₂⟩ := Option.bind_eq_some_iff.mp h
    exact ih (calm_step hc (hes e List.mem_cons_self) h₁) (fun e' he' => hes e' (List.mem_cons_of_mem _ he')) h₂

end Calm

/-! ## Escapes -/

/-- An exception can escape from here before anything else is read. -/
def Escapes (cfg : Config) (s : St) : Prop :=
  ∃ es s', (∀ e ∈ es, e.isThread = true) ∧ after (step cfg) s es = some s' ∧ s'.fatalError = true

section Escapes

variable {cfg : Config} {s s' : St} {acts rest : List Act} {role : Role}

theorem escapes_of_step (h : step cfg s .reader = some s') (he : Escapes cfg s') : Escapes cfg s := by
  obtain ⟨es, s'', hes, hafter, hfatal⟩ := he
  refine ⟨.reader :: es, s'', ?_, ?_, hfatal⟩
  · intro e he
    rcases List.mem_cons.mp he with rfl | he
    · rfl
    · exact hes e he
  · simp only [after, h, Option.bind_some]
    exact hafter

theorem escapes_of_fatal (h : s.fatalError = true) : Escapes cfg s :=
  ⟨[], s, fun _ he => (List.not_mem_nil he).elim, rfl, h⟩

theorem safe_plain {a : Act} (hplain : a.isPlain = true) (hsafe : a.Safe cfg s) :
    ∃ s', runAct cfg s a = some s' ∧ s'.reader = s.reader ∧ s'.tables = s.tables := by
  cases a with
  | send f => exact ⟨_, if_pos hsafe, rfl, rfl⟩
  | emitFinished id => exact ⟨s, if_neg (by rw [show emitFinishedRaises s id = false from hsafe]; decide), rfl, rfl⟩
  | notifyAll => exact ⟨_, rfl, by simp, by simp⟩
  | returned ids => exact ⟨_, rfl, rfl, rfl⟩
  | readLoop => cases hplain
  | requestShutdown sendAck => cases hplain
  | shutdownTerminalEventsEnqueued => cases hplain

theorem unsafe_plain {a : Act} (hplain : a.isPlain = true) (hsafe : ¬ a.Safe cfg s) :
    ∃ s', runAct cfg s a = some s' ∧ s'.fatalError = true := by
  cases a with
  | send f => exact ⟨_, if_neg hsafe, rfl⟩
  | emitFinished id => exact ⟨_, if_pos (by simpa [Act.Safe] using hsafe), rfl⟩
  | notifyAll => exact absurd trivial hsafe
  | returned ids => exact absurd trivial hsafe
  | readLoop => cases hplain
  | requestShutdown sendAck => cases hplain
  | shutdownTerminalEventsEnqueued => cases hplain

/-- The reader runs its plain acts in order, up to the first that raises. -/
theorem escapes_of_plain (acts : List Act) (hr : s.reader = acts ++ rest) (hplain : ∀ a ∈ acts, a.isPlain = true)
    (hleaky : ∃ a ∈ acts, ¬ a.Safe cfg s) : Escapes cfg s := by
  induction acts generalizing s with
  | nil =>
    obtain ⟨a, ha, -⟩ := hleaky
    cases ha
  | cons a acts ih =>
    rw [List.cons_append] at hr
    have ha := hplain a List.mem_cons_self
    have hstep : step cfg s .reader = runAct cfg { s with reader := acts ++ rest } a := by simp only [step, hr]
    by_cases hsafe : a.Safe cfg s
    · obtain ⟨s', hrun, hreader, htables⟩ := safe_plain (s := { s with reader := acts ++ rest }) ha hsafe
      refine escapes_of_step (hstep.trans hrun) (ih hreader (fun b hb => hplain b (List.mem_cons_of_mem _ hb)) ?_)
      obtain ⟨b, hb, hbleaky⟩ := hleaky
      rcases List.mem_cons.mp hb with rfl | hb
      · exact absurd hsafe hbleaky
      · refine ⟨b, hb, fun hb' => hbleaky (hb'.kept ?_)⟩
        rw [htables]
        exact Kept.refl
    · obtain ⟨s', hrun, hfatal⟩ := unsafe_plain (s := { s with reader := acts ++ rest }) ha hsafe
      exact escapes_of_step (hstep.trans hrun) (escapes_of_fatal hfatal)

/-- A shutdown reports every queued request. -/
theorem escapes_of_shutdown {sendAck : Bool} (hr : s.reader = .requestShutdown sendAck :: rest)
    (hshut : s.shutdownRequested = false) (hinv : Inv cfg s.tables role)
    (hraise : ∃ id ∈ s.tables.pending, emitFinishedRaises s id = true) : Escapes cfg s := by
  have hstep : step cfg s .reader = some (requestShutdown { s with reader := rest } sendAck) := by
    simp only [step, hr, runAct]
  refine escapes_of_step hstep ?_
  obtain ⟨id, hid, hraise⟩ := hraise
  have hids : s.tables.shutdown.2 = s.tables.pending := by rw [hinv.shutdown_eq]
  have hfinal : requestShutdown { s with reader := rest } sendAck =
      push { s with reader := rest, shutdownRequested := true, shutdownAckNeeded := sendAck, tables := s.tables.shutdown.1 }
        (s.tables.shutdown.2.flatMap (fun id => [.emitFinished id, .send (.cancelled id)]) ++
          [.shutdownTerminalEventsEnqueued, .returned s.tables.shutdown.2]) := by
    simp only [requestShutdown, hshut, Bool.false_eq_true, if_false]
  rw [hfinal]
  refine escapes_of_plain (s.tables.shutdown.2.flatMap fun id => [.emitFinished id, .send (.cancelled id)])
    (List.append_assoc _ _ _) ?_ ⟨.emitFinished id, ?_, ?_⟩
  · intro a ha
    obtain ⟨i, -, ha⟩ := List.mem_flatMap.mp ha
    simp only [List.mem_cons, List.not_mem_nil, or_false] at ha
    rcases ha with rfl | rfl <;> rfl
  · rw [hids]
    exact List.mem_flatMap.mpr ⟨id, hid, List.mem_cons_self⟩
  · intro hsafe
    rw [Act.Safe, emitFinishedRaises_kept (s := s) kept_shutdown, hraise] at hsafe
    cases hsafe

/-- A handler that has read its frame lets no exception escape exactly when it left calm. -/
theorem noEscape_iff_calm (hr : s.reader = .readLoop :: rest) (hstack : Stack s) (hinv : Inv cfg s.tables role)
    (hsend : ∀ id ∈ s.tables.pending, cfg.encodes (.cancelled id) = true) (c : Command) :
    ¬ Escapes cfg (handleFrame cfg s c) ↔ Calm cfg (handleFrame cfg s c) := by
  obtain ⟨hf, hs, hrest⟩ := hstack.reading hr
  constructor
  · intro hno
    rcases frame_cases cfg s c with heq | heq | ⟨acts, hleaves⟩
    · rw [heq] at hno
      exact absurd (escapes_of_fatal rfl) hno
    · rw [heq] at hno ⊢
      refine ⟨hf, ?_⟩
      have hall : ∀ id ∈ s.tables.pending, emitFinishedRaises s id = false := by
        intro id hid
        by_contra hraise
        have hraise' : emitFinishedRaises s id = true := by simpa using hraise
        exact hno (escapes_of_shutdown rfl hs hinv ⟨id, hid, hraise'⟩)
      intro a ha
      simp only [hr, hrest, List.tail_cons, ahead, List.takeWhile_cons, Act.isReadLoop, Bool.not_false, if_true,
        List.takeWhile_nil, List.mem_cons, List.not_mem_nil, or_false] at ha
      rcases ha with rfl | rfl
      · exact fun id hid => ⟨hall id hid, hsend id hid⟩
      · exact fun id hid => ⟨hall id hid, hsend id hid⟩
    · refine ⟨hleaves.fatal.trans hf, fun a ha => ?_⟩
      by_contra hleaky
      refine hno (escapes_of_plain acts hleaves.reader hleaves.plain ⟨a, ?_, hleaky⟩)
      rw [hleaves.reader, hr] at ha
      rcases mem_ahead_append ha with ha | ha
      · exact ha
      · simp [ahead, Act.isReadLoop] at ha
  · rintro hcalm ⟨es, s', hes, hafter, hfatal⟩
    rw [(calm_after hcalm hes hafter).fatal] at hfatal
    cases hfatal

end Escapes

/-! ## The handler returns -/

/-- The steps that an act takes, with those it may add. -/
def Act.work (t : Tables) : Act → Nat
  | .readLoop => 0
  | .requestShutdown _ => 2 * t.pending.length + 3
  | _ => 1

def workOf (t : Tables) (acts : List Act) : Nat := (acts.map (Act.work t)).sum

section Work

variable {cfg : Config} {s s' : St} {t t' : Tables} {acts rest : List Act}

@[simp] theorem workOf_cons (a : Act) : workOf t (a :: acts) = a.work t + workOf t acts := rfl

@[simp] theorem workOf_append : workOf t (acts ++ rest) = workOf t acts + workOf t rest := by simp [workOf]

theorem work_kept (h : Kept t t') (a : Act) : a.work t' ≤ a.work t := by
  cases a with
  | requestShutdown sendAck =>
    have := h.pending.length_le
    simp only [Act.work]
    omega
  | _ => exact Nat.le_refl _

theorem workOf_kept (h : Kept t t') (acts : List Act) : workOf t' acts ≤ workOf t acts := by
  induction acts with
  | nil => exact Nat.le_refl _
  | cons a acts ih =>
    have := work_kept h a
    rw [workOf_cons, workOf_cons]
    omega

theorem workOf_filter (p : Act → Bool) (acts : List Act) : workOf t (acts.filter p) ≤ workOf t acts := by
  induction acts with
  | nil => exact Nat.le_refl _
  | cons a acts ih =>
    rw [List.filter_cons]
    split
    · rw [workOf_cons, workOf_cons]
      omega
    · rw [workOf_cons]
      omega

theorem workOf_reports (t : Tables) (ids : List RequestId) :
    workOf t (ids.flatMap fun id => [.emitFinished id, .send (.cancelled id)]) = 2 * ids.length := by
  induction ids with
  | nil => rfl
  | cons id ids ih =>
    rw [List.flatMap_cons, workOf_append, ih, List.length_cons]
    show 1 + (1 + 0) + 2 * ids.length = _
    omega

/-- An act is one step of the work it counts for. -/
theorem act_work {act : Act} (h : runAct cfg s act = some s') :
    workOf s'.tables s'.reader < act.work s.tables + workOf s.tables s.reader := by
  have hunwind : workOf s.tables (s.reader.filter isFinally) < 1 + workOf s.tables s.reader := by
    have := workOf_filter (t := s.tables) isFinally s.reader
    omega
  have hsame : workOf s.tables s.reader < 1 + workOf s.tables s.reader := by omega
  cases act with
  | readLoop => cases h
  | send f =>
    simp only [runAct] at h
    split at h <;> cases h
    · exact hsame
    · exact hunwind
  | emitFinished id =>
    simp only [runAct] at h
    split at h <;> cases h
    · exact hunwind
    · exact hsame
  | notifyAll =>
    cases h
    rw [notifyAll_tables, notifyAll_reader]
    exact hsame
  | returned ids =>
    cases h
    exact hsame
  | shutdownTerminalEventsEnqueued =>
    cases h
    rw [notifyAll_tables, notifyAll_reader]
    exact hsame
  | requestShutdown sendAck =>
    cases h
    unfold requestShutdown
    split
    · rw [notifyAll_tables, notifyAll_reader]
      show workOf s.tables s.reader < 2 * s.tables.pending.length + 3 + workOf s.tables s.reader
      omega
    · have hids : s.tables.shutdown.2.length ≤ s.tables.pending.length :=
        (drainPending_sublist s.tables.pending s.tables).length_le
      have hrest := workOf_kept (kept_shutdown (t := s.tables)) s.reader
      have hreports := workOf_reports s.tables.shutdown.1 s.tables.shutdown.2
      have htotal : workOf s.tables.shutdown.1
          ((s.tables.shutdown.2.flatMap (fun id => [.emitFinished id, .send (.cancelled id)]) ++
            [.shutdownTerminalEventsEnqueued, .returned s.tables.shutdown.2]) ++ s.reader) =
          2 * s.tables.shutdown.2.length + 2 + workOf s.tables.shutdown.1 s.reader := by
        rw [workOf_append, workOf_append, hreports]
        rfl
      calc workOf s.tables.shutdown.1 _ = 2 * s.tables.shutdown.2.length + 2 + workOf s.tables.shutdown.1 s.reader := htotal
        _ < 2 * s.tables.pending.length + 3 + workOf s.tables s.reader := by omega

theorem work_after {es : List Ev} (hes : ∀ e ∈ es, e.isThread = true) (h : after (step cfg) s es = some s') :
    es.countP Ev.isReader + workOf s'.tables s'.reader ≤ workOf s.tables s.reader := by
  induction es generalizing s with
  | nil =>
    cases h
    simp
  | cons e es ih =>
    obtain ⟨s₁, h₁, h₂⟩ := Option.bind_eq_some_iff.mp h
    have hrest := ih (fun e' he' => hes e' (List.mem_cons_of_mem _ he')) h₂
    cases e with
    | receive c => cases hes _ List.mem_cons_self
    | eof => cases hes _ List.mem_cons_self
    | reader =>
      simp only [step] at h₁
      split at h₁
      · rename_i act rest hr
        have hact := act_work h₁
        rw [hr, workOf_cons, List.countP_cons_of_pos (by rfl)]
        simp only at hact
        omega
      · cases h₁
    | engine e =>
      have hreader := (engine_frame h₁).reader
      have hkept := workOf_kept (engine_kept h₁) s.reader
      rw [List.countP_cons_of_neg (by simp [Ev.isReader])]
      rw [hreader] at hrest
      omega

/-- A reader that cannot go on has nothing to do, or is about to read. -/
theorem reader_enabled (h : step cfg s .reader = none) : s.reader = [] ∨ ∃ rest, s.reader = .readLoop :: rest := by
  simp only [step] at h
  split at h
  · rename_i act rest hr
    cases act with
    | readLoop => exact .inr ⟨rest, hr⟩
    | send f =>
      simp only [runAct] at h
      split at h <;> cases h
    | emitFinished id =>
      simp only [runAct] at h
      split at h <;> cases h
    | notifyAll => cases h
    | requestShutdown sendAck => cases h
    | shutdownTerminalEventsEnqueued => cases h
    | returned ids => cases h
  · rename_i hr
    exact .inl hr

end Work

end QwenTtsBridge.Worker.PyServer
