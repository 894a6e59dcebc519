/-
  QwenTtsBridge.Worker.NativeShutdown — how the native worker ends (`NativeServer`).

  The engine thread leaves its loop when `shutdown_terminals_enqueued_` is set and the queue
  is empty. By then the reader has only quiet acts left (`Closing`) and no slot is active,
  so every admitted request has had its terminal frame, and nothing is handed over after
  the ack. What stays open is the read of an erased map entry in `handle_cancel`
  (`ReadsSlot`).
-/

import QwenTtsBridge.Worker.NativeAdmission

namespace QwenTtsBridge.Worker.NativeServer

open QwenTtsBridge.Protocol.Control QwenTtsBridge.Lib.Transition QwenTtsBridge.Lib.EventLog

/-- Where `handle_cancel` reads the slot of a queued request after erasing its entry, the read
    gives the slot. -/
def readsSlot (s : St) : Ev → Bool
  | .receive (.message id .cancel) stale => stale || s.tables.state id != some .queued
  | _ => true

def ReadsSlot (s : St) (e : Ev) : Prop := readsSlot s e = true

instance (s : St) (e : Ev) : Decidable (ReadsSlot s e) := inferInstanceAs (Decidable (_ = true))

/-- The reader accepts a `shutdown`. -/
def Ev.shutsDown : Ev → Bool
  | .receive (.message id (.shutdown mode)) _ => id == 0 && mode == CppString.lit "cancel"
  | _ => false

/-- The ack is the last frame, after the terminal frame of every admitted request. -/
def AckLast (s : St) : Prop := Sealed (·.frame.isAck) Handed.answers s.tables.admitted s.handed

def EnginePc.hasEnded : EnginePc → Bool
  | .loopEnded | .sendAck | .exited => true
  | _ => false

structure Ending (s : St) : Prop where
  ended : s.engine.hasEnded = true → s.shutdownTerminalsEnqueued = true ∧ ∀ id ∈ s.tables.admitted, id ∈ answered s.handed
  before : s.engine ≠ .exited → ∀ h ∈ s.handed, h.frame.isAck = false
  log : AckLast s

section Steps

variable {cfg : Config} {s s' : St} {act : Act} {rest : List Act}

theorem Answer.frame_isAck (id : RequestId) (answer : Answer) : (answer.frame id).isAck = false := by
  cases answer <;> rfl

/-- What the engine thread hands over, by where it is. -/
theorem engine_ends {e : EngineEv} (h : stepEngine s e = some s') :
    (s.engine.hasEnded = false ∧ s'.engine.hasEnded = false ∧
      (s'.handed = s.handed ∨ ∃ f, OutFrame.isAck f = false ∧ s'.handed = s.handed ++ [⟨.engine, f⟩])) ∨
    (s.engine = .take ∧ s.tables.pending = [] ∧
      ((s.shutdownRequested = true ∧ s.shutdownTerminalsEnqueued = true) ∨ s.fatalError = true) ∧
      s' = goto s .loopEnded) ∨
    (s.engine = .loopEnded ∧ s' = goto s (if s.shutdownAckNeeded then .sendAck else .exited)) ∨
    (s.engine = .sendAck ∧ s' = goto (hand s .engine (.control 0 .shutdownAck)) .exited) := by
  cases e with
  | next seen =>
    simp only [stepEngine, takeNextRequest] at h
    split at h
    · rename_i hpc
      split at h
      · rename_i hp
        split at h
        · rename_i hready
          cases h
          exact .inr (.inl ⟨hpc, hp, hready, rfl⟩)
        · cases h
      · cases h
        exact .inl ⟨by rw [hpc]; rfl, rfl, .inl rfl⟩
    · rename_i id hpc
      split at h
      · cases h
      · cases h
        refine .inl ⟨by rw [hpc]; rfl, ?_, .inl rfl⟩
        cases seen <;> rfl
    · rename_i id hpc
      split at h
      · cases h
      · cases h
        exact .inl ⟨by rw [hpc]; rfl, rfl, .inr ⟨_, rfl, rfl⟩⟩
    · rename_i id pcm hpc
      split at h
      · cases h
      split at h
      · cases h
        exact .inl ⟨by rw [hpc]; rfl, rfl, .inl rfl⟩
      · split at h <;> cases h <;> exact .inl ⟨by rw [hpc]; rfl, rfl, .inl rfl⟩
    · rename_i id pcm hpc
      cases h
      exact .inl ⟨by rw [hpc]; rfl, rfl, .inr ⟨_, rfl, rfl⟩⟩
    · rename_i id hpc
      cases h
      exact .inl ⟨by rw [hpc]; rfl, rfl, .inl rfl⟩
    · rename_i id answer hpc
      split at h <;> cases h <;> exact .inl ⟨by rw [hpc]; rfl, rfl, .inl rfl⟩
    · rename_i id answer hpc
      cases h
      exact .inl ⟨by rw [hpc]; rfl, rfl, .inl rfl⟩
    · rename_i id answer hpc
      cases h
      exact .inl ⟨by rw [hpc]; rfl, rfl, .inr ⟨_, answer.frame_isAck id, rfl⟩⟩
    · rename_i hpc
      cases h
      exact .inr (.inr (.inl ⟨hpc, rfl⟩))
    · rename_i hpc
      cases h
      exact .inr (.inr (.inr ⟨hpc, rfl⟩))
    · cases h
  | chunk pcm =>
    simp only [stepEngine] at h
    split at h
    · rename_i id hpc
      cases h
      exact .inl ⟨by rw [hpc]; rfl, rfl, .inl rfl⟩
    · cases h
  | result r =>
    simp only [stepEngine] at h
    split at h
    · rename_i id hpc
      cases h
      exact .inl ⟨by rw [hpc]; rfl, rfl, .inl rfl⟩
    · cases h

theorem dueIn_quiet {acts : List Act} (h : ∀ a ∈ acts, a.isQuiet = true) : dueIn acts = [] := by
  refine List.filterMap_eq_nil_iff.mpr fun a ha => ?_
  have hquiet := h a ha
  cases a with
  | send f => cases hquiet
  | _ => rfl

/-- With an idle engine thread, an empty queue and a quiet reader nobody is owed a frame. -/
theorem all_answered (hb : Books cfg s.tables s.engine.hold) (hinv : Inv (view s)) (hpc : s.engine = .take)
    (hp : s.tables.pending = []) (hquiet : ∀ a ∈ s.reader, a.isQuiet = true) (hdrop : s.dropped = []) :
    ∀ id ∈ s.tables.admitted, id ∈ answered s.handed := by
  intro id hid
  have hreleased : id ∈ s.tables.released := by
    refine ((hb.ledger id).mp hid).resolve_left fun hactive => ?_
    rcases hb.heldBy id hactive with hm | hm
    · rw [hp] at hm
      cases hm
    · rw [hpc] at hm
      cases hm
  have hcount : answers s id = 1 := by
    have := hinv.answers id
    simp only [view] at this
    rw [this, hb.releasedTerminal id hreleased]
    rfl
  rw [answers, dueIn_quiet hquiet, hdrop, hpc] at hcount
  refine List.count_pos_iff.mp ?_
  simp only [List.count_nil, EnginePc.role, Role.due] at hcount
  omega

theorem Ending.engine {e : EngineEv} (h : Ending s) (hc : Closing s) (hb : Books cfg s.tables s.engine.hold)
    (hinv : Inv (view s)) (hdrop : s.dropped = []) (hf : s.fatalError = false) (hs : stepEngine s e = some s') :
    Ending s' := by
  rcases engine_ends hs with ⟨hpc, hpc', hhanded⟩ | ⟨hpc, hp, hready, rfl⟩ | ⟨hpc, rfl⟩ | ⟨hpc, rfl⟩
  · have hnone : ∀ x ∈ s.handed, x.frame.isAck = false := by
      refine h.before fun heq => ?_
      rw [heq] at hpc
      cases hpc
    have hnone' : ∀ x ∈ s'.handed, x.frame.isAck = false := by
      rcases hhanded with heq | ⟨f, hack, heq⟩
      · rw [heq]
        exact hnone
      · rw [heq]
        intro x hx
        rcases List.mem_append.mp hx with hx | hx
        · exact hnone x hx
        · rw [List.mem_singleton.mp hx]
          exact hack
    refine ⟨fun hended => ?_, fun _ => hnone', sealed_of_open hnone'⟩
    rw [hpc'] at hended
    cases hended
  · have henq : s.shutdownTerminalsEnqueued = true := by
      rcases hready with hready | hfatal
      · exact hready.2
      · rw [hf] at hfatal
        cases hfatal
    have hnone : ∀ x ∈ s.handed, x.frame.isAck = false := h.before (by rw [hpc]; nofun)
    have hall := all_answered hb hinv hpc hp (hc.enqueued henq).2 hdrop
    exact ⟨fun _ => ⟨henq, hall⟩, fun _ => hnone, h.log⟩
  · have hended := h.ended (by rw [hpc]; rfl)
    exact ⟨fun _ => hended, fun _ => h.before (by rw [hpc]; nofun), h.log⟩
  · have hended := h.ended (by rw [hpc]; rfl)
    have hnone : ∀ x ∈ s.handed, x.frame.isAck = false := h.before (by rw [hpc]; nofun)
    refine ⟨fun _ => ⟨hended.1, fun id hid => ?_⟩, fun hne => absurd rfl hne, ?_⟩
    · show id ∈ answered (s.handed ++ _)
      rw [answered_append]
      exact List.mem_append_left _ (hended.2 id hid)
    · exact sealed_snoc hnone hended.2

/-- The reader's side of a step: nothing once the terminals are enqueued, no ack before. -/
theorem Ending.reader (h : Ending s) (hengine : s'.engine = s.engine)
    (hhanded : s'.handed = s.handed ∨ ∃ f, OutFrame.isAck f = false ∧ s'.handed = s.handed ++ [⟨.reader, f⟩])
    (hquiet : s.shutdownTerminalsEnqueued = true → s'.shutdownTerminalsEnqueued = true ∧ s'.handed = s.handed ∧
      s'.tables.admitted = s.tables.admitted) : Ending s' := by
  by_cases henq : s.shutdownTerminalsEnqueued = true
  · obtain ⟨henq', hsame, hadm⟩ := hquiet henq
    constructor
    · rw [hengine, hsame, hadm]
      exact fun hended => ⟨henq', (h.ended hended).2⟩
    · rw [hengine, hsame]
      exact h.before
    · rw [AckLast, hsame, hadm]
      exact h.log
  · have hopen : s.engine.hasEnded = false := by
      by_contra hended
      rw [Bool.not_eq_false] at hended
      exact henq (h.ended hended).1
    have hnone : ∀ x ∈ s.handed, x.frame.isAck = false := by
      refine h.before fun heq => ?_
      rw [heq] at hopen
      cases hopen
    have hnone' : ∀ x ∈ s'.handed, x.frame.isAck = false := by
      rcases hhanded with heq | ⟨f, hack, heq⟩
      · rw [heq]
        exact hnone
      · rw [heq]
        intro x hx
        rcases List.mem_append.mp hx with hx | hx
        · exact hnone x hx
        · rw [List.mem_singleton.mp hx]
          exact hack
    refine ⟨fun hended => ?_, fun _ => hnone', sealed_of_open hnone'⟩
    rw [hengine, hopen] at hended
    cases hended

theorem Ending.runAct (h : Ending s) (hc : Closing s) (hr : s.reader = act :: rest)
    (hs : runAct { s with reader := rest } act = some s') : Ending s' := by
  have hquiet : s.shutdownTerminalsEnqueued = true → act.isQuiet = true :=
    fun henq => (hc.enqueued henq).2 act (hr ▸ List.mem_cons_self)
  cases act with
  | readLoop => cases hs
  | send f =>
    cases hs
    exact h.reader rfl (.inr ⟨f, hc.noAck (.send f) (hr ▸ List.mem_cons_self), rfl⟩) fun henq => by cases hquiet henq
  | failFatal =>
    cases hs
    exact h.reader rfl (.inl rfl) fun henq => by cases hquiet henq
  | requestShutdown sendAck =>
    cases hs
    unfold NativeServer.requestShutdown
    simp only
    split
    · exact h.reader rfl (.inl rfl) fun henq => ⟨henq, rfl, rfl⟩
    · rename_i hnot
      exact h.reader rfl (.inl rfl) fun henq => absurd (hc.enqueued henq).1 hnot
  | shutdownTerminalsEnqueued =>
    cases hs
    exact h.reader rfl (.inl rfl) fun henq => by cases hquiet henq
  | returned ids =>
    cases hs
    exact h.reader rfl (.inl rfl) fun henq => ⟨henq, rfl, rfl⟩

/-- A step of a run without a fatal error. -/
theorem Ending.step {e : Ev} (h : Ending s) (hc : Closing s) (hb : Books cfg s.tables s.engine.hold)
    (hinv : Inv (view s)) (hdrop : s.dropped = []) (hf : s.fatalError = false) (hs : step cfg s e = some s') :
    Ending s' := by
  -- the reader reads only before the terminals are enqueued
  have hlate : ∀ rest, s.reader = .readLoop :: rest → s.shutdownTerminalsEnqueued ≠ true := by
    intro rest hr henq
    exact hc.readNoMore (hc.enqueued henq).1 (hr ▸ List.mem_cons_self)
  cases e with
  | receive input stale =>
    simp only [NativeServer.step] at hs
    split at hs
    · rename_i rest hr
      cases hs
      obtain ⟨hengine, hhanded, -⟩ := @frame_keeps cfg s stale input
      exact h.reader hengine (.inl hhanded) fun henq => absurd henq (hlate rest hr)
    · cases hs
  | framingError =>
    simp only [NativeServer.step] at hs
    split at hs
    · rename_i rest hr
      cases hs
      exact h.reader rfl (.inl rfl) fun henq => absurd henq (hlate rest hr)
    · cases hs
  | eof =>
    simp only [NativeServer.step] at hs
    split at hs
    · rename_i rest hr
      cases hs
      exact h.reader rfl (.inl rfl) fun henq => absurd henq (hlate rest hr)
    · cases hs
  | reader =>
    simp only [NativeServer.step] at hs
    split at hs
    · rename_i act rest hr
      exact h.runAct hc hr hs
    · cases hs
  | engine e => exact h.engine hc hb hinv hdrop hf hs

/-! ## Runs -/

theorem frame_dropped {stale : Bool} {input : Input} (h : ReadsSlot s (.receive input stale)) :
    (handleFrame cfg s stale input).dropped = s.dropped := by
  cases input with
  | wrongType id => rfl
  | undecodable id code diagnostic => rfl
  | message id m =>
    simp only [handleFrame]
    split
    · rfl
    split
    · unfold handleHello
      split <;> rfl
    · unfold handleSynthesize admission
      repeat' split
      all_goals rfl
    · unfold handleCancel
      split
      · rfl
      split
      · split <;> rfl
      rename_i slot hget
      simp only
      split
      · rfl
      rename_i hqueued
      split
      · rfl
      split
      · rfl
      · rename_i hstale
        -- the condition rules this branch out
        have hslot : s.tables.slots id = some slot := by
          unfold Tables.get? at hget
          split at hget
          · exact hget
          · cases hget
        simp [ReadsSlot, readsSlot, hstale, Tables.state, hslot, hqueued] at h
    · unfold handlePing
      split <;> rfl
    · unfold handleShutdown
      split <;> rfl
    · rfl

theorem dropped_step {e : Ev} (hok : ReadsSlot s e) (hs : step cfg s e = some s') (h : s.dropped = []) :
    s'.dropped = [] := by
  cases e with
  | receive input stale =>
    simp only [step] at hs
    split at hs
    · cases hs
      exact (frame_dropped hok).trans h
    · cases hs
  | framingError =>
    simp only [step] at hs
    split at hs <;> cases hs
    exact h
  | eof =>
    simp only [step] at hs
    split at hs <;> cases hs
    exact h
  | reader =>
    simp only [step] at hs
    split at hs
    · rename_i act rest hr
      cases act with
      | readLoop => cases hs
      | requestShutdown sendAck =>
        cases hs
        unfold requestShutdown
        simp only
        split <;> exact h
      | _ =>
        cases hs
        exact h
    · cases hs
  | engine e => exact (engine_leaves hs).dropped.trans h

/-- A fatal error is never taken back. -/
theorem fatal_step {e : Ev} (hs : step cfg s e = some s') (h : s.fatalError = true) : s'.fatalError = true := by
  cases e with
  | receive input stale =>
    simp only [step] at hs
    split at hs
    · cases hs
      exact (frame_keeps stale input).2.2.trans h
    · cases hs
  | framingError =>
    simp only [step] at hs
    split at hs <;> cases hs
    exact h
  | eof =>
    simp only [step] at hs
    split at hs <;> cases hs
    exact h
  | reader =>
    simp only [step] at hs
    split at hs
    · rename_i act rest hr
      cases act with
      | readLoop => cases hs
      | requestShutdown sendAck =>
        cases hs
        unfold requestShutdown
        simp only
        split <;> exact h
      | failFatal =>
        cases hs
        rfl
      | _ =>
        cases hs
        exact h
    · cases hs
  | engine e => exact (engine_leaves hs).fatal h

theorem reach_dropped (h : Reach (step cfg) ReadsSlot init s) : s.dropped = [] :=
  h.inv (I := fun s => s.dropped = []) rfl fun _ _ _ _ hd hok hs => dropped_step hok hs hd

theorem ending_init : Ending init := by
  refine ⟨nofun, fun _ h hm => (List.not_mem_nil hm).elim, sealed_of_open fun h hm => (List.not_mem_nil hm).elim⟩

/-- Absent a fatal error, the ack closes what is handed over. -/
theorem reach_ackLast (hmax : cfg.maxAdmittedRequests ≤ 65536) (h : Reach (step cfg) ReadsSlot init s)
    (hf : s.fatalError = false) : AckLast s := by
  suffices hending : s.fatalError = false → Ending s from (hending hf).log
  refine h.inv (I := fun s => s.fatalError = false → Ending s) (fun _ => ending_init) ?_
  intro s e s' hr hi hok hs hf'
  have hf : s.fatalError = false := by
    by_contra hfatal
    rw [Bool.not_eq_false] at hfatal
    rw [fatal_step hs hfatal] at hf'
    cases hf'
  have hfailing := reach_failing hr
  have hinv : Inv (view s) := reach_inv (hr.mono fun _ _ _ => trivial)
  exact (hi hf).step (reach_closing hfailing) (reach_books hmax hfailing) hinv (reach_dropped hr) hf hs

/-! ## The ack follows a shutdown -/

/-- No shutdown was accepted. -/
structure Unasked (s : St) : Prop where
  needed : s.shutdownAckNeeded = false
  reader : Act.requestShutdown true ∉ s.reader
  engine : s.engine ≠ .sendAck
  handed : ∀ h ∈ s.handed, h.frame.isAck = false

theorem Unasked.step {e : Ev} (h : Unasked s) (hc : Closing s) (hok : e.shutsDown = false) (hs : step cfg s e = some s') :
    Unasked s' := by
  cases e with
  | receive input stale =>
    simp only [NativeServer.step] at hs
    split at hs
    · cases hs
      obtain ⟨hengine, hhanded, -⟩ := @frame_keeps cfg s stale input
      obtain ⟨hflags, hscript⟩ := @frame_script cfg s stale input
      simp only [shutdownFlags, Prod.mk.injEq] at hflags
      rcases hscript with ⟨acts, heq, hacts⟩ | ⟨rfl, -⟩
      · refine ⟨hflags.2.1.trans h.needed, ?_, hengine ▸ h.engine, hhanded ▸ h.handed⟩
        rw [heq]
        intro hm
        rcases List.mem_append.mp hm with hm | hm
        · cases hacts _ hm
        · exact h.reader hm
      · cases hok
    · cases hs
  | framingError =>
    simp only [NativeServer.step] at hs
    split at hs
    · rename_i rest hr
      cases hs
      refine ⟨h.needed, fun hm => ?_, h.engine, h.handed⟩
      rcases List.mem_cons.mp hm with heq | hm
      · cases heq
      · exact h.reader (hr ▸ List.mem_cons_of_mem _ hm)
    · cases hs
  | eof =>
    simp only [NativeServer.step] at hs
    split at hs
    · rename_i rest hr
      cases hs
      exact ⟨h.needed, fun hm => h.reader (hr ▸ List.mem_cons_of_mem _ hm), h.engine, h.handed⟩
    · cases hs
  | reader =>
    simp only [NativeServer.step] at hs
    split at hs
    · rename_i act rest hr
      have hrest : Act.requestShutdown true ∉ rest := fun hm => h.reader (hr ▸ List.mem_cons_of_mem _ hm)
      cases act with
      | readLoop => cases hs
      | send f =>
        cases hs
        refine ⟨h.needed, hrest, h.engine, fun x hx => ?_⟩
        rcases List.mem_append.mp hx with hx | hx
        · exact h.handed x hx
        · rw [List.mem_singleton.mp hx]
          exact hc.noAck (.send f) (hr ▸ List.mem_cons_self)
      | requestShutdown sendAck =>
        cases hs
        have hsend : sendAck = false := by
          by_contra hsend
          rw [Bool.not_eq_false] at hsend
          rw [hsend] at hr
          exact h.reader (hr ▸ List.mem_cons_self)
        unfold requestShutdown
        simp only
        split
        · exact ⟨by simp [h.needed, hsend], hrest, h.engine, h.handed⟩
        · refine ⟨by simp [h.needed, hsend, push], fun hm => ?_, h.engine, h.handed⟩
          rcases List.mem_append.mp hm with hm | hm
          · rcases List.mem_append.mp hm with hm | hm
            · obtain ⟨id, -, heq⟩ := List.mem_map.mp hm
              cases heq
            · rcases List.mem_pair.mp hm with heq | heq <;> cases heq
          · exact hrest hm
      | _ =>
        cases hs
        exact ⟨h.needed, hrest, h.engine, h.handed⟩
    · cases hs
  | engine e =>
    have hleaves := engine_leaves hs
    have hflags := hleaves.flags
    simp only [shutdownFlags, Prod.mk.injEq] at hflags
    refine ⟨hflags.2.1.trans h.needed, hleaves.reader ▸ h.reader, ?_, ?_⟩
    · rcases engine_ends hs with ⟨-, hpc', -⟩ | ⟨-, -, -, rfl⟩ | ⟨-, rfl⟩ | ⟨hpc, -⟩
      · intro heq
        rw [heq] at hpc'
        cases hpc'
      · simp [goto]
      · simp [goto, h.needed]
      · exact absurd hpc h.engine
    · rcases engine_ends hs with ⟨-, -, hhanded⟩ | ⟨-, -, -, rfl⟩ | ⟨-, rfl⟩ | ⟨hpc, -⟩
      · rcases hhanded with heq | ⟨f, hack, heq⟩
        · rw [heq]
          exact h.handed
        · rw [heq]
          intro x hx
          rcases List.mem_append.mp hx with hx | hx
          · exact h.handed x hx
          · rw [List.mem_singleton.mp hx]
            exact hack
      · exact h.handed
      · exact h.handed
      · exact absurd hpc h.engine

theorem reach_unasked (h : Reach (step cfg) (fun _ e => e.shutsDown = false) init s) :
    ∀ x ∈ s.handed, x.frame.isAck = false := by
  have hunasked : Unasked s := by
    refine h.inv ⟨rfl, ?_, ?_, fun _ hm => (List.not_mem_nil hm).elim⟩ ?_
    · simp [init]
    · simp [init]
    · intro s e s' hr hu hok hs
      exact hu.step (reach_closing (reach_failing hr)) hok hs
  exact hunasked.handed

end Steps

end QwenTtsBridge.Worker.NativeServer
