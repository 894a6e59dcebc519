/-
  QwenTtsBridge.Worker.NativeQueued — the `queued` frame of the native worker
  (`NativeServer`).

  `handle_synthesize` puts the slot into `pending_` under the mutex and sends `queued` after
  it released it. The reader does nothing in between (`Announced.admitted`), so its own
  frames come later; the engine thread may take the slot first (`TakesQueued`).
-/

import QwenTtsBridge.Worker.NativeShutdown

namespace QwenTtsBridge.Worker.NativeServer

open QwenTtsBridge.Protocol.Control QwenTtsBridge.Lib.Transition QwenTtsBridge.Lib.EventLog

def OutFrame.queues : OutFrame → Option RequestId
  | .control id (.queued _ _) => some id
  | _ => none

/-- The requests whose `queued` frame was handed over. -/
def queuedIn (handed : List Handed) : List RequestId := handed.filterMap (·.frame.queues)

/-- `queued` precedes every `started` and `audio_pcm` frame and the terminal frame of its
    request. -/
def QueuedFirst (handed : List Handed) : Prop :=
  Legal (fun before h => ∀ r, h.frame.isSpeech r = true ∨ h.answers = some r → r ∈ queuedIn before) handed

/-- `take_next_request` finds no slot whose `queued` frame is still to be sent. -/
def takesQueued (s : St) : Ev → Bool
  | .engine (.next _) =>
    match s.engine, s.tables.pending with
    | .take, id :: _ => (queuedIn s.handed).contains id
    | _, _ => true
  | _ => true

def TakesQueued (s : St) (e : Ev) : Prop := takesQueued s e = true

instance (s : St) (e : Ev) : Decidable (TakesQueued s e) := inferInstanceAs (Decidable (_ = true))

structure Announced (s : St) : Prop where
  /-- The `queued` frame of an admitted request was handed over, or is what the reader does
      next. -/
  admitted : ∀ id ∈ s.tables.admitted, id ∈ queuedIn s.handed ∨ ∃ f, s.reader.head? = some (.send f) ∧ f.queues = some id
  due : ∀ id ∈ dueIn s.reader, id ∈ queuedIn s.handed
  current : ∀ id, s.engine.role.current = some id → id ∈ queuedIn s.handed
  log : QueuedFirst s.handed

section Frames

variable {cfg : Config} {s s' : St} {act : Act} {rest : List Act}

/-- A reader about to do anything but a `send` has announced every admitted request. -/
theorem Announced.all (h : Announced s) (hr : s.reader = act :: rest) (hact : ∀ f, act ≠ .send f) :
    ∀ id ∈ s.tables.admitted, id ∈ queuedIn s.handed := by
  intro id hid
  refine (h.admitted id hid).resolve_right ?_
  rintro ⟨f, hhead, -⟩
  rw [hr, List.head?_cons, Option.some.injEq] at hhead
  exact hact f hhead

/-- What a frame admits and what it leaves due. -/
structure Announces (s s' : St) : Prop where
  admitted : s'.tables.admitted = s.tables.admitted ∨
    ∃ id f, s'.tables.admitted = s.tables.admitted ++ [id] ∧ s'.reader.head? = some (.send f) ∧ f.queues = some id
  due : ∀ id ∈ dueIn s'.reader, id ∈ dueIn s.reader ∨ s.tables.state id ≠ none

theorem announces_push {acts : List Act} (hadm : s'.tables.admitted = s.tables.admitted) (hr : s'.reader = s.reader)
    (hd : dueIn acts = []) : Announces s (push s' acts) := by
  refine ⟨.inl hadm, fun id hid => .inl ?_⟩
  rw [push, dueIn_append, hd, hr] at hid
  exact hid

theorem synthesize_announces (id : RequestId) (request : SynthesizeMessage) :
    Announces s (handleSynthesize cfg s id request) := by
  unfold handleSynthesize
  split
  · exact announces_push rfl rfl rfl
  split
  · exact announces_push rfl rfl rfl
  unfold admission
  split
  · exact announces_push rfl rfl rfl
  split
  · exact announces_push rfl rfl rfl
  split
  · exact announces_push rfl rfl rfl
  · exact ⟨.inr ⟨id, _, rfl, rfl, rfl⟩, fun _ hid => .inl hid⟩

theorem cancel_announces (id : RequestId) (stale : Bool) : Announces s (handleCancel s id stale) := by
  unfold handleCancel
  split
  · exact announces_push rfl rfl rfl
  split
  · split
    · exact announces_push rfl rfl rfl
    · exact ⟨.inl rfl, fun _ hid => .inl hid⟩
  rename_i slot hget
  have hslot : s.tables.slots id = some slot := by
    unfold Tables.get? at hget
    split at hget
    · exact hget
    · cases hget
  simp only
  split
  · exact ⟨.inl rfl, fun _ hid => .inl hid⟩
  split
  · exact ⟨.inl rfl, fun _ hid => .inl hid⟩
  split
  · refine ⟨.inl rfl, fun r hr => ?_⟩
    rcases List.mem_cons.mp hr with rfl | hr
    · exact .inr (by simp [Tables.state, hslot])
    · exact .inl hr
  · exact announces_push rfl rfl rfl

theorem frame_announces (hr : s.reader = .readLoop :: rest) (stale : Bool) (input : Input) :
    Announces s (handleFrame cfg s stale input) := by
  cases input with
  | wrongType id => exact announces_push rfl rfl rfl
  | undecodable id code diagnostic => exact announces_push rfl rfl rfl
  | message id m =>
    simp only [handleFrame]
    split
    · exact announces_push rfl rfl rfl
    split
    · unfold handleHello
      split <;> exact announces_push rfl rfl rfl
    · exact synthesize_announces _ _
    · exact cancel_announces _ _
    · unfold handlePing
      split <;> exact announces_push rfl rfl rfl
    · unfold handleShutdown
      split
      · exact announces_push rfl rfl rfl
      · refine ⟨.inl rfl, fun r hm => .inl ?_⟩
        rw [hr] at hm ⊢
        exact hm
    · exact announces_push rfl rfl rfl

theorem queuedIn_append (a b : List Handed) : queuedIn (a ++ b) = queuedIn a ++ queuedIn b := by simp [queuedIn]

/-- Once every admitted request is announced, so is one that has a slot. -/
theorem Announced.frame (h : Announced s) (hinv : Inv (view s)) (hr : s.reader = .readLoop :: rest) (stale : Bool)
    (input : Input) : Announced (handleFrame cfg s stale input) := by
  have hall := h.all hr fun f heq => by cases heq
  have hannounces := @frame_announces cfg s rest hr stale input
  obtain ⟨hengine, hhanded, -⟩ := @frame_keeps cfg s stale input
  constructor
  · rw [hhanded]
    intro id hid
    rcases hannounces.admitted with heq | ⟨new, f, heq, hhead, hf⟩
    · rw [heq] at hid
      exact .inl (hall id hid)
    · rw [heq] at hid
      rcases List.mem_append.mp hid with hid | hid
      · exact .inl (hall id hid)
      · rw [List.mem_singleton.mp hid]
        exact .inr ⟨f, hhead, hf⟩
  · rw [hhanded]
    intro id hid
    rcases hannounces.due id hid with hid | hid
    · exact h.due id hid
    · exact hall id ((hinv.made id).mp hid)
  · rw [hengine, hhanded]
    exact h.current
  · rw [hhanded]
    exact h.log

/-- The reader drops an act that sends nothing. -/
theorem Announced.drop (h : Announced s) (hr : s.reader = act :: rest) (hact : ∀ f, act ≠ .send f)
    (hadm : s'.tables.admitted = s.tables.admitted) (hhanded : s'.handed = s.handed) (hengine : s'.engine = s.engine)
    (hdue : ∀ id ∈ dueIn s'.reader, id ∈ dueIn s.reader ∨ id ∈ s.tables.admitted) : Announced s' := by
  have hall := h.all hr hact
  constructor
  · rw [hadm, hhanded]
    exact fun id hid => .inl (hall id hid)
  · rw [hhanded]
    intro id hid
    rcases hdue id hid with hid | hid
    · exact h.due id hid
    · exact hall id hid
  · rw [hengine, hhanded]
    exact h.current
  · rw [hhanded]
    exact h.log

theorem Announced.send {f : OutFrame} (h : Announced s) (hlog : LogInv s) (hr : s.reader = .send f :: rest) :
    Announced (hand { s with reader := rest } .reader f) := by
  have hqueued : queuedIn (s.handed ++ [⟨.reader, f⟩]) = queuedIn s.handed ++ f.queues.toList := by
    rw [queuedIn_append]
    cases hf : f.queues <;> simp [queuedIn, hf]
  have hold : ∀ id ∈ queuedIn s.handed, id ∈ queuedIn (s.handed ++ [⟨.reader, f⟩]) := by
    intro id hid
    rw [hqueued]
    exact List.mem_append_left _ hid
  refine ⟨fun id hid => .inl ?_, fun id hid => hold id ?_, fun id hid => hold id (h.current id hid), ?_⟩
  · rcases h.admitted id hid with hq | ⟨f', hhead, hf'⟩
    · exact hold id hq
    · rw [hr, List.head?_cons, Option.some.injEq, Act.send.injEq] at hhead
      show id ∈ queuedIn (s.handed ++ [⟨.reader, f⟩])
      rw [hqueued, hhead, hf']
      exact List.mem_append_right _ List.mem_cons_self
  · refine h.due id ?_
    rw [hr, dueIn_cons]
    exact List.mem_append_right _ hid
  · refine h.log.snoc fun r hr' => ?_
    rcases hr' with hspeech | hanswers
    · have hmute : f.isSpeech r = false := hlog.mute r (.send f) (hr ▸ List.mem_cons_self)
      rw [hmute] at hspeech
      cases hspeech
    · refine h.due r ?_
      rw [hr, dueIn_cons, Act.due, hanswers]
      exact List.mem_cons_self

theorem Announced.runAct (h : Announced s) (hinv : Inv (view s)) (hlog : LogInv s) (hr : s.reader = act :: rest)
    (hs : runAct { s with reader := rest } act = some s') : Announced s' := by
  have hrest : ∀ id ∈ dueIn rest, id ∈ dueIn s.reader := by
    intro id hid
    rw [hr, dueIn_cons]
    exact List.mem_append_right _ hid
  cases act with
  | readLoop => cases hs
  | send f =>
    cases hs
    exact h.send hlog hr
  | failFatal =>
    cases hs
    exact h.drop hr (fun f heq => by cases heq) rfl rfl rfl fun id hid => .inl (hrest id hid)
  | requestShutdown sendAck =>
    cases hs
    unfold requestShutdown
    simp only
    split
    · exact h.drop hr (fun f heq => by cases heq) rfl rfl rfl fun id hid => .inl (hrest id hid)
    · obtain ⟨hids, hdrained⟩ := drained_shutdown hinv.nodup hinv.queued
      refine h.drop hr (fun f heq => by cases heq) hdrained.admitted rfl rfl fun id hid => ?_
      rw [push, dueIn_append] at hid
      rcases List.mem_append.mp hid with hid | hid
      · -- the requests that the shutdown takes out of the queue
        rw [dueIn_append] at hid
        obtain ⟨a, ha, hdue⟩ := List.mem_filterMap.mp ((List.mem_append.mp hid).resolve_right List.not_mem_nil)
        obtain ⟨i, hi, rfl⟩ := List.mem_map.mp ha
        cases hdue
        have hi' : id ∈ s.tables.pending := hids ▸ hi
        refine .inr ((hinv.made id).mp ?_)
        have hq := (hinv.queued id hi').1
        simp only [view] at hq ⊢
        rw [hq]
        exact Option.some_ne_none _
      · exact .inl (hrest id hid)
  | shutdownTerminalsEnqueued =>
    cases hs
    exact h.drop hr (fun f heq => by cases heq) rfl rfl rfl fun id hid => .inl (hrest id hid)
  | returned ids =>
    cases hs
    exact h.drop hr (fun f heq => by cases heq) rfl rfl rfl fun id hid => .inl (hrest id hid)

end Frames

/-! ## The engine thread -/

section Engine

variable {cfg : Config} {s s' : St} {e : EngineEv}

/-- The engine thread hands over frames of the request it has, and gets another by taking it. -/
structure Minds (s s' : St) : Prop where
  handed : s'.handed = s.handed ∨ ∃ f, s'.handed = s.handed ++ [⟨.engine, f⟩] ∧
    ∀ r, f.isSpeech r = true ∨ Handed.answers ⟨.engine, f⟩ = some r → s.engine.role.current = some r
  current : ∀ id, s'.engine.role.current = some id → s.engine.role.current = some id ∨
    (s.engine = .take ∧ ∃ rest, s.tables.pending = id :: rest)

theorem minds_goto {pc : EnginePc} (h : ∀ id, pc.role.current = some id → s.engine.role.current = some id) :
    Minds s (goto s pc) := ⟨.inl rfl, fun id hid => .inl (h id hid)⟩

theorem engine_minds (h : stepEngine s e = some s') : Minds s s' := by
  cases e with
  | next seen =>
    simp only [stepEngine] at h
    split at h
    · rename_i hpc
      unfold takeNextRequest at h
      split at h
      · split at h
        · cases h
          exact minds_goto fun _ hid => by cases hid
        · cases h
      · rename_i id rest hp
        cases h
        refine ⟨.inl rfl, fun r hr => .inr ⟨hpc, rest, ?_⟩⟩
        cases hr
        exact hp
    · rename_i id hpc
      split at h
      · cases h
      · cases h
        refine minds_goto fun r hr => ?_
        rw [hpc]
        cases seen <;> exact hr
    · rename_i id hpc
      split at h
      · cases h
      · cases h
        refine ⟨.inr ⟨_, rfl, fun r hr => ?_⟩, fun r hr => .inl (hpc ▸ hr)⟩
        rcases hr with hr | hr
        · rw [hpc, ← eq_of_beq hr]
          rfl
        · cases hr
    · rename_i id pcm hpc
      split at h
      · cases h
      split at h
      · cases h
        exact minds_goto fun r hr => hpc ▸ hr
      · split at h <;> cases h <;> exact minds_goto fun r hr => hpc ▸ hr
    · rename_i id pcm hpc
      cases h
      refine ⟨.inr ⟨_, rfl, fun r hr => ?_⟩, fun r hr => .inl (hpc ▸ hr)⟩
      rcases hr with hr | hr
      · rw [hpc, ← eq_of_beq hr]
        rfl
      · cases hr
    · rename_i id hpc
      cases h
      exact ⟨.inl rfl, fun r hr => .inl (hpc ▸ hr)⟩
    · rename_i id answer hpc
      split at h <;> cases h
      · exact minds_goto fun _ hid => by cases hid
      · exact ⟨.inl rfl, fun r hr => .inl (hpc ▸ hr)⟩
    · rename_i id answer hpc
      cases h
      exact ⟨.inl rfl, fun r hr => .inl (hpc ▸ hr)⟩
    · rename_i id answer hpc
      cases h
      refine ⟨.inr ⟨_, rfl, fun r hr => ?_⟩, fun _ hid => by cases hid⟩
      have ha : Handed.answers ⟨.engine, answer.frame id⟩ = some id := by cases answer <;> rfl
      rcases hr with hr | hr
      · cases answer <;> cases hr
      · rw [hpc, ← hr, ha]
        rfl
    · rename_i hpc
      cases h
      refine minds_goto fun r hr => ?_
      cases hack : s.shutdownAckNeeded <;> rw [hack] at hr <;> cases hr
    · rename_i hpc
      cases h
      refine ⟨.inr ⟨_, rfl, fun r hr => ?_⟩, fun _ hid => by cases hid⟩
      rcases hr with hr | hr <;> cases hr
    · cases h
  | chunk pcm =>
    simp only [stepEngine] at h
    split at h
    · rename_i id hpc
      cases h
      exact minds_goto fun r hr => hpc ▸ hr
    · cases h
  | result r =>
    simp only [stepEngine] at h
    split at h
    · rename_i id hpc
      cases h
      exact minds_goto fun r hr => hpc ▸ hr
    · cases h

/-- Where the engine thread takes a slot, it was announced. -/
theorem takes_announced {id : RequestId} {rest : List RequestId} (hok : TakesQueued s (.engine e))
    (hs : stepEngine s e = some s') (hpc : s.engine = .take) (hp : s.tables.pending = id :: rest) :
    id ∈ queuedIn s.handed := by
  cases e with
  | next seen => simpa [TakesQueued, takesQueued, hpc, hp] using hok
  | chunk pcm => simp [stepEngine, hpc] at hs
  | result r => simp [stepEngine, hpc] at hs

theorem Announced.engine (h : Announced s) (hok : TakesQueued s (.engine e)) (hs : stepEngine s e = some s') :
    Announced s' := by
  have hleaves := engine_leaves hs
  have hminds := engine_minds hs
  have hold : ∀ id ∈ queuedIn s.handed, id ∈ queuedIn s'.handed := by
    intro id hid
    rcases hminds.handed with heq | ⟨f, heq, -⟩
    · exact heq ▸ hid
    · rw [heq, queuedIn_append]
      exact List.mem_append_left _ hid
  constructor
  · rw [hleaves.admitted, hleaves.reader]
    exact fun id hid => (h.admitted id hid).imp_left (hold id)
  · rw [hleaves.reader]
    exact fun id hid => hold id (h.due id hid)
  · intro id hid
    rcases hminds.current id hid with hcur | ⟨hpc, rest, hp⟩
    · exact hold id (h.current id hcur)
    · exact hold id (takes_announced hok hs hpc hp)
  · rcases hminds.handed with heq | ⟨f, heq, hown⟩
    · rw [heq]
      exact h.log
    · rw [heq]
      exact h.log.snoc fun r hr => h.current r (hown r hr)

theorem Announced.step {e : Ev} (h : Announced s) (hinv : Inv (view s)) (hlog : LogInv s) (hok : TakesQueued s e)
    (hs : step cfg s e = some s') : Announced s' := by
  cases e with
  | receive input stale =>
    simp only [NativeServer.step] at hs
    split at hs
    · rename_i rest hr
      cases hs
      exact h.frame hinv hr stale input
    · cases hs
  | framingError =>
    simp only [NativeServer.step] at hs
    split at hs
    · rename_i rest hr
      cases hs
      refine h.drop hr (fun f heq => by cases heq) rfl rfl rfl fun id hid => .inl ?_
      rw [hr]
      exact hid
    · cases hs
  | eof =>
    simp only [NativeServer.step] at hs
    split at hs
    · rename_i rest hr
      cases hs
      refine h.drop hr (fun f heq => by cases heq) rfl rfl rfl fun id hid => .inl ?_
      rw [hr]
      exact hid
    · cases hs
  | reader =>
    simp only [NativeServer.step] at hs
    split at hs
    · rename_i act rest hr
      exact h.runAct hinv hlog hr hs
    · cases hs
  | engine e => exact h.engine hok hs

theorem reach_queuedFirst (h : Reach (step cfg) TakesQueued init s) : QueuedFirst s.handed := by
  have hannounced : Announced s := by
    have hinit : Announced init := by
      refine ⟨fun _ hid => (List.not_mem_nil hid).elim, ?_, ?_, legal_nil⟩
      · intro id hid
        simp [init, dueIn, Act.due] at hid
      · intro id hid
        cases hid
    refine h.inv hinit ?_
    intro s e s' hr hi hok hs
    have hreach : Reachable cfg s := hr.mono fun _ _ _ => trivial
    exact hi.step (reach_inv hreach) (reach_logInv hreach) hok hs
  exact hannounced.log

end Engine

end QwenTtsBridge.Worker.NativeServer
