/-
  QwenTtsBridge.Worker.PyQueued — the `queued` frame of the Python worker (`PyServer`).

  As in the native worker, `_handle_synthesize` appends the slot to `_pending` under the
  lock and sends `queued` after it released it. The frame always encodes, so the reader
  hands it over before it does anything else (`Announced.admitted`); the engine thread may
  take the slot first (`TakesQueued`).
-/

import QwenTtsBridge.Worker.PyRobustness
import QwenTtsBridge.Worker.PySilence
import QwenTtsBridge.Worker.PyShutdown

namespace QwenTtsBridge.Worker.PyServer

open QwenTtsBridge.Python QwenTtsBridge.Lib.Transition QwenTtsBridge.Lib.EventLog

def OutFrame.queues : OutFrame → Option RequestId
  | .queued id _ => some id
  | _ => none

/-- The requests whose `queued` frame was handed over. -/
def queuedIn (handed : List Handed) : List RequestId := handed.filterMap (·.frame.queues)

/-- `queued` precedes every `started` and `audio_pcm` frame and the terminal frame of its
    request. -/
def QueuedFirst (handed : List Handed) : Prop :=
  Legal (fun before h => ∀ r, h.frame.isSpeech r = true ∨ h.answers = some r → r ∈ queuedIn before) handed

/-- `_take_next_request` finds no slot whose `queued` frame is still to be sent. -/
def takesQueued (s : St) : Ev → Bool
  | .engine .next =>
    match s.engine, s.tables.pending with
    | .take, id :: _ => (queuedIn s.handed).contains id
    | _, _ => true
  | _ => true

def TakesQueued (s : St) (e : Ev) : Prop := takesQueued s e = true

instance (s : St) (e : Ev) : Decidable (TakesQueued s e) := inferInstanceAs (Decidable (_ = true))

structure Announced (cfg : Config) (s : St) : Prop where
  /-- The `queued` frame of an admitted request was handed over, or is what the reader sends
      next. -/
  admitted : ∀ id ∈ s.tables.admitted, id ∈ queuedIn s.handed ∨
    ∃ f, s.reader.head? = some (.send f) ∧ f.queues = some id ∧ cfg.encodes f = true
  due : ∀ id ∈ dueIn s.reader, id ∈ queuedIn s.handed
  current : ∀ id, s.engine.role.current = some id → id ∈ queuedIn s.handed
  mute : ∀ a ∈ s.reader, a.speaks = false
  log : QueuedFirst s.handed

theorem queuedIn_append (a b : List Handed) : queuedIn (a ++ b) = queuedIn a ++ queuedIn b := by simp [queuedIn]

section Reader

variable {py : Interpreter} {max : Nat} {ready : ReadyMessage} {cfg : Config} {s s' : St} {act : Act} {rest : List Act}
  {id : RequestId}

/-- A reader about to do anything but a `send` has announced every admitted request. -/
theorem Announced.all (h : Announced cfg s) (hr : s.reader = act :: rest) (hact : ∀ f, act ≠ .send f) :
    ∀ id ∈ s.tables.admitted, id ∈ queuedIn s.handed := by
  intro id hid
  refine (h.admitted id hid).resolve_right ?_
  rintro ⟨f, hhead, -⟩
  rw [hr, List.head?_cons, Option.some.injEq] at hhead
  exact hact f hhead

theorem Wakes.current (h : Wakes s s') (hc : s'.engine.role.current = some id) : s.engine.role.current = some id := by
  rcases h with heq | heq
  · rw [← heq]
    exact hc
  · rw [heq] at hc
    cases hc

theorem synthesize_admits (cfg : Config) (s : St) (id : RequestId) (parsed : Parsed) :
    (handleSynthesize cfg s id parsed).tables.admitted = s.tables.admitted ∨
      ((handleSynthesize cfg s id parsed).tables.admitted = s.tables.admitted ++ [id] ∧
        (handleSynthesize cfg s id parsed).reader =
          .send (.queued id (s.tables.pending ++ [id]).length) :: .notifyAll :: s.reader) := by
  unfold handleSynthesize
  split
  · exact .inl rfl
  split
  · exact .inl rfl
  split
  · exact .inl rfl
  · exact .inl rfl
  · unfold admission
    split
    · exact .inl rfl
    split
    · exact .inl rfl
    · exact .inr ⟨rfl, rfl⟩

/-- An admission leaves the `queued` frame on top of the reader's acts. -/
theorem frame_admits (c : Command) :
    (handleFrame cfg s c).tables.admitted = s.tables.admitted ∨
      ∃ id, Ev.synthesizes (.receive c) = some id ∧
        (handleFrame cfg s c).tables.admitted = s.tables.admitted ++ [id] ∧
        (handleFrame cfg s c).reader =
          .send (.queued id (s.tables.pending ++ [id]).length) :: .notifyAll :: s.reader := by
  cases c with
  | synthesize id parsed =>
    simp only [handleFrame]
    split
    · exact .inl rfl
    · rcases synthesize_admits cfg s id parsed with h | h
      · exact .inl h
      · exact .inr ⟨id, rfl, h⟩
  | _ =>
    refine .inl ((admitted_frame _).resolve_right ?_)
    rintro ⟨_, hid, -⟩
    cases hid

theorem frame_handed (cfg : Config) (s : St) (c : Command) : (handleFrame cfg s c).handed = s.handed := by
  rcases frame_replied cfg s c with h | h | ⟨-, h⟩
  · exact h.handed
  · rw [h]
    rfl
  · rw [h]

theorem isReply_mute {a : Act} (h : a.isReply = true) : a.speaks = false := by
  cases a with
  | send f =>
    simp only [Act.isReply, Bool.and_eq_true, Bool.not_eq_true'] at h
    exact h.2
  | _ => rfl

/-- A frame leaves no `started` or `audio_pcm` frame to send. -/
theorem frame_mute (c : Command) (hr : s.reader = .readLoop :: rest) (h : ∀ a ∈ s.reader, a.speaks = false) :
    ∀ a ∈ (handleFrame cfg s c).reader, a.speaks = false := by
  intro a ha
  rcases frame_replied cfg s c with hrep | heq | ⟨-, heq⟩
  · obtain ⟨acts, hreader, hacts⟩ := hrep.reader
    rw [hreader] at ha
    rcases List.mem_append.mp ha with ha | ha
    · exact isReply_mute (hacts a ha)
    · exact h a ha
  · rw [heq] at ha
    exact h a (List.mem_filter.mp ha).1
  · rw [heq, hr] at ha
    rcases List.mem_cons.mp ha with rfl | ha
    · rfl
    · exact h a (hr ▸ List.mem_cons_of_mem _ ha)

/-- A frame of the parser: the `queued` frame it leaves to send encodes. -/
theorem Announced.frame {c : Command} (h : Announced (config py max ready) s)
    (hinv : Inv (config py max ready) s.tables s.engine.role) (hids : ∀ i ∈ s.tables.admitted, i < 2 ^ 64)
    (hr : s.reader = .readLoop :: rest) (hc : ∀ id, Ev.synthesizes (.receive c) = some id → id < 2 ^ 64) :
    Announced (config py max ready) (handleFrame (config py max ready) s c) := by
  have hall := h.all hr fun f heq => by cases heq
  have hdue := frame_due hinv hr c
  have hwakes : Wakes s (handleFrame (config py max ready) s c) := frame_wakes c
  have hhanded := frame_handed (config py max ready) s c
  have hcurrent : ∀ id, (handleFrame (config py max ready) s c).engine.role.current = some id → id ∈ queuedIn s.handed :=
    fun id hid => h.current id (hwakes.current hid)
  have hmute := @frame_mute (config py max ready) s rest c hr h.mute
  rcases @frame_admits (config py max ready) s c with hsame | ⟨new, hnew, hadm, hreader⟩
  · refine ⟨?_, ?_, ?_, hmute, ?_⟩ <;> rw [hhanded]
    · rw [hsame]
      exact fun id hid => .inl (hall id hid)
    · intro id hid
      rcases hdue id hid with hid | hcancelled
      · exact h.due id hid
      · exact hall id (hsame ▸ hcancelled.admitted)
    · exact hcurrent
    · exact h.log
  · refine ⟨?_, ?_, ?_, hmute, ?_⟩ <;> rw [hhanded]
    · rw [hadm, hreader]
      intro id hid
      rcases List.mem_append.mp hid with hid | hid
      · exact .inl (hall id hid)
      · rw [List.mem_singleton.mp hid]
        refine .inr ⟨_, rfl, rfl, encodes_queued (hc new hnew) ?_⟩
        have hlen := pending_length hinv hids
        rw [List.length_append, List.length_singleton]
        omega
    · rw [hreader]
      exact h.due
    · exact hcurrent
    · exact h.log

theorem Announced.send {f : OutFrame} (h : Announced cfg s) (hr : s.reader = .send f :: rest) :
    Announced cfg (hand { s with reader := rest } .reader f) := by
  have hqueued : queuedIn (s.handed ++ [⟨.reader, f⟩]) = queuedIn s.handed ++ f.queues.toList := by
    rw [queuedIn_append]
    cases hf : f.queues <;> simp [queuedIn, hf]
  have hold : ∀ id ∈ queuedIn s.handed, id ∈ queuedIn (s.handed ++ [⟨.reader, f⟩]) := by
    intro id hid
    rw [hqueued]
    exact List.mem_append_left _ hid
  refine ⟨fun id hid => .inl ?_, fun id hid => hold id ?_, fun id hid => hold id (h.current id hid),
    fun a ha => h.mute a (hr ▸ List.mem_cons_of_mem _ ha), ?_⟩
  · rcases h.admitted id hid with hq | ⟨f', hhead, hf', -⟩
    · exact hold id hq
    · rw [hr, List.head?_cons, Option.some.injEq, Act.send.injEq] at hhead
      show id ∈ queuedIn (s.handed ++ [⟨.reader, f⟩])
      rw [hqueued, hhead, hf']
      exact List.mem_append_right _ List.mem_cons_self
  · refine h.due id ?_
    rw [hr, dueIn_cons]
    exact List.mem_append_right _ hid
  · refine h.log.snoc fun r hr' => ?_
    rcases hr' with hspeech | hanswers
    · have hmute := h.mute (.send f) (hr ▸ List.mem_cons_self)
      cases f <;> first | cases hspeech | cases hmute
    · refine h.due r ?_
      rw [hr, dueIn_cons, Act.due, hanswers]
      exact List.mem_cons_self

/-- The reader does an act that sends nothing, once every admitted request is announced. -/
theorem Announced.quiet (h : Announced cfg s) (hall : ∀ id ∈ s.tables.admitted, id ∈ queuedIn s.handed)
    (hadm : s'.tables.admitted = s.tables.admitted) (hhanded : s'.handed = s.handed) (hwakes : Wakes s s')
    (hdue : ∀ r ∈ dueIn s'.reader, r ∈ dueIn s.reader ∨ Cancelled s'.tables s'.engine.role r)
    (hmute : ∀ a ∈ s'.reader, a.speaks = false) : Announced cfg s' := by
  refine ⟨?_, ?_, ?_, hmute, ?_⟩ <;> rw [hhanded]
  · rw [hadm]
    exact fun id hid => .inl (hall id hid)
  · intro r hm
    rcases hdue r hm with hm | hcancelled
    · exact h.due r hm
    · exact hall r (hadm ▸ hcancelled.admitted)
  · exact fun id hid => h.current id (hwakes.current hid)
  · exact h.log

theorem act_mute (h : runAct cfg { s with reader := rest } act = some s') (hact : act.speaks = false)
    (hmute : ∀ a ∈ rest, a.speaks = false) : ∀ a ∈ s'.reader, a.speaks = false := by
  have hfilter : ∀ l : List Act, (∀ a ∈ l, a.speaks = false) → ∀ a ∈ l.filter isFinally, a.speaks = false :=
    fun l hl a ha => hl a (List.mem_filter.mp ha).1
  cases act with
  | readLoop => cases h
  | send f =>
    simp only [runAct] at h
    split at h <;> cases h
    · exact hmute
    · refine hfilter (.send f :: rest) ?_
      intro a ha
      rcases List.mem_cons.mp ha with rfl | ha
      · exact hact
      · exact hmute a ha
  | emitFinished id =>
    simp only [runAct] at h
    split at h <;> cases h
    · exact hfilter rest hmute
    · exact hmute
  | notifyAll =>
    cases h
    rw [notifyAll_reader]
    exact hmute
  | requestShutdown sendAck =>
    cases h
    unfold requestShutdown
    split
    · rw [notifyAll_reader]
      exact hmute
    · intro a ha
      rcases List.mem_append.mp ha with ha | ha
      · rcases List.mem_append.mp ha with ha | ha
        · exact isReply_mute (shutdownActs_isReply _ a ha)
        · rcases List.mem_pair.mp ha with rfl | rfl <;> rfl
      · exact hmute a ha
  | shutdownTerminalEventsEnqueued =>
    cases h
    rw [notifyAll_reader]
    exact hmute
  | returned ids =>
    cases h
    exact hmute

theorem Announced.runAct (h : Announced cfg s) (hinv : Inv cfg s.tables s.engine.role) (hr : s.reader = act :: rest)
    (hs : runAct cfg { s with reader := rest } act = some s') : Announced cfg s' := by
  obtain ⟨hwakes, hhanded, hdue⟩ := act_due hinv hr hs
  have hact := admitted_act hs
  have hadm : s'.tables.admitted = s.tables.admitted := hact
  have hmute := act_mute hs (h.mute act (hr ▸ List.mem_cons_self)) fun a ha => h.mute a (hr ▸ List.mem_cons_of_mem _ ha)
  by_cases hsend : ∃ f, act = .send f
  · obtain ⟨f, rfl⟩ := hsend
    simp only [PyServer.runAct] at hs
    split at hs
    · cases hs
      exact h.send hr
    · -- an exception; the frame is none of `queued`, which would have encoded
      rename_i hfails
      cases hs
      refine h.quiet (fun id hid => (h.admitted id hid).resolve_right ?_) hadm rfl hwakes hdue hmute
      rintro ⟨f', hhead, -, hencodes⟩
      rw [hr, List.head?_cons, Option.some.injEq, Act.send.injEq] at hhead
      exact hfails (hhead ▸ hencodes)
  · have hother : ∀ f, act ≠ .send f := fun f heq => hsend ⟨f, heq⟩
    have hsame : s'.handed = s.handed := by
      refine hhanded.resolve_right ?_
      rintro ⟨f, heq, -⟩
      exact hother f heq
    exact h.quiet (h.all hr hother) hadm hsame hwakes hdue hmute

end Reader

/-! ## The engine thread -/

section Engine

variable {py : Interpreter} {max : Nat} {ready : ReadyMessage} {cfg : Config} {s s' : St} {id : RequestId}

/-- The engine thread gets a request by taking it. -/
theorem effect_current {calm : Prop} {v v' : View} (h : Effect cfg calm v v') (hc : v'.role.current = some id) :
    v.role.current = some id ∨ (v.role = .idle ∧ ∃ rest, v.tables.pending = id :: rest) := by
  cases h with
  | dies i hrole =>
    left
    rw [← hc]
    rcases hrole with hrole | hrole <;> rw [hrole] <;> rfl
  | answered i hrole => cases hc
  | take i rest hidle hp hactive =>
    cases hc
    exact .inr ⟨hidle, rest, hp⟩
  | terminalize i hrole hcalm =>
    left
    rw [hrole]
    exact hc
  | finishNotified i hrole hnotified => cases hc
  | finishCancelled i hrole hnotified =>
    left
    rw [hrole]
    exact hc
  | _ => exact .inl hc

/-- Where the engine thread takes a slot, it was announced. -/
theorem takes_announced {e : EngineEv} {rest : List RequestId} (hok : TakesQueued s (.engine e))
    (hs : stepEngine cfg s e = some s') (hc : s'.engine.role.current = some id) (hidle : s.engine.role = .idle)
    (hp : s.tables.pending = id :: rest) : id ∈ queuedIn s.handed := by
  cases hpc : s.engine with
  | take =>
    cases e with
    | next => simpa [TakesQueued, takesQueued, hpc, hp] using hok
    | _ => simp [stepEngine, hpc] at hs
  | loopEnded =>
    cases e with
    | next =>
      simp only [stepEngine, hpc, Option.some.injEq] at hs
      rw [← hs] at hc
      cases hack : s.shutdownAckNeeded <;> rw [hack] at hc <;> cases hc
    | _ => simp [stepEngine, hpc] at hs
  | sendAck =>
    cases e with
    | next =>
      simp only [stepEngine, hpc, Option.some.injEq] at hs
      rw [← hs] at hc
      cases hc
    | _ => simp [stepEngine, hpc] at hs
  | waiting => cases e <;> simp [stepEngine, hpc] at hs
  | exited => cases e <;> simp [stepEngine, hpc] at hs
  | _ =>
    rw [hpc] at hidle
    cases hidle

theorem Announced.engine {e : EngineEv} (h : Announced cfg s) (hok : TakesQueued s (.engine e))
    (hs : stepEngine cfg s e = some s') : Announced cfg s' := by
  have hframe := engine_frame hs
  have hsaid := engine_said hs
  have heffect : Effect cfg False (view s) (view s') := engine_effect nofun hs
  have hold : ∀ id ∈ queuedIn s.handed, id ∈ queuedIn s'.handed := by
    intro id hid
    rcases hsaid with heq | ⟨f, hf⟩
    · exact heq ▸ hid
    · rw [hf.handed, queuedIn_append]
      exact List.mem_append_left _ hid
  constructor
  · rw [hframe.admitted, hframe.reader]
    exact fun id hid => (h.admitted id hid).imp_left (hold id)
  · rw [hframe.reader]
    exact fun id hid => hold id (h.due id hid)
  · intro id hid
    rcases effect_current heffect hid with hcur | ⟨hidle, rest, hp⟩
    · exact hold id (h.current id hcur)
    · exact hold id (takes_announced hok hs hid hidle hp)
  · rw [hframe.reader]
    exact h.mute
  · rcases hsaid with heq | ⟨f, hf⟩
    · rw [heq]
      exact h.log
    · rw [hf.handed]
      refine h.log.snoc fun r hr => h.current r ?_
      rcases hr with hspeech | hanswers
      · rw [(hf.speech r hspeech).2]
        rfl
      · rw [(hf.answer r hanswers).1]
        rfl

theorem Announced.step {e : Ev} (h : Announced (config py max ready) s)
    (hinv : Inv (config py max ready) s.tables s.engine.role) (hids : ∀ i ∈ s.tables.admitted, i < 2 ^ 64)
    (hframes : FromFrames py s e) (hok : TakesQueued s e) (hs : step (config py max ready) s e = some s') :
    Announced (config py max ready) s' := by
  cases e with
  | receive c =>
    simp only [PyServer.step] at hs
    split at hs
    · rename_i rest hr
      cases hs
      refine h.frame hinv hids hr fun id hid => ?_
      obtain ⟨f, validate, hdelivered, rfl⟩ := hframes
      rw [command_synthesizes hid]
      exact delivered_id hdelivered
    · cases hs
  | eof =>
    simp only [PyServer.step] at hs
    split at hs
    · rename_i rest hr
      cases hs
      refine h.quiet (h.all hr fun f heq => by cases heq) rfl rfl (.inl rfl) (fun r hm => .inl ?_) fun a ha => ?_
      · rw [hr]
        exact hm
      · exact h.mute a (hr ▸ List.mem_cons_of_mem _ ha)
    · cases hs
  | reader =>
    simp only [PyServer.step] at hs
    split at hs
    · rename_i act rest hr
      exact h.runAct hinv hr hs
    · cases hs
  | engine e => exact h.engine hok hs

theorem reach_queuedFirst (h : Reach (step (config py max ready)) (fun s e => FromFrames py s e ∧ TakesQueued s e) init s) :
    QueuedFirst s.handed := by
  have hannounced : Announced (config py max ready) s := by
    have hinit : Announced (config py max ready) init := by
      refine ⟨fun _ hid => (List.not_mem_nil hid).elim, ?_, ?_, ?_, legal_nil⟩
      · intro id hid
        simp [init, dueIn, Act.due] at hid
      · intro id hid
        cases hid
      · intro a ha
        rcases List.mem_pair.mp ha with rfl | rfl <;> rfl
    refine h.inv hinit ?_
    intro s e s' hr hi hok hs
    have hids := reach_ids64 (hr.mono fun _ _ h => h.1)
    exact hi.step (reach_inv hr) hids hok.1 hok.2 hs
  exact hannounced.log

end Engine

end QwenTtsBridge.Worker.PyServer
