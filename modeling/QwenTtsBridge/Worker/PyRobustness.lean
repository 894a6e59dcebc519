/-
  QwenTtsBridge.Worker.PyRobustness — which frames `_handle_frame` of the Python worker
  survives.

  `HandlesNormally` is what is asked of the handler: no exception escapes, it returns, a
  recoverable problem is answered by its `error_json` and leaves the requests alone.
  `FrameFits` is when it does so.

  Proved: `handle_frame_returns_iff` — after `hello`, in every state of every run, a frame is
  handled normally exactly when it fits. An exception escapes for a payload nested past
  the recursion limit or with an integer literal past the limit on integer text, for a
  reply that echoes a surrogate or too much text, for an integer too large for a float, for
  an infinite sample rate or channel count, and for the cancellation of a request whose
  byte rate is too large for a float.
-/

import QwenTtsBridge.Worker.PyReturns

namespace QwenTtsBridge.Worker.PyServer

open QwenTtsBridge.Python QwenTtsBridge.Lib QwenTtsBridge.Lib.Transition QwenTtsBridge.Lib.Watermark
open QwenTtsBridge.Protocol.Framing

/-! ## What is asked of the handler -/

/-- The recoverable problem that a session which has greeted finds in a command, and the id
    that it is answered under. -/
def problem (cfg : Config) (s : St) : Command → Option (RequestId × ErrorMessage)
  | .refused id e => some (id, e)
  | .raises => none
  | .hello id =>
    some (id, .lit "protocol_error" "invalid_session_state" "hello is invalid in the current session state")
  | .ping id _ =>
    if id ≠ 0 then some (id, .lit "protocol_error" "invalid_session_state" "ping must use request_id = 0") else none
  | .synthesize id parsed =>
    if s.shutdownRequested then some (id, .lit "protocol_error" "shutdown_in_progress" "worker is shutting down")
    else if id = 0 then
      some (0, .lit "request_error" "missing_required_field" "synthesize requires a non-zero request_id")
    else match parsed with
      | .raises => none
      | .refused e => some (id, e)
      | .request _ =>
        if id ∈ s.tables.active ∨ id ≤ s.tables.acceptedRequestIdHighWater then
          some (id, .lit "request_error" "duplicate_request_id" "request_id was already used in this session")
        else if s.tables.admittedRequests ≥ cfg.maxAdmittedRequests then
          some (id, .lit "resource_error" "resource_exhausted" "worker admission limit reached")
        else none
  | .cancel id =>
    if id = 0 then some (0, .lit "request_error" "unknown_request_id" "cancel requires a non-zero request_id")
    else if (s.tables.get? id).isNone ∧ id > s.tables.acceptedRequestIdHighWater then
      some (id, .lit "request_error" "unknown_request_id" "request_id is not active")
    else none
  | .shutdown id modeIsCancel =>
    if id ≠ 0 then some (id, .lit "protocol_error" "invalid_session_state" "shutdown must use request_id = 0")
    else if !modeIsCancel then
      some (0, .lit "protocol_error" "invalid_field_type" "protocol v1 supports only shutdown mode = cancel")
    else none

/-- `_handle_frame` on this command, in every interleaving with the engine thread. The handler
    is over when nothing of it is left above what the reader's stack was. -/
structure HandlesNormally (cfg : Config) (s : St) (c : Command) : Prop where
  noEscape : ∀ es s', (∀ e ∈ es, e.isThread = true) → after (step cfg) (handleFrame cfg s c) es = some s' →
    s'.fatalError = false
  bounded : ∃ n, ∀ es s', (∀ e ∈ es, e.isThread = true) → after (step cfg) (handleFrame cfg s c) es = some s' →
    es.countP Ev.isReader ≤ n
  returns : ∀ es s', (∀ e ∈ es, e.isThread = true) → after (step cfg) (handleFrame cfg s c) es = some s' →
    s'.reader <:+ s.reader ∨ ∃ s'', step cfg s' .reader = some s''
  answered : ∀ id e, problem cfg s c = some (id, e) → ∀ es s', (∀ e ∈ es, e.isThread = true) →
    after (step cfg) (handleFrame cfg s c) es = some s' → s'.reader <:+ s.reader →
    ∃ more, s'.handed = s.handed ++ more ∧ ⟨.reader, .error id e⟩ ∈ more
  unaffected : ∀ id e, problem cfg s c = some (id, e) → (handleFrame cfg s c).tables = s.tables

/-! ## When it does so -/

/-- The message of a control frame. -/
def messageOf (py : Interpreter) (f : PyFrame) : Option (Dict × PyStr) :=
  if isControl f then
    match decodeControlPayload py f.payload with
    | .ok result => some result
    | .error _ => none
  else none

structure FrameFits (py : Interpreter) (validate : Validate) (s : St) (f : PyFrame) : Prop where
  /-- `json.loads` raises nothing but JSONDecodeError. -/
  text : isControl f = true → ∀ text, Utf8.decode f.payload = some text → ∀ e, loads py text = .error e →
    e = .jsonDecodeError
  unknownType : ∀ m messageType, messageOf py f = some (m, messageType) → messageType ∉ clientMessageTypes →
    (unknownMessageType messageType).Sendable
  ping : ∀ m v, messageOf py f = some (m, PyStr.lit "ping") → frameId f = 0 →
    m.get? (PyStr.lit "sequence") = some v → Echoable py v
  synthesize : ∀ m, messageOf py f = some (m, PyStr.lit "synthesize") → frameId f ≠ 0 →
    RequestFits py validate (frameId f) m
  cancel : ∀ m slot, messageOf py f = some (m, PyStr.lit "cancel") → s.tables.get? (frameId f) = some slot →
    pcmDurationRaises slot.request.output = false
  shutdown : ∀ m, messageOf py f = some (m, PyStr.lit "shutdown") → frameId f = 0 → modeIsCancel m = true →
    ∀ id ∈ s.tables.pending, ∀ slot, s.tables.slots id = some slot → pcmDurationRaises slot.request.output = false

/-! ## Problems are answered -/

section Problem

variable {cfg : Config} {s s' : St} {id : RequestId} {e : ErrorMessage} {rest : List Act}

/-- A problem is answered by sending its error, and nothing else. -/
theorem handleFrame_of_problem {c : Command} (hhello : s.helloSeen = true) (hready : s.readySent = true)
    (h : problem cfg s c = some (id, e)) :
    handleFrame cfg s c = sendError s id e ∨ handleFrame cfg s c = sendError (notifyAll s) id e := by
  cases c with
  | refused id' e' =>
    cases h
    exact .inl rfl
  | raises => cases h
  | hello id' =>
    cases h
    left
    simp only [handleFrame, handleHello, hhello, true_or, or_true, if_true]
  | ping id' sequence =>
    left
    simp only [problem] at h
    split at h <;> cases h
    rename_i hid
    simp only [handleFrame, handlePing, if_pos hid]
  | synthesize id' parsed =>
    left
    simp only [problem] at h
    simp only [handleFrame, hready, Bool.not_true, Bool.false_eq_true, if_false, handleSynthesize]
    split at h
    · rename_i hshut
      cases h
      rw [if_pos hshut]
    · rename_i hshut
      rw [if_neg hshut]
      split at h
      · rename_i hid
        cases h
        rw [if_pos hid]
      · rename_i hid
        rw [if_neg hid]
        split at h
        · cases h
        · cases h
          rfl
        · simp only [admission]
          split at h
          · rename_i hdup
            cases h
            rw [if_pos hdup]
          · rename_i hdup
            rw [if_neg hdup]
            split at h <;> cases h
            rename_i hfull
            rw [if_pos hfull]
  | cancel id' =>
    simp only [problem] at h
    simp only [handleFrame, hready, Bool.not_true, Bool.false_eq_true, if_false, handleCancel]
    split at h
    · rename_i hid
      cases h
      rw [if_pos hid]
      exact .inl rfl
    · rename_i hid
      rw [if_neg hid]
      split at h <;> cases h
      rename_i hunknown
      rw [Option.isNone_iff_eq_none.mp hunknown.1]
      exact .inr (if_pos hunknown.2)
  | shutdown id' modeIsCancel =>
    left
    simp only [problem] at h
    simp only [handleFrame, handleShutdown]
    split at h
    · rename_i hid
      cases h
      rw [if_pos hid]
    · rename_i hid
      rw [if_neg hid]
      split at h <;> cases h
      rename_i hmode
      rw [if_pos hmode]

theorem act_handed {act : Act} (h : runAct cfg s act = some s') :
    s'.handed = s.handed ∨ ∃ f, act = .send f ∧ s'.handed = s.handed ++ [⟨.reader, f⟩] := by
  cases act with
  | readLoop => cases h
  | send f =>
    simp only [runAct] at h
    split at h <;> cases h
    · exact .inr ⟨f, rfl, rfl⟩
    · exact .inl rfl
  | emitFinished id =>
    simp only [runAct] at h
    split at h <;> cases h <;> exact .inl rfl
  | notifyAll =>
    cases h
    exact .inl (by simp)
  | returned ids =>
    cases h
    exact .inl rfl
  | shutdownTerminalEventsEnqueued =>
    cases h
    exact .inl (by simp)
  | requestShutdown sendAck =>
    cases h
    unfold requestShutdown
    split
    · exact .inl (by simp)
    · exact .inl rfl

/-- The frame is still the reader's next act, or it was handed over. -/
def Sent (handed : List Handed) (f : OutFrame) (rest : List Act) (s : St) : Prop :=
  ∃ more, s.handed = handed ++ more ∧ (s.reader = .send f :: rest ∨ ⟨.reader, f⟩ ∈ more)

theorem sent_step {handed : List Handed} {f : OutFrame} {ev : Ev} (henc : cfg.encodes f = true)
    (hs : Sent handed f rest s) (he : ev.isThread = true) (h : step cfg s ev = some s') : Sent handed f rest s' := by
  obtain ⟨more, hhanded, hwhere⟩ := hs
  cases ev with
  | receive c => cases he
  | eof => cases he
  | engine e =>
    have hf := engine_frame h
    rcases hf.handed with heq | ⟨g, heq⟩
    · exact ⟨more, heq.trans hhanded, hwhere.imp_left hf.reader.trans⟩
    · refine ⟨more ++ [⟨.engine, g⟩], ?_, hwhere.imp hf.reader.trans (List.mem_append_left _)⟩
      rw [heq, hhanded, List.append_assoc]
  | reader =>
    simp only [step] at h
    split at h
    · rename_i act acts hr
      rcases hwhere with hwhere | hmem
      · rw [hr, List.cons.injEq] at hwhere
        rw [hwhere.1] at h
        simp only [runAct, henc, if_true] at h
        cases h
        refine ⟨more ++ [⟨.reader, f⟩], ?_, .inr (List.mem_append_right _ (List.mem_singleton.mpr rfl))⟩
        show s.handed ++ [⟨.reader, f⟩] = _
        rw [hhanded, List.append_assoc]
      · rcases act_handed h with heq | ⟨g, -, heq⟩
        · exact ⟨more, heq.trans hhanded, .inr hmem⟩
        · refine ⟨more ++ [⟨.reader, g⟩], ?_, .inr (List.mem_append_left _ hmem)⟩
          rw [heq]
          show s.handed ++ _ = _
          rw [hhanded, List.append_assoc]
    · cases h

theorem sent_after {handed : List Handed} {f : OutFrame} {es : List Ev} (henc : cfg.encodes f = true)
    (hs : Sent handed f rest s) (hes : ∀ e ∈ es, e.isThread = true) (h : after (step cfg) s es = some s') :
    Sent handed f rest s' := by
  induction es generalizing s with
  | nil =>
    cases h
    exact hs
  | cons e es ih =>
    obtain ⟨s₁, h₁, h₂⟩ := Option.bind_eq_some_iff.mp h
    exact ih (sent_step henc hs (hes e List.mem_cons_self) h₁) (fun e' he' => hes e' (List.mem_cons_of_mem _ he')) h₂

/-- A calm handler is normal. -/
theorem handlesNormally_of_calm {c : Command} {ok : St → Ev → Prop} (hreach : Reach (step cfg) ok init s)
    (hr : s.reader = .readLoop :: rest) (hhello : s.helloSeen = true) (hcalm : Calm cfg (handleFrame cfg s c)) :
    HandlesNormally cfg s c := by
  have hstack := reach_stack hreach
  obtain ⟨hf, -, hrest⟩ := hstack.reading hr
  have hready : s.readySent = true := hstack.ready.trans hhello
  refine ⟨fun es s' hes h => (calm_after hcalm hes h).fatal, ?_, fun es s' hes h => ?_, ?_, ?_⟩
  · refine ⟨workOf (handleFrame cfg s c).tables (handleFrame cfg s c).reader, fun es s' hes h => ?_⟩
    exact (Nat.le_add_right _ _).trans (work_after hes h)
  · -- the reader is stuck only where its stack is what it was, or empty
    by_cases hnext : step cfg s' .reader = none
    · left
      rcases reader_enabled hnext with hnil | ⟨rest', hread⟩
      · rw [hnil]
        exact List.nil_suffix
      · have hstack' : Stack s' := by
          have hreach' : Reach (step cfg) anyStep init s := hreach.mono fun _ _ _ => trivial
          have hframe : step cfg s (.receive c) = some (handleFrame cfg s c) := by simp only [step, hr]
          exact reach_stack (reach_of_after (.step (.receive c) hreach' trivial hframe) h)
        rw [hread, (hstack'.reading hread).2.2, hr, hrest]
    · right
      cases hs : step cfg s' .reader with
      | none => exact absurd hs hnext
      | some s'' => exact ⟨s'', rfl⟩
  · intro id e hproblem es s' hes h hover
    have hreader : (handleFrame cfg s c).reader = .send (.error id e) :: s.reader ∧
        (handleFrame cfg s c).handed = s.handed := by
      rcases handleFrame_of_problem hhello hready hproblem with heq | heq
      · rw [heq]
        exact ⟨rfl, rfl⟩
      · rw [heq]
        exact ⟨congrArg (_ :: ·) (notifyAll_reader s), notifyAll_handed s⟩
    have henc : cfg.encodes (.error id e) = true := by
      refine hcalm.safe (.send (.error id e)) ?_
      rw [hreader.1, ahead_cons rfl]
      exact List.mem_cons_self
    have hsent : Sent s.handed (.error id e) s.reader (handleFrame cfg s c) :=
      ⟨[], by rw [hreader.2, List.append_nil], .inl hreader.1⟩
    obtain ⟨more, hmore, hwhere | hmem⟩ := sent_after henc hsent hes h
    · rw [hwhere] at hover
      have := hover.length_le
      simp at this
    · exact ⟨more, hmore, hmem⟩
  · intro id e hproblem
    rcases handleFrame_of_problem hhello hready hproblem with heq | heq
    · rw [heq]
      rfl
    · rw [heq]
      exact notifyAll_tables s

end Problem

/-! ## Calm frames -/

section Fits

variable {py : Interpreter} {validate : Validate} {max : Nat} {ready : ReadyMessage} {s s' : St}
  {id : RequestId} {rest acts : List Act} {f : PyFrame} {m : Dict} {messageType : PyStr}

theorem calm_leaves {cfg : Config} (hr : s.reader = .readLoop :: rest) (hf : s.fatalError = false)
    (h : Leaves s s' acts) : Calm cfg s' ↔ ∀ a ∈ acts, a.Safe cfg s' := by
  have hahead : ahead s'.reader = acts := by
    rw [h.reader, hr]
    have hplain := h.plain
    clear h
    induction acts with
    | nil => rfl
    | cons a acts ih =>
      rw [List.cons_append, ahead_cons (not_readLoop_of_plain (hplain a List.mem_cons_self)),
        ih fun b hb => hplain b (List.mem_cons_of_mem _ hb)]
  constructor
  · intro hc a ha
    exact hc.safe a (hahead.symm ▸ ha)
  · intro hsafe
    exact ⟨h.fatal.trans hf, fun a ha => hsafe a (hahead ▸ ha)⟩

theorem calm_sendError (hr : s.reader = .readLoop :: rest) (hf : s.fatalError = false) (hid : id < 2 ^ 64)
    (e : ErrorMessage) : Calm (config py max ready) (sendError s id e) ↔ e.Sendable := by
  rw [calm_leaves hr hf (sendError_leaves s id e)]
  simp only [List.mem_singleton, forall_eq, Act.Safe]
  exact encodes_error_iff hid

theorem calm_lit (hr : s.reader = .readLoop :: rest) (hf : s.fatalError = false) (hid : id < 2 ^ 64)
    {category code text : String} (h : (ErrorMessage.lit category code text).Sendable) :
    Calm (config py max ready) (sendError s id (.lit category code text)) :=
  (calm_sendError hr hf hid _).mpr h

/-- The queue holds distinct ids of the protocol, so its length is one more than such an id at
    most. -/
theorem pending_length (hinv : Inv (config py max ready) s.tables s.engine.role)
    (hids : ∀ i ∈ s.tables.admitted, i < 2 ^ 64) : s.tables.pending.length ≤ 2 ^ 64 := by
  have hsub : ∀ i ∈ s.tables.pending, i ∈ List.range (2 ^ 64) := by
    intro i hi
    have hadm := hinv.admitted_of_physical (hinv.activePhysical i (hinv.pendingActive i hi))
    exact List.mem_range.mpr (hids i hadm)
  have hle := (List.subperm_of_subset hinv.pendingNodup hsub).length_le
  rwa [List.length_range] at hle

theorem calm_admission (hr : s.reader = .readLoop :: rest) (hf : s.fatalError = false) (hid : id < 2 ^ 64)
    (hlen : s.tables.pending.length ≤ 2 ^ 64) (request : SynthesisRequest) :
    Calm (config py max ready) (admission (config py max ready) s id request) := by
  unfold admission
  split
  · exact calm_lit hr hf hid (by decide)
  split
  · exact calm_lit hr hf hid (by decide)
  · rw [calm_leaves hr hf ((tables_leaves s _).push (by simp [Act.isPlain]))]
    intro a ha
    simp only [List.mem_cons, List.not_mem_nil, or_false] at ha
    rcases ha with rfl | rfl
    · refine encodes_queued hid ?_
      simp only [Tables.accept, List.length_append, List.length_singleton]
      omega
    · trivial

theorem get?_eq_some {t : Tables} {slot : Slot} (h : t.get? id = some slot) : id ∈ t.active ∧ t.slots id = some slot := by
  unfold Tables.get? at h
  split at h
  · rename_i hactive
    exact ⟨hactive, h⟩
  · cases h

theorem emitFinishedRaises_slot {slot : Slot} (h : s.tables.slots id = some slot) :
    emitFinishedRaises s id = pcmDurationRaises slot.request.output := by
  simp [emitFinishedRaises, h]

/-- Where a cancel reports a request, it is calm when that report raises nothing. -/
theorem calm_report (acts : List Act) {slot : Slot} (hr : s.reader = .readLoop :: rest) (hf : s.fatalError = false) (hid : id < 2 ^ 64)
    (hslot : s.tables.slots id = some slot) (hk : Kept s.tables s'.tables) (h : Leaves s s' [])
    (hacts : acts = [] ∨ acts = [.returned [id]]) :
    Calm (config py max ready) (push s' ([.emitFinished id, .send (.cancelled id)] ++ acts)) ↔
      pcmDurationRaises slot.request.output = false := by
  have hplain : ∀ a ∈ [.emitFinished id, .send (.cancelled id)] ++ acts, a.isPlain = true := by
    rcases hacts with rfl | rfl <;> simp [Act.isPlain]
  have hraise : emitFinishedRaises (push s' ([.emitFinished id, .send (.cancelled id)] ++ acts)) id =
      pcmDurationRaises slot.request.output :=
    (emitFinishedRaises_kept (s := s) hk).trans (emitFinishedRaises_slot hslot)
  rw [calm_leaves hr hf (h.push hplain)]
  constructor
  · intro hsafe
    have := hsafe (.emitFinished id) (by simp)
    exact hraise.symm.trans this
  · intro hraises a ha
    simp only [List.cons_append, List.nil_append, List.mem_cons] at ha
    rcases ha with rfl | rfl | ha
    · exact hraise.trans hraises
    · exact encodes_cancelled hid
    · rcases hacts with rfl | rfl
      · cases ha
      · rw [List.mem_singleton.mp ha]
        trivial

theorem calm_cancel (hr : s.reader = .readLoop :: rest) (hf : s.fatalError = false) (hid : id < 2 ^ 64)
    (hinv : Inv (config py max ready) s.tables s.engine.role) :
    Calm (config py max ready) (handleCancel s id) ↔
      ∀ slot, s.tables.get? id = some slot → pcmDurationRaises slot.request.output = false := by
  have hquiet : Calm (config py max ready) (notifyAll s) :=
    (calm_leaves hr hf (notifyAll_leaves (tables_leaves s s.tables))).mpr fun _ ha => (List.not_mem_nil ha).elim
  have hnotified : (notifyAll s).reader = .readLoop :: rest := (notifyAll_reader s).trans hr
  unfold handleCancel
  split
  · rename_i hzero
    refine iff_of_true (calm_lit hr hf (by decide) (by decide)) ?_
    intro slot hslot
    have hactive := (get?_eq_some hslot).1
    have hpos := (hinv.admittedBelow id (hinv.admitted_of_physical (hinv.activePhysical id hactive))).1
    rw [hzero] at hpos
    exact absurd hpos (Nat.lt_irrefl 0)
  · split
    · rename_i hnone
      refine iff_of_true ?_ fun slot hslot => by rw [hnone] at hslot; cases hslot
      split
      · exact calm_lit hnotified ((notifyAll_fatalError s).trans hf) hid (by decide)
      · exact hquiet
    · rename_i slot hget
      obtain ⟨hactive, hslot⟩ := get?_eq_some hget
      have hone : (∀ slot', s.tables.get? id = some slot' → pcmDurationRaises slot'.request.output = false) ↔
          pcmDurationRaises slot.request.output = false := by
        rw [hget]
        exact ⟨fun h => h slot rfl, fun h slot' hs => by cases hs; exact h⟩
      rw [hone]
      split
      · rename_i hstate
        split
        · exact calm_report [.returned [id]] hr hf hid hslot (by rw [notifyAll_tables]; exact kept_cancelQueued)
            (notifyAll_leaves (tables_leaves s _)) (.inr rfl)
        · -- a queued slot outside the queue would be the engine thread's, which runs it
          rename_i hpending
          rcases hinv.heldBy id (hinv.activePhysical id hactive) with hp | hcurrent
          · exact absurd hp hpending
          · obtain ⟨-, -, slot', hslot', hrunning⟩ := hinv.current id hcurrent
            rw [hslot] at hslot'
            cases hslot'
            rw [hstate] at hrunning
            cases hrunning
      · obtain ⟨slot', hslot', hopen⟩ := hinv.activeOpen id hactive
        rw [hslot] at hslot'
        cases hslot'
        simp only [hopen, Bool.false_eq_true, if_false]
        exact calm_report [] hr hf hid hslot (by rw [notifyAll_tables]; exact kept_cancelRunning)
          (notifyAll_leaves (tables_leaves s _)) (.inl rfl)

theorem calm_shutdown (hr : s.reader = .readLoop :: rest) (hstack : Stack s)
    (hinv : Inv (config py max ready) s.tables s.engine.role) (hids : ∀ i ∈ s.tables.admitted, i < 2 ^ 64) :
    Calm (config py max ready) { s with reader := .requestShutdown true :: s.reader.tail } ↔
      ∀ i ∈ s.tables.pending, ∀ slot, s.tables.slots i = some slot → pcmDurationRaises slot.request.output = false := by
  obtain ⟨hf, -, hrest⟩ := hstack.reading hr
  constructor
  · intro hc i hi slot hslot
    have hsafe := hc.safe (.requestShutdown true) (by rw [ahead_cons rfl]; exact List.mem_cons_self) i hi
    exact (emitFinishedRaises_slot hslot).symm.trans hsafe.1
  · intro h
    have hsafe : ∀ sendAck, (Act.requestShutdown sendAck).Safe (config py max ready)
        { s with reader := .requestShutdown true :: s.reader.tail } := by
      intro sendAck i hi
      obtain ⟨slot, hslot, -⟩ := hinv.pendingQueued i hi
      have hadm := hinv.admitted_of_physical (hinv.activePhysical i (hinv.pendingActive i hi))
      exact ⟨(emitFinishedRaises_slot hslot).trans (h i hi slot hslot), encodes_cancelled (hids i hadm)⟩
    refine ⟨hf, fun a ha => ?_⟩
    simp only [hr, hrest, List.tail_cons, ahead, List.takeWhile_cons, Act.isReadLoop, Bool.not_false, if_true,
      List.takeWhile_nil, List.mem_cons, List.not_mem_nil, or_false] at ha
    rcases ha with rfl | rfl
    · exact hsafe true
    · exact hsafe false

/-! ## Decoded frames -/

/-- A refusal of `decode_control_payload` can be sent, and `json.loads` raised nothing else. -/
theorem decode_refused {payload : List UInt8} {code text : String}
    (h : decodeControlPayload py payload = .error (.controlMessageError code text)) :
    (ErrorMessage.lit "protocol_error" code text).Sendable ∧
      ∀ t, Utf8.decode payload = some t → ∀ e, loads py t = .error e → e = .jsonDecodeError := by
  unfold decodeControlPayload at h
  split at h
  · rename_i hdecode
    cases h
    exact ⟨by decide, fun t ht => by rw [hdecode] at ht; cases ht⟩
  · rename_i t hdecode
    have hone : ∀ {p : PyStr → Prop}, p t → ∀ t', Utf8.decode payload = some t' → p t' := by
      intro p hp t' ht'
      rw [hdecode] at ht'
      cases ht'
      exact hp
    split at h
    · rename_i hloads
      cases h
      exact ⟨by decide, hone fun e he => by rw [hloads] at he; cases he; rfl⟩
    · cases h
    · rename_i value hloads
      have hok : ∀ e, loads py t = .error e → e = .jsonDecodeError := by
        intro e he
        rw [hloads] at he
        cases he
      split at h
      · cases h
        exact ⟨by decide, hone hok⟩
      · split at h
        · cases h
          exact ⟨by decide, hone hok⟩
        · cases h
          exact ⟨by decide, hone hok⟩
        · cases h
        · cases h
          exact ⟨by decide, hone hok⟩
    · rename_i value hdict hloads
      cases h
      refine ⟨by decide, hone fun e he => ?_⟩
      rw [hloads] at he
      cases he

theorem decode_other {payload : List UInt8} {e : Exn} (h : decodeControlPayload py payload = .error (.other e)) :
    ∃ t, Utf8.decode payload = some t ∧ loads py t = .error e ∧ e ≠ .jsonDecodeError := by
  unfold decodeControlPayload at h
  split at h
  · cases h
  · rename_i t hdecode
    split at h
    · cases h
    · rename_i e' hne hloads
      cases h
      exact ⟨t, hdecode, hloads, hne⟩
    · split at h
      · cases h
      · split at h <;> cases h
    · cases h

theorem decode_message {payload : List UInt8} (h : decodeControlPayload py payload = .ok (m, messageType)) :
    ∃ t, Utf8.decode payload = some t ∧ loads py t = .ok (.dict m) := by
  unfold decodeControlPayload at h
  split at h
  · cases h
  · rename_i t hdecode
    split at h
    · cases h
    · cases h
    · rename_i value hloads
      split at h
      · cases h
      · split at h <;> cases h
        exact ⟨t, hdecode, hloads⟩
    · cases h

theorem calm_parsed (hr : s.reader = .readLoop :: rest) (hstack : Stack s)
    (hinv : Inv (config py max ready) s.tables s.engine.role) (hids : ∀ i ∈ s.tables.admitted, i < 2 ^ 64)
    (hid : id < 2 ^ 64) (parsed : Parsed) :
    Calm (config py max ready) (handleSynthesize (config py max ready) s id parsed) ↔ (id ≠ 0 → parsed.Safe) := by
  obtain ⟨hf, hshut, -⟩ := hstack.reading hr
  simp only [handleSynthesize, hshut, Bool.false_eq_true, if_false]
  by_cases hzero : id = 0
  · rw [if_pos hzero]
    exact iff_of_true (calm_lit hr hf (by decide) (by decide)) fun h => absurd hzero h
  · rw [if_neg hzero]
    simp only [ne_eq, hzero, not_false_eq_true, true_implies]
    cases parsed with
    | raises => exact iff_of_false (fun h => by cases h.fatal) fun h => h
    | refused e => exact calm_sendError hr hf hid e
    | request request => exact iff_of_true (calm_admission hr hf hid (pending_length hinv hids) request) trivial

theorem calm_ping (hr : s.reader = .readLoop :: rest) (hf : s.fatalError = false) (hid : id < 2 ^ 64)
    {sequence : Option Value} (hints : ∀ v, sequence = some v → v.IntsWithin py) :
    Calm (config py max ready) (handlePing s id sequence) ↔ (id = 0 → ∀ v, sequence = some v → Echoable py v) := by
  unfold handlePing
  by_cases hzero : id = 0
  · rw [if_neg (by simp [hzero]), calm_leaves hr hf ((tables_leaves s s.tables).push (by simp [Act.isPlain]))]
    simp only [List.mem_singleton, forall_eq, Act.Safe, hzero, true_implies]
    cases sequence with
    | none => exact iff_of_true encodes_pong_none (by simp)
    | some v =>
      rw [encodes_pong_iff (hints v rfl)]
      exact ⟨fun h v' hv => by cases hv; exact h, fun h => h v rfl⟩
  · rw [if_pos hzero]
    exact iff_of_true (calm_lit hr hf hid (by decide)) fun h => absurd h hzero

/-- On a decoded message, calm is what `FrameFits` says of its type. -/
theorem calm_dispatch (hr : s.reader = .readLoop :: rest) (hstack : Stack s) (hhello : s.helloSeen = true)
    (hinv : Inv (config py max ready) s.tables s.engine.role) (hids : ∀ i ∈ s.tables.admitted, i < 2 ^ 64)
    (hid : id < 2 ^ 64) (hints : (Value.dict m).IntsWithin py) :
    Calm (config py max ready) (handleFrame (config py max ready) s (dispatch py validate id m messageType)) ↔
      (messageType ∉ clientMessageTypes → (unknownMessageType messageType).Sendable) ∧
      (messageType = PyStr.lit "ping" → id = 0 → ∀ v, m.get? (PyStr.lit "sequence") = some v → Echoable py v) ∧
      (messageType = PyStr.lit "synthesize" → id ≠ 0 → RequestFits py validate id m) ∧
      (messageType = PyStr.lit "cancel" → ∀ slot, s.tables.get? id = some slot →
        pcmDurationRaises slot.request.output = false) ∧
      (messageType = PyStr.lit "shutdown" → id = 0 → modeIsCancel m = true → ∀ i ∈ s.tables.pending, ∀ slot,
        s.tables.slots i = some slot → pcmDurationRaises slot.request.output = false) := by
  obtain ⟨hf, hshut, hrest⟩ := hstack.reading hr
  have hready : s.readySent = true := hstack.ready.trans hhello
  have hgreeted : (!s.readySent) = false := by rw [hready]; rfl
  by_cases hknown : messageType ∈ clientMessageTypes
  · simp only [clientMessageTypes, List.map_cons, List.map_nil, List.mem_cons, List.not_mem_nil, or_false] at hknown
    rcases hknown with rfl | rfl | rfl | rfl | rfl
    · refine iff_of_true ?_ ⟨fun h => absurd (by decide) h, fun h => absurd h (by decide), fun h => absurd h (by decide),
        fun h => absurd h (by decide), fun h => absurd h (by decide)⟩
      show Calm _ (handleHello _ s id)
      simp only [handleHello, hhello, true_or, or_true, if_true]
      exact calm_lit hr hf hid (by decide)
    · refine Iff.trans ?_ ⟨fun h => ⟨fun h => absurd (by decide) h, fun h => absurd h (by decide), fun _ => h,
        fun h => absurd h (by decide), fun h => absurd h (by decide)⟩, fun h => h.2.2.1 rfl⟩
      have hframe : handleFrame (config py max ready) s (dispatch py validate id m (PyStr.lit "synthesize")) =
          handleSynthesize (config py max ready) s id (parseSynthesisRequest py validate id m) :=
        if_neg (by rw [hgreeted]; decide)
      rw [hframe, calm_parsed hr hstack hinv hids hid]
      exact imp_congr_right fun _ => parse_safe_iff hints
    · refine Iff.trans ?_ ⟨fun h => ⟨fun h => absurd (by decide) h, fun h => absurd h (by decide),
        fun h => absurd h (by decide), fun _ => h, fun h => absurd h (by decide)⟩, fun h => h.2.2.2.1 rfl⟩
      have hframe : handleFrame (config py max ready) s (dispatch py validate id m (PyStr.lit "cancel")) =
          handleCancel s id := if_neg (by rw [hgreeted]; decide)
      rw [hframe]
      exact calm_cancel hr hf hid hinv
    · refine Iff.trans ?_ ⟨fun h => ⟨fun h => absurd (by decide) h, fun _ => h, fun h => absurd h (by decide),
        fun h => absurd h (by decide), fun h => absurd h (by decide)⟩, fun h => h.2.1 rfl⟩
      exact calm_ping hr hf hid fun v hv => get?_ints hints hv
    · refine Iff.trans ?_ ⟨fun h => ⟨fun h => absurd (by decide) h, fun h => absurd h (by decide),
        fun h => absurd h (by decide), fun h => absurd h (by decide), fun _ => h⟩, fun h => h.2.2.2.2 rfl⟩
      show Calm _ (handleShutdown s id (modeIsCancel m)) ↔ _
      unfold handleShutdown
      by_cases hzero : id = 0
      · rw [if_neg (by simp [hzero])]
        simp only [hzero, true_implies]
        cases hmode : modeIsCancel m with
        | false => exact iff_of_true (calm_lit hr hf (by decide) (by decide)) (by simp)
        | true =>
          simp only [Bool.not_true, Bool.false_eq_true, if_false, true_implies]
          exact calm_shutdown hr hstack hinv hids
      · rw [if_pos hzero]
        exact iff_of_true (calm_lit hr hf hid (by decide)) fun h => absurd h hzero
  · have hdispatch : dispatch py validate id m messageType = .refused id (unknownMessageType messageType) := if_pos hknown
    have hother : ∀ t ∈ clientMessageTypes, messageType ≠ t := fun t ht heq => hknown (heq ▸ ht)
    rw [hdispatch]
    refine (calm_sendError hr hf hid _).trans ⟨fun h => ⟨fun _ => h, fun h => absurd h (hother _ (by decide)),
      fun h => absurd h (hother _ (by decide)), fun h => absurd h (hother _ (by decide)),
      fun h => absurd h (hother _ (by decide))⟩, fun h => h.1 hknown⟩

/-- A frame with no message only has to be read. -/
theorem fits_of_none (hnone : messageOf py f = none)
    (htext : isControl f = true → ∀ text, Utf8.decode f.payload = some text → ∀ e, loads py text = .error e →
      e = .jsonDecodeError) : FrameFits py validate s f := by
  have habsurd : ∀ {m : Dict} {t : PyStr} {p : Prop}, messageOf py f = some (m, t) → p := by
    intro m t p h
    rw [hnone] at h
    cases h
  exact ⟨htext, fun _ _ h => habsurd h, fun _ _ h => habsurd h, fun _ h => habsurd h, fun _ _ h => habsurd h,
    fun _ h => habsurd h⟩

theorem calm_iff_fits (validate : Validate) (hr : s.reader = .readLoop :: rest) (hstack : Stack s) (hhello : s.helloSeen = true)
    (hinv : Inv (config py max ready) s.tables s.engine.role) (hids : ∀ i ∈ s.tables.admitted, i < 2 ^ 64)
    (hid : frameId f < 2 ^ 64) :
    Calm (config py max ready) (handleFrame (config py max ready) s (command py validate f)) ↔
      FrameFits py validate s f := by
  obtain ⟨hf, -, -⟩ := hstack.reading hr
  unfold command
  cases hcontrol : isControl f with
  | false =>
    refine iff_of_true (calm_lit hr hf hid (by decide)) (fits_of_none (by simp [messageOf, hcontrol]) ?_)
    intro h
    rw [hcontrol] at h
    cases h
  | true =>
    cases hdecode : decodeControlPayload py f.payload with
    | error failure =>
      have hnone : messageOf py f = none := by simp [messageOf, hcontrol, hdecode]
      cases failure with
      | controlMessageError code text =>
        obtain ⟨hsend, htext⟩ := decode_refused hdecode
        exact iff_of_true (calm_lit hr hf (by decide) hsend) (fits_of_none hnone fun _ => htext)
      | other e =>
        obtain ⟨text, htext, hloads, hne⟩ := decode_other hdecode
        refine iff_of_false (fun h => ?_) fun h => hne (h.text hcontrol text htext e hloads)
        have hfatal : (unwind s).fatalError = false := h.fatal
        cases hfatal
    | ok result =>
      obtain ⟨m, messageType⟩ := result
      have hmessage : messageOf py f = some (m, messageType) := by simp [messageOf, hcontrol, hdecode]
      have hone : ∀ {m' : Dict} {t' : PyStr}, messageOf py f = some (m', t') → m' = m ∧ t' = messageType := by
        intro m' t' h
        rw [hmessage] at h
        cases h
        exact ⟨rfl, rfl⟩
      obtain ⟨text, htext, hloads⟩ := decode_message hdecode
      refine (calm_dispatch hr hstack hhello hinv hids hid (loads_ints hloads)).trans ⟨fun h => ?_, fun h => ?_⟩
      · obtain ⟨hunknown, hping, hsynthesize, hcancel, hshutdown⟩ := h
        refine ⟨fun _ text' htext' e he => ?_, fun m' t' h => ?_, fun m' v h => ?_, fun m' h => ?_, fun m' slot h => ?_,
          fun m' h => ?_⟩
        · rw [htext] at htext'
          cases htext'
          rw [hloads] at he
          cases he
        · obtain ⟨-, rfl⟩ := hone h
          exact hunknown
        · obtain ⟨rfl, htype⟩ := hone h
          exact fun hzero hv => hping htype.symm hzero v hv
        · obtain ⟨rfl, htype⟩ := hone h
          exact hsynthesize htype.symm
        · obtain ⟨-, htype⟩ := hone h
          exact hcancel htype.symm slot
        · obtain ⟨rfl, htype⟩ := hone h
          exact hshutdown htype.symm
      · refine ⟨h.unknownType m messageType hmessage, ?_, ?_, ?_, ?_⟩
        · rintro rfl hzero v hv
          exact h.ping m v hmessage hzero hv
        · rintro rfl
          exact h.synthesize m hmessage
        · rintro rfl slot hslot
          exact h.cancel m slot hmessage hslot
        · rintro rfl
          exact h.shutdown m hmessage

/-- A `synthesize` command has the id of its frame. -/
theorem command_synthesizes (h : Ev.synthesizes (.receive (command py validate f)) = some id) : id = frameId f := by
  unfold command at h
  split at h
  · cases h
  split at h
  · cases h
  · cases h
  · unfold dispatch at h
    repeat' split at h
    all_goals first
      | cases h
        done
      | skip
    cases h
    rfl

/-- Every admitted id came in the header of a frame. -/
theorem reach_ids64 (h : Reach (step (config py max ready)) (FromFrames py) init s) :
    ∀ i ∈ s.tables.admitted, i < 2 ^ 64 := by
  refine h.inv (I := fun s => ∀ i ∈ s.tables.admitted, i < 2 ^ 64) (fun _ hi => (List.not_mem_nil hi).elim) ?_
  intro s e s' _ hi hok hs i hmem
  rcases admitted_step hs with heq | ⟨id, hid, heq⟩
  · exact hi i (heq ▸ hmem)
  · rw [heq, List.mem_append, List.mem_singleton] at hmem
    rcases hmem with hmem | rfl
    · exact hi i hmem
    · cases e with
      | receive c =>
        obtain ⟨f, validate, hdelivered, rfl⟩ := hok
        rw [command_synthesizes hid]
        exact delivered_id hdelivered
      | eof => cases hid
      | reader => cases hid
      | engine e => cases hid

end Fits

/-- After `hello`, in every state of every run in which the reader is about to handle a frame
    of the parser, the frame is handled normally exactly when it fits. -/
theorem handle_frame_returns_iff (py : Interpreter) (maxAdmittedRequests : Nat) (ready : ReadyMessage) {s : St}
    (hreach : Reach (step (config py maxAdmittedRequests ready)) (FromFrames py) init s) (hhello : s.helloSeen = true)
    (hread : s.reader.head? = some .readLoop) (validate : Validate) {f : PyFrame} (hf : Delivered f) :
    HandlesNormally (config py maxAdmittedRequests ready) s (command py validate f) ↔ FrameFits py validate s f := by
  obtain ⟨rest, hr⟩ := List.head?_eq_some_iff.mp hread
  have hstack := reach_stack hreach
  have hinv := reach_inv hreach
  have hids := reach_ids64 hreach
  have hcalm := calm_iff_fits validate hr hstack hhello hinv hids (delivered_id hf)
  constructor
  · intro h
    refine hcalm.mp ((noEscape_iff_calm hr hstack hinv ?_ _).mp ?_)
    · intro i hi
      exact encodes_cancelled (hids i (hinv.admitted_of_physical (hinv.activePhysical i (hinv.pendingActive i hi))))
    · rintro ⟨es, s', hes, hafter, hfatal⟩
      rw [h.noEscape es s' hes hafter] at hfatal
      cases hfatal
  · intro h
    exact handlesNormally_of_calm hreach hr hhello (hcalm.mpr h)

/-! ## Two frames -/

def sampleServer : Config := config sampleInterpreter 4 (sampleConfig 4).ready

def helloFrame : PyFrame := controlFrame "\x7b\"message_type\":\"hello\"\x7d"

/-- Its `message_type` is a lone surrogate. -/
def surrogateFrame : PyFrame := controlFrame "\x7b\"message_type\":\"\\ud800\"\x7d"

/-- Its payload breaks off. -/
def brokenFrame : PyFrame := controlFrame "\x7b"

def parserHolding (f : PyFrame) : PyFrameParser := { buffer := headerStructPack f.header f.payload.length ++ f.payload }

/-- The session once `hello` was answered. -/
def greeted : St :=
  { helloSeen := true, readySent := true, handed := [⟨.reader, .ready (sampleConfig 4).ready⟩] }

theorem helloFrame_delivered : Delivered helloFrame := ⟨parserHolding helloFrame, by decide +kernel⟩

theorem command_helloFrame : command sampleInterpreter (fun _ => none) helloFrame = .hello 0 := by
  have h : (match command sampleInterpreter (fun _ => none) helloFrame with
      | .hello id => decide (id = 0)
      | _ => false) = true := by decide +kernel
  split at h
  · rename_i id hid
    rw [hid, of_decide_eq_true h]
  · cases h

theorem greeted_reach : Reach (step sampleServer) (FromFrames sampleInterpreter) init greeted := by
  have hready : sampleServer.encodes (.ready (sampleConfig 4).ready) = true := by decide +kernel
  refine .step .reader (.step (.receive (.hello 0)) .init ⟨_, _, helloFrame_delivered, command_helloFrame.symm⟩ rfl)
    trivial ?_
  show runAct sampleServer { greeted with handed := [] } (.send (.ready (sampleConfig 4).ready)) = _
  simp only [runAct, hready, if_true]
  rfl

/-- An unknown `message_type` that is a lone surrogate is echoed in an error that cannot be
    encoded, and ends the read loop. -/
theorem a_lone_surrogate_ends_the_read_loop :
    ∃ s f, Reach (step sampleServer) (FromFrames sampleInterpreter) init s ∧ s.helloSeen = true ∧
      s.reader.head? = some .readLoop ∧ Delivered f ∧
      ¬ HandlesNormally sampleServer s (command sampleInterpreter (fun _ => none) f) := by
  refine ⟨greeted, surrogateFrame, greeted_reach, rfl, rfl, ⟨parserHolding surrogateFrame, by decide +kernel⟩, ?_⟩
  intro h
  have hrun : (after (step sampleServer) (handleFrame sampleServer greeted (command sampleInterpreter (fun _ => none)
      surrogateFrame)) [.reader]).map (·.fatalError) = some true := by
    decide +kernel
  obtain ⟨s', hs', hfatal⟩ := Option.map_eq_some_iff.mp hrun
  rw [h.noEscape [.reader] s' (by simp [Ev.isThread]) hs'] at hfatal
  cases hfatal

/-- A payload that breaks off is answered. -/
theorem a_broken_payload_is_handled :
    HandlesNormally sampleServer greeted (command sampleInterpreter (fun _ => none) brokenFrame) := by
  refine (handle_frame_returns_iff sampleInterpreter 4 (sampleConfig 4).ready greeted_reach rfl rfl (fun _ => none)
    ⟨parserHolding brokenFrame, by decide +kernel⟩).mpr ?_
  have hnone : messageOf sampleInterpreter brokenFrame = none := by
    rw [← Option.isNone_iff_eq_none]
    decide +kernel
  refine fits_of_none hnone fun _ text htext e he => ?_
  have hpayload : Utf8.decode brokenFrame.payload = some [123] := by decide +kernel
  rw [hpayload, Option.some.injEq] at htext
  rw [← htext] at he
  have hloads : (match loads sampleInterpreter [123] with
      | .error e => decide (e = Exn.jsonDecodeError)
      | .ok _ => false) = true := by decide +kernel
  rw [he] at hloads
  exact of_decide_eq_true hloads

end QwenTtsBridge.Worker.PyServer
