/-
  QwenTtsBridge.Interop.Emitted — every frame that the Python worker hands to its writer, as the
  client decodes it.

  The worker's own texts always fit. What it takes from the engine, from a request and from a
  `ping` it passes on unchecked, so these decide (`Clear`): a trace without one of the
  client's fields, or an exception without a text, makes the client refuse the frame, which
  ends the session.

  Proved: `emitted_frames_are_understood` — over every interleaving of the two threads and
  every engine, in every run whose steps are clear.
-/

import QwenTtsBridge.Interop.Envelope
import QwenTtsBridge.Interop.Understood
import QwenTtsBridge.Worker.PyAdmission
import QwenTtsBridge.Worker.PyHandleFrame
import QwenTtsBridge.Worker.Queued

namespace QwenTtsBridge.Interop

open QwenTtsBridge.Lib QwenTtsBridge.Lib.Transition QwenTtsBridge.Python QwenTtsBridge.Protocol.Control
open QwenTtsBridge.Worker QwenTtsBridge.Worker.PyServer
open QwenTtsBridge.Protocol.Framing (PyFrame)

/-! ## Steps that are clear -/

/-- If the frame can be encoded, it fits. -/
def Due (cfg : PyServer.Config) (f : PyServer.OutFrame) : Prop := cfg.encodes f = true → Fits f

/-- A frame of the client: the sequence of a `ping` that is answered is an unsigned integer of 64
    bits, and a request that `validate_request` refuses is refused with a code and a text. -/
structure FrameClear (cfg : PyServer.Config) (py : Interpreter) (validate : Validate) (s : PyServer.St)
    (f : PyFrame) : Prop where
  sequence : ∀ message v, decodeControlPayload py f.payload = .ok (message, PyStr.lit "ping") →
    PyServer.frameId f = 0 → message.get? (PyStr.lit "sequence") = some v → Due cfg (.pong (some v))
  refusal : ∀ message request code text, decodeControlPayload py f.payload = .ok (message, PyStr.lit "synthesize") →
    PyServer.frameId f ≠ 0 → s.readySent = true → s.shutdownRequested = false →
    parseRequest py (PyServer.frameId f) message = .ok request → validate request = some (code, text) →
    Due cfg (.error (PyServer.frameId f) ⟨PyStr.lit "request_error", code, text⟩)

/-- An exception whose text, and code, are not empty. Other exceptions get a text of the worker's. -/
def ExceptionClear (cfg : PyServer.Config) : EngineError → Prop
  | .requestValidation code message => ∀ id, Due cfg (.error id ⟨PyStr.lit "request_error", code, message⟩)
  | .safetyLimit message =>
    ∀ id, Due cfg (.error id ⟨PyStr.lit "resource_error", PyStr.lit "safety_duration_limit", message⟩)
  | .sequenceCapacity message =>
    ∀ id, Due cfg (.error id ⟨PyStr.lit "resource_error", PyStr.lit "sequence_capacity_exceeded", message⟩)
  | .other _ | .base => True

def EngineClear (cfg : PyServer.Config) (s : PyServer.St) : PyServer.EngineEv → Prop
  | .described (some (.requestValidation code message)) => ExceptionClear cfg (.requestValidation code message)
  | .raises e => ExceptionClear cfg e
  | .trace t => ∀ id, Due cfg (.completed id t)
  -- the format of the request that is about to start
  | .next => ∀ id slot, s.engine = .sendStarted id → s.tables.slots id = some slot →
      Due cfg (.started id slot.request.output)
  | _ => True

def Clear (cfg : PyServer.Config) (py : Interpreter) (s : PyServer.St) : PyServer.Ev → Prop
  | .receive c => ∃ f validate, Delivered f ∧ c = command py validate f ∧ FrameClear cfg py validate s f
  | .engine e => EngineClear cfg s e
  | _ => True

/-! ## The worker's own texts -/

section Texts

variable {cfg : PyServer.Config} {py : Interpreter} {validate : Validate} {id : PyServer.RequestId} {m : Dict}

theorem voiced_lit {category code text : String}
    (h : PyStr.lit category ≠ [] ∧ PyStr.lit code ≠ [] ∧ PyStr.lit text ≠ []) : Voiced (.lit category code text) :=
  ⟨h.1, h.2.1, h.2.2⟩

/-- A check that stops with an error has a text for it. -/
def StopVoiced : Stop → Prop
  | .refused e => Voiced e
  | .raises => True

theorem refuse_voiced {α : Type} {code text : String} (h : PyStr.lit code ≠ [] ∧ PyStr.lit text ≠ []) :
    Ends (fun _ => True) StopVoiced (refuse code text : Except Stop α) :=
  voiced_lit ⟨by decide, h⟩

theorem parseFields_voiced : Ends (fun _ => True) StopVoiced (parseFields id m) := by
  unfold parseFields
  repeat' split
  all_goals first
    | trivial
    | exact refuse_voiced (by decide)

theorem parseSampling_voiced (v : Option Value) : Ends (fun _ => True) StopVoiced (parseSamplingOptions v) := by
  unfold parseSamplingOptions
  split
  · trivial
  · trivial
  · rename_i payload
    refine Ends.ite (fun _ => ?_) fun _ => Ends.ite (fun _ => refuse_voiced (by decide)) fun _ =>
      Ends.ite (fun _ => refuse_voiced (by decide)) fun _ => Ends.ite (fun _ => refuse_voiced (by decide)) fun _ => ?_
    · exact ⟨List.cons_ne_nil _ _, List.cons_ne_nil _ _, List.cons_ne_nil _ _⟩
    · split
      · trivial
      · exact Ends.ite (fun _ => refuse_voiced (by decide)) fun _ => trivial
  · exact refuse_voiced (by decide)

theorem outputPayload_voiced (v : Option Value) : Ends (fun _ => True) StopVoiced (outputPayload v) := by
  unfold outputPayload
  split
  · trivial
  · trivial
  · trivial
  · exact refuse_voiced (by decide)

theorem parseOutput_voiced (payload : Option Dict) : Ends (fun _ => True) StopVoiced (parseOutput py payload) := by
  unfold parseOutput
  split
  · trivial
  · exact Ends.ite (fun _ => refuse_voiced (by decide)) fun _ => trivial

theorem parseRequest_voiced : Ends (fun _ => True) StopVoiced (parseRequest py id m) := by
  refine parseFields_voiced.bind fun _ _ => ?_
  refine (parseSampling_voiced _).bind fun _ _ => ?_
  refine (outputPayload_voiced _).bind fun _ _ => ?_
  exact (parseOutput_voiced _).bind fun _ _ => trivial

theorem decodeControlPayload_voiced {payload : List UInt8} {code text : String}
    (h : decodeControlPayload py payload = .error (.controlMessageError code text)) :
    PyStr.lit code ≠ [] ∧ PyStr.lit text ≠ [] := by
  unfold decodeControlPayload at h
  split at h
  · cases h
    decide
  split at h
  · cases h
    decide
  · cases h
  · split at h
    · cases h
      decide
    · split at h
      all_goals first
        | cases h
          done
        | cases h
          decide
  · cases h
    decide

/-- What a command leaves to be said, given the session's state. -/
def CommandClear (cfg : PyServer.Config) (s : PyServer.St) : Command → Prop
  | .refused _ e => Voiced e
  | .ping id (some v) => id = 0 → Due cfg (.pong (some v))
  | .synthesize id (.refused e) =>
    id ≠ 0 → s.readySent = true → s.shutdownRequested = false → Due cfg (.error id e)
  | _ => True

theorem parsed_clear {s : PyServer.St} (hrefusal : ∀ request code text, id ≠ 0 → s.readySent = true →
      s.shutdownRequested = false → parseRequest py id m = .ok request → validate request = some (code, text) →
      Due cfg (.error id ⟨PyStr.lit "request_error", code, text⟩)) :
    CommandClear cfg s (.synthesize id (parseSynthesisRequest py validate id m)) := by
  have hvoiced : Ends (fun _ => True) StopVoiced (parseRequest py id m) := parseRequest_voiced
  unfold parseSynthesisRequest
  split
  · trivial
  · rename_i e hstop
    exact fun _ _ _ _ => hvoiced.failure hstop
  · rename_i request hrequest
    split
    · trivial
    · rename_i code text hinvalid
      exact fun hid hready hshutdown => hrefusal request code text hid hready hshutdown hrequest hinvalid

theorem command_clear {s : PyServer.St} {f : PyFrame} (h : FrameClear cfg py validate s f) :
    CommandClear cfg s (command py validate f) := by
  unfold command
  split
  · exact voiced_lit (by decide)
  split
  · rename_i code text herror
    exact voiced_lit ⟨by decide, decodeControlPayload_voiced herror⟩
  · trivial
  rename_i message messageType hdecode
  unfold dispatch
  split
  · exact ⟨List.cons_ne_nil _ _, List.cons_ne_nil _ _, List.cons_ne_nil _ _⟩
  split
  · trivial
  split
  · rename_i hping
    subst hping
    cases hsequence : message.get? (PyStr.lit "sequence") with
    | none => trivial
    | some v => exact fun hid => h.sequence message v hdecode hid hsequence
  split
  · rename_i hsynthesize
    subst hsynthesize
    exact parsed_clear fun request code text hid hready hshutdown hrequest hinvalid =>
      h.refusal message request code text hdecode hid hready hshutdown hrequest hinvalid
  split
  · trivial
  · trivial

end Texts

/-! ## What is still to be sent -/

def AnswerDue (cfg : PyServer.Config) : PyServer.EnginePc → Prop
  | .terminalize id (.failed e) => Due cfg (.error id e)
  | .sendTerminal id answer => Due cfg (answer.frame id)
  | _ => True

structure Speaks (cfg : PyServer.Config) (s : PyServer.St) : Prop where
  handed : ∀ h ∈ s.handed, cfg.encodes h.frame = true ∧ Fits h.frame
  reader : ∀ f, .send f ∈ s.reader → Due cfg f
  engine : AnswerDue cfg s.engine

/-- The reader has new frames to send, and the engine thread may be woken. -/
structure Adds (cfg : PyServer.Config) (s s' : PyServer.St) : Prop where
  handed : s'.handed = s.handed
  engine : s'.engine = s.engine ∨ s'.engine = .take
  reader : ∀ f, .send f ∈ s'.reader → .send f ∈ s.reader ∨ Due cfg f

section Adds

variable {cfg : PyServer.Config} {s s' : PyServer.St} {id : PyServer.RequestId}

theorem Speaks.adds (h : Speaks cfg s) (ha : Adds cfg s s') : Speaks cfg s' where
  handed := by
    rw [ha.handed]
    exact h.handed
  reader f hf := by
    rcases ha.reader f hf with hf | hf
    · exact h.reader f hf
    · exact hf
  engine := by
    rcases ha.engine with he | he
    · rw [he]
      exact h.engine
    · rw [he]
      trivial

theorem adds_same (hh : s'.handed = s.handed) (he : s'.engine = s.engine) (hr : ∀ f, .send f ∈ s'.reader → .send f ∈ s.reader) :
    Adds cfg s s' := ⟨hh, .inl he, fun f hf => .inl (hr f hf)⟩

theorem adds_refl (s : PyServer.St) : Adds cfg s s := adds_same rfl rfl fun _ hf => hf

theorem Adds.notifyAll (h : Adds cfg s s') : Adds cfg s (PyServer.notifyAll s') where
  handed := by
    rw [notifyAll_handed]
    exact h.handed
  engine := by
    have he := h.engine
    unfold PyServer.notifyAll
    split
    · exact .inr rfl
    · exact he
  reader := by
    rw [notifyAll_reader]
    exact h.reader

theorem Adds.push {acts : List PyServer.Act} (h : Adds cfg s s') (hacts : ∀ f, .send f ∈ acts → Due cfg f) :
    Adds cfg s (PyServer.push s' acts) where
  handed := h.handed
  engine := h.engine
  reader f hf := by
    rcases List.mem_append.mp hf with hf | hf
    · exact .inr (hacts f hf)
    · exact h.reader f hf

theorem Adds.send {f : PyServer.OutFrame} (h : Adds cfg s s') (hf : Due cfg f) : Adds cfg s (PyServer.push s' [.send f]) := by
  refine h.push fun g hg => ?_
  cases List.mem_singleton.mp hg
  exact hf

theorem Adds.error {e : PyServer.ErrorMessage} (h : Adds cfg s s') (he : Voiced e) : Adds cfg s (sendError s' id e) :=
  h.send fun _ => he

theorem adds_unwind (s : PyServer.St) : Adds cfg s (unwind s) :=
  adds_same rfl rfl fun _ hf => List.mem_of_mem_filter hf

/-- The acts of a handler that ends a request with `cancelled`. -/
theorem due_of_cancel {acts : List PyServer.Act} (hacts : acts ⊆ [.emitFinished id, .send (.cancelled id), .returned [id]]) :
    ∀ f, .send f ∈ acts → Due cfg f := by
  intro f hf
  have hmem := hacts hf
  simp only [List.mem_cons, List.not_mem_nil, or_false, reduceCtorEq, false_or, PyServer.Act.send.injEq] at hmem
  rw [hmem]
  exact fun _ => trivial

theorem hello_adds (hready : Due cfg (.ready cfg.ready)) (s : PyServer.St) (id : PyServer.RequestId) :
    Adds cfg s (handleHello cfg s id) := by
  unfold handleHello
  split
  · exact (adds_refl s).error (voiced_lit (by decide))
  · have hflags : Adds cfg s { s with helloSeen := true, readySent := true } := adds_same rfl rfl fun _ hf => hf
    exact hflags.send hready

theorem ping_adds {sequence : Option Value} (h : CommandClear cfg s (.ping id sequence)) :
    Adds cfg s (handlePing s id sequence) := by
  unfold handlePing
  split
  · exact (adds_refl s).error (voiced_lit (by decide))
  · rename_i hid
    refine (adds_refl s).send ?_
    cases sequence with
    | none => exact fun _ => trivial
    | some v => exact h (not_not.mp hid)

theorem admission_adds (hmax : cfg.maxAdmittedRequests ≤ 65536) {role : Role} (hinv : PyServer.Inv cfg s.tables role)
    (request : SynthesisRequest) : Adds cfg s (admission cfg s id request) := by
  unfold admission
  split
  · exact (adds_refl s).error (voiced_lit (by decide))
  split
  · exact (adds_refl s).error (voiced_lit (by decide))
  · have hlength : (s.tables.accept id request).pending.length = s.tables.pending.length + 1 := by
      simp [PyServer.Tables.accept]
    have hpending : s.tables.pending.length ≤ s.tables.physical.length :=
      (hinv.pendingNodup.subperm fun i hi => hinv.activePhysical i (hinv.pendingActive i hi)).length_le
    have hbound := hinv.bound
    have htables : Adds cfg s { s with tables := s.tables.accept id request } := adds_same rfl rfl fun _ hf => hf
    refine htables.push fun f hf => ?_
    simp only [List.mem_cons, List.not_mem_nil, or_false, reduceCtorEq, PyServer.Act.send.injEq] at hf
    rw [hf]
    intro _
    refine ⟨?_, ?_⟩
    · omega
    · omega

theorem synthesize_adds (hmax : cfg.maxAdmittedRequests ≤ 65536) {role : Role} (hinv : PyServer.Inv cfg s.tables role)
    {parsed : Parsed} (h : CommandClear cfg s (.synthesize id parsed)) (hready : s.readySent = true) :
    Adds cfg s (handleSynthesize cfg s id parsed) := by
  unfold handleSynthesize
  split
  · exact (adds_refl s).error (voiced_lit (by decide))
  rename_i hshutdown
  split
  · exact (adds_refl s).error (voiced_lit (by decide))
  rename_i hid
  split
  · exact adds_unwind s
  · rename_i e
    exact (adds_refl s).send (h hid hready (by simpa using hshutdown))
  · exact admission_adds hmax hinv _

theorem cancel_adds (s : PyServer.St) (id : PyServer.RequestId) : Adds cfg s (PyServer.handleCancel s id) := by
  have htables : ∀ t : PyServer.Tables, Adds cfg s (PyServer.notifyAll { s with tables := t }) :=
    fun t => (adds_same rfl rfl fun _ hf => hf : Adds cfg s { s with tables := t }).notifyAll
  unfold PyServer.handleCancel
  split
  · exact (adds_refl s).error (voiced_lit (by decide))
  split
  · split
    · exact (adds_refl s).notifyAll.error (voiced_lit (by decide))
    · exact (adds_refl s).notifyAll
  split
  · split
    · exact (htables _).push (due_of_cancel fun _ ha => ha)
    · exact htables _
  · dsimp only
    split
    · exact htables _
    · exact (htables _).push (due_of_cancel (List.cons_subset_cons _ (List.cons_subset_cons _ (List.nil_subset _))))

theorem handleFrame_adds (hready : Due cfg (.ready cfg.ready)) (hmax : cfg.maxAdmittedRequests ≤ 65536) {role : Role}
    (hinv : PyServer.Inv cfg s.tables role) {c : Command} (hc : CommandClear cfg s c) :
    Adds cfg s (PyServer.handleFrame cfg s c) := by
  cases c with
  | refused id e => exact (adds_refl s).error hc
  | raises => exact adds_unwind s
  | hello id => exact hello_adds hready s id
  | ping id sequence => exact ping_adds hc
  | synthesize id parsed =>
    simp only [PyServer.handleFrame]
    split
    · exact (adds_refl s).error (voiced_lit (by decide))
    · rename_i hsent
      exact synthesize_adds hmax hinv hc (by simpa using hsent)
  | cancel id =>
    simp only [PyServer.handleFrame]
    split
    · exact (adds_refl s).error (voiced_lit (by decide))
    · exact cancel_adds s id
  | shutdown id modeIsCancel =>
    simp only [PyServer.handleFrame, PyServer.handleShutdown]
    split
    · exact (adds_refl s).error (voiced_lit (by decide))
    split
    · exact (adds_refl s).error (voiced_lit (by decide))
    · refine adds_same rfl rfl fun f hf => ?_
      rcases List.mem_cons.mp hf with hf | hf
      · cases hf
      · exact List.mem_of_mem_tail hf

theorem requestShutdown_adds (s : PyServer.St) (sendAck : Bool) : Adds cfg s (PyServer.requestShutdown s sendAck) := by
  unfold PyServer.requestShutdown
  split
  · exact (adds_same rfl rfl fun _ hf => hf : Adds cfg s { s with
      shutdownAckNeeded := s.shutdownAckNeeded || sendAck, shutdownTerminalEventsEnqueued := true }).notifyAll
  · refine Adds.push ?_ fun f hf => ?_
    · exact adds_same rfl rfl fun _ hf => hf
    · rcases List.mem_append.mp hf with hf | hf
      · obtain ⟨id, _, hid⟩ := List.mem_flatMap.mp hf
        have hsubset : [PyServer.Act.emitFinished id, .send (.cancelled id)] ⊆
            [.emitFinished id, .send (.cancelled id), .returned [id]] :=
          List.cons_subset_cons _ (List.cons_subset_cons _ (List.nil_subset _))
        exact due_of_cancel hsubset f hid
      · simp at hf

end Adds

/-! ## Runs -/

section Runs

variable {cfg : PyServer.Config} {s s' : PyServer.St}

theorem Speaks.drop {act : PyServer.Act} {rest : List PyServer.Act} (h : Speaks cfg s) (hr : s.reader = act :: rest) :
    Speaks cfg { s with reader := rest } := by
  refine h.adds (adds_same rfl rfl fun f hf => ?_)
  rw [hr]
  exact List.mem_cons_of_mem _ hf

theorem Speaks.hand {f : PyServer.OutFrame} (h : Speaks cfg s) (th : PyServer.Thread) (hencodes : cfg.encodes f = true)
    (hf : Fits f) : Speaks cfg (PyServer.hand s th f) where
  handed x hx := by
    rcases List.mem_append.mp hx with hx | hx
    · exact h.handed x hx
    · rw [List.mem_singleton.mp hx]
      exact ⟨hencodes, hf⟩
  reader := h.reader
  engine := h.engine

theorem Speaks.runAct {act : PyServer.Act} {rest : List PyServer.Act} (h : Speaks cfg s) (hr : s.reader = act :: rest)
    (hs : PyServer.runAct cfg { s with reader := rest } act = some s') : Speaks cfg s' := by
  have hdrop := h.drop hr
  cases act with
  | readLoop => cases hs
  | send f =>
    have hdue : Due cfg f := h.reader f (by rw [hr]; exact List.mem_cons_self)
    simp only [PyServer.runAct] at hs
    split at hs
    · rename_i hencodes
      cases hs
      exact hdrop.hand .reader hencodes (hdue hencodes)
    · cases hs
      have hpushed : Adds cfg { s with reader := rest } (PyServer.push { s with reader := rest } [.send f]) :=
        (adds_refl _).send hdue
      exact (hdrop.adds hpushed).adds (adds_unwind _)
  | emitFinished id =>
    simp only [PyServer.runAct] at hs
    split at hs
    · cases hs
      exact hdrop.adds (adds_unwind _)
    · cases hs
      exact hdrop
  | notifyAll =>
    cases hs
    exact hdrop.adds (adds_refl _).notifyAll
  | requestShutdown sendAck =>
    cases hs
    exact hdrop.adds (requestShutdown_adds _ sendAck)
  | shutdownTerminalEventsEnqueued =>
    cases hs
    exact hdrop.adds (adds_same rfl rfl fun _ hf => hf : Adds cfg { s with reader := rest }
      { s with reader := rest, shutdownTerminalEventsEnqueued := true }).notifyAll
  | returned ids =>
    cases hs
    exact hdrop.adds (adds_same rfl rfl fun _ hf => hf)

/-- The engine thread moves on without a frame. -/
theorem Speaks.move (h : Speaks cfg s) (hh : s'.handed = s.handed) (hr : s'.reader = s.reader)
    (he : AnswerDue cfg s'.engine) : Speaks cfg s' where
  handed := by
    rw [hh]
    exact h.handed
  reader := by
    rw [hr]
    exact h.reader
  engine := he

theorem synthesisFailed_voiced (text : PyStr) : Voiced (synthesisFailed text) := by
  refine ⟨List.cons_ne_nil _ _, List.cons_ne_nil _ _, ?_⟩
  change (if text.isEmpty then _ else text) ≠ []
  split
  · exact List.cons_ne_nil _ _
  · rename_i hne
    simpa using hne

theorem onException_due {id : PyServer.RequestId} {e : EngineError} (h : ExceptionClear cfg e) :
    AnswerDue cfg (onException id e) := by
  cases e with
  | requestValidation code message => exact h id
  | safetyLimit message => exact h id
  | sequenceCapacity message => exact h id
  | other message => trivial
  | base => trivial

theorem Speaks.takeNextRequest (h : Speaks cfg s) : Speaks cfg (PyServer.takeNextRequest s) := by
  unfold PyServer.takeNextRequest
  split
  · split
    · exact h.move rfl rfl trivial
    · exact h.move rfl rfl trivial
  · dsimp only
    split
    · exact h.move rfl rfl trivial
    · exact h.move rfl rfl trivial

theorem Speaks.finishCancelled (h : Speaks cfg s) (id : PyServer.RequestId) :
    Speaks cfg (PyServer.finishCancelled s id) := by
  unfold PyServer.finishCancelled
  dsimp only
  split
  · exact h.move rfl rfl trivial
  · exact h.move rfl rfl fun _ => trivial

theorem Speaks.next (h : Speaks cfg s) (hack : cfg.encodes .shutdownAck = true) (hclear : EngineClear cfg s .next)
    (hs : PyServer.stepEngine cfg s .next = some s') : Speaks cfg s' := by
  simp only [PyServer.stepEngine] at hs
  split at hs
  · cases hs
    exact h.takeNextRequest
  · cases hs
    refine h.move rfl rfl ?_
    change AnswerDue cfg (if _ then _ else _)
    split <;> trivial
  · rename_i id hpc
    split at hs
    · cases hs
    · rename_i slot hslot
      split at hs
      · rename_i hencodes
        cases hs
        have hfits : Fits (.started id slot.request.output) := hclear id slot hpc hslot hencodes
        exact (h.hand .engine hencodes hfits).move rfl rfl trivial
      · cases hs
        exact h.move rfl rfl trivial
  · cases hs
    refine h.move rfl rfl ?_
    change AnswerDue cfg (if _ then _ else if _ then _ else _)
    split
    · trivial
    · split <;> trivial
  · cases hs
    refine h.move rfl rfl ?_
    change AnswerDue cfg (if _ then _ else _)
    split <;> trivial
  · rename_i id pcm hpc
    split at hs
    · rename_i bytes hbytes
      cases hs
      have hencodes : cfg.encodes (.audioPcm id pcm) = true := by
        unfold PyServer.Config.encodes
        rw [hbytes]
      exact (h.hand .engine hencodes trivial).move rfl rfl trivial
    · cases hs
      exact h.move rfl rfl trivial
  · cases hs
    refine h.move rfl rfl ?_
    change AnswerDue cfg (if _ then _ else _)
    split
    · trivial
    · exact fun _ => synthesisFailed_voiced _
  · cases hs
    refine h.move rfl rfl ?_
    change AnswerDue cfg (if _ then _ else _)
    split <;> trivial
  · rename_i id outcome hpc
    cases hs
    have hdue := h.engine
    rw [hpc] at hdue
    cases outcome with
    | completed => exact h.move rfl rfl trivial
    | failed e => exact h.move rfl rfl hdue
  · cases hs
    exact h.finishCancelled _
  · rename_i id answer hpc
    have hdue := h.engine
    rw [hpc] at hdue
    split at hs
    · cases hs
      exact h.move rfl rfl trivial
    · rename_i hsends
      simp only [Bool.or_eq_true, Bool.not_eq_true', not_or, Bool.not_eq_false] at hsends
      cases hs
      exact (h.hand .engine hsends.2 (hdue hsends.2)).move rfl rfl trivial
  · cases hs
    refine h.move rfl rfl ?_
    change AnswerDue cfg (if _ then _ else _)
    split <;> trivial
  · cases hs
    exact (h.hand .engine hack trivial).move rfl rfl trivial
  · cases hs

theorem Speaks.stepEngine {e : PyServer.EngineEv} (h : Speaks cfg s) (hack : cfg.encodes .shutdownAck = true)
    (hclear : EngineClear cfg s e) (hs : PyServer.stepEngine cfg s e = some s') : Speaks cfg s' := by
  cases e with
  | next => exact h.next hack hclear hs
  | described error =>
    simp only [PyServer.stepEngine] at hs
    split at hs
    · cases hs
      rcases error with _ | _ | _ | _ | _ | _
      · exact h.move rfl rfl trivial
      · exact h.move rfl rfl (onException_due (e := .requestValidation _ _) hclear)
      · exact h.move rfl rfl trivial
      · exact h.move rfl rfl trivial
      · exact h.move rfl rfl trivial
      · exact h.move rfl rfl trivial
    · cases hs
  | yields pcm =>
    simp only [PyServer.stepEngine] at hs
    split at hs
    · cases hs
      exact h.move rfl rfl trivial
    · cases hs
  | ends =>
    simp only [PyServer.stepEngine] at hs
    split at hs
    · cases hs
      exact h.move rfl rfl trivial
    · cases hs
  | raises error =>
    simp only [PyServer.stepEngine] at hs
    split at hs
    · cases hs
      exact h.move rfl rfl (onException_due hclear)
    · cases hs
      exact h.move rfl rfl (onException_due hclear)
    · cases hs
  | trace t =>
    simp only [PyServer.stepEngine] at hs
    split at hs
    · rename_i id hpc
      cases hs
      exact h.move rfl rfl (hclear id)
    · cases hs
  | traceRaises =>
    simp only [PyServer.stepEngine] at hs
    split at hs
    · cases hs
      exact h.move rfl rfl trivial
    · cases hs

theorem Speaks.step {py : Interpreter} {e : PyServer.Ev} (h : Speaks cfg s) (hready : Due cfg (.ready cfg.ready))
    (hmax : cfg.maxAdmittedRequests ≤ 65536) (hack : cfg.encodes .shutdownAck = true)
    (hinv : PyServer.Inv cfg s.tables s.engine.role) (hclear : Clear cfg py s e) (hs : PyServer.step cfg s e = some s') :
    Speaks cfg s' := by
  cases e with
  | receive c =>
    obtain ⟨f, validate, _, rfl, hframe⟩ := hclear
    simp only [PyServer.step] at hs
    split at hs
    · cases hs
      exact h.adds (handleFrame_adds hready hmax hinv (command_clear hframe))
    · cases hs
  | eof =>
    simp only [PyServer.step] at hs
    split at hs
    · rename_i rest hr
      cases hs
      exact h.drop hr
    · cases hs
  | reader =>
    simp only [PyServer.step] at hs
    split at hs
    · rename_i act rest hr
      exact h.runAct hr hs
    · cases hs
  | engine e => exact h.stepEngine hack hclear hs

end Runs

theorem encodes_shutdownAck (py : Interpreter) (maxAdmittedRequests : Nat) (ready : PyServer.ReadyMessage) :
    (config py maxAdmittedRequests ready).encodes .shutdownAck = true := by
  rw [encodes_iff]
  refine (encodes_json_iff 0 (by decide)).mpr ⟨nestsWithin_flat rfl, ?_, by decide, by decide⟩
  intro n hn
  simp [Value.ints, message, fieldsInts] at hn

theorem reach_speaks {py : Interpreter} {maxAdmittedRequests : Nat} {ready : PyServer.ReadyMessage} {s : PyServer.St}
    (hmax : maxAdmittedRequests ≤ 65536) (hready : Due (config py maxAdmittedRequests ready) (.ready ready))
    (h : Reach (PyServer.step (config py maxAdmittedRequests ready)) (Clear (config py maxAdmittedRequests ready) py)
      PyServer.init s) : Speaks (config py maxAdmittedRequests ready) s := by
  have hinit : Speaks (config py maxAdmittedRequests ready) PyServer.init := by
    refine ⟨fun x hx => (List.not_mem_nil hx).elim, fun f hf => ?_, trivial⟩
    simp [PyServer.init] at hf
  refine h.inv (I := Speaks (config py maxAdmittedRequests ready)) hinit ?_
  · intro s e s' hreach hspeaks hclear hs
    exact hspeaks.step hready hmax (encodes_shutdownAck py maxAdmittedRequests ready) (reach_inv hreach) hclear hs

/-- Every frame handed to the writer is accepted by the client's decoder of its type, in every run
    whose steps are clear, when the client's library reads its text. -/
theorem emitted_frames_are_understood (lib : JsonLibrary) (py : Interpreter) {maxAdmittedRequests : Nat}
    (hmax : maxAdmittedRequests ≤ 65536) {ready : PyServer.ReadyMessage}
    (hready : Due (config py maxAdmittedRequests ready) (.ready ready)) {s : PyServer.St}
    (h : Reach (PyServer.step (config py maxAdmittedRequests ready)) (Clear (config py maxAdmittedRequests ready) py)
      PyServer.init s) :
    ∀ x ∈ s.handed, (∀ d, payload? x.frame = some d → Reads lib d) → Understood lib py x.frame := by
  intro x hx hreads
  obtain ⟨hencodes, hfits⟩ := (reach_speaks hmax hready h).handed x hx
  obtain ⟨bytes, hbytes⟩ := encodes_iff.mp hencodes
  exact understood_of_fits hbytes hreads hfits

/-! ## Two runs -/

/-- The `ready` of a worker with one voice. -/
def readyMessage : PyServer.ReadyMessage where
  workerVersion := PyStr.lit "0.2.0"
  sessionId := PyStr.lit "5f3e"
  warmedUp := true
  capabilities := ⟨true, true, true, true, true, true, true, true⟩
  voiceIds := [PyStr.lit "anna"]

def server : PyServer.Config := config sampleInterpreter 4 readyMessage

theorem readyMessage_fits : Due server (.ready readyMessage) := fun _ => ⟨by decide, by decide, by decide⟩

/-- The session once `hello` was answered. -/
def openSession : PyServer.St :=
  { helloSeen := true, readySent := true, handed := [⟨.reader, .ready readyMessage⟩] }

/-- Request 1 is admitted. -/
def requested : PyServer.St :=
  PyServer.handleFrame server openSession (command sampleInterpreter (fun _ => none) synthesizeFrame)

/-- The type of the frame's message is `ping`. -/
def isPing (f : PyFrame) : Bool :=
  match decodeControlPayload sampleInterpreter f.payload with
  | .ok (_, type) => type == PyStr.lit "ping"
  | .error _ => false

/-- A frame that is no `ping` is clear where the engine refuses nothing. -/
theorem frameClear {s : PyServer.St} {f : PyFrame} (h : isPing f = false) :
    FrameClear server sampleInterpreter (fun _ => none) s f := by
  constructor
  · intro message v hdecode
    unfold isPing at h
    rw [hdecode] at h
    cases h
  · intro message request code text _ _ _ _ _ hrefused
    cases hrefused

theorem requested_reach : Reach (PyServer.step server) (Clear server sampleInterpreter) PyServer.init requested := by
  have hready : server.encodes (.ready readyMessage) = true := by decide +kernel
  have hopen : Reach (PyServer.step server) (Clear server sampleInterpreter) PyServer.init openSession := by
    refine .step .reader (.step (.receive (.hello 0)) .init ⟨_, _, helloFrame_delivered, command_helloFrame.symm,
      frameClear (by decide +kernel)⟩ rfl) trivial ?_
    show PyServer.runAct server { openSession with handed := [] } (.send (.ready readyMessage)) = _
    simp only [PyServer.runAct, hready, if_true]
    rfl
  exact .step (.receive _) hopen ⟨synthesizeFrame, fun _ => none, ⟨parserHolding synthesizeFrame, by decide +kernel⟩, rfl,
    frameClear (by decide +kernel)⟩ rfl

/-- Request 1 is announced and started, and the engine has no more audio. -/
def streamOne : List PyServer.Ev :=
  [.reader, .reader] ++ PyServer.startOne ++ [.engine .ends, .engine .next, .engine .next]

/-- What the threads do while they hand on nothing of the engine's; a request that starts has the
    default format. -/
def isPlainStep (s : PyServer.St) : PyServer.Ev → Bool
  | .reader => true
  | .engine .next =>
    match s.engine with
    | .sendStarted id => (s.tables.slots id).all fun slot => slot.request.output == {}
    | _ => true
  | .engine (.described none) | .engine .ends => true
  | _ => false

theorem clear_of_isPlainStep {s : PyServer.St} {e : PyServer.Ev} (h : isPlainStep s e = true) :
    Clear server sampleInterpreter s e := by
  unfold isPlainStep at h
  split at h
  · trivial
  · intro id slot hpc hslot _
    rw [hpc] at h
    simp only [hslot, Option.all_some, beq_iff_eq] at h
    rw [h]
    exact ⟨by decide, by decide, by decide⟩
  · trivial
  · trivial
  · cases h

/-- The trace of a backend that reports every field. -/
def fullTrace : Dict :=
  [(PyStr.lit "termination_reason", .str (PyStr.lit "eos")), (PyStr.lit "hit_eos", .bool true),
    (PyStr.lit "hit_max_seq_len", .bool false), (PyStr.lit "hit_max_new_tokens", .bool false),
    (PyStr.lit "codec_frame_count", .int 25), (PyStr.lit "generated_steps", .int 26),
    (PyStr.lit "emitted_steps", .int 25), (PyStr.lit "terminal_step_index", .int 25)]

theorem fullTrace_fits : TraceFits fullTrace where
  portable := by
    have hcount : ∀ n ∈ [(25 : Int), 26], Portable (.int n) := by
      intro n hn
      have hmax := lt_floatOverflow
      have hsmall : 0 ≤ n ∧ n ≤ 26 := by
        simp only [List.mem_cons, List.not_mem_nil, or_false] at hn
        omega
      constructor <;> omega
    exact ⟨by decide, trivial, trivial, trivial, trivial, hcount 25 (by decide), hcount 26 (by decide),
      hcount 25 (by decide), hcount 25 (by decide), trivial⟩
  reason := ⟨_, rfl⟩
  flags := by
    intro name hname
    simp only [List.mem_cons, List.not_mem_nil, or_false] at hname
    rcases hname with rfl | rfl | rfl
    · exact ⟨true, rfl⟩
    · exact ⟨false, rfl⟩
    · exact ⟨false, rfl⟩
  counts := by
    intro name hname
    simp only [List.mem_cons, List.not_mem_nil, or_false] at hname
    rcases hname with rfl | rfl | rfl | rfl
    · exact ⟨_, rfl, 25, rfl, by decide, by decide⟩
    · exact ⟨_, rfl, 26, rfl, by decide, by decide⟩
    · exact ⟨_, rfl, 25, rfl, by decide, by decide⟩
    · exact ⟨_, rfl, 25, rfl, by decide, by decide⟩

/-- The text of a frame's payload. -/
def textOf (f : PyServer.OutFrame) : Option CppString := (payload? f).bind fun d => Utf8.encode (Value.dict d).jsonText

/-- A library that knows the texts of these frames. -/
def hearing (table : List (PyServer.OutFrame × ControlMessage)) : JsonLibrary :=
  { JsonLibrary.reading [] with
    parse := fun text =>
      match table.find? fun p => textOf p.1 == some text with
      | some p => .ok (.object (controlMessageToJson p.2))
      | none => .error (.parseError (CppString.lit "syntax error")) }

theorem hearing_canonical {table : List (PyServer.OutFrame × ControlMessage)}
    (hvalid : ∀ p ∈ table, validateControlMessage p.2 = .ok ()) {text : CppString} {v : Json}
    (h : (hearing table).parse text = .ok v) : v.Canonical := by
  simp only [hearing] at h
  split at h
  · rename_i p hp
    cases h
    exact canonical_toJson (hvalid p (List.mem_of_find?_eq_some hp))
  · cases h

/-- The library reads the frame's payload for what it is. -/
def isHeard (lib : JsonLibrary) (f : PyServer.OutFrame) : Bool :=
  match payload? f, (textOf f).map lib.parse with
  | some d, some (.ok v) => denotes? v (.dict d)
  | some _, some (.error _) => false
  | _, _ => true

theorem reads_of_isHeard {lib : JsonLibrary} (hlib : ∀ text v, lib.parse text = .ok v → v.Canonical)
    {f : PyServer.OutFrame} (h : isHeard lib f = true) : ∀ d, payload? f = some d → Reads lib d := by
  intro d hd bytes hbytes _
  have htext : textOf f = some bytes := by
    unfold textOf
    rw [hd]
    exact hbytes
  unfold isHeard at h
  rw [hd, htext, Option.map_some] at h
  cases hparse : lib.parse bytes with
  | error e =>
    rw [hparse] at h
    cases h
  | ok v =>
    rw [hparse] at h
    exact ⟨v, rfl, hlib _ _ hparse, denotes_of_eval h⟩

/-- What the worker writes, with what the client's library makes of it. -/
def spoken : List (PyServer.OutFrame × ControlMessage) :=
  [(.ready readyMessage, .ready
      { workerVersion := .lit "0.2.0", sessionId := .lit "5f3e", hasWarmedUp := true, warmedUp := true
        capabilities := ⟨true, true, true, true, true, true, true, true⟩, voiceIds := [.lit "anna"] }),
    (.queued 1 1, .queued true 1),
    (.started 1 {}, .started {}),
    (.completed 1 (some fullTrace), .completed
      { hasExecutionOutcome := true, executionOutcome := .lit "completed", hasGenerationTrace := true
        generationTrace :=
          { terminationReason := .lit "eos", hitEos := true, codecFrameCount := 25, generatedSteps := 26
            emittedSteps := 25, terminalStepIndex := 25 } })]

theorem spoken_valid : ∀ p ∈ spoken, validateControlMessage p.2 = .ok () := by
  intro p hp
  simp only [spoken, List.mem_cons, List.not_mem_nil, or_false] at hp
  rcases hp with rfl | rfl | rfl | rfl <;> rfl

def isPopTrace : PyServer.EnginePc → Bool
  | .popTrace 1 => true
  | _ => false

theorem eq_of_isPopTrace {pc : PyServer.EnginePc} (h : isPopTrace pc = true) : pc = .popTrace 1 := by
  unfold isPopTrace at h
  split at h
  · rfl
  · cases h

/-- The engine's trace is that of request 1, and `completed` follows. -/
theorem completed_reach {s : PyServer.St} (hs : Reach (PyServer.step server) (Clear server sampleInterpreter) PyServer.init s)
    (hpc : s.engine = .popTrace 1) (hraises : PyServer.emitFinishedRaises s 1 = false) :
    ∃ s', Reach (PyServer.step server) (Clear server sampleInterpreter) PyServer.init s' ∧
      s'.handed = s.handed ++ [⟨.engine, .completed 1 (some fullTrace)⟩] := by
  have hencodes : server.encodes (.completed 1 (some fullTrace)) = true := by decide +kernel
  have htraced : Reach (PyServer.step server) (Clear server sampleInterpreter) PyServer.init
      (PyServer.goto s (.sendTerminal 1 (.completed (some fullTrace)))) := by
    refine .step (.engine (.trace (some fullTrace))) hs (fun _ _ => fullTrace_fits) ?_
    simp only [PyServer.step, PyServer.stepEngine, hpc]
  refine ⟨{ PyServer.hand s .engine (.completed 1 (some fullTrace)) with engine := .take, settled := s.settled ++ [1] },
    .step (.engine .next) htraced (fun _ _ hstart => by cases hstart) ?_, rfl⟩
  have hkept : PyServer.emitFinishedRaises (PyServer.goto s (.sendTerminal 1 (.completed (some fullTrace)))) 1 = false :=
    hraises
  change (if _ || !server.encodes (.completed 1 (some fullTrace)) then _ else _) = _
  rw [hkept, hencodes]
  rfl

/-- Request 1 is announced, started and finished, and its `completed` carries a whole trace. -/
theorem finished_reach : ∃ s, Reach (PyServer.step server) (Clear server sampleInterpreter) PyServer.init s ∧
    (∃ x ∈ s.handed, x.frame = .completed 1 (some fullTrace)) ∧ s.handed.length = 4 ∧
    ∀ x ∈ s.handed, ∀ d, payload? x.frame = some d → Reads (hearing spoken) d := by
  have hrun : ∃ s, Reach (PyServer.step server) (fun s e => isPlainStep s e = true) requested s ∧
      (isPopTrace s.engine && !PyServer.emitFinishedRaises s 1 && s.handed.length == 3 &&
        s.handed.all (isHeard (hearing spoken) ·.frame)) = true := exists_reach_of_run streamOne (by decide +kernel)
  have hcompleted : isHeard (hearing spoken) (.completed 1 (some fullTrace)) = true := by decide +kernel
  obtain ⟨s, hs, hp⟩ := hrun
  simp only [Bool.and_eq_true, Bool.not_eq_true', beq_iff_eq, List.all_eq_true] at hp
  obtain ⟨⟨⟨hpc, hraises⟩, hlength⟩, hheard⟩ := hp
  have hpopped := requested_reach.trans (hs.mono fun _ _ h => clear_of_isPlainStep h)
  obtain ⟨s', hs', hhanded⟩ := completed_reach hpopped (eq_of_isPopTrace hpc) hraises
  refine ⟨s', hs', ⟨_, by rw [hhanded]; exact List.mem_append_right _ (List.mem_singleton_self _), rfl⟩, ?_, fun x hx => ?_⟩
  · rw [hhanded, List.length_append, hlength]
    rfl
  · refine reads_of_isHeard (fun _ _ => hearing_canonical spoken_valid) ?_
    rw [hhanded] at hx
    rcases List.mem_append.mp hx with hx | hx
    · exact hheard x hx
    · rw [List.mem_singleton.mp hx]
      exact hcompleted

theorem a_whole_trace_is_understood :
    ∃ s, Reach (PyServer.step server) (Clear server sampleInterpreter) PyServer.init s ∧
      (∃ x ∈ s.handed, x.frame = .completed 1 (some fullTrace)) ∧
      ∀ x ∈ s.handed, Understood (hearing spoken) sampleInterpreter x.frame := by
  obtain ⟨s, hs, hcompleted, _, hreads⟩ := finished_reach
  refine ⟨s, hs, hcompleted, fun x hx => ?_⟩
  exact emitted_frames_are_understood (hearing spoken) sampleInterpreter (by decide) readyMessage_fits hs x hx
    (hreads x hx)

/-- A trace with a reason and nothing else. -/
def partialTrace : Dict := [(PyStr.lit "termination_reason", .str (PyStr.lit "eos"))]

def isPartial : PyServer.OutFrame → Bool
  | .completed 1 (some [(key, .str reason)]) => key == PyStr.lit "termination_reason" && reason == PyStr.lit "eos"
  | _ => false

theorem eq_of_isPartial {f : PyServer.OutFrame} (h : isPartial f = true) : f = .completed 1 (some partialTrace) := by
  unfold isPartial at h
  split at h
  · simp only [Bool.and_eq_true, beq_iff_eq] at h
    rw [h.1, h.2]
    rfl
  · cases h

/-- Request 1 is announced, started and finished, and the engine hands out that trace. -/
def finishOne : List PyServer.Ev :=
  [.reader, .reader] ++ PyServer.startOne ++
    [.engine .ends, .engine .next, .engine .next, .engine (.trace (some partialTrace)), .engine .next]

theorem partialTrace_reach :
    ∃ s, Reach (PyServer.step server) (FromFrames sampleInterpreter) PyServer.init s ∧
      s.handed.any (isPartial ·.frame) = true := by
  have hadmitted : Reach (PyServer.step server) (FromFrames sampleInterpreter) PyServer.init requested := by
    refine requested_reach.mono fun s e hclear => ?_
    cases e with
    | receive c =>
      obtain ⟨f, validate, hf, hc, _⟩ := hclear
      exact ⟨f, validate, hf, hc⟩
    | eof => trivial
    | reader => trivial
    | engine e => trivial
  have hrun : ∃ s, Reach (PyServer.step server) (fun _ e => e.isThread = true) requested s ∧
      s.handed.any (isPartial ·.frame) = true := exists_reach_of_run finishOne (by decide +kernel)
  obtain ⟨s, hs, hp⟩ := hrun
  refine ⟨s, hadmitted.trans (hs.mono ?_), hp⟩
  intro s e hthread
  cases e with
  | receive c => cases hthread
  | eof => trivial
  | reader => trivial
  | engine e => trivial

/-- The client's reading of the `completed` with that trace. -/
def partialJson : Json :=
  .object [(CppString.lit "execution_outcome", .lit "completed"),
    (CppString.lit "generation_trace", .object [(CppString.lit "termination_reason", .lit "eos")]),
    (CppString.lit "message_type", .lit "completed")]

def partialLibrary : JsonLibrary := { JsonLibrary.reading [] with parse := fun _ => .ok partialJson }

theorem partialJson_canonical : partialJson.Canonical := by
  refine .object (by unfold SortedMap.Sorted; decide) fun p hp => ?_
  simp only [List.mem_cons, List.not_mem_nil, or_false] at hp
  rcases hp with rfl | rfl | rfl
  · exact .string _
  · refine .object (List.pairwise_singleton _ _) fun p hp => ?_
    rw [List.mem_singleton.mp hp]
    exact .string _
  · exact .string _

theorem partialJson_denotes : Denotes partialJson (.dict (tracedPayload partialTrace)) := by
  have hname : ∀ {name : String}, isPlain name = true → Utf8.decode (CppString.lit name) = some (PyStr.lit name) := decode_lit
  have htrace : Denotes (.object [(CppString.lit "termination_reason", .lit "eos")]) (.dict partialTrace) := by
    refine ⟨⟨⟨_, _, hname (by decide), rfl, hname (by decide)⟩, trivial⟩, fun p hp => ?_⟩
    rw [List.mem_singleton.mp hp]
    exact ⟨_, List.mem_singleton_self _, hname (by decide)⟩
  refine ⟨⟨⟨_, _, hname (by decide), rfl, hname (by decide)⟩, ⟨_, _, hname (by decide), rfl, htrace⟩,
    ⟨_, _, hname (by decide), rfl, hname (by decide)⟩, trivial⟩, fun p hp => ?_⟩
  have hkeys : p = (PyStr.lit "message_type", .str (PyStr.lit "completed")) ∨
      p = (PyStr.lit "execution_outcome", .str (PyStr.lit "completed")) ∨
      p = (PyStr.lit "generation_trace", .dict partialTrace) := by
    simpa [tracedPayload, message] using hp
  rcases hkeys with rfl | rfl | rfl
  · exact ⟨_, .tail _ (.tail _ (.head _)), hname (by decide)⟩
  · exact ⟨_, .head _, hname (by decide)⟩
  · exact ⟨_, .tail _ (.head _), hname (by decide)⟩

theorem a_partial_trace_is_refused :
    ¬ ∀ (lib : JsonLibrary) (py : Interpreter) (maxAdmittedRequests : Nat), maxAdmittedRequests ≤ 65536 →
      ∀ ready : PyServer.ReadyMessage, ReadyFits ready → ∀ s : PyServer.St,
      Reach (PyServer.step (config py maxAdmittedRequests ready)) (FromFrames py) PyServer.init s →
      ∀ x ∈ s.handed, (∀ d, payload? x.frame = some d → Reads lib d) → Understood lib py x.frame := by
  intro h
  obtain ⟨s, hs, hany⟩ := partialTrace_reach
  obtain ⟨x, hx, hpartial⟩ := List.any_eq_true.mp hany
  have hframe := eq_of_isPartial hpartial
  have hunderstood := h partialLibrary sampleInterpreter 4 (by decide) readyMessage ⟨by decide, by decide, by decide⟩ s hs
    x hx fun d hd => by
      rw [hframe] at hd
      cases hd
      exact fun bytes _ _ => ⟨partialJson, rfl, partialJson_canonical, partialJson_denotes⟩
  obtain ⟨payload, _, hdecode⟩ := hunderstood (tracedPayload partialTrace) (by rw [hframe]; rfl)
  rw [hframe] at hdecode
  obtain ⟨m, hm⟩ : ∃ m, decodeControlMessage partialLibrary payload .workerToClient = .ok m := hdecode
  have hrefused : decodeControlMessage partialLibrary payload .workerToClient =
      .error (.missingRequiredField, CppString.lit "missing required field: " ++ CppString.lit "hit_eos") := rfl
  rw [hrefused] at hm
  cases hm

end QwenTtsBridge.Interop
