/-
  QwenTtsBridge.Audio.Adapter — `with_audio_post_processing` (`audio/post_processor.cpp`).

  A call of a wrapped callback puts an event on a queue; the call that finds no other one
  dispatching takes the events off it until it is empty. Handling an event first works on
  the chain and on `state->terminal`, and then calls downstream callbacks (`todo`). Whoever
  calls a wrapped callback meanwhile, another thread or a downstream callback itself, only
  adds to the queue (`Ev.call`). A downstream call that throws ends its event; the exception
  is kept and thrown again when the queue is empty, which changes nothing here.

  `called` and `flushed` are histories: that a terminal callback was called, and what the
  chain's `finish` has returned.

  (1) `state->terminal` is set before the chunks that `finish` released are delivered, so a
      downstream `on_audio` or `on_timing` that throws there takes the terminal callback with
      it, and later ones are ignored (`a_throwing_flush_loses_the_terminal`).
  (2) Otherwise (`Quiet`) there is exactly one, after the released chunks and with no audio or
      timing after it (`one_terminal_when_quiet`): a run is `streaming`, `flushing` or
      `concluded`.
-/

import QwenTtsBridge.Audio.TerminalFade
import QwenTtsBridge.Client.Request
import QwenTtsBridge.Lib.Inevitable

namespace QwenTtsBridge.Audio.Adapter

open QwenTtsBridge.Protocol.Control QwenTtsBridge.Client QwenTtsBridge.Lib.Transition

/-! ## Model -/

structure SpeechTimingChunk where
  requestId : UInt64 := 0
  firstSample : UInt64 := 0
  sampleCount : UInt32 := 0
  sampleRate : UInt32 := 0
  deriving DecidableEq, Repr

inductive Terminal where
  | completed
  | cancelled
  | error (error : TtsError)
  deriving DecidableEq, Repr

def Terminal.reason : Terminal → AudioTerminalReason
  | .completed => .completed
  | .cancelled => .cancelled
  | .error _ => .error

/-- A call of a wrapped callback. -/
inductive Event where
  | textPrepared (prepared : PreparedText)
  | audio (chunk : PcmChunk)
  | completionMetadata (completion : TtsCompletion)
  | terminal (terminal : Terminal)
  deriving DecidableEq, Repr

/-- A call of a downstream callback. -/
inductive Act where
  | textPrepared (prepared : PreparedText)
  | audio (chunk : PcmChunk)
  | timing (timing : SpeechTimingChunk)
  | completionMetadata (completion : TtsCompletion)
  | terminal (terminal : Terminal)
  deriving DecidableEq, Repr

section Callbacks

variable (callbacks : TtsCallbacks)

def has : Terminal → Bool
  | .completed => callbacks.onCompleted
  | .cancelled => callbacks.onCancelled
  | .error _ => callbacks.onError

def emitChunks (chunks : List PcmChunk) : List Act :=
  chunks.flatMap fun chunk =>
    (if callbacks.onAudio then [.audio chunk] else []) ++
      (if callbacks.onTiming ∧ chunk.sampleCount ≠ 0 then
        [.timing ⟨chunk.requestId, chunk.firstSample, chunk.sampleCount, chunk.format.sampleRate⟩]
      else [])

def exceptionMessage : Exception → CppString
  | .std what => what
  | .other => CppString.lit "unknown exception"

structure St where
  chain : AudioPostProcessorChain
  events : List Event := []
  dispatching : Bool := false
  terminal : Bool := false
  requestId : UInt64 := 0
  /-- The downstream calls that the event being handled has still to make. -/
  todo : List Act := []
  /-- The downstream calls that were made. -/
  log : List Act := []
  called : Bool := false
  flushed : List PcmChunk := []

def makePostProcessingError (s : St) (exception : Exception) (fallbackRequestId : UInt64) : TtsError where
  requestId := if s.requestId ≠ 0 then s.requestId else fallbackRequestId
  category := CppString.lit "client_error"
  code := CppString.lit "audio_post_processing_failed"
  message := CppString.lit "audio post-processing failed: " ++ exceptionMessage exception

/-- A processor threw. -/
def fail (s : St) (exception : Exception) (fallbackRequestId : UInt64) : St :=
  { s with terminal := true, todo := [.terminal (.error (makePostProcessingError s exception fallbackRequestId))] }

def latchRequestId (s : St) (requestId : UInt64) : St :=
  if s.requestId = 0 then { s with requestId } else s

def handleAudio (s : St) (chunk : PcmChunk) : St :=
  let s := latchRequestId s chunk.requestId
  match s.chain.process chunk with
  | (chain, .error e) => fail { s with chain } e chunk.requestId
  | (chain, .ok output) => { s with chain, todo := emitChunks callbacks output }

def handleTerminal (s : St) (terminal : Terminal) : St :=
  let s := match terminal with
    | .error error => latchRequestId s error.requestId
    | _ => s
  let fallbackRequestId := match terminal with
    | .error error => error.requestId
    | _ => s.requestId
  match s.chain.finish terminal.reason with
  | (chain, .error e) => fail { s with chain } e fallbackRequestId
  | (chain, .ok output) =>
    { s with chain, terminal := true, flushed := output, todo := emitChunks callbacks output ++ [.terminal terminal] }

/-- What the body of an event does before its downstream calls. -/
def handle (s : St) : Event → St
  | .textPrepared prepared => { s with todo := if callbacks.onTextPrepared then [.textPrepared prepared] else [] }
  | .completionMetadata completion =>
    { s with todo := if ¬ s.terminal ∧ callbacks.onCompletionMetadata then [.completionMetadata completion] else [] }
  | .audio chunk => if s.terminal then s else handleAudio callbacks s chunk
  | .terminal terminal => if s.terminal then s else handleTerminal callbacks s terminal

def Event.isTerminal : Event → Bool
  | .terminal _ => true
  | _ => false

inductive Ev where
  /-- A wrapped callback is called. -/
  | call (event : Event)
  /-- The dispatching call goes to the next event, or returns. -/
  | next
  /-- It makes the next downstream call, which returns or throws. -/
  | deliver (throws : Bool)
  deriving DecidableEq, Repr

def step (s : St) : Ev → Option St
  | .call event =>
    some { s with events := s.events ++ [event], dispatching := true, called := s.called || event.isTerminal }
  | .next =>
    if s.dispatching then
      match s.todo, s.events with
      | [], [] => some { s with dispatching := false }
      | [], event :: events => some (handle callbacks { s with events } event)
      | _ :: _, _ => none
    else none
  | .deliver throws =>
    match s.todo with
    | [] => none
    -- an empty `std::function` is not called
    | .terminal terminal :: todo =>
      if has callbacks terminal then some { s with log := s.log ++ [.terminal terminal], todo := if throws then [] else todo }
      else some { s with todo }
    | act :: todo => some { s with log := s.log ++ [act], todo := if throws then [] else todo }

def initial (chain : AudioPostProcessorChain) : St := { chain }

end Callbacks

/-! ## The phases of a run -/

def Act.isTerminal : Act → Bool
  | .terminal _ => true
  | _ => false

def Act.isSound : Act → Bool
  | .audio _ => true
  | .timing _ => true
  | _ => false

def NoTerminal (acts : List Act) : Prop := ∀ act ∈ acts, act.isTerminal = false

def NoSound (acts : List Act) : Prop := ∀ act ∈ acts, act.isSound = false

theorem emitChunks_sound {callbacks : TtsCallbacks} {chunks : List PcmChunk} {act : Act}
    (hact : act ∈ emitChunks callbacks chunks) : act.isSound = true := by
  obtain ⟨chunk, -, hact⟩ := List.mem_flatMap.mp hact
  rcases List.mem_append.mp hact with hact | hact
  all_goals
    split at hact
    · rw [List.mem_singleton.mp hact]
      rfl
    · cases hact

theorem emitChunks_noTerminal (callbacks : TtsCallbacks) (chunks : List PcmChunk) : NoTerminal (emitChunks callbacks chunks) := by
  intro act hact
  have hsound := emitChunks_sound hact
  cases act with
  | terminal terminal => cases hsound
  | _ => rfl

theorem NoTerminal.append {a b : List Act} (ha : NoTerminal a) (hb : NoTerminal b) : NoTerminal (a ++ b) := by
  intro act hact
  rcases List.mem_append.mp hact with hact | hact
  · exact ha act hact
  · exact hb act hact

theorem NoSound.append {a b : List Act} (ha : NoSound a) (hb : NoSound b) : NoSound (a ++ b) := by
  intro act hact
  rcases List.mem_append.mp hact with hact | hact
  · exact ha act hact
  · exact hb act hact

section Runs

variable (callbacks : TtsCallbacks)

/-- One terminal call, after what `finish` has released and with no audio or timing after it. -/
def Concluded (s : St) : Prop :=
  ∃ before terminal after, s.log = before ++ emitChunks callbacks s.flushed ++ .terminal terminal :: after ∧
    NoTerminal before ∧ NoTerminal after ∧ NoSound after

inductive Phase (s : St) : Prop
  | streaming (hopen : s.terminal = false) (hflushed : s.flushed = []) (hlog : NoTerminal s.log) (htodo : NoTerminal s.todo)
  | flushing (before done rest : List Act) (terminal : Terminal) (hclosed : s.terminal = true)
      (hbefore : NoTerminal before) (hlog : s.log = before ++ done) (hrest : done ++ rest = emitChunks callbacks s.flushed)
      (htodo : s.todo = rest ++ [.terminal terminal])
  | concluded (hclosed : s.terminal = true) (hlog : Concluded callbacks s) (htodo : NoTerminal s.todo)
      (hsilent : NoSound s.todo)

/-- No callback throws while the chunks that `finish` has released are delivered, and the
    terminal callback whose turn it is is there. -/
def Quiet (s : St) : Ev → Prop
  | .deliver throws =>
    match s.todo with
    | .terminal terminal :: _ => has callbacks terminal = true
    | .audio _ :: _ => s.terminal = true → throws = false
    | .timing _ :: _ => s.terminal = true → throws = false
    | _ => True
  | _ => True

structure Inv (s : St) : Prop where
  phase : Phase callbacks s
  idle : s.dispatching = false → s.events = [] ∧ s.todo = []
  /-- A terminal callback that was called is waiting or has been handled. -/
  due : s.called = true → s.terminal = true ∨ ∃ event ∈ s.events, event.isTerminal = true

variable {callbacks} {s s' : St} {event : Event}

theorem latchRequestId_eq (s : St) (requestId : UInt64) : ∃ id, latchRequestId s requestId = { s with requestId := id } := by
  unfold latchRequestId
  split
  · exact ⟨requestId, rfl⟩
  · exact ⟨s.requestId, rfl⟩

/-- The end of the stream was reached: what is left is to deliver what was released, then the
    terminal call. -/
def Closes (callbacks : TtsCallbacks) (s s' : St) : Prop :=
  ∃ chain requestId flushed terminal, s' = { s with
    chain, requestId, flushed, terminal := true, todo := emitChunks callbacks flushed ++ [.terminal terminal] }

/-- The event has other calls to make. -/
def GoesOn (s s' : St) : Prop := ∃ chain requestId todo, NoTerminal todo ∧ s' = { s with chain, requestId, todo }

theorem closes_fail {chain : AudioPostProcessorChain} {id : UInt64} (hflushed : s.flushed = []) (exception : Exception)
    (fallbackRequestId : UInt64) : Closes callbacks s (fail { s with chain, requestId := id } exception fallbackRequestId) := by
  refine ⟨chain, id, s.flushed, .error (makePostProcessingError { s with chain, requestId := id } exception fallbackRequestId), ?_⟩
  rw [show emitChunks callbacks s.flushed = [] by rw [hflushed]; rfl]
  rfl

theorem handleAudio_cases (hflushed : s.flushed = []) (chunk : PcmChunk) :
    GoesOn s (handleAudio callbacks s chunk) ∨ Closes callbacks s (handleAudio callbacks s chunk) := by
  obtain ⟨id, hlatch⟩ := latchRequestId_eq s chunk.requestId
  unfold handleAudio
  rw [hlatch]
  dsimp only
  split
  · exact .inr (closes_fail hflushed _ _)
  · exact .inl ⟨_, id, _, emitChunks_noTerminal callbacks _, rfl⟩

theorem handleTerminal_cases (hflushed : s.flushed = []) (terminal : Terminal) :
    Closes callbacks s (handleTerminal callbacks s terminal) := by
  have hlatched (id fallback : UInt64) : Closes callbacks s
      (match s.chain.finish terminal.reason with
      | (chain, .error e) => fail { s with chain, requestId := id } e fallback
      | (chain, .ok output) => { s with
          chain, requestId := id, terminal := true, flushed := output
          todo := emitChunks callbacks output ++ [.terminal terminal] }) := by
    split
    · exact closes_fail hflushed _ _
    · exact ⟨_, id, _, terminal, rfl⟩
  unfold handleTerminal
  cases terminal with
  | error error =>
    obtain ⟨id, hlatch⟩ := latchRequestId_eq s error.requestId
    dsimp only
    rw [hlatch]
    exact hlatched id error.requestId
  | completed => exact hlatched s.requestId s.requestId
  | cancelled => exact hlatched s.requestId s.requestId

theorem handle_open (hopen : s.terminal = false) (hflushed : s.flushed = []) (event : Event) :
    (event.isTerminal = false ∧ GoesOn s (handle callbacks s event)) ∨ Closes callbacks s (handle callbacks s event) := by
  cases event with
  | textPrepared prepared =>
    refine .inl ⟨rfl, s.chain, s.requestId, _, ?_, rfl⟩
    split <;> simp [NoTerminal, Act.isTerminal]
  | completionMetadata completion =>
    refine .inl ⟨rfl, s.chain, s.requestId, _, ?_, rfl⟩
    split <;> simp [NoTerminal, Act.isTerminal]
  | audio chunk =>
    have heq : handle callbacks s (.audio chunk) = handleAudio callbacks s chunk := if_neg (by simp [hopen])
    rw [heq]
    exact (handleAudio_cases hflushed chunk).imp_left fun h => ⟨rfl, h⟩
  | terminal terminal =>
    have heq : handle callbacks s (.terminal terminal) = handleTerminal callbacks s terminal := if_neg (by simp [hopen])
    rw [heq]
    exact .inr (handleTerminal_cases hflushed terminal)

/-- After the end only `on_text_prepared` passes. -/
theorem handle_closed (callbacks : TtsCallbacks) (hclosed : s.terminal = true) (htodo : s.todo = []) (event : Event) :
    ∃ todo, NoTerminal todo ∧ NoSound todo ∧ handle callbacks s event = { s with todo } := by
  cases event with
  | textPrepared prepared =>
    refine ⟨_, ?_, ?_, rfl⟩
    all_goals split <;> simp [NoTerminal, NoSound, Act.isTerminal, Act.isSound]
  | completionMetadata completion =>
    refine ⟨_, ?_, ?_, rfl⟩
    all_goals simp [NoTerminal, NoSound, hclosed]
  | audio chunk =>
    refine ⟨[], nofun, nofun, ?_⟩
    rw [← htodo]
    exact if_pos hclosed
  | terminal terminal =>
    refine ⟨[], nofun, nofun, ?_⟩
    rw [← htodo]
    exact if_pos hclosed

/-! ## One step -/

theorem Phase.of_same (h : Phase callbacks s) (hterminal : s'.terminal = s.terminal) (hflushed : s'.flushed = s.flushed)
    (hlog : s'.log = s.log) (htodo : s'.todo = s.todo) : Phase callbacks s' := by
  cases h with
  | streaming hopen hflushed' hlog' htodo' =>
    refine .streaming (hterminal.trans hopen) (hflushed.trans hflushed') ?_ ?_
    · rwa [hlog]
    · rwa [htodo]
  | flushing before done rest terminal hclosed hbefore hlog' hrest htodo' =>
    refine .flushing before done rest terminal (hterminal.trans hclosed) hbefore (hlog.trans hlog') ?_ (htodo.trans htodo')
    rwa [hflushed]
  | concluded hclosed hlog' htodo' hsilent =>
    refine .concluded (hterminal.trans hclosed) ?_ ?_ ?_
    · unfold Concluded
      rwa [hlog, hflushed]
    · rwa [htodo]
    · rwa [htodo]

theorem handle_cases (h : Phase callbacks s) (htodo : s.todo = []) (event : Event) :
    (s.terminal = false ∧ event.isTerminal = false ∧ GoesOn s (handle callbacks s event)) ∨
    (s.terminal = false ∧ Closes callbacks s (handle callbacks s event)) ∨
    (s.terminal = true ∧ ∃ todo, NoTerminal todo ∧ NoSound todo ∧ handle callbacks s event = { s with todo }) := by
  cases h with
  | streaming hopen hflushed _ _ =>
    rcases handle_open hopen hflushed event with ⟨hevent, hgoes⟩ | hcloses
    · exact .inl ⟨hopen, hevent, hgoes⟩
    · exact .inr (.inl ⟨hopen, hcloses⟩)
  | flushing _ _ _ _ hclosed => exact .inr (.inr ⟨hclosed, handle_closed callbacks hclosed htodo event⟩)
  | concluded hclosed => exact .inr (.inr ⟨hclosed, handle_closed callbacks hclosed htodo event⟩)

theorem Inv.next {event : Event} {events : List Event} (h : Inv callbacks s) (hdispatching : s.dispatching = true)
    (htodo : s.todo = []) (hevents : s.events = event :: events) :
    Inv callbacks (handle callbacks { s with events } event) := by
  have hphase : Phase callbacks { s with events } := h.phase.of_same rfl rfl rfl rfl
  have hbusy {P : Prop} (hidle : s.dispatching = false) : P := by
    rw [hidle] at hdispatching
    cases hdispatching
  rcases handle_cases hphase htodo event with ⟨hopen, hevent, chain, requestId, todo, hnone, heq⟩ |
    ⟨hopen, chain, requestId, flushed, terminal, heq⟩ | ⟨hclosed, todo, hnone, hsilent, heq⟩
  · rw [heq]
    refine ⟨?_, hbusy, fun hcalled => ?_⟩
    · cases hphase with
      | streaming _ hflushed hlog _ => exact .streaming hopen hflushed hlog hnone
      | flushing _ _ _ _ hclosed => exact absurd (hopen.symm.trans hclosed) (by decide)
      | concluded hclosed => exact absurd (hopen.symm.trans hclosed) (by decide)
    · rcases h.due hcalled with hclosed | ⟨due, hmem, hdue⟩
      · exact .inl hclosed
      · rw [hevents] at hmem
        rcases List.mem_cons.mp hmem with rfl | hmem
        · rw [hevent] at hdue
          cases hdue
        · exact .inr ⟨due, hmem, hdue⟩
  · rw [heq]
    refine ⟨?_, hbusy, fun _ => .inl rfl⟩
    cases hphase with
    | streaming _ _ hlog _ =>
      exact .flushing s.log [] (emitChunks callbacks flushed) terminal rfl hlog (List.append_nil _).symm rfl rfl
    | flushing _ _ _ _ hclosed => exact absurd (hopen.symm.trans hclosed) (by decide)
    | concluded hclosed => exact absurd (hopen.symm.trans hclosed) (by decide)
  · rw [heq]
    refine ⟨?_, hbusy, fun _ => .inl hclosed⟩
    cases hphase with
    | streaming hopen => exact absurd (hopen.symm.trans hclosed) (by decide)
    | flushing before done rest terminal _ _ _ _ htodo' =>
      exact absurd (htodo.symm.trans htodo') (by simp)
    | concluded _ hlog _ _ => exact .concluded hclosed hlog hnone hsilent

theorem deliver_quiet {throws : Bool} (hquiet : Quiet callbacks s (.deliver throws))
    (hstep : step callbacks s (.deliver throws) = some s') : ∃ act todo, s.todo = act :: todo ∧
      s' = { s with log := s.log ++ [act], todo := if throws then [] else todo } ∧
      (act.isSound = true → s.terminal = true → throws = false) := by
  dsimp only [step, Quiet] at hstep hquiet
  split at hstep
  · cases hstep
  · rename_i terminal todo htodo
    rw [htodo] at hquiet
    rw [if_pos hquiet] at hstep
    cases hstep
    exact ⟨_, todo, htodo, rfl, nofun⟩
  · rename_i act todo hne htodo
    rw [htodo] at hquiet
    cases hstep
    refine ⟨act, todo, htodo, rfl, fun hsound hclosed => ?_⟩
    cases act with
    | audio chunk => exact hquiet hclosed
    | timing timing => exact hquiet hclosed
    | _ => cases hsound

theorem NoTerminal.of_cons {act : Act} {acts : List Act} (h : NoTerminal (act :: acts)) :
    NoTerminal [act] ∧ NoTerminal acts :=
  ⟨fun a ha => h a (List.mem_cons.mpr (.inl (List.mem_singleton.mp ha))), fun a ha => h a (List.mem_cons_of_mem _ ha)⟩

theorem NoSound.of_cons {act : Act} {acts : List Act} (h : NoSound (act :: acts)) : NoSound [act] ∧ NoSound acts :=
  ⟨fun a ha => h a (List.mem_cons.mpr (.inl (List.mem_singleton.mp ha))), fun a ha => h a (List.mem_cons_of_mem _ ha)⟩

theorem phase_deliver {act : Act} {todo : List Act} {throws : Bool} (h : Phase callbacks s) (htodo : s.todo = act :: todo)
    (hsafe : act.isSound = true → s.terminal = true → throws = false) :
    Phase callbacks { s with log := s.log ++ [act], todo := if throws then [] else todo } := by
  cases h with
  | streaming hopen hflushed hlog hnone =>
    rw [htodo] at hnone
    obtain ⟨hact, hrest⟩ := hnone.of_cons
    refine .streaming hopen hflushed (hlog.append hact) ?_
    cases throws with
    | true => exact nofun
    | false => exact hrest
  | flushing before done rest terminal hclosed hbefore hlog hrest htodo' =>
    rw [htodo] at htodo'
    cases rest with
    | nil =>
      obtain ⟨rfl, rfl⟩ := List.cons.inj htodo'
      have hnothing : (if throws then [] else ([] : List Act)) = [] := by cases throws <;> rfl
      rw [hnothing]
      refine .concluded hclosed ⟨before, terminal, [], ?_, hbefore, nofun, nofun⟩ nofun nofun
      rw [List.append_nil] at hrest
      show s.log ++ [_] = before ++ emitChunks callbacks s.flushed ++ [_]
      rw [← hrest, hlog]
    | cons first rest =>
      obtain ⟨rfl, rfl⟩ := List.cons.inj htodo'
      have hsound : act.isSound = true := emitChunks_sound (by rw [← hrest]; simp)
      rw [hsafe hsound hclosed]
      refine .flushing before (done ++ [act]) rest terminal hclosed hbefore ?_ ?_ rfl
      · show s.log ++ [act] = before ++ (done ++ [act])
        rw [hlog, List.append_assoc]
      · rw [List.append_assoc]
        exact hrest
  | concluded hclosed hlog hnone hsilent =>
    rw [htodo] at hnone hsilent
    obtain ⟨before, terminal, after, hlog, hbefore, hafter, hquiet⟩ := hlog
    refine .concluded hclosed ⟨before, terminal, after ++ [act], ?_, hbefore, hafter.append hnone.of_cons.1,
      hquiet.append hsilent.of_cons.1⟩ ?_ ?_
    · show s.log ++ [act] = before ++ emitChunks callbacks s.flushed ++ .terminal terminal :: (after ++ [act])
      rw [hlog, List.append_assoc, List.cons_append]
    · cases throws with
      | true => exact nofun
      | false => exact hnone.of_cons.2
    · cases throws with
      | true => exact nofun
      | false => exact hsilent.of_cons.2

theorem Inv.deliver {throws : Bool} (h : Inv callbacks s) (hquiet : Quiet callbacks s (.deliver throws))
    (hstep : step callbacks s (.deliver throws) = some s') : Inv callbacks s' := by
  obtain ⟨act, todo, htodo, rfl, hsafe⟩ := deliver_quiet hquiet hstep
  refine ⟨phase_deliver h.phase htodo hsafe, fun hidle => ?_, h.due⟩
  have hnone := (h.idle hidle).2
  rw [htodo] at hnone
  cases hnone

theorem Inv.call (h : Inv callbacks s) (event : Event) : Inv callbacks
    { s with events := s.events ++ [event], dispatching := true, called := s.called || event.isTerminal } := by
  refine ⟨h.phase.of_same rfl rfl rfl rfl, nofun, fun hcalled => ?_⟩
  rcases (Bool.or_eq_true _ _).mp hcalled with hcalled | hevent
  · refine (h.due hcalled).imp_right ?_
    rintro ⟨due, hmem, hdue⟩
    exact ⟨due, List.mem_append_left _ hmem, hdue⟩
  · exact .inr ⟨event, List.mem_append_right _ (List.mem_singleton_self _), hevent⟩

/-- The dispatching call returns, or takes the next event. -/
theorem next_cases (hstep : step callbacks s .next = some s') : s.dispatching = true ∧ s.todo = [] ∧
    ((s.events = [] ∧ s' = { s with dispatching := false }) ∨
      ∃ event events, s.events = event :: events ∧ s' = handle callbacks { s with events } event) := by
  dsimp only [step] at hstep
  split at hstep
  · rename_i hdispatching
    split at hstep
    · rename_i htodo hevents
      cases hstep
      exact ⟨hdispatching, htodo, .inl ⟨hevents, rfl⟩⟩
    · rename_i event events htodo hevents
      cases hstep
      exact ⟨hdispatching, htodo, .inr ⟨event, events, hevents, rfl⟩⟩
    · cases hstep
  · cases hstep

theorem inv_step {e : Ev} (h : Inv callbacks s) (hquiet : Quiet callbacks s e) (hstep : step callbacks s e = some s') :
    Inv callbacks s' := by
  cases e with
  | call event =>
    cases hstep
    exact h.call event
  | next =>
    obtain ⟨hdispatching, htodo, ⟨hevents, rfl⟩ | ⟨event, events, hevents, rfl⟩⟩ := next_cases hstep
    · exact ⟨h.phase.of_same rfl rfl rfl rfl, fun _ => ⟨hevents, htodo⟩, h.due⟩
    · exact h.next hdispatching htodo hevents
  | deliver throws => exact h.deliver hquiet hstep

theorem inv_initial (callbacks : TtsCallbacks) (chain : AudioPostProcessorChain) : Inv callbacks (initial chain) := by
  have hnone : NoTerminal [] := nofun
  exact ⟨.streaming rfl rfl hnone hnone, fun _ => ⟨rfl, rfl⟩, fun hcalled => nomatch hcalled⟩

theorem inv_reach {chain : AudioPostProcessorChain} (h : Reach (step callbacks) (Quiet callbacks) (initial chain) s) :
    Inv callbacks s :=
  h.inv (inv_initial callbacks chain) fun _ _ _ _ hinv hquiet hstep => inv_step hinv hquiet hstep

/-! ## The terminal call comes -/

/-- A step of the call that dispatches. -/
def Dispatches : Ev → Prop
  | .call _ => False
  | _ => True

/-- The terminal call has yet to be made. -/
structure Waiting (callbacks : TtsCallbacks) (s : St) : Prop where
  inv : Inv callbacks s
  due : (s.terminal = false ∧ ∃ event ∈ s.events, event.isTerminal = true) ∨
    (s.terminal = true ∧ ∃ terminal, .terminal terminal ∈ s.todo)

/-- The events before the one that ends the stream, then the calls before its terminal call. -/
def rank (s : St) : Nat × Nat :=
  (if s.terminal then 0 else s.events.findIdx Event.isTerminal + 1, s.todo.length)

theorem Inv.waiting (h : Inv callbacks s) (hcalled : s.called = true) : Concluded callbacks s ∨ Waiting callbacks s := by
  cases h.phase with
  | streaming hopen _ _ _ =>
    refine .inr ⟨h, .inl ⟨hopen, ?_⟩⟩
    exact (h.due hcalled).resolve_left (by simp [hopen])
  | flushing before done rest terminal hclosed _ _ _ htodo =>
    exact .inr ⟨h, .inr ⟨hclosed, terminal, by simp [htodo]⟩⟩
  | concluded _ hlog _ _ => exact .inl hlog

theorem Waiting.can_step (h : Waiting callbacks s) : ∃ e, Dispatches e ∧ step callbacks s e ≠ none := by
  cases htodo : s.todo with
  | cons act todo =>
    refine ⟨.deliver false, trivial, ?_⟩
    dsimp only [step]
    rw [htodo]
    cases act with
    | terminal terminal =>
      dsimp only
      split <;> exact nofun
    | _ => exact nofun
  | nil =>
    obtain ⟨-, event, hevent, -⟩ | ⟨-, terminal, hterminal⟩ := h.due
    · refine ⟨.next, trivial, ?_⟩
      have hdispatching : s.dispatching = true := by
        by_contra hidle
        rw [(h.inv.idle (by simpa using hidle)).1] at hevent
        cases hevent
      cases hevents : s.events with
      | nil =>
        rw [hevents] at hevent
        cases hevent
      | cons first rest =>
        dsimp only [step]
        rw [hdispatching, htodo, hevents]
        exact nofun
    · rw [htodo] at hterminal
      cases hterminal

theorem Waiting.call_step (h : Waiting callbacks s) {e : Ev} (hquiet : Quiet callbacks s e) (he : ¬ Dispatches e)
    (hstep : step callbacks s e = some s') : Waiting callbacks s' ∧ rank s' = rank s := by
  have hinv := inv_step h.inv hquiet hstep
  cases e with
  | call event =>
    cases hstep
    rcases h.due with ⟨hopen, due, hmem, hdue⟩ | hdue
    · refine ⟨⟨hinv, .inl ⟨hopen, due, List.mem_append_left _ hmem, hdue⟩⟩, ?_⟩
      have hlt : s.events.findIdx Event.isTerminal < s.events.length := List.findIdx_lt_length.mpr ⟨due, hmem, hdue⟩
      simp only [rank, List.findIdx_append, if_pos hlt]
    · refine ⟨⟨hinv, .inr hdue⟩, ?_⟩
      simp only [rank, hdue.1, if_true]
  | next => exact (he trivial).elim
  | deliver throws => exact (he trivial).elim

theorem Waiting.next_step (h : Waiting callbacks s) (hstep : step callbacks s .next = some s') :
    Waiting callbacks s' ∧ Prod.Lex (· < ·) (· < ·) (rank s') (rank s) := by
  have hinv : Inv callbacks s' := inv_step (e := .next) h.inv trivial hstep
  obtain ⟨-, htodo, hcases⟩ := next_cases hstep
  obtain ⟨hopen, due, hmem, hdue⟩ := h.due.resolve_right (by
    rintro ⟨-, terminal, hterminal⟩
    rw [htodo] at hterminal
    cases hterminal)
  obtain ⟨hevents, -⟩ | ⟨event, events, hevents, heq⟩ := hcases
  · rw [hevents] at hmem
    cases hmem
  · have hphase : Phase callbacks { s with events } := h.inv.phase.of_same rfl rfl rfl rfl
    rcases handle_cases hphase htodo event with ⟨-, hevent, chain, requestId, todo, -, hhandle⟩ |
      ⟨-, chain, requestId, flushed, terminal, hhandle⟩ | ⟨hclosed, -⟩
    · -- one event fewer before the one that is due
      rw [hhandle] at heq
      rw [hevents] at hmem
      have hrest : due ∈ events := by
        rcases List.mem_cons.mp hmem with rfl | hrest
        · rw [hevent] at hdue
          cases hdue
        · exact hrest
      subst heq
      refine ⟨⟨hinv, .inl ⟨hopen, due, hrest, hdue⟩⟩, .left _ _ ?_⟩
      simp only [hopen, hevents, List.findIdx_cons, hevent, Bool.false_eq_true, if_false, cond_false]
      omega
    · rw [hhandle] at heq
      subst heq
      refine ⟨⟨hinv, .inr ⟨rfl, terminal, by simp⟩⟩, .left _ _ ?_⟩
      simp only [hopen, Bool.false_eq_true, if_true, if_false]
      omega
    · exact absurd (hopen.symm.trans hclosed) (by decide)

theorem Waiting.deliver_step {throws : Bool} (h : Waiting callbacks s) (hquiet : Quiet callbacks s (.deliver throws))
    (hstep : step callbacks s (.deliver throws) = some s') :
    Concluded callbacks s' ∨ Waiting callbacks s' ∧ Prod.Lex (· < ·) (· < ·) (rank s') (rank s) := by
  have hinv : Inv callbacks s' := inv_step h.inv hquiet hstep
  obtain ⟨act, todo, htodo, rfl, -⟩ := deliver_quiet hquiet hstep
  have hshorter : (if throws then [] else todo).length < s.todo.length := by
    rw [htodo, List.length_cons]
    cases throws
    · exact Nat.lt_succ_self _
    · exact Nat.succ_pos _
  have hlower : Prod.Lex (· < ·) (· < ·) (rank { s with log := s.log ++ [act], todo := if throws then [] else todo }) (rank s) :=
    .right _ hshorter
  rcases h.due with hdue | ⟨hclosed, -⟩
  · exact .inr ⟨⟨hinv, .inl hdue⟩, hlower⟩
  · cases hinv.phase with
    | streaming hopen => exact absurd (hopen.symm.trans hclosed) (by decide)
    | flushing before done rest terminal _ _ _ _ htodo' => exact .inr ⟨⟨hinv, .inr ⟨hclosed, terminal, by rw [htodo']; simp⟩⟩, hlower⟩
    | concluded _ hlog _ _ => exact .inl hlog

theorem Waiting.leads (h : Waiting callbacks s) :
    Leads (step callbacks) Dispatches (Quiet callbacks) (Concluded callbacks) s := by
  refine leads_of_rank (WellFounded.prod_lex Nat.lt_wfRel.wf Nat.lt_wfRel.wf) rank (fun s h => h.can_step)
    (fun s e s' h hok hstep => h.call_step hok.1 hok.2 hstep) (fun s e s' h hquiet he hstep => ?_) h
  cases e with
  | call event => exact he.elim
  | next => exact .inr (h.next_step hstep)
  | deliver throws => exact h.deliver_step hquiet hstep

/-! ## The result -/

theorem one_terminal_when_quiet (chain : AudioPostProcessorChain)
    (h : Reach (step callbacks) (Quiet callbacks) (initial chain) s) :
    (∀ terminal, .terminal terminal ∈ s.log → Concluded callbacks s) ∧
    (s.called = true → s.dispatching = false → Concluded callbacks s) ∧
    (s.called = true → Leads (step callbacks) Dispatches (Quiet callbacks) (Concluded callbacks) s) := by
  have hinv := inv_reach h
  refine ⟨fun terminal hterminal => ?_, fun hcalled hidle => ?_, fun hcalled => ?_⟩
  · cases hinv.phase with
    | streaming _ _ hlog _ => exact absurd (hlog _ hterminal) (by simp [Act.isTerminal])
    | flushing before done rest t _ hbefore hlog hrest _ =>
      have hdone : NoTerminal done := fun act hact =>
        emitChunks_noTerminal callbacks s.flushed act (hrest ▸ List.mem_append_left _ hact)
      rw [hlog] at hterminal
      exact absurd ((hbefore.append hdone) _ hterminal) (by simp [Act.isTerminal])
    | concluded _ hlog _ _ => exact hlog
  · obtain hconcluded | hwaiting := hinv.waiting hcalled
    · exact hconcluded
    · obtain ⟨hevents, htodo⟩ := hinv.idle hidle
      rcases hwaiting.due with ⟨-, event, hmem, -⟩ | ⟨-, terminal, hmem⟩
      · rw [hevents] at hmem
        cases hmem
      · rw [htodo] at hmem
        cases hmem
  · obtain hconcluded | hwaiting := hinv.waiting hcalled
    · exact .now hconcluded
    · exact hwaiting.leads

end Runs

/-- A chain with the terminal fade, which holds back the one frame it is given. -/
def fadeChain : AudioPostProcessorChain := { processors := [TerminalFade.processor TerminalFade.linearShape { options := {} }] }

def oneFrame : PcmChunk := ⟨7, {}, [100, 0], 0, 1⟩

theorem Concluded.some_terminal {callbacks : TtsCallbacks} {s : St} (h : Concluded callbacks s) :
    s.log.any Act.isTerminal = true := by
  obtain ⟨before, terminal, after, hlog, -⟩ := h
  simp [hlog, Act.isTerminal]

instance (callbacks : TtsCallbacks) (s : St) (e : Ev) : Decidable (Quiet callbacks s e) := by
  unfold Quiet
  split
  · split <;> infer_instance
  · infer_instance

theorem one_cancellation_concludes : ∃ s, Reach (step {}) (Quiet {}) (initial fadeChain) s ∧ s.called = true ∧
    s.dispatching = false ∧ Concluded {} s := by
  obtain ⟨s, hreach, hs⟩ := exists_reach_of_run
    [.call (.audio oneFrame), .next, .call (.terminal .cancelled), .next, .deliver false, .deliver false, .deliver true, .next]
    (show (run (step {}) (Quiet {}) (initial fadeChain) _).map (fun s => s.called && !s.dispatching) = some true by decide +kernel)
  simp only [Bool.and_eq_true, Bool.not_eq_true'] at hs
  exact ⟨s, hreach, hs.1, hs.2, (one_terminal_when_quiet fadeChain hreach).2.1 hs.1 hs.2⟩

/-- `on_audio` throws on the released frame. -/
theorem a_throwing_flush_loses_the_terminal : ∃ s, Reach (step {}) anyStep (initial fadeChain) s ∧ s.called = true ∧
    s.dispatching = false ∧ s.log = [.audio { oneFrame with bytes := [0, 0] }] ∧ ¬ Concluded {} s := by
  obtain ⟨s, hreach, hs⟩ := exists_reach_of_run
    [.call (.audio oneFrame), .next, .call (.terminal .cancelled), .next, .deliver true, .call (.terminal .completed), .next, .next]
    (show (run (step {}) anyStep (initial fadeChain) _).map (fun s => s.called && !s.dispatching &&
      s.log == [.audio { oneFrame with bytes := [0, 0] }]) = some true by decide +kernel)
  simp only [Bool.and_eq_true, Bool.not_eq_true', beq_iff_eq] at hs
  refine ⟨s, hreach, hs.1.1, hs.1.2, hs.2, fun hconcluded => ?_⟩
  have hterminal := hconcluded.some_terminal
  rw [hs.2] at hterminal
  cases hterminal

end QwenTtsBridge.Audio.Adapter
