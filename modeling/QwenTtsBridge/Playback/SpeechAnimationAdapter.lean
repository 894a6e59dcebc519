/-
  QwenTtsBridge.Playback.SpeechAnimationAdapter — the adapter from the client's callbacks to a
  speech-animation pipeline (`integration/speech_animation/speech_animation_adapter.cpp`).

  Any number of callbacks and calls of `push_audio` may be under way on different threads; each
  goes through stages, which come in any order (`Ev.advance`). They share the one flag
  `animation_degraded`, which is loaded and exchanged. The pipeline is a library's: what it
  answers to a `push` is up to the event, and `complete` and `cancel` are recorded. The user's
  callbacks return.

  `offered` and `owed` are for the statements: the chunks that were to be pushed, and the
  downstream calls that the callbacks are for.

  - `degrades_once`: the animation is given up at most once and for something that went wrong;
    what a callback finds after that does not touch the pipeline.
  - `downstream_is_untouched`: playback gets each of its calls once, whatever the pipeline
    does, and of callbacks one at a time in their order.
  - `client_audio_converts`: the chunks that a client gives for mono PCM16 are taken, their
    samples are exact, and they join up as they did before.
-/

import QwenTtsBridge.Audio.PostProcessor
import QwenTtsBridge.Audio.WavReader
import QwenTtsBridge.Client.Timeline
import Mathlib.Data.List.Perm.Basic

namespace QwenTtsBridge.Playback.SpeechAnimationAdapter

open QwenTtsBridge.Audio (PcmChunk)
open QwenTtsBridge.Audio.WavReader
open QwenTtsBridge.Client (TtsCallbacks TtsError)
open QwenTtsBridge.Lib QwenTtsBridge.Lib.LittleEndian QwenTtsBridge.Lib.Transition
open QwenTtsBridge.Protocol.Control QwenTtsBridge.Session

/-! ## Model -/

structure SpeechTimingChunk where
  requestId : RequestId
  firstSample : UInt64
  sampleRate : UInt32
  sampleCount : UInt32
  pcm : List Binary32
  deriving DecidableEq, Repr

/-- The sample whose low byte is at this offset. -/
def sampleAt (bytes : List UInt8) (offset : Nat) : Binary32 :=
  clampUnit (ofPcm16 ((bytes.getD offset 0).toNat ||| (bytes.getD (offset + 1) 0).toNat <<< 8))

/-- `convert_pcm`; the diagnostic if it returns false. -/
def convertPcm (source : PcmChunk) : Except CppString SpeechTimingChunk :=
  if source.format.sampleFormat ≠ CppString.lit "s16le" ∨ source.format.channels ≠ 1 then
    .error (CppString.lit "speech-animation adapter accepts mono s16le PCM only")
  else if source.format.sampleRate = 0 ∨ source.sampleCount = 0 ∨ source.sampleCount.toNat > (2 ^ 64 - 1) / 2 ∨
      source.bytes.length ≠ source.sampleCount.toNat * 2 then
    .error (CppString.lit "bridge PCM metadata does not match its s16le payload")
  else
    .ok {
      requestId := source.requestId
      firstSample := source.firstSample
      sampleRate := source.format.sampleRate
      sampleCount := source.sampleCount
      pcm := (List.range source.sampleCount.toNat).map fun index => sampleAt source.bytes (index * 2) }

structure AdapterDiagnostic where
  requestId : RequestId := 0
  code : CppString
  message : CppString
  deriving DecidableEq, Repr

inductive QueuePushResult where
  | accepted
  | full
  /-- Any other result. -/
  | rejected
  deriving DecidableEq, Repr

inductive PipelineCall where
  | push (input : SpeechTimingChunk) (result : QueuePushResult)
  | complete
  | cancel
  deriving DecidableEq, Repr

/-- A call of a callback of the application. -/
inductive Downstream where
  | audio (chunk : PcmChunk)
  | completed
  | cancelled
  | error (error : TtsError)
  deriving DecidableEq, Repr

/-- What a thread calls; `observeAudio` is what `make_callbacks` was given. -/
inductive Call where
  | onAudio (chunk : PcmChunk) (observeAudio : Bool)
  | onCompleted
  | onCancelled
  | onError (error : TtsError)
  | pushAudio (chunk : PcmChunk)
  deriving DecidableEq, Repr

/-- What a call does next. -/
inductive Stage where
  | forwardAudio (chunk : PcmChunk) (observeAudio : Bool)
  /-- `push_audio_to_state`, at its load of the flag. -/
  | observe (chunk : PcmChunk)
  | push (chunk : PcmChunk)
  /-- At the exchange of the flag. -/
  | degrade (diagnostic : AdapterDiagnostic)
  | cancelDegraded (diagnostic : AdapterDiagnostic)
  | diagnose (diagnostic : AdapterDiagnostic)
  | forwardCompleted
  /-- At the load of the flag in `on_completed`. -/
  | loadCompleted
  | complete
  /-- At the load of the flag in `on_cancelled` or `on_error`, with the call that comes last. -/
  | loadCancelled (last : Downstream)
  | cancel (last : Downstream)
  | forward (last : Downstream)
  deriving DecidableEq, Repr

def Call.first : Call → Stage
  | .onAudio chunk observeAudio => .forwardAudio chunk observeAudio
  | .onCompleted => .forwardCompleted
  | .onCancelled => .loadCancelled .cancelled
  | .onError e => .loadCancelled (.error e)
  | .pushAudio chunk => .observe chunk

/-- The call of the application's that it is for. -/
def Call.downstream : Call → Option Downstream
  | .onAudio chunk _ => some (.audio chunk)
  | .onCompleted => some .completed
  | .onCancelled => some .cancelled
  | .onError e => some (.error e)
  | .pushAudio _ => none

def Call.observed : Call → Option PcmChunk
  | .onAudio chunk observeAudio => if observeAudio then some chunk else none
  | .pushAudio chunk => some chunk
  | .onCompleted | .onCancelled | .onError _ => none

structure St where
  animationDegraded : Bool := false
  pipeline : List PipelineCall := []
  diagnostics : List AdapterDiagnostic := []
  downstream : List Downstream := []
  running : List Stage := []
  offered : List PcmChunk := []
  owed : List Downstream := []
  deriving DecidableEq, Repr

def unsupported (chunk : PcmChunk) (text : CppString) : AdapterDiagnostic :=
  ⟨chunk.requestId, CppString.lit "unsupported_pcm", text⟩

def refused (chunk : PcmChunk) (result : QueuePushResult) : AdapterDiagnostic :=
  ⟨chunk.requestId,
    if result = .full then CppString.lit "speech_animation_queue_full" else CppString.lit "speech_animation_input_rejected",
    CppString.lit "speech-animation rejected a bridge PCM chunk"⟩

/-- Which of the application's callbacks are set. -/
def isSet (callbacks : TtsCallbacks) : Downstream → Bool
  | .audio _ => callbacks.onAudio
  | .completed => callbacks.onCompleted
  | .cancelled => callbacks.onCancelled
  | .error _ => callbacks.onError

section Steps

variable (callbacks : TtsCallbacks) (onDiagnostic : Bool)

def deliver (call : Downstream) (s : St) : St :=
  if isSet callbacks call then { s with downstream := s.downstream ++ [call] } else s

/-- One stage of a call and the next one; `result` is what the pipeline answers if it is asked. -/
def advance (result : QueuePushResult) (s : St) : Stage → Option Stage × St
  | .forwardAudio chunk observeAudio =>
    (if observeAudio then some (.observe chunk) else none, deliver callbacks (.audio chunk) s)
  | .observe chunk => (if s.animationDegraded then none else some (.push chunk), s)
  | .push chunk =>
    match convertPcm chunk with
    | .error text => (some (.degrade (unsupported chunk text)), s)
    | .ok input =>
      (if result = .accepted then none else some (.degrade (refused chunk result)),
        { s with pipeline := s.pipeline ++ [.push input result] })
  | .degrade diagnostic =>
    (if s.animationDegraded then none else some (.cancelDegraded diagnostic), { s with animationDegraded := true })
  | .cancelDegraded diagnostic => (some (.diagnose diagnostic), { s with pipeline := s.pipeline ++ [.cancel] })
  | .diagnose diagnostic =>
    (none, if onDiagnostic then { s with diagnostics := s.diagnostics ++ [diagnostic] } else s)
  | .forwardCompleted => (some .loadCompleted, deliver callbacks .completed s)
  | .loadCompleted => (if s.animationDegraded then none else some .complete, s)
  | .complete => (none, { s with pipeline := s.pipeline ++ [.complete] })
  | .loadCancelled last => (some (if s.animationDegraded then .forward last else .cancel last), s)
  | .cancel last => (some (.forward last), { s with pipeline := s.pipeline ++ [.cancel] })
  | .forward last => (none, deliver callbacks last s)

inductive Ev where
  | call (call : Call)
  /-- The call at this place of the list goes on. -/
  | advance (index : Nat) (result : QueuePushResult)
  deriving DecidableEq, Repr

def step (s : St) : Ev → Option St
  | .call call =>
    some { s with
      running := s.running ++ [call.first]
      offered := s.offered ++ call.observed.toList
      owed := s.owed ++ call.downstream.toList.filter (isSet callbacks) }
  | .advance index result =>
    (s.running[index]?).map fun stage =>
      let next := advance callbacks onDiagnostic result { s with running := s.running.eraseIdx index } stage
      { next.2 with running := next.2.running ++ next.1.toList }

end Steps

/-- A thread calls when the call before has returned. -/
def serially (s : St) : Ev → Prop
  | .call _ => s.running = []
  | .advance _ _ => True

instance (s : St) : (e : Ev) → Decidable (serially s e)
  | .call _ => inferInstanceAs (Decidable (s.running = []))
  | .advance _ _ => inferInstanceAs (Decidable True)

/-! ## One stage -/

/-- The chunk that a stage is about to push. -/
def Stage.chunk? : Stage → Option PcmChunk
  | .forwardAudio chunk observeAudio => if observeAudio then some chunk else none
  | .observe chunk | .push chunk => some chunk
  | .degrade _ | .cancelDegraded _ | .diagnose _ | .forwardCompleted | .loadCompleted | .complete | .loadCancelled _
  | .cancel _ | .forward _ => none

def Stage.diagnostic? : Stage → Option AdapterDiagnostic
  | .degrade diagnostic | .cancelDegraded diagnostic | .diagnose diagnostic => some diagnostic
  | .forwardAudio _ _ | .observe _ | .push _ | .forwardCompleted | .loadCompleted | .complete | .loadCancelled _
  | .cancel _ | .forward _ => none

/-- The stage is that of the call that set the flag. -/
def Stage.gaveUp : Stage → Nat
  | .cancelDegraded _ | .diagnose _ => 1
  | .forwardAudio _ _ | .observe _ | .push _ | .degrade _ | .forwardCompleted | .loadCompleted | .complete
  | .loadCancelled _ | .cancel _ | .forward _ => 0

/-- The stage is past its load of the flag, or at the pipeline. -/
def Stage.touches : Stage → Bool
  | .push _ | .cancelDegraded _ | .complete | .cancel _ => true
  | .forwardAudio _ _ | .observe _ | .degrade _ | .diagnose _ | .forwardCompleted | .loadCompleted | .loadCancelled _
  | .forward _ => false

/-- The calls of the application's that are still to come. -/
def Stage.pending : Stage → List Downstream
  | .forwardAudio chunk _ => [.audio chunk]
  | .forwardCompleted => [.completed]
  | .loadCancelled last | .cancel last | .forward last => [last]
  | .observe _ | .push _ | .degrade _ | .cancelDegraded _ | .diagnose _ | .loadCompleted | .complete => []

def gaveUp (running : List Stage) : Nat := (running.map Stage.gaveUp).sum

def St.flag (s : St) : Nat := if s.animationDegraded then 1 else 0

/-- Something that went wrong with a chunk: it is not mono PCM16, or the pipeline did not
    accept it. -/
def Cause (s : St) (diagnostic : AdapterDiagnostic) : Prop :=
  ∃ chunk ∈ s.offered, (∃ text, convertPcm chunk = .error text ∧ diagnostic = unsupported chunk text) ∨
    ∃ input result, convertPcm chunk = .ok input ∧ result ≠ .accepted ∧ .push input result ∈ s.pipeline ∧
      diagnostic = refused chunk result

section Stages

variable (callbacks : TtsCallbacks) (onDiagnostic : Bool) (result : QueuePushResult) (s : St) (stage : Stage)

theorem deliver_rest (call : Downstream) (s : St) : deliver callbacks call s =
    { s with downstream := s.downstream ++ [call].filter (isSet callbacks) } := by
  unfold deliver
  cases hset : isSet callbacks call <;> simp [hset]

/-- The call that sets the flag is the one that tells of it. -/
theorem advance_flag :
    (advance callbacks onDiagnostic result s stage).2.diagnostics.length +
        gaveUp (advance callbacks onDiagnostic result s stage).1.toList + s.flag ≤
      s.diagnostics.length + stage.gaveUp + (advance callbacks onDiagnostic result s stage).2.flag ∧
    (onDiagnostic = true → s.diagnostics.length + stage.gaveUp + (advance callbacks onDiagnostic result s stage).2.flag ≤
      (advance callbacks onDiagnostic result s stage).2.diagnostics.length +
        gaveUp (advance callbacks onDiagnostic result s stage).1.toList + s.flag) := by
  cases stage with
  | push chunk =>
    simp only [advance]
    split
    · simp [gaveUp, Stage.gaveUp, St.flag]
    · cases result <;> simp [gaveUp, Stage.gaveUp, St.flag]
  | diagnose diagnostic => cases onDiagnostic <;> simp [advance, gaveUp, Stage.gaveUp, St.flag]
  | forwardAudio chunk observeAudio =>
    cases observeAudio <;> simp [advance, deliver_rest, gaveUp, Stage.gaveUp, St.flag]
  | _ => cases hdegraded : s.animationDegraded <;>
      simp [advance, deliver_rest, gaveUp, Stage.gaveUp, St.flag, hdegraded]

theorem advance_frame :
    (advance callbacks onDiagnostic result s stage).2.running = s.running ∧
      (advance callbacks onDiagnostic result s stage).2.offered = s.offered ∧
      (advance callbacks onDiagnostic result s stage).2.owed = s.owed := by
  cases stage with
  | push chunk =>
    simp only [advance]
    split <;> exact ⟨rfl, rfl, rfl⟩
  | diagnose diagnostic => cases onDiagnostic <;> exact ⟨rfl, rfl, rfl⟩
  | _ => simp [advance, deliver_rest]

/-- What is pushed is what the stage's chunk converts to. -/
theorem advance_pipeline : ∃ more, (advance callbacks onDiagnostic result s stage).2.pipeline = s.pipeline ++ more ∧
    (∀ input r, .push input r ∈ more → ∃ chunk ∈ stage.chunk?, convertPcm chunk = .ok input) ∧
    (stage.touches = false → more = []) := by
  cases stage with
  | push chunk =>
    simp only [advance]
    split
    · refine ⟨[], (List.append_nil _).symm, fun input r hpush => ?_, fun _ => rfl⟩
      cases hpush
    · rename_i input hinput
      refine ⟨[.push input result], rfl, fun other r hpush => ?_, fun htouches => ?_⟩
      · cases List.mem_singleton.mp hpush
        exact ⟨chunk, rfl, hinput⟩
      · cases htouches
  | diagnose diagnostic => cases onDiagnostic <;> exact ⟨[], by simp [advance], by simp, fun _ => rfl⟩
  | cancelDegraded diagnostic => exact ⟨[.cancel], rfl, by simp, fun htouches => by cases htouches⟩
  | complete => exact ⟨[.complete], rfl, by simp, fun htouches => by cases htouches⟩
  | cancel last => exact ⟨[.cancel], rfl, by simp, fun htouches => by cases htouches⟩
  | _ => exact ⟨[], by simp [advance, deliver_rest], by simp, fun _ => rfl⟩

theorem advance_chunk : ∀ later ∈ (advance callbacks onDiagnostic result s stage).1, ∀ chunk ∈ later.chunk?,
    chunk ∈ stage.chunk? := by
  intro later hlater chunk hchunk
  cases stage with
  | push c =>
    simp only [advance] at hlater
    split at hlater
    · cases hlater
      cases hchunk
    · cases result <;> cases hlater <;> cases hchunk
  | forwardAudio c observeAudio =>
    cases observeAudio <;> cases hlater
    exact hchunk
  | _ => cases hdegraded : s.animationDegraded <;> simp only [advance, hdegraded] at hlater <;> cases hlater <;>
      exact hchunk

theorem Cause.mono {s s' : St} {diagnostic : AdapterDiagnostic} (h : Cause s diagnostic) (hoffered : s.offered ⊆ s'.offered)
    (hpipeline : s.pipeline ⊆ s'.pipeline) : Cause s' diagnostic := by
  obtain ⟨chunk, hchunk, hwrong | ⟨input, result, hconvert, hresult, hpush, hdiagnostic⟩⟩ := h
  · exact ⟨chunk, hoffered hchunk, .inl hwrong⟩
  · exact ⟨chunk, hoffered hchunk, .inr ⟨input, result, hconvert, hresult, hpipeline hpush, hdiagnostic⟩⟩

theorem advance_mono : s.offered ⊆ (advance callbacks onDiagnostic result s stage).2.offered ∧
    s.pipeline ⊆ (advance callbacks onDiagnostic result s stage).2.pipeline := by
  obtain ⟨more, hmore, -⟩ := advance_pipeline callbacks onDiagnostic result s stage
  rw [(advance_frame callbacks onDiagnostic result s stage).2.1, hmore]
  exact ⟨fun _ h => h, List.subset_append_left _ _⟩

/-- A call that gives up has a cause. -/
theorem advance_cause (hchunk : ∀ chunk ∈ stage.chunk?, chunk ∈ s.offered)
    (hcause : ∀ diagnostic ∈ stage.diagnostic?, Cause s diagnostic) :
    ∀ later ∈ (advance callbacks onDiagnostic result s stage).1, ∀ diagnostic ∈ later.diagnostic?,
      Cause (advance callbacks onDiagnostic result s stage).2 diagnostic := by
  intro later hlater diagnostic hdiagnostic
  obtain ⟨hoffers, hcalls⟩ := advance_mono callbacks onDiagnostic result s stage
  have hkept (hsame : diagnostic ∈ stage.diagnostic?) : Cause (advance callbacks onDiagnostic result s stage).2 diagnostic :=
    (hcause diagnostic hsame).mono hoffers hcalls
  cases stage with
  | push chunk =>
    simp only [advance] at hlater ⊢
    have hoffered : chunk ∈ s.offered := hchunk chunk rfl
    cases hconvert : convertPcm chunk with
    | error text =>
      rw [hconvert] at hlater
      cases hlater
      cases hdiagnostic
      exact ⟨chunk, hoffered, .inl ⟨text, hconvert, rfl⟩⟩
    | ok input =>
      rw [hconvert] at hlater
      have hresult : result ≠ .accepted := by
        rintro rfl
        cases hlater
      dsimp only at hlater
      rw [if_neg hresult] at hlater
      cases hlater
      cases hdiagnostic
      exact ⟨chunk, hoffered, .inr ⟨input, result, hconvert, hresult, List.mem_append_right _ List.mem_cons_self, rfl⟩⟩
  | forwardAudio c observeAudio =>
    cases observeAudio <;> cases hlater
    cases hdiagnostic
  | degrade d =>
    refine hkept ?_
    cases hdegraded : s.animationDegraded <;> simp only [advance, hdegraded] at hlater <;> cases hlater
    exact hdiagnostic
  | cancelDegraded d =>
    refine hkept ?_
    cases hlater
    exact hdiagnostic
  | _ => cases hdegraded : s.animationDegraded <;> simp only [advance, hdegraded] at hlater <;> cases hlater <;>
      cases hdiagnostic

theorem advance_told : ∀ diagnostic ∈ (advance callbacks onDiagnostic result s stage).2.diagnostics,
    diagnostic ∈ s.diagnostics ∨ diagnostic ∈ stage.diagnostic? := by
  intro diagnostic hdiagnostic
  cases stage with
  | push chunk =>
    simp only [advance] at hdiagnostic
    split at hdiagnostic <;> exact .inl hdiagnostic
  | diagnose d =>
    cases onDiagnostic with
    | false => exact .inl hdiagnostic
    | true =>
      rcases List.mem_append.mp hdiagnostic with hold | hnew
      · exact .inl hold
      · cases List.mem_singleton.mp hnew
        exact .inr rfl
  | _ =>
    simp only [advance, deliver_rest] at hdiagnostic
    exact .inl hdiagnostic

theorem advance_degraded (h : (advance callbacks onDiagnostic result s stage).2.animationDegraded = true) :
    s.animationDegraded = true ∨ ∃ diagnostic, diagnostic ∈ stage.diagnostic? := by
  cases stage with
  | push chunk =>
    simp only [advance] at h
    split at h <;> exact .inl h
  | degrade d => exact .inr ⟨d, rfl⟩
  | diagnose d => exact .inr ⟨d, rfl⟩
  | _ =>
    simp only [advance, deliver_rest] at h
    exact .inl h

end Stages

/-! ## Every interleaving -/

structure Inv (onDiagnostic : Bool) (s : St) : Prop where
  once : s.diagnostics.length + gaveUp s.running ≤ s.flag
  told : onDiagnostic = true → s.flag ≤ s.diagnostics.length + gaveUp s.running
  watched : ∀ stage ∈ s.running, ∀ chunk ∈ stage.chunk?, chunk ∈ s.offered
  cause : ∀ stage ∈ s.running, ∀ diagnostic ∈ stage.diagnostic?, Cause s diagnostic
  caused : ∀ diagnostic ∈ s.diagnostics, Cause s diagnostic
  reason : s.animationDegraded = true → ∃ diagnostic, Cause s diagnostic
  pushed : ∀ input result, .push input result ∈ s.pipeline → ∃ chunk ∈ s.offered, convertPcm chunk = .ok input

section Runs

variable {callbacks : TtsCallbacks} {onDiagnostic : Bool} {s s' : St}

theorem gaveUp_append (a b : List Stage) : gaveUp (a ++ b) = gaveUp a + gaveUp b := by
  unfold gaveUp
  rw [List.map_append, List.sum_append]

/-- A step of a call: its stage is taken out of the others' and its next one put in. -/
theorem step_advance {index : Nat} {result : QueuePushResult}
    (h : step callbacks onDiagnostic s (.advance index result) = some s') :
    ∃ stage rest, (stage :: rest).Perm s.running ∧ s.running[index]? = some stage ∧ rest = s.running.eraseIdx index ∧
      s' = { (advance callbacks onDiagnostic result { s with running := rest } stage).2 with
        running := rest ++ (advance callbacks onDiagnostic result { s with running := rest } stage).1.toList } := by
  simp only [step] at h
  obtain ⟨stage, hstage, rfl⟩ := Option.map_eq_some_iff.mp h
  obtain ⟨hlt, hget⟩ := List.getElem?_eq_some_iff.mp hstage
  refine ⟨stage, _, hget ▸ List.getElem_cons_eraseIdx_perm hlt, hstage, rfl, ?_⟩
  rw [(advance_frame callbacks onDiagnostic result _ stage).1]

theorem start_inv : Inv onDiagnostic {} := by
  refine ⟨Nat.le_refl _, fun _ => Nat.le_refl _, fun stage hmem => ?_, fun stage hmem => ?_, fun diagnostic hmem => ?_,
    fun hdegraded => ?_, fun input result hmem => ?_⟩
  · cases hmem
  · cases hmem
  · cases hmem
  · cases hdegraded
  · cases hmem

theorem Inv.call (h : Inv onDiagnostic s) (call : Call) (owed : List Downstream) :
    Inv onDiagnostic { s with
      running := s.running ++ [call.first], offered := s.offered ++ call.observed.toList, owed := owed } := by
  have hfirst : call.first.gaveUp = 0 ∧ call.first.diagnostic? = none ∧ call.first.chunk? = call.observed := by
    cases call <;> exact ⟨rfl, rfl, rfl⟩
  have hnone : gaveUp (s.running ++ [call.first]) = gaveUp s.running := by
    rw [gaveUp_append, gaveUp, gaveUp, List.map_singleton, List.sum_singleton, hfirst.1, Nat.add_zero]
  have hmono {diagnostic : AdapterDiagnostic} (hcause : Cause s diagnostic) :
      Cause { s with
        running := s.running ++ [call.first], offered := s.offered ++ call.observed.toList, owed := owed } diagnostic :=
    hcause.mono (List.subset_append_left _ _) fun _ hcall => hcall
  refine ⟨hnone ▸ h.once, fun htells => hnone ▸ h.told htells, ?_, ?_, fun d hd => hmono (h.caused d hd),
    fun hdegraded => (h.reason hdegraded).imp fun _ hcause => hmono hcause, fun input result hpush => ?_⟩
  · intro stage hstage chunk hchunk
    rcases List.mem_append.mp hstage with hold | hnew
    · exact List.mem_append_left _ (h.watched stage hold chunk hchunk)
    · cases List.mem_singleton.mp hnew
      rw [hfirst.2.2] at hchunk
      exact List.mem_append_right _ (Option.mem_toList.mpr hchunk)
  · intro stage hstage diagnostic hdiagnostic
    rcases List.mem_append.mp hstage with hold | hnew
    · exact hmono (h.cause stage hold diagnostic hdiagnostic)
    · cases List.mem_singleton.mp hnew
      rw [hfirst.2.1] at hdiagnostic
      cases hdiagnostic
  · obtain ⟨chunk, hchunk, hconvert⟩ := h.pushed input result hpush
    exact ⟨chunk, List.mem_append_left _ hchunk, hconvert⟩

theorem Inv.step (h : Inv onDiagnostic s) {e : Ev} (hstep : SpeechAnimationAdapter.step callbacks onDiagnostic s e = some s') :
    Inv onDiagnostic s' := by
  cases e with
  | call call =>
    cases hstep
    exact h.call call _
  | advance index result =>
    obtain ⟨stage, rest, hperm, -, -, rfl⟩ := step_advance hstep
    have hstage : stage ∈ s.running := hperm.mem_iff.mp List.mem_cons_self
    have hrest {other : Stage} (hother : other ∈ rest) : other ∈ s.running := hperm.mem_iff.mp (List.mem_cons_of_mem _ hother)
    have hcount : stage.gaveUp + gaveUp rest = gaveUp s.running := (hperm.map Stage.gaveUp).sum_nat
    have hflag := advance_flag callbacks onDiagnostic result { s with running := rest } stage
    obtain ⟨-, hoffered, -⟩ := advance_frame callbacks onDiagnostic result { s with running := rest } stage
    obtain ⟨more, hmore, hpushes, -⟩ := advance_pipeline callbacks onDiagnostic result { s with running := rest } stage
    have hlater := advance_cause callbacks onDiagnostic result { s with running := rest } stage (h.watched stage hstage)
      (h.cause stage hstage)
    have hchunks := advance_chunk callbacks onDiagnostic result { s with running := rest } stage
    have htold := advance_told callbacks onDiagnostic result { s with running := rest } stage
    have hdegraded := advance_degraded callbacks onDiagnostic result { s with running := rest } stage
    generalize advance callbacks onDiagnostic result { s with running := rest } stage = next at *
    have hmono {diagnostic : AdapterDiagnostic} (hcause : Cause s diagnostic) :
        Cause { next.2 with running := rest ++ next.1.toList } diagnostic := by
      refine hcause.mono ?_ ?_
      · exact hoffered.symm ▸ List.Subset.refl _
      · exact hmore.symm ▸ List.subset_append_left _ _
    have htotal : gaveUp (rest ++ next.1.toList) = gaveUp rest + gaveUp next.1.toList := gaveUp_append _ _
    refine ⟨?_, fun htells => ?_, ?_, ?_, ?_, ?_, ?_⟩
    · have honce := h.once
      have hatMost : next.2.diagnostics.length + gaveUp next.1.toList + s.flag ≤
          s.diagnostics.length + stage.gaveUp + next.2.flag := hflag.1
      show next.2.diagnostics.length + gaveUp (rest ++ next.1.toList) ≤ next.2.flag
      omega
    · have hbefore := h.told htells
      have hatLeast : s.diagnostics.length + stage.gaveUp + next.2.flag ≤
          next.2.diagnostics.length + gaveUp next.1.toList + s.flag := hflag.2 htells
      show next.2.flag ≤ next.2.diagnostics.length + gaveUp (rest ++ next.1.toList)
      omega
    · intro other hother chunk hchunk
      rw [hoffered]
      rcases List.mem_append.mp hother with hold | hnew
      · exact h.watched other (hrest hold) chunk hchunk
      · exact h.watched stage hstage chunk (hchunks other (Option.mem_toList.mp hnew) chunk hchunk)
    · intro other hother diagnostic hdiagnostic
      rcases List.mem_append.mp hother with hold | hnew
      · exact hmono (h.cause other (hrest hold) diagnostic hdiagnostic)
      · exact hlater other (Option.mem_toList.mp hnew) diagnostic hdiagnostic
    · intro diagnostic hdiagnostic
      rcases htold diagnostic hdiagnostic with hold | hnew
      · exact hmono (h.caused diagnostic hold)
      · exact hmono (h.cause stage hstage diagnostic hnew)
    · intro hset
      rcases hdegraded hset with hold | ⟨diagnostic, hnew⟩
      · exact (h.reason hold).imp fun _ hcause => hmono hcause
      · exact ⟨diagnostic, hmono (h.cause stage hstage diagnostic hnew)⟩
    · intro input r hpush
      rw [hoffered]
      rw [hmore] at hpush
      rcases List.mem_append.mp hpush with hold | hnew
      · exact h.pushed input r hold
      · obtain ⟨chunk, hchunk, hconvert⟩ := hpushes input r hnew
        exact ⟨chunk, h.watched stage hstage chunk hchunk, hconvert⟩

theorem reach_inv (h : Reach (SpeechAnimationAdapter.step callbacks onDiagnostic) anyStep {} s) : Inv onDiagnostic s :=
  h.inv start_inv fun _ _ _ _ hi _ hstep => hi.step hstep

end Runs

/-! ## After the animation is given up -/

/-- The animation was given up, and no call is past its load of the flag. -/
structure Quiet (s : St) : Prop where
  degraded : s.animationDegraded = true
  away : ∀ stage ∈ s.running, stage.touches = false

section Given

variable {callbacks : TtsCallbacks} {onDiagnostic : Bool} {s s' : St}

variable (callbacks onDiagnostic) in
theorem advance_quiet (result : QueuePushResult) {stage : Stage} (hdegraded : s.animationDegraded = true)
    (haway : stage.touches = false) :
    (∀ later ∈ (advance callbacks onDiagnostic result s stage).1, later.touches = false) ∧
      (advance callbacks onDiagnostic result s stage).2.animationDegraded = true := by
  cases stage with
  | push _ | cancelDegraded _ | complete | cancel _ => cases haway
  | forwardAudio chunk observeAudio =>
    refine ⟨fun later hlater => ?_, ?_⟩
    · cases observeAudio <;> cases hlater
      rfl
    · simp [advance, deliver_rest, hdegraded]
  | diagnose diagnostic =>
    refine ⟨fun later hlater => ?_, ?_⟩
    · cases hlater
    · cases onDiagnostic <;> exact hdegraded
  | _ =>
    refine ⟨fun later hlater => ?_, ?_⟩
    · simp only [advance, hdegraded, if_true] at hlater
      cases hlater <;> rfl
    · simp [advance, deliver_rest, hdegraded]

theorem Quiet.step (h : Quiet s) {e : Ev} (hstep : SpeechAnimationAdapter.step callbacks onDiagnostic s e = some s') :
    Quiet s' ∧ s'.pipeline = s.pipeline := by
  cases e with
  | call call =>
    cases hstep
    refine ⟨⟨h.degraded, fun stage hstage => ?_⟩, rfl⟩
    rcases List.mem_append.mp hstage with hold | hnew
    · exact h.away stage hold
    · cases List.mem_singleton.mp hnew
      cases call <;> rfl
  | advance index result =>
    obtain ⟨stage, rest, hperm, -, -, rfl⟩ := step_advance hstep
    have haway : stage.touches = false := h.away stage (hperm.mem_iff.mp List.mem_cons_self)
    have hdegraded : ({ s with running := rest } : St).animationDegraded = true := h.degraded
    obtain ⟨hlater, hset⟩ := advance_quiet callbacks onDiagnostic result hdegraded haway
    obtain ⟨more, hmore, -, hnone⟩ := advance_pipeline callbacks onDiagnostic result { s with running := rest } stage
    refine ⟨⟨hset, fun other hother => ?_⟩, ?_⟩
    · rcases List.mem_append.mp hother with hold | hnew
      · exact h.away other (hperm.mem_iff.mp (List.mem_cons_of_mem _ hold))
      · exact hlater other (Option.mem_toList.mp hnew)
    · show (advance callbacks onDiagnostic result { s with running := rest } stage).2.pipeline = s.pipeline
      rw [hmore, hnone haway, List.append_nil]

end Given

/-- A chunk of two samples that the pipeline has no room for. -/
def noRoom : List Ev :=
  [.call (.onAudio { requestId := 1, bytes := [0, 64, 0, 192], sampleCount := 2 } true), .advance 0 .accepted,
    .advance 0 .accepted, .advance 0 .full, .advance 0 .full, .advance 0 .full, .advance 0 .full]

section Playback

variable (callbacks : TtsCallbacks) (onDiagnostic : Bool) (result : QueuePushResult) (s : St) (stage : Stage)

/-- The calls that are still to come, as far as the application has set them. -/
def due (running : List Stage) : List Downstream := (running.flatMap Stage.pending).filter (isSet callbacks)

theorem due_append (a b : List Stage) : due callbacks (a ++ b) = due callbacks a ++ due callbacks b := by
  unfold due
  rw [List.flatMap_append, List.filter_append]

/-- A call of the application's is made in the stage at which it stops to be due. -/
theorem advance_downstream : (advance callbacks onDiagnostic result s stage).2.downstream ++
    due callbacks (advance callbacks onDiagnostic result s stage).1.toList = s.downstream ++ due callbacks [stage] := by
  cases stage with
  | push chunk =>
    simp only [advance]
    split
    · rfl
    · cases result <;> rfl
  | diagnose diagnostic => cases onDiagnostic <;> rfl
  | forwardAudio chunk observeAudio =>
    cases observeAudio <;> simp [advance, deliver_rest, due, Stage.pending]
  | _ => cases hdegraded : s.animationDegraded <;> simp [advance, deliver_rest, due, Stage.pending, hdegraded]

end Playback

section Owed

variable {callbacks : TtsCallbacks} {onDiagnostic : Bool} {s s' : St}

theorem due_first (call : Call) : due callbacks [call.first] = call.downstream.toList.filter (isSet callbacks) := by
  cases call <;> rfl

theorem owed_step {e : Ev} (h : (s.downstream ++ due callbacks s.running).Perm s.owed)
    (hstep : step callbacks onDiagnostic s e = some s') : (s'.downstream ++ due callbacks s'.running).Perm s'.owed := by
  cases e with
  | call call =>
    cases hstep
    show (s.downstream ++ due callbacks (s.running ++ [call.first])).Perm
      (s.owed ++ call.downstream.toList.filter (isSet callbacks))
    rw [due_append, due_first, ← List.append_assoc]
    exact h.append_right _
  | advance index result =>
    obtain ⟨stage, rest, hperm, -, -, rfl⟩ := step_advance hstep
    have hmade := advance_downstream callbacks onDiagnostic result { s with running := rest } stage
    have howed := (advance_frame callbacks onDiagnostic result { s with running := rest } stage).2.2
    generalize advance callbacks onDiagnostic result { s with running := rest } stage = next at *
    have hsame : (due callbacks (stage :: rest)).Perm (due callbacks s.running) := (hperm.flatMap_right _).filter _
    show (next.2.downstream ++ due callbacks (rest ++ next.1.toList)).Perm next.2.owed
    rw [howed, due_append]
    calc
      (next.2.downstream ++ (due callbacks rest ++ due callbacks next.1.toList)).Perm
          (next.2.downstream ++ (due callbacks next.1.toList ++ due callbacks rest)) :=
        List.perm_append_comm.append_left _
      _ = s.downstream ++ due callbacks (stage :: rest) := by
        rw [← List.append_assoc, hmade, List.append_assoc, ← due_append]
        rfl
      List.Perm _ (s.downstream ++ due callbacks s.running) := hsame.append_left _
      List.Perm _ s.owed := h

/-- One call at a time. -/
theorem serial_step {e : Ev} (h : s.running.length ≤ 1 ∧ s.downstream ++ due callbacks s.running = s.owed)
    (hok : serially s e) (hstep : step callbacks onDiagnostic s e = some s') :
    s'.running.length ≤ 1 ∧ s'.downstream ++ due callbacks s'.running = s'.owed := by
  obtain ⟨hone, hsame⟩ := h
  cases e with
  | call call =>
    cases hstep
    have hidle : s.running = [] := hok
    refine ⟨?_, ?_⟩
    · show (s.running ++ [call.first]).length ≤ 1
      rw [hidle]
      exact Nat.le_refl _
    · show s.downstream ++ due callbacks (s.running ++ [call.first]) =
        s.owed ++ call.downstream.toList.filter (isSet callbacks)
      rw [due_append, due_first, ← List.append_assoc, hsame]
  | advance index result =>
    obtain ⟨stage, rest, hperm, -, -, rfl⟩ := step_advance hstep
    have hlength : rest.length + 1 = s.running.length := hperm.length_eq
    have hrest : rest = [] := List.eq_nil_of_length_eq_zero (by omega)
    subst hrest
    have hrunning : s.running = [stage] := (List.singleton_perm.mp hperm).symm
    have hmade := advance_downstream callbacks onDiagnostic result { s with running := [] } stage
    have howed := (advance_frame callbacks onDiagnostic result { s with running := [] } stage).2.2
    generalize advance callbacks onDiagnostic result { s with running := [] } stage = next at *
    refine ⟨?_, ?_⟩
    · show next.1.toList.length ≤ 1
      cases next.1 <;> simp
    · show next.2.downstream ++ due callbacks next.1.toList = next.2.owed
      rw [hmade, howed, ← hsame, hrunning]

end Owed

/-- Whatever becomes of the animation, each callback makes its call of the application's once
    if that is set, and callbacks one at a time make them in their order. -/
theorem downstream_is_untouched (callbacks : TtsCallbacks) (onDiagnostic : Bool) (s : St)
    (hs : Reach (step callbacks onDiagnostic) anyStep {} s) :
    (s.downstream ++ due callbacks s.running).Perm s.owed ∧
      (Reach (step callbacks onDiagnostic) serially {} s → s.downstream ++ due callbacks s.running = s.owed) := by
  refine ⟨hs.inv (I := fun s => (s.downstream ++ due callbacks s.running).Perm s.owed) (.refl _)
    fun _ _ _ _ h _ hstep => owed_step h hstep, fun hserial => ?_⟩
  exact (hserial.inv (I := fun s => s.running.length ≤ 1 ∧ s.downstream ++ due callbacks s.running = s.owed)
    ⟨Nat.zero_le _, rfl⟩ fun _ _ _ _ h hok hstep => serial_step h hok hstep).2

theorem a_full_pipeline_is_not_heard : ∃ s, Reach (step {} true) anyStep {} s ∧ s.animationDegraded = true ∧
    s.downstream = s.owed := by
  obtain ⟨s, hs, hfull⟩ : ∃ s, Reach (step {} true) serially {} s ∧
      (s.animationDegraded && decide (s.running = [])) = true := exists_reach_of_run noRoom (by decide)
  obtain ⟨hdegraded, hidle⟩ := Bool.and_eq_true_iff.mp hfull
  have hany : Reach (step {} true) anyStep {} s := hs.mono fun _ _ _ => trivial
  have hsame := (downstream_is_untouched {} true s hany).2 hs
  rw [of_decide_eq_true hidle] at hsame
  exact ⟨s, hany, hdegraded, (List.append_nil _).symm.trans hsame⟩

/-! ## What a client gives -/

theorem sampleAt_exact (low high : UInt8) (rest : List UInt8) :
    sampleAt (low :: high :: rest) 0 = ofPcm16 (readLe 2 [low, high]) := by
  have hraw : low.toNat ||| high.toNat <<< 8 = readLe 2 [low, high] := by
    rw [Nat.or_comm, ← Nat.shiftLeft_add_eq_or_of_lt low.toNat_lt, Nat.shiftLeft_eq]
    simp only [readLe]
    omega
  show clampUnit (ofPcm16 (low.toNat ||| high.toNat <<< 8)) = _
  rw [hraw, clampUnit_ofPcm16 (readLe_lt 2 _)]

/-- The loop of `convert_pcm` gives what the reader of reference audio makes of the bytes. -/
theorem samples_eq {n : Nat} {bytes : List UInt8} (h : bytes.length = n * 2) :
    ((List.range n).map fun index => sampleAt bytes (index * 2)) = pcm16Samples bytes := by
  induction n generalizing bytes with
  | zero =>
    rw [List.eq_nil_of_length_eq_zero (h.trans (Nat.zero_mul 2))]
    rfl
  | succ n ih =>
    obtain ⟨low, high, rest, rfl⟩ : ∃ low high rest, bytes = low :: high :: rest := by
      cases bytes with
      | nil => simp at h
      | cons low tail =>
        cases tail with
        | nil => simp at h; omega
        | cons high rest => exact ⟨low, high, rest, rfl⟩
    have hrest : rest.length = n * 2 := by
      simp only [List.length_cons] at h
      omega
    rw [List.range_succ_eq_map, List.map_cons, List.map_map, pcm16Samples, ← ih hrest]
    refine congrArg₂ List.cons (sampleAt_exact low high rest) (List.map_congr_left fun index _ => ?_)
    show sampleAt (low :: high :: rest) ((index + 1) * 2) = sampleAt rest (index * 2)
    rw [Nat.add_mul]
    rfl

theorem convertPcm_ok {source : PcmChunk} {input : SpeechTimingChunk} : convertPcm source = .ok input ↔
    (source.format.sampleFormat = CppString.lit "s16le" ∧ source.format.channels = 1 ∧ source.format.sampleRate ≠ 0 ∧
      source.sampleCount ≠ 0 ∧ source.bytes.length = source.sampleCount.toNat * 2) ∧
    input = ⟨source.requestId, source.firstSample, source.format.sampleRate, source.sampleCount, pcm16Samples source.bytes⟩ := by
  have hlt := source.sampleCount.toNat_lt
  unfold convertPcm
  split
  · rename_i hformat
    constructor <;> intro h
    · cases h
    · exact (hformat.elim (fun hne => hne h.1.1) fun hne => hne h.1.2.1).elim
  split
  · rename_i hformat hsize
    constructor <;> intro h
    · cases h
    · obtain ⟨⟨-, -, hrate, hcount, hlength⟩, -⟩ := h
      rcases hsize with hbad | hbad | hbad | hbad
      · exact absurd hbad hrate
      · exact absurd hbad hcount
      · omega
      · exact absurd hlength hbad
  · rename_i hformat hsize
    simp only [not_or, ne_eq, not_not] at hformat hsize
    obtain ⟨hrate, hcount, -, hlength⟩ := hsize
    rw [samples_eq hlength, Except.ok.injEq, eq_comm]
    exact ⟨fun h => ⟨⟨hformat.1, hformat.2, hrate, hcount, hlength⟩, h⟩, fun h => h.2⟩

/-- A chunk of a request as its `on_audio` gets it. -/
def ofClient (r : RequestId) (chunk : Client.PcmChunk) : PcmChunk :=
  ⟨r, chunk.format, chunk.bytes, chunk.firstSample, chunk.sampleCount⟩

section Client

variable {r : RequestId} {chunk : Client.PcmChunk} {chunks : List Client.PcmChunk} {inputs : List SpeechTimingChunk}

/-- A chunk of whole frames has the length that `convert_pcm` wants. -/
theorem converts_iff (hwhole : chunk.Whole) : (∃ input, convertPcm (ofClient r chunk) = .ok input) ↔ chunk.bytes ≠ [] ∧
    chunk.format.sampleFormat = CppString.lit "s16le" ∧ chunk.format.channels = 1 ∧ chunk.format.sampleRate ≠ 0 := by
  refine ⟨fun ⟨input, h⟩ => ?_, fun ⟨hne, hformat, hmono, hrate⟩ => ?_⟩
  · obtain ⟨⟨hformat, hmono, hrate, hcount, hlength⟩, -⟩ := convertPcm_ok.mp h
    refine ⟨fun hempty => hcount ?_, hformat, hmono, hrate⟩
    have hlength : chunk.bytes.length = chunk.sampleCount.toNat * 2 := hlength
    rw [hempty] at hlength
    refine UInt32.toNat_inj.mp ?_
    show chunk.sampleCount.toNat = 0
    simpa using hlength.symm
  · have hsize : Client.frameSize chunk.format = 2 := by
      unfold Client.frameSize Client.bytesPerSample
      rw [hformat, hmono]
      rfl
    have hlength : chunk.sampleCount.toNat * 2 = chunk.bytes.length := hsize ▸ hwhole
    have hcount : chunk.sampleCount ≠ 0 := by
      intro hzero
      rw [hzero] at hlength
      exact hne (List.eq_nil_of_length_eq_zero hlength.symm)
    exact ⟨_, convertPcm_ok.mpr ⟨⟨hformat, hmono, hrate, hcount, hlength.symm⟩, rfl⟩⟩

theorem converted_pcm (h : chunks.map (fun chunk => convertPcm (ofClient r chunk)) = inputs.map .ok) :
    inputs.flatMap (·.pcm) = pcm16Samples (chunks.flatMap (·.bytes)) := by
  induction chunks generalizing inputs with
  | nil =>
    rw [List.map_eq_nil_iff.mp h.symm]
    rfl
  | cons chunk chunks ih =>
    obtain ⟨input, rest, rfl, hinput, hrest⟩ := List.map_eq_cons_iff.mp h.symm
    obtain ⟨⟨-, -, -, -, hlength⟩, rfl⟩ := convertPcm_ok.mp hinput.symm
    have heven : chunk.bytes.length % 2 = 0 := by
      have hlength : chunk.bytes.length = chunk.sampleCount.toNat * 2 := hlength
      omega
    rw [List.flatMap_cons, List.flatMap_cons, ih hrest.symm, pcm16Samples_append heven]
    rfl

theorem input_length {input : SpeechTimingChunk} (h : convertPcm (ofClient r chunk) = .ok input) :
    input.pcm.length = chunk.sampleCount.toNat := by
  obtain ⟨⟨-, -, -, -, hlength⟩, rfl⟩ := convertPcm_ok.mp h
  show (pcm16Samples (ofClient r chunk).bytes).length = chunk.sampleCount.toNat
  rw [← samples_eq hlength, List.length_map, List.length_range]
  rfl

theorem converted_length (h : chunks.map (fun chunk => convertPcm (ofClient r chunk)) = inputs.map .ok) :
    inputs.map (fun input => input.pcm.length) = chunks.map fun chunk => chunk.sampleCount.toNat := by
  induction chunks generalizing inputs with
  | nil =>
    rw [List.map_eq_nil_iff.mp h.symm]
    rfl
  | cons chunk chunks ih =>
    obtain ⟨input, rest, rfl, hinput, hrest⟩ := List.map_eq_cons_iff.mp h.symm
    rw [List.map_cons, List.map_cons, ih hrest.symm, input_length hinput.symm]

theorem samples_ofNat (chunks : List Client.PcmChunk) :
    Client.samples chunks = UInt64.ofNat (chunks.map fun chunk => chunk.sampleCount.toNat).sum := by
  induction chunks with
  | nil => rfl
  | cons chunk chunks ih =>
    have hlt := chunk.sampleCount.toNat_lt
    have hcount : chunk.sampleCount.toUInt64 = UInt64.ofNat chunk.sampleCount.toNat := by
      rw [← UInt64.toNat_inj, UInt32.toNat_toUInt64, UInt64.toNat_ofNat_of_lt' (by simp only [UInt64.size]; omega)]
    rw [List.map_cons, List.sum_cons, UInt64.ofNat_add, ← ih, ← hcount]
    exact List.sum_cons

end Client

/-- The chunks that a client gives to the `on_audio` of a request: those that are mono PCM16
    with bytes and a rate are taken, and no others. Where all were taken, the floats are
    exactly the samples of the request's audio, and each input tells its place among them. -/
theorem client_audio_converts (opts : Client.Options) (s : Client.St) (hs : Client.Reachable opts s) (r : RequestId) :
    (∀ chunk ∈ Client.audioOf r s.log, (∃ input, convertPcm (ofClient r chunk) = .ok input) ↔ chunk.bytes ≠ [] ∧
      chunk.format.sampleFormat = CppString.lit "s16le" ∧ chunk.format.channels = 1 ∧ chunk.format.sampleRate ≠ 0) ∧
    ∀ inputs, (Client.audioOf r s.log).map (fun chunk => convertPcm (ofClient r chunk)) = inputs.map .ok →
      (inputs.flatMap (·.pcm)).map units = (pcm16 ((Client.audioOf r s.log).flatMap (·.bytes))).map (· * 2 ^ 134) ∧
      ∀ before input after, inputs = before ++ input :: after →
        input.requestId = r ∧ input.sampleCount.toNat = input.pcm.length ∧
        input.firstSample = UInt64.ofNat (before.map (fun earlier => earlier.pcm.length)).sum := by
  obtain ⟨callbacks, chunks, htimeline⟩ := Client.reach_timeline hs r
  have hconsecutive : Client.Consecutive (Client.audioOf r s.log) := htimeline.consecutive.of_prefix htimeline.audio_prefix
  refine ⟨fun chunk hchunk => converts_iff (htimeline.whole chunk (htimeline.audio_prefix.subset hchunk)), ?_⟩
  intro inputs hinputs
  refine ⟨?_, fun before input after hsplit => ?_⟩
  · rw [converted_pcm hinputs, units_pcm16Samples]
  · rw [hsplit, List.map_append, List.map_cons] at hinputs
    obtain ⟨first, last, hchunks, hfirst, hlast⟩ := List.map_eq_append_iff.mp hinputs
    obtain ⟨chunk, others, rfl, hinput, -⟩ := List.map_eq_cons_iff.mp hlast
    have hlengths := converted_length hfirst
    have hlength := input_length hinput
    obtain ⟨-, rfl⟩ := convertPcm_ok.mp hinput
    refine ⟨rfl, hlength.symm, ?_⟩
    rw [hlengths, ← samples_ofNat]
    exact hconsecutive first chunk others hchunks

theorem two_chunks_join : ∃ (s : Client.St) (inputs : List SpeechTimingChunk), Client.Reachable Client.sampleOptions s ∧ inputs.map (·.firstSample) = [0, 1] ∧
    (inputs.flatMap (·.pcm)).map units = (pcm16 ((Client.audioOf 1 s.log).flatMap (·.bytes))).map (· * 2 ^ 134) := by
  obtain ⟨s, hs, hp⟩ : ∃ s, Client.Reachable Client.sampleOptions s ∧
      decide ((Client.audioOf 1 s.log).map (fun chunk => convertPcm (ofClient 1 chunk)) =
        [⟨1, 0, 24000, 1, [0]⟩, ⟨1, 1, 24000, 2, [0, 0]⟩].map .ok) = true :=
    exists_reach_of_run Client.twoChunks (by decide +kernel)
  exact ⟨s, _, hs, rfl, ((client_audio_converts Client.sampleOptions s hs 1).2 _ (of_decide_eq_true hp)).1⟩

end QwenTtsBridge.Playback.SpeechAnimationAdapter
