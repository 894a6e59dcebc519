/-
  QwenTtsBridge.Audio.SaveWav — the callbacks that write a request's audio to a WAV file
  (`audio/save_wav_callbacks.cpp`).

  A callback goes through stages, each of which holds `state.mutex` or the writer's mutex
  or neither; any number of callbacks may be under way on different threads, and their stages
  come in any order (`Ev.advance`). `on_audio` looks at `state.terminal` again while it holds
  the writer's mutex and lets go of the state before it writes.

  `accepted` and `concluded` are for the statements: the PCM of the calls of `write_pcm` that
  returned, and whether a terminal callback has been called.

  - `verdict_and_file`: the first verdict stands; a successful session leaves a WAV file of
    the PCM that was accepted, and nothing touches it any more.
  - `session_ends`: once a terminal callback is called, the callbacks under way come to their
    ends in every order and there is a verdict.
  - `serial_session`: of callbacks that come one at a time a session is successful only if
    `on_completed` is the first that is not `on_audio`, and then the file has every chunk.
-/

import QwenTtsBridge.Audio.PostProcessor
import QwenTtsBridge.Audio.WavWriter
import QwenTtsBridge.Client.Request
import QwenTtsBridge.Lib.Inevitable
import Mathlib.Algebra.Ring.Nat
import Mathlib.Data.List.Perm.Basic

namespace QwenTtsBridge.Audio.SaveWav

open QwenTtsBridge.Client QwenTtsBridge.Lib QwenTtsBridge.Lib.Transition QwenTtsBridge.Protocol.Control

/-! ## Model -/

structure SaveWavState where
  terminal : Bool := false
  success : Bool := false
  message : CppString := []
  audioChunks : UInt64 := 0
  audioBytes : UInt64 := 0
  deriving DecidableEq, Repr

def markSaveWavFinished (success : Bool) (message : CppString) (state : SaveWavState) : SaveWavState :=
  if state.terminal then state else { state with terminal := true, success := success, message := message }

inductive Callback where
  | audio (chunk : PcmChunk)
  | completed
  | cancelled
  | error (error : TtsError)
  deriving DecidableEq, Repr

def Callback.isAudio : Callback → Bool
  | .audio _ => true
  | .completed | .cancelled | .error _ => false

/-- What a callback does next. -/
inductive Stage where
  | audio (chunk : PcmChunk)
  | lockWriter (chunk : PcmChunk)
  /-- The callback holds the writer's mutex. -/
  | write (chunk : PcmChunk)
  | count (chunk : PcmChunk)
  | complete
  | closeCompleted
  /-- `close_writer_ignoring_errors`, and the verdict after it. -/
  | closeIgnoringErrors (message : CppString)
  | mark (success : Bool) (message : CppString)
  deriving DecidableEq, Repr

def Callback.first : Callback → Stage
  | .audio chunk => .audio chunk
  | .completed => .complete
  | .cancelled => .closeIgnoringErrors (CppString.lit "request was cancelled")
  | .error e =>
    .closeIgnoringErrors (e.category ++ CppString.lit "/" ++ e.code ++ CppString.lit ": " ++ e.message)

structure St where
  state : SaveWavState := {}
  writer : WavWriter
  writerLocked : Bool := false
  running : List Stage := []
  accepted : List UInt8 := []
  concluded : Bool := false
  deriving DecidableEq, Repr

def matchesFormat (chunk : PcmChunk) (expected : AudioFormat) : Bool :=
  chunk.format.sampleFormat == expected.sampleFormat && chunk.format.sampleRate == expected.sampleRate &&
    chunk.format.channels == expected.channels

section Steps

variable (expected : AudioFormat) (faults : Nat → Option Nat)

/-- One stage of a callback, and the next one; `none` while another callback holds the
    writer's mutex. -/
def advance (s : St) : Stage → Option (Option Stage × St)
  | .audio chunk =>
    if s.state.terminal then some (none, s)
    else if !matchesFormat chunk expected then
      some (some (.mark false (CppString.lit "worker produced an unexpected PCM format")), s)
    else some (some (.lockWriter chunk), s)
  | .lockWriter chunk =>
    if s.writerLocked then none
    else if s.state.terminal then some (none, s)
    else some (some (.write chunk), { s with writerLocked := true })
  | .write chunk =>
    match s.writer.writePcm faults (.bytes chunk.bytes) with
    | (writer, .ok ()) =>
      some (some (.count chunk),
        { s with writer := writer, writerLocked := false, accepted := s.accepted ++ chunk.bytes })
    | (writer, .error e) => some (some (.mark false e), { s with writer := writer, writerLocked := false })
  | .count chunk =>
    if s.state.terminal then some (none, s)
    else
      some (none, { s with state :=
        { s.state with
          audioChunks := s.state.audioChunks + 1
          audioBytes := s.state.audioBytes + UInt64.ofNat chunk.bytes.length } })
  | .complete => if s.state.terminal then some (none, s) else some (some .closeCompleted, s)
  | .closeCompleted =>
    if s.writerLocked then none
    else
      match s.writer.close faults with
      | (writer, .ok ()) => some (some (.mark true (CppString.lit "completed")), { s with writer := writer })
      | (writer, .error e) => some (some (.mark false e), { s with writer := writer })
  | .closeIgnoringErrors message =>
    if s.writerLocked then none
    else some (some (.mark false message), { s with writer := (s.writer.close faults).1 })
  | .mark success message => some (none, { s with state := markSaveWavFinished success message s.state })

inductive Ev where
  | call (callback : Callback)
  /-- The callback at this place of the list goes on. -/
  | advance (index : Nat)
  deriving DecidableEq, Repr

def step (s : St) : Ev → Option St
  | .call callback =>
    some { s with running := s.running ++ [callback.first], concluded := s.concluded || !callback.isAudio }
  | .advance index =>
    (s.running[index]?).bind fun stage =>
      (advance expected faults { s with running := s.running.eraseIdx index } stage).map fun next =>
        { next.2 with running := next.2.running ++ next.1.toList }

end Steps

/-- A session with a writer that has just been made. -/
def start (writer : WavWriter) : St := { writer := writer }

/-! ## One stage -/

section Stages

variable {expected : AudioFormat} {faults : Nat → Option Nat} {s s' : St} {stage : Stage} {next : Option Stage}

def Stage.minds : Stage → Bool
  | .audio _ | .lockWriter _ | .count _ | .complete => true
  | .write _ | .closeCompleted | .closeIgnoringErrors _ | .mark _ _ => false

/-- What a stage can do. -/
inductive Moved (expected : AudioFormat) (faults : Nat → Option Nat) (s : St) : Stage → Option Stage → St → Prop
  | late (stage : Stage) : stage.minds = true → s.state.terminal = true → Moved expected faults s stage none s
  | unexpected (chunk : PcmChunk) (message : CppString) : s.state.terminal = false → matchesFormat chunk expected = false →
      Moved expected faults s (.audio chunk) (some (.mark false message)) s
  | taken (chunk : PcmChunk) : s.state.terminal = false → matchesFormat chunk expected = true →
      Moved expected faults s (.audio chunk) (some (.lockWriter chunk)) s
  | locked (chunk : PcmChunk) : s.writerLocked = false → s.state.terminal = false →
      Moved expected faults s (.lockWriter chunk) (some (.write chunk)) { s with writerLocked := true }
  | written (chunk : PcmChunk) : (s.writer.writePcm faults (.bytes chunk.bytes)).2 = .ok () →
      Moved expected faults s (.write chunk) (some (.count chunk))
        { s with
          writer := (s.writer.writePcm faults (.bytes chunk.bytes)).1
          writerLocked := false
          accepted := s.accepted ++ chunk.bytes }
  | broken (chunk : PcmChunk) (message : CppString) : (s.writer.writePcm faults (.bytes chunk.bytes)).2 = .error message →
      Moved expected faults s (.write chunk) (some (.mark false message))
        { s with writer := (s.writer.writePcm faults (.bytes chunk.bytes)).1, writerLocked := false }
  | counted (chunk : PcmChunk) : s.state.terminal = false →
      Moved expected faults s (.count chunk) none
        { s with state :=
          { s.state with
            audioChunks := s.state.audioChunks + 1
            audioBytes := s.state.audioBytes + UInt64.ofNat chunk.bytes.length } }
  | completing : s.state.terminal = false → Moved expected faults s .complete (some .closeCompleted) s
  | closed : s.writerLocked = false → (s.writer.close faults).2 = .ok () →
      Moved expected faults s .closeCompleted (some (.mark true (CppString.lit "completed")))
        { s with writer := (s.writer.close faults).1 }
  | unclosed (message : CppString) : s.writerLocked = false → (s.writer.close faults).2 = .error message →
      Moved expected faults s .closeCompleted (some (.mark false message)) { s with writer := (s.writer.close faults).1 }
  | ended (message : CppString) : s.writerLocked = false →
      Moved expected faults s (.closeIgnoringErrors message) (some (.mark false message))
        { s with writer := (s.writer.close faults).1 }
  | marked (success : Bool) (message : CppString) :
      Moved expected faults s (.mark success message) none
        { s with state := markSaveWavFinished success message s.state }

theorem advance_moved (h : advance expected faults s stage = some (next, s')) : Moved expected faults s stage next s' := by
  cases stage with
  | audio chunk =>
    simp only [advance] at h
    split at h
    · cases h
      exact .late _ rfl ‹_›
    split at h <;> cases h
    · exact .unexpected chunk _ (by simpa using ‹¬ s.state.terminal = true›) (by simpa using ‹(!matchesFormat chunk expected) = true›)
    · exact .taken chunk (by simpa using ‹¬ s.state.terminal = true›) (by simpa using ‹¬ (!matchesFormat chunk expected) = true›)
  | lockWriter chunk =>
    simp only [advance] at h
    split at h
    · cases h
    split at h <;> cases h
    · exact .late _ rfl ‹_›
    · exact .locked chunk (by simpa using ‹¬ s.writerLocked = true›) (by simpa using ‹¬ s.state.terminal = true›)
  | write chunk =>
    simp only [advance] at h
    generalize hwrite : s.writer.writePcm faults (.bytes chunk.bytes) = result at h
    obtain ⟨writer, _ | _⟩ := result
    · cases h
      have hmoved : Moved expected faults s (.write chunk) _ _ := .broken chunk _ (congrArg Prod.snd hwrite)
      rwa [hwrite] at hmoved
    · cases h
      have hmoved : Moved expected faults s (.write chunk) _ _ := .written chunk (congrArg Prod.snd hwrite)
      rwa [hwrite] at hmoved
  | count chunk =>
    simp only [advance] at h
    split at h <;> cases h
    · exact .late _ rfl ‹_›
    · exact .counted chunk (by simpa using ‹¬ s.state.terminal = true›)
  | complete =>
    simp only [advance] at h
    split at h <;> cases h
    · exact .late _ rfl ‹_›
    · exact .completing (by simpa using ‹¬ s.state.terminal = true›)
  | closeCompleted =>
    simp only [advance] at h
    split at h
    · cases h
    have hfree : s.writerLocked = false := by simpa using ‹¬ s.writerLocked = true›
    generalize hclose : s.writer.close faults = result at h
    obtain ⟨writer, _ | _⟩ := result
    · cases h
      have hmoved : Moved expected faults s .closeCompleted _ _ := .unclosed _ hfree (congrArg Prod.snd hclose)
      rwa [hclose] at hmoved
    · cases h
      have hmoved : Moved expected faults s .closeCompleted _ _ := .closed hfree (congrArg Prod.snd hclose)
      rwa [hclose] at hmoved
  | closeIgnoringErrors message =>
    simp only [advance] at h
    split at h <;> cases h
    exact .ended message (by simpa using ‹¬ s.writerLocked = true›)
  | mark success message =>
    cases h
    exact .marked success message

/-- A step of a callback: its stage is taken out of the others' and its next one put in. -/
theorem step_advance {index : Nat} (h : step expected faults s (.advance index) = some s') :
    ∃ stage rest next s₁, (stage :: rest).Perm s.running ∧ s.running[index]? = some stage ∧
      Moved expected faults { s with running := rest } stage next s₁ ∧ s' = { s₁ with running := s₁.running ++ next.toList } := by
  simp only [step] at h
  obtain ⟨stage, hstage, h⟩ := Option.bind_eq_some_iff.mp h
  obtain ⟨next, hnext, rfl⟩ := Option.map_eq_some_iff.mp h
  obtain ⟨hlt, hget⟩ := List.getElem?_eq_some_iff.mp hstage
  exact ⟨stage, s.running.eraseIdx index, next.1, next.2, hget ▸ List.getElem_cons_eraseIdx_perm hlt, hstage,
    advance_moved hnext, rfl⟩

theorem Moved.running (h : Moved expected faults s stage next s') : s'.running = s.running ∧ s'.concluded = s.concluded := by
  cases h <;> exact ⟨rfl, rfl⟩

end Stages

/-! ## Every run -/

/-- The bytes that a callback has written and not counted. -/
def Stage.uncounted : Stage → Nat
  | .count chunk => chunk.bytes.length
  | .audio _ | .lockWriter _ | .write _ | .complete | .closeCompleted | .closeIgnoringErrors _ | .mark _ _ => 0

def Stage.succeeds : Stage → Prop
  | .mark success _ => success = true
  | .audio _ | .lockWriter _ | .write _ | .count _ | .complete | .closeCompleted | .closeIgnoringErrors _ => False

/-- The stages of `on_completed`, `on_cancelled` and `on_error`, and those that end in a verdict. -/
def Stage.concludes : Stage → Prop
  | .complete | .closeCompleted | .closeIgnoringErrors _ | .mark _ _ => True
  | .audio _ | .lockWriter _ | .write _ | .count _ => False

def uncounted (running : List Stage) : Nat := (running.map Stage.uncounted).sum

structure Inv (s : St) : Prop where
  holds : s.writer.Holds s.accepted
  verdict : s.state.success = true → s.state.terminal = true ∧ s.state.message = CppString.lit "completed" ∧
    s.writer.closed = true
  succeeds : ∀ stage ∈ s.running, stage.succeeds →
    stage = .mark true (CppString.lit "completed") ∧ s.writer.closed = true
  counted : s.state.audioBytes.toNat + uncounted s.running ≤ s.accepted.length
  concludes : s.concluded = true → s.state.terminal = true ∨ ∃ stage ∈ s.running, stage.concludes

section Runs

variable {expected : AudioFormat} {faults : Nat → Option Nat} {s s' : St} {stage : Stage} {next : Option Stage}

theorem uncounted_perm {a b : List Stage} (h : a.Perm b) : uncounted a = uncounted b := (h.map _).sum_nat

theorem uncounted_append (a b : List Stage) : uncounted (a ++ b) = uncounted a + uncounted b := by
  unfold uncounted
  rw [List.map_append, List.sum_append]

theorem start_inv {w : WavWriter} (h : w.Holds []) : Inv (start w) := by
  refine ⟨h, fun hsuccess => ?_, fun stage hmem => ?_, Nat.le_refl _, fun hconcluded => ?_⟩
  · cases hsuccess
  · cases hmem
  · cases hconcluded

theorem Inv.perm {running : List Stage} (hi : Inv s) (h : running.Perm s.running) : Inv { s with running := running } := by
  refine ⟨hi.holds, hi.verdict, fun stage hmem => hi.succeeds stage (h.mem_iff.mp hmem), ?_, fun hconcluded => ?_⟩
  · rw [uncounted_perm h]
    exact hi.counted
  · rcases hi.concludes hconcluded with hterminal | ⟨stage, hmem, hstage⟩
    · exact .inl hterminal
    · exact .inr ⟨stage, h.mem_iff.mpr hmem, hstage⟩

theorem writePcm_closed {w : WavWriter} (pcm : WavWriter.PcmData) (h : w.closed = true) :
    w.writePcm faults pcm = (w, WavWriter.thrown "cannot write PCM to a closed WAV file") := by
  unfold WavWriter.writePcm
  exact if_pos h

theorem close_closed {w : WavWriter} (h : w.closed = true) : w.close faults = (w, .ok ()) := by
  unfold WavWriter.close
  exact if_pos h

theorem closed_of_close {w : WavWriter} (hlimit : w.dataSize ≤ WavWriter.maxDataSize) (h : (w.close faults).2 = .ok ()) :
    (w.close faults).1.closed = true := by
  have hcases : WavWriter.Closed faults w (w.close faults) := WavWriter.close_closed hlimit
  generalize w.close faults = result at hcases h
  cases hcases with
  | already hclosed => exact hclosed
  | broken e file hfile hfailed hopen => cases h
  | closed hopen hgood => rfl

/-- A closed writer stays as it is. -/
theorem Moved.writer_closed (h : Moved expected faults s stage next s') (hclosed : s.writer.closed = true) :
    s'.writer = s.writer ∧ s'.accepted = s.accepted := by
  cases h with
  | written chunk hok =>
    rw [writePcm_closed _ hclosed] at hok
    cases hok
  | broken chunk message hbroken =>
    refine ⟨?_, rfl⟩
    dsimp only
    rw [writePcm_closed _ hclosed]
  | closed hfree hok => exact ⟨congrArg Prod.fst (close_closed hclosed), rfl⟩
  | unclosed message hfree hbroken => exact ⟨congrArg Prod.fst (close_closed hclosed), rfl⟩
  | ended message hfree => exact ⟨congrArg Prod.fst (close_closed hclosed), rfl⟩
  | late _ _ _ => exact ⟨rfl, rfl⟩
  | unexpected chunk message _ _ => exact ⟨rfl, rfl⟩
  | taken chunk _ _ => exact ⟨rfl, rfl⟩
  | locked chunk _ _ => exact ⟨rfl, rfl⟩
  | counted chunk _ => exact ⟨rfl, rfl⟩
  | completing _ => exact ⟨rfl, rfl⟩
  | marked success message => exact ⟨rfl, rfl⟩

theorem Moved.holds (h : Moved expected faults s stage next s') (hs : s.writer.Holds s.accepted) :
    s'.writer.Holds s'.accepted := by
  cases h with
  | written chunk hok =>
    have hwritten : (s.writer.writePcm faults (.bytes chunk.bytes)).1.Holds _ := hs.writePcm
    rw [if_pos hok] at hwritten
    exact hwritten
  | broken chunk message hbroken =>
    have hwritten : (s.writer.writePcm faults (.bytes chunk.bytes)).1.Holds _ := hs.writePcm
    rw [if_neg (by simp [hbroken]), List.append_nil] at hwritten
    exact hwritten
  | closed hfree hok => exact hs.close
  | unclosed message hfree hbroken => exact hs.close
  | ended message hfree => exact hs.close
  | late _ _ _ => exact hs
  | unexpected chunk message _ _ => exact hs
  | taken chunk _ _ => exact hs
  | locked chunk _ _ => exact hs
  | counted chunk _ => exact hs
  | completing _ => exact hs
  | marked success message => exact hs

/-- What a stage does to the verdict and the counters. -/
inductive SaveWavState.Moved (state : SaveWavState) : Stage → SaveWavState → Prop
  | same (stage : Stage) : state.Moved stage state
  | counted (chunk : PcmChunk) : state.terminal = false → state.Moved (.count chunk)
      { state with
        audioChunks := state.audioChunks + 1
        audioBytes := state.audioBytes + UInt64.ofNat chunk.bytes.length }
  | marked (success : Bool) (message : CppString) : state.terminal = false → state.Moved (.mark success message)
      { state with terminal := true, success := success, message := message }

theorem Moved.state (h : Moved expected faults s stage next s') : s.state.Moved stage s'.state := by
  cases h with
  | counted chunk hterminal => exact .counted chunk hterminal
  | marked success message =>
    dsimp only
    unfold markSaveWavFinished
    by_cases hterminal : s.state.terminal = true
    · rw [if_pos hterminal]
      exact .same _
    · rw [if_neg hterminal]
      exact .marked success message (by simpa using hterminal)
  | late _ _ _ => exact .same _
  | unexpected chunk message _ _ => exact .same _
  | taken chunk _ _ => exact .same _
  | locked chunk _ _ => exact .same _
  | written chunk _ => exact .same _
  | broken chunk message _ => exact .same _
  | completing _ => exact .same _
  | closed _ _ => exact .same _
  | unclosed message _ _ => exact .same _
  | ended message _ => exact .same _

theorem SaveWavState.Moved.terminal {state state' : SaveWavState} (h : state.Moved stage state')
    (hterminal : state.terminal = true) : state' = state := by
  cases h with
  | same _ => rfl
  | counted chunk hopen => rw [hopen] at hterminal; cases hterminal
  | marked success message hopen => rw [hopen] at hterminal; cases hterminal

/-- Only `on_completed` goes on to a good verdict, and it has closed the writer. -/
theorem Moved.succeeds (h : Moved expected faults s stage next s') (hlimit : s.writer.dataSize ≤ WavWriter.maxDataSize) :
    ∀ later ∈ next, later.succeeds → later = .mark true (CppString.lit "completed") ∧ s'.writer.closed = true := by
  intro later hlater hsucceeds
  cases h with
  | closed hfree hok =>
    cases hlater
    exact ⟨rfl, closed_of_close hlimit hok⟩
  | late _ _ _ => cases hlater
  | counted chunk _ => cases hlater
  | marked success message => cases hlater
  | unexpected chunk message _ _ => cases hlater; cases hsucceeds
  | taken chunk _ _ => cases hlater; cases hsucceeds
  | locked chunk _ _ => cases hlater; cases hsucceeds
  | written chunk _ => cases hlater; cases hsucceeds
  | broken chunk message _ => cases hlater; cases hsucceeds
  | completing _ => cases hlater; cases hsucceeds
  | unclosed message _ _ => cases hlater; cases hsucceeds
  | ended message _ => cases hlater; cases hsucceeds

theorem audioBytes_le (state : SaveWavState) (n : Nat) :
    (state.audioBytes + UInt64.ofNat n).toNat ≤ state.audioBytes.toNat + n := by
  rw [UInt64.toNat_add, UInt64.toNat_ofNat']
  calc (state.audioBytes.toNat + n % 2 ^ 64) % 2 ^ 64 ≤ state.audioBytes.toNat + n % 2 ^ 64 := Nat.mod_le _ _
    _ ≤ state.audioBytes.toNat + n := Nat.add_le_add_left (Nat.mod_le _ _) _

theorem Moved.counts (h : Moved expected faults s stage next s') :
    s'.state.audioBytes.toNat + uncounted next.toList + s.accepted.length ≤
      s.state.audioBytes.toNat + stage.uncounted + s'.accepted.length := by
  cases h with
  | written chunk hok =>
    simp only [Option.toList_some, uncounted, List.map_cons, List.map_nil, List.sum_cons, List.sum_nil, Stage.uncounted,
      List.length_append]
    omega
  | counted chunk hterminal =>
    simp only [Option.toList_none, uncounted, List.map_nil, List.sum_nil, Stage.uncounted]
    have := audioBytes_le s.state chunk.bytes.length
    omega
  | marked success message =>
    have hstate : (markSaveWavFinished success message s.state).audioBytes = s.state.audioBytes := by
      unfold markSaveWavFinished
      split <;> rfl
    dsimp only
    rw [hstate]
    exact Nat.le_refl _
  | late _ _ _ => exact Nat.add_le_add_right (Nat.add_le_add_left (Nat.zero_le _) _) _
  | unexpected chunk message _ _ => exact Nat.le_refl _
  | taken chunk _ _ => exact Nat.le_refl _
  | locked chunk _ _ => exact Nat.le_refl _
  | broken chunk message _ => exact Nat.le_refl _
  | completing _ => exact Nat.le_refl _
  | closed _ _ => exact Nat.le_refl _
  | unclosed message _ _ => exact Nat.le_refl _
  | ended message _ => exact Nat.le_refl _

/-- A callback that ends in a verdict does not return without one. -/
theorem Moved.concludes (h : Moved expected faults s stage next s') (hstage : stage.concludes) :
    s'.state.terminal = true ∨ ∃ later ∈ next, later.concludes := by
  cases h with
  | late _ _ hterminal => exact .inl hterminal
  | marked success message =>
    dsimp only
    unfold markSaveWavFinished
    split
    · exact .inl ‹_›
    · exact .inl rfl
  | completing _ => exact .inr ⟨_, rfl, trivial⟩
  | closed _ _ => exact .inr ⟨_, rfl, trivial⟩
  | unclosed message _ _ => exact .inr ⟨_, rfl, trivial⟩
  | ended message _ => exact .inr ⟨_, rfl, trivial⟩
  | unexpected chunk message _ _ => cases hstage
  | taken chunk _ _ => cases hstage
  | locked chunk _ _ => cases hstage
  | written chunk _ => cases hstage
  | broken chunk message _ => cases hstage
  | counted chunk _ => cases hstage

theorem Inv.moved (hi : Inv { s with running := stage :: s.running }) (h : Moved expected faults s stage next s') :
    Inv { s' with running := s'.running ++ next.toList } := by
  obtain ⟨hrunning, hconcluded⟩ := h.running
  have hlimit : s.writer.dataSize ≤ WavWriter.maxDataSize := hi.holds.size ▸ hi.holds.limit
  have hmem {later : Stage} : later ∈ next.toList ↔ later ∈ next := Option.mem_toList
  refine ⟨h.holds hi.holds, fun hsuccess => ?_, fun later hlater hsucceeds => ?_, ?_, fun hdone => ?_⟩
  · have hverdict := hi.verdict
    have hstage := hi.succeeds stage List.mem_cons_self
    generalize hstate : s'.state = state' at hsuccess ⊢
    have hmoved : s.state.Moved stage state' := hstate ▸ h.state
    cases hmoved with
    | same _ =>
      obtain ⟨hterminal, hmessage, hclosed⟩ := hverdict hsuccess
      exact ⟨hterminal, hmessage, (h.writer_closed hclosed).1 ▸ hclosed⟩
    | counted chunk hopen =>
      obtain ⟨hterminal, hmessage, hclosed⟩ := hverdict hsuccess
      exact ⟨hterminal, hmessage, (h.writer_closed hclosed).1 ▸ hclosed⟩
    | marked success message hopen =>
      obtain ⟨hmark, hclosed⟩ := hstage hsuccess
      cases hmark
      exact ⟨rfl, rfl, (h.writer_closed hclosed).1 ▸ hclosed⟩
  · rw [hrunning] at hlater
    rcases List.mem_append.mp hlater with hold | hnew
    · obtain ⟨hmark, hclosed⟩ := hi.succeeds later (List.mem_cons_of_mem _ hold) hsucceeds
      exact ⟨hmark, (h.writer_closed hclosed).1 ▸ hclosed⟩
    · exact h.succeeds hlimit later (hmem.mp hnew) hsucceeds
  · have hcounted : s.state.audioBytes.toNat + (stage.uncounted + uncounted s.running) ≤ s.accepted.length := hi.counted
    have hcounts := h.counts
    rw [uncounted_append, hrunning]
    dsimp only at *
    omega
  · rw [hconcluded] at hdone
    rw [hrunning]
    rcases hi.concludes hdone with hterminal | ⟨later, hlater, hconcludes⟩
    · exact .inl ((h.state.terminal hterminal).symm ▸ hterminal)
    rcases List.mem_cons.mp hlater with rfl | hold
    · rcases h.concludes hconcludes with hterminal | ⟨after, hafter, hends⟩
      · exact .inl hterminal
      · exact .inr ⟨after, List.mem_append_right _ (hmem.mpr hafter), hends⟩
    · exact .inr ⟨later, List.mem_append_left _ hold, hconcludes⟩

theorem Inv.call (hi : Inv s) (callback : Callback) :
    Inv { s with running := s.running ++ [callback.first], concluded := s.concluded || !callback.isAudio } := by
  refine ⟨hi.holds, hi.verdict, fun stage hstage hsucceeds => ?_, ?_, fun hdone => ?_⟩
  · rcases List.mem_append.mp hstage with hold | hnew
    · exact hi.succeeds stage hold hsucceeds
    · cases List.mem_singleton.mp hnew
      cases callback <;> cases hsucceeds
  · have hnone : callback.first.uncounted = 0 := by cases callback <;> rfl
    rw [uncounted_append]
    have := hi.counted
    simp only [uncounted, List.map_cons, List.map_nil, List.sum_cons, List.sum_nil, hnone] at this ⊢
    omega
  · cases haudio : callback.isAudio with
    | false =>
      refine .inr ⟨callback.first, List.mem_append_right _ List.mem_cons_self, ?_⟩
      cases callback with
      | audio chunk => cases haudio
      | completed => trivial
      | cancelled => trivial
      | error e => trivial
    | true =>
      rw [haudio, Bool.not_true, Bool.or_false] at hdone
      rcases hi.concludes hdone with hterminal | ⟨stage, hstage, hconcludes⟩
      · exact .inl hterminal
      · exact .inr ⟨stage, List.mem_append_left _ hstage, hconcludes⟩

theorem Inv.step (hi : Inv s) {e : Ev} (h : SaveWav.step expected faults s e = some s') : Inv s' := by
  cases e with
  | call callback =>
    cases h
    exact hi.call callback
  | advance index =>
    obtain ⟨stage, rest, next, s₁, hperm, -, hmoved, rfl⟩ := step_advance h
    exact Inv.moved (s := { s with running := rest }) (hi.perm hperm) hmoved

theorem reach_inv {w : WavWriter} (hw : w.Holds []) (h : Reach (SaveWav.step expected faults) anyStep (start w) s) :
    Inv s := h.inv (start_inv hw) fun _ _ _ _ hi _ hstep => hi.step hstep

theorem step_keeps {e : Ev} (hi : Inv s) (h : SaveWav.step expected faults s e = some s') :
    (s.state.terminal = true → s'.state = s.state) ∧
      (s.state.success = true → s'.writer = s.writer ∧ s'.accepted = s.accepted) := by
  cases e with
  | call callback =>
    cases h
    exact ⟨fun _ => rfl, fun _ => ⟨rfl, rfl⟩⟩
  | advance index =>
    obtain ⟨stage, rest, next, s₁, -, -, hmoved, rfl⟩ := step_advance h
    exact ⟨hmoved.state.terminal, fun hsuccess => hmoved.writer_closed (hi.verdict hsuccess).2.2⟩

theorem reach_keeps (hi : Inv s) (h : Reach (SaveWav.step expected faults) anyStep s s') :
    Inv s' ∧ (s.state.terminal = true → s'.state = s.state) ∧
      (s.state.success = true → s'.writer = s.writer ∧ s'.accepted = s.accepted) := by
  refine h.inv (I := fun t => Inv t ∧ (s.state.terminal = true → t.state = s.state) ∧
    (s.state.success = true → t.writer = s.writer ∧ t.accepted = s.accepted)) ⟨hi, fun _ => rfl, fun _ => ⟨rfl, rfl⟩⟩
      fun t e t' _ hkept _ hstep => ?_
  obtain ⟨ht, hstate, hwriter⟩ := hkept
  obtain ⟨hstate', hwriter'⟩ := step_keeps ht hstep
  refine ⟨ht.step hstep, fun hterminal => ?_, fun hsuccess => ?_⟩
  · have hsame := hstate hterminal
    exact (hstate' (hsame.symm ▸ hterminal)).trans hsame
  · have hsame : t.state = s.state := hstate (hi.verdict hsuccess).1
    obtain ⟨hfile, haccepted⟩ := hwriter' (hsame.symm ▸ hsuccess)
    exact ⟨hfile.trans (hwriter hsuccess).1, haccepted.trans (hwriter hsuccess).2⟩

end Runs

/-- In every interleaving of the callbacks: a good verdict is one of `on_completed`, and then
    the file is a WAV file of the PCM that was accepted; no more is counted than was accepted;
    the first verdict and its counters stay, and after a good one so does the file. -/
theorem verdict_and_file (faults : Nat → Option Nat) (opens : Bool) (path : CppString) (sampleRate : UInt32)
    (channels bitsPerSample : UInt16) (w : WavWriter)
    (hmake : WavWriter.make faults opens path sampleRate channels bitsPerSample = .ok w) (expected : AudioFormat) (s s' : St)
    (hs : Reach (step expected faults) anyStep (start w) s) (hs' : Reach (step expected faults) anyStep s s') :
    (s.state.success = true → s.state.terminal = true ∧ s.state.message = CppString.lit "completed" ∧
      WavWriter.WavFile s.writer.file.contents s.accepted) ∧
    s.state.audioBytes.toNat ≤ s.accepted.length ∧
    (s.state.terminal = true → s'.state = s.state) ∧
    (s.state.success = true → s'.writer = s.writer ∧ s'.accepted = s.accepted) := by
  have hi : Inv s := reach_inv (WavWriter.make_holds hmake) hs
  obtain ⟨-, hstate, hwriter⟩ := reach_keeps hi hs'
  refine ⟨fun hsuccess => ?_, ?_, hstate, hwriter⟩
  · obtain ⟨hterminal, hmessage, hclosed⟩ := hi.verdict hsuccess
    refine ⟨hterminal, hmessage, ?_⟩
    rw [hi.holds.finished hclosed]
    exact WavWriter.wavFile hi.holds.limit
  · have := hi.counted
    omega

/-! ### One chunk -/

/-- A writer of mono 24 kHz PCM16 whose writes go through. -/
def writer : WavWriter :=
  let w := WavWriter.opened (CppString.lit "a.wav") 24000 1 16
  { w with file := w.openedFile fun _ => none }

theorem make_writer : WavWriter.make (fun _ => none) true (CppString.lit "a.wav") 24000 1 16 = .ok writer := rfl

/-- `on_audio` with one sample, and `on_completed` when it has returned. -/
def oneChunk : List Ev :=
  [.call (.audio { bytes := [0, 64] }), .advance 0, .advance 0, .advance 0, .advance 0, .call .completed, .advance 0,
    .advance 0, .advance 0]

theorem one_chunk_is_saved : ∃ s, Reach (step {} fun _ => none) anyStep (start writer) s ∧
    WavWriter.WavFile s.writer.file.contents s.accepted ∧ s.accepted = [0, 64] := by
  obtain ⟨s, hs, hsaved⟩ : ∃ s, Reach (step {} fun _ => none) anyStep (start writer) s ∧
      (s.state.success && decide (s.accepted = [0, 64])) = true := exists_reach_of_run oneChunk (by decide)
  obtain ⟨hsuccess, haccepted⟩ := Bool.and_eq_true_iff.mp hsaved
  obtain ⟨hgood, -⟩ := verdict_and_file _ _ _ _ _ _ writer make_writer {} s s hs .init
  exact ⟨s, hs, (hgood hsuccess).2.2, of_decide_eq_true haccepted⟩

/-! ## Every session ends -/

/-- How many steps a callback has left at most. -/
def Stage.left : Stage → Nat
  | .mark _ _ | .count _ => 1
  | .write _ | .closeCompleted | .closeIgnoringErrors _ => 2
  | .lockWriter _ | .complete => 3
  | .audio _ => 4

def Stage.writes : Stage → Bool
  | .write _ => true
  | .audio _ | .lockWriter _ | .count _ | .complete | .closeCompleted | .closeIgnoringErrors _ | .mark _ _ => false

def left (running : List Stage) : Nat := (running.map Stage.left).sum

/-- The callback that holds the writer's mutex is one that writes. -/
def Held (s : St) : Prop := s.writerLocked = true → ∃ stage ∈ s.running, stage.writes = true

/-- A callback that has been called goes on. -/
def goesOn (_ : St) (e : Ev) : Prop := ∃ index, e = .advance index

section Ends

variable {expected : AudioFormat} {faults : Nat → Option Nat} {s s' : St} {stage : Stage} {next : Option Stage}

theorem left_perm {a b : List Stage} (h : a.Perm b) : left a = left b := (h.map _).sum_nat

theorem Moved.left (h : Moved expected faults s stage next s') : SaveWav.left next.toList < stage.left := by
  unfold SaveWav.left
  cases h with
  | late _ hminds _ => cases stage <;> simp [Stage.left]
  | _ => simp [Stage.left]

/-- The mutex is taken by the stage before `write_pcm` and let go of after it. -/
theorem Moved.held (h : Moved expected faults s stage next s') (hs : Held { s with running := stage :: s.running }) :
    Held { s' with running := s'.running ++ next.toList } := by
  intro hlocked
  have hother (hwrites : stage.writes = false) (hsame : s'.writerLocked = s.writerLocked) :
      ∃ later ∈ s'.running ++ next.toList, later.writes = true := by
    obtain ⟨later, hlater, hlaterWrites⟩ := hs (hsame ▸ hlocked)
    rcases List.mem_cons.mp hlater with rfl | hold
    · rw [hwrites] at hlaterWrites
      cases hlaterWrites
    · exact ⟨later, List.mem_append_left _ (h.running.1.symm ▸ hold), hlaterWrites⟩
  cases h with
  | locked chunk _ _ => exact ⟨.write chunk, List.mem_append_right _ List.mem_cons_self, rfl⟩
  | written chunk _ => cases hlocked
  | broken chunk message _ => cases hlocked
  | late _ hminds _ => exact hother (by cases stage <;> first | rfl | cases hminds) rfl
  | unexpected chunk message _ _ => exact hother rfl rfl
  | taken chunk _ _ => exact hother rfl rfl
  | counted chunk _ => exact hother rfl rfl
  | completing _ => exact hother rfl rfl
  | closed _ _ => exact hother rfl rfl
  | unclosed message _ _ => exact hother rfl rfl
  | ended message _ => exact hother rfl rfl
  | marked success message => exact hother rfl rfl

theorem Held.step (hs : Held s) {e : Ev} (h : SaveWav.step expected faults s e = some s') : Held s' := by
  cases e with
  | call callback =>
    cases h
    intro hlocked
    obtain ⟨stage, hstage, hwrites⟩ := hs hlocked
    exact ⟨stage, List.mem_append_left _ hstage, hwrites⟩
  | advance index =>
    obtain ⟨stage, rest, next, s₁, hperm, -, hmoved, rfl⟩ := step_advance h
    refine Moved.held hmoved fun hlocked => ?_
    obtain ⟨later, hlater, hwrites⟩ := hs hlocked
    exact ⟨later, hperm.mem_iff.mpr hlater, hwrites⟩

theorem left_lt {index : Nat} (h : SaveWav.step expected faults s (.advance index) = some s') :
    left s'.running < left s.running := by
  obtain ⟨stage, rest, next, s₁, hperm, -, hmoved, rfl⟩ := step_advance h
  have hlt : SaveWav.left next.toList < stage.left := hmoved.left
  have hrunning : s₁.running = rest := hmoved.running.1
  rw [← left_perm hperm]
  dsimp only
  rw [hrunning]
  unfold SaveWav.left at hlt ⊢
  rw [List.map_append, List.sum_append, List.map_cons, List.sum_cons]
  omega

/-- A stage that does not need the writer's mutex, or finds it free, can go on. -/
theorem advance_ne_none (h : s.writerLocked = true → stage.writes = true) : advance expected faults s stage ≠ none := by
  have hfree (hwrites : stage.writes = false) : ¬ s.writerLocked = true := fun hlocked => by
    rw [hwrites] at h
    cases h hlocked
  cases stage with
  | audio chunk =>
    simp only [advance]
    split
    · simp
    split <;> simp
  | lockWriter chunk =>
    simp only [advance]
    rw [if_neg (hfree rfl)]
    split <;> simp
  | write chunk =>
    simp only [advance]
    split <;> simp
  | count chunk =>
    simp only [advance]
    split <;> simp
  | complete =>
    simp only [advance]
    split <;> simp
  | closeCompleted =>
    simp only [advance]
    rw [if_neg (hfree rfl)]
    split <;> simp
  | closeIgnoringErrors message =>
    simp only [advance]
    rw [if_neg (hfree rfl)]
    simp
  | mark success message => simp [advance]

/-- The callbacks do not wait for each other for ever. -/
theorem idle_of_stuck (hs : Held s) (hstuck : Stuck (SaveWav.step expected faults) goesOn s) : s.running = [] := by
  by_contra hsome
  have hgoes {stage : Stage} (hmem : stage ∈ s.running) (hfree : s.writerLocked = true → stage.writes = true) : False := by
    obtain ⟨index, hget⟩ := List.getElem?_of_mem hmem
    have hnone := hstuck (.advance index) ⟨index, rfl⟩
    simp only [SaveWav.step, hget, Option.bind_some, Option.map_eq_none_iff] at hnone
    exact advance_ne_none (s := { s with running := s.running.eraseIdx index }) hfree hnone
  by_cases hlocked : s.writerLocked = true
  · obtain ⟨stage, hmem, hwrites⟩ := hs hlocked
    exact hgoes hmem fun _ => hwrites
  · obtain ⟨stage, hmem⟩ := List.exists_mem_of_ne_nil _ hsome
    exact hgoes hmem fun hheld => absurd hheld hlocked

end Ends

/-- Once a terminal callback has been called, the callbacks that are under way all return,
    whatever the order of their steps, and the session has its verdict: none waits for ever
    for the writer's mutex, and none returns without a verdict that it owes. -/
theorem session_ends (faults : Nat → Option Nat) (opens : Bool) (path : CppString) (sampleRate : UInt32)
    (channels bitsPerSample : UInt16) (w : WavWriter)
    (hmake : WavWriter.make faults opens path sampleRate channels bitsPerSample = .ok w) (expected : AudioFormat) (s : St)
    (hs : Reach (step expected faults) anyStep (start w) s) (hconcluded : s.concluded = true) :
    Inevitable (step expected faults) goesOn (fun s => s.running = [] ∧ s.state.terminal = true) s := by
  have hheld : Held s := hs.inv (fun hlocked => by cases hlocked) fun _ _ _ _ ht _ hstep => ht.step hstep
  refine inevitable_of_measure (I := fun s => Inv s ∧ Held s ∧ s.concluded = true) (fun s => left s.running)
    (fun t ht hstuck => ?_) (fun t e t' ht hgoes hstep => ?_) ⟨reach_inv (WavWriter.make_holds hmake) hs, hheld, hconcluded⟩
  · obtain ⟨hi, hlock, hdone⟩ := ht
    have hidle : t.running = [] := idle_of_stuck hlock hstuck
    refine ⟨hidle, ?_⟩
    rcases hi.concludes hdone with hterminal | ⟨stage, hmem, -⟩
    · exact hterminal
    · rw [hidle] at hmem
      cases hmem
  · obtain ⟨hi, hlock, hdone⟩ := ht
    obtain ⟨index, rfl⟩ := hgoes
    refine ⟨⟨hi.step hstep, hlock.step hstep, ?_⟩, left_lt hstep⟩
    obtain ⟨stage, rest, next, s₁, -, -, hmoved, rfl⟩ := step_advance hstep
    exact hmoved.running.2.trans hdone

/-- `on_completed` while `on_audio` holds the writer's mutex. -/
theorem a_session_under_way_ends : ∃ s, Reach (step {} fun _ => none) anyStep (start writer) s ∧
    s.writerLocked = true ∧ Inevitable (step {} fun _ => none) goesOn (fun s => s.running = [] ∧ s.state.terminal = true) s := by
  obtain ⟨s, hs, hboth⟩ : ∃ s, Reach (step {} fun _ => none) anyStep (start writer) s ∧
      (s.concluded && s.writerLocked) = true :=
    exists_reach_of_run [.call (.audio { bytes := [0, 64] }), .call .completed, .advance 0, .advance 1] (by decide)
  obtain ⟨hconcluded, hlocked⟩ := Bool.and_eq_true_iff.mp hboth
  exact ⟨s, hs, hlocked, session_ends _ _ _ _ _ _ writer make_writer {} s hs hconcluded⟩

/-! ## One callback at a time -/

/-- A callback is called when the one before it has returned. -/
def serially (s : St) : Ev → Prop
  | .call _ => s.running = []
  | .advance _ => True

instance (s : St) : (e : Ev) → Decidable (serially s e)
  | .call _ => inferInstanceAs (Decidable (s.running = []))
  | .advance _ => .isTrue trivial

/-- The callbacks of a run, in their order. -/
def called (es : List Ev) : List Callback :=
  es.filterMap fun
    | .call callback => some callback
    | .advance _ => none

/-- The chunks that a writer takes if no write fails. -/
structure Whole (expected : AudioFormat) (w : WavWriter) (chunks : List PcmChunk) : Prop where
  frames : ∀ chunk ∈ chunks, matchesFormat chunk expected = true ∧ chunk.bytes.length % w.blockAlign = 0
  limit : (chunks.flatMap PcmChunk.bytes).length ≤ WavWriter.maxDataSize

section Serial

variable (expected : AudioFormat) (faults : Nat → Option Nat)

/-- The session after a callback from this stage on, when no other is under way. -/
def settle : Nat → St → Stage → St
  | 0, s, _ => s
  | n + 1, s, stage =>
    match advance expected faults s stage with
    | some (some next, s) => settle n s next
    | some (none, s) => s
    | none => s

/-- The session once the callbacks under way have returned. -/
def settled (s : St) : St :=
  match s.running with
  | [] => s
  | stage :: _ => settle expected faults 4 { s with running := [] } stage

/-- What a callback does when no other is under way. -/
def serve (s : St) : Callback → St
  | .audio chunk =>
    if s.state.terminal then s
    else if !matchesFormat chunk expected then
      { s with state :=
        markSaveWavFinished false (CppString.lit "worker produced an unexpected PCM format") s.state }
    else
      match s.writer.writePcm faults (.bytes chunk.bytes) with
      | (writer, .ok ()) =>
        { s with
          writer := writer
          accepted := s.accepted ++ chunk.bytes
          state := { s.state with
            audioChunks := s.state.audioChunks + 1
            audioBytes := s.state.audioBytes + UInt64.ofNat chunk.bytes.length } }
      | (writer, .error e) => { s with writer := writer, state := markSaveWavFinished false e s.state }
  | .completed =>
    if s.state.terminal then { s with concluded := true }
    else
      match s.writer.close faults with
      | (writer, .ok ()) =>
        { s with
          writer := writer
          state := markSaveWavFinished true (CppString.lit "completed") s.state
          concluded := true }
      | (writer, .error e) =>
        { s with writer := writer, state := markSaveWavFinished false e s.state, concluded := true }
  | .cancelled =>
    { s with
      writer := (s.writer.close faults).1
      state := markSaveWavFinished false (CppString.lit "request was cancelled") s.state
      concluded := true }
  | .error e =>
    { s with
      writer := (s.writer.close faults).1
      state := markSaveWavFinished false
        (e.category ++ CppString.lit "/" ++ e.code ++ CppString.lit ": " ++ e.message) s.state
      concluded := true }

variable {expected faults} {s s' : St} {stage : Stage} {next : Option Stage} {n : Nat}

theorem settle_succ (h : stage.left ≤ n) : settle expected faults (n + 1) s stage = settle expected faults n s stage := by
  induction n generalizing s stage with
  | zero => cases stage <;> simp [Stage.left] at h
  | succ n ih =>
    rw [settle]
    conv_rhs => rw [settle]
    cases hadvance : advance expected faults s stage with
    | none => rfl
    | some result =>
      obtain ⟨next, s₁⟩ := result
      cases next with
      | none => rfl
      | some next =>
        have hleft : left (some next).toList < stage.left := (advance_moved hadvance).left
        have hnext : left (some next).toList = next.left := Nat.add_zero _
        exact ih (by omega)

/-- Where a callback is on its way makes no difference to what it comes to. -/
theorem settle_advance (h : advance expected faults s stage = some (next, s')) (hs : s.running = []) :
    settled expected faults { s' with running := s'.running ++ next.toList } = settle expected faults 4 s stage := by
  have hmoved : Moved expected faults s stage next s' := advance_moved h
  rw [hmoved.running.1, hs, List.nil_append]
  cases next with
  | none =>
    rw [settle, h]
    unfold settled
    dsimp only [Option.toList_none]
    rw [← hs, ← hmoved.running.1]
  | some next =>
    have hleft : left (some next).toList < stage.left := hmoved.left
    have hnext : left (some next).toList = next.left := Nat.add_zero _
    have hfour : stage.left ≤ 4 := by cases stage <;> simp [Stage.left]
    rw [settle, h]
    unfold settled
    dsimp only [Option.toList_some]
    rw [settle_succ (by omega), ← hs, ← hmoved.running.1]

variable (expected faults) in
theorem settle_first (callback : Callback) (hs : s.running = []) (hlock : s.writerLocked = false) :
    settle expected faults 4 { s with concluded := s.concluded || !callback.isAudio } callback.first =
      serve expected faults s callback := by
  obtain ⟨state, writer, writerLocked, running, accepted, concluded⟩ := s
  cases hs
  cases hlock
  cases callback with
  | audio chunk =>
    simp only [Callback.isAudio, Callback.first, Bool.not_true, Bool.or_false, serve, settle, advance]
    by_cases hterminal : state.terminal = true
    · simp only [hterminal, if_true]
    by_cases hformat : matchesFormat chunk expected = true
    · simp only [hterminal, hformat, if_false, Bool.not_true, Bool.false_eq_true]
      rcases writer.writePcm faults (.bytes chunk.bytes) with ⟨w, _ | _⟩
      · rfl
      · simp only [hterminal, if_false, Bool.false_eq_true]
    · have hwrong : (!matchesFormat chunk expected) = true := by simpa using hformat
      simp only [hterminal, hwrong, if_true, if_false, Bool.false_eq_true]
  | completed =>
    simp only [Callback.isAudio, Callback.first, Bool.not_false, Bool.or_true, serve, settle, advance]
    by_cases hterminal : state.terminal = true
    · simp only [hterminal, if_true]
    · simp only [hterminal, if_false, Bool.false_eq_true]
      rcases writer.close faults with ⟨w, _ | _⟩ <;> rfl
  | cancelled => simp [Callback.isAudio, Callback.first, serve, settle, advance]
  | error e => simp [Callback.isAudio, Callback.first, serve, settle, advance]

/-- No callback is under way, or one is. -/
structure Alone (s : St) : Prop where
  running : s.running = [] ∨ ∃ stage, s.running = [stage]
  held : Held s

theorem Alone.unlocked (h : Alone s) (hidle : s.running = []) : s.writerLocked = false := by
  cases hlock : s.writerLocked with
  | false => rfl
  | true =>
    obtain ⟨stage, hmem, -⟩ := h.held hlock
    rw [hidle] at hmem
    cases hmem

theorem settled_step {e : Ev} (h : Alone s) (hok : serially s e) (hstep : SaveWav.step expected faults s e = some s') :
    Alone s' ∧ settled expected faults s' = (called [e]).foldl (serve expected faults) (settled expected faults s) := by
  have hheld : Held s' := h.held.step hstep
  cases e with
  | call callback =>
    have hidle : s.running = [] := hok
    cases hstep
    refine ⟨⟨.inr ⟨callback.first, by rw [hidle]; rfl⟩, hheld⟩, ?_⟩
    have hfirst := settle_first expected faults callback hidle (h.unlocked hidle)
    simp only [settled, hidle, List.nil_append, called, List.filterMap_cons, List.filterMap_nil, List.foldl_cons,
      List.foldl_nil]
    rw [← hfirst, ← hidle]
  | advance index =>
    simp only [SaveWav.step] at hstep
    obtain ⟨stage, hstage, hstep⟩ := Option.bind_eq_some_iff.mp hstep
    obtain ⟨result, hresult, rfl⟩ := Option.map_eq_some_iff.mp hstep
    obtain ⟨next, s₁⟩ := result
    have hone : s.running = [stage] ∧ s.running.eraseIdx index = [] := by
      rcases h.running with hnone | ⟨only, honly⟩
      · rw [hnone] at hstage
        cases hstage
      · rw [honly] at hstage ⊢
        cases index with
        | zero =>
          cases hstage
          exact ⟨rfl, rfl⟩
        | succ index => cases hstage
    rw [hone.2] at hresult
    have hempty : s₁.running = [] := (advance_moved hresult).running.1
    refine ⟨⟨?_, hheld⟩, ?_⟩
    · dsimp only
      rw [hempty]
      cases next with
      | none => exact .inl rfl
      | some next => exact .inr ⟨next, rfl⟩
    · rw [settle_advance hresult rfl]
      simp only [settled, hone.1]
      rfl

/-- A run of callbacks one at a time is the callbacks one after the other. -/
theorem settled_run {es : List Ev} (h : Alone s) (hrun : run (SaveWav.step expected faults) serially s es = some s') :
    settled expected faults s' = (called es).foldl (serve expected faults) (settled expected faults s) := by
  induction es generalizing s with
  | nil =>
    cases hrun
    rfl
  | cons e es ih =>
    simp only [run] at hrun
    split at hrun
    · obtain ⟨s₁, hstep, hrest⟩ := Option.bind_eq_some_iff.mp hrun
      obtain ⟨hnext, hone⟩ := settled_step h ‹_› hstep
      have hcalled : called (e :: es) = called [e] ++ called es := List.filterMap_append (l := [e])
      rw [ih hnext hrest, hone, hcalled, List.foldl_append]
    · cases hrun

end Serial

/-! ### The callbacks one after the other -/

/-- The session after `on_audio` with these chunks, each of which was written. -/
structure Taken (expected : AudioFormat) (w : WavWriter) (chunks : List PcmChunk) (s : St) : Prop where
  frames : ∀ chunk ∈ chunks, matchesFormat chunk expected = true ∧ chunk.bytes.length % w.blockAlign = 0
  holds : s.writer.Holds (chunks.flatMap PcmChunk.bytes)
  blockAlign : s.writer.blockAlign = w.blockAlign
  accepted : s.accepted = chunks.flatMap PcmChunk.bytes
  audioChunks : s.state.audioChunks = UInt64.ofNat chunks.length
  audioBytes : s.state.audioBytes.toNat = (chunks.flatMap PcmChunk.bytes).length

/-- No verdict yet. -/
def Undecided (s : St) : Prop := s.state.terminal = false ∧ s.state.success = false ∧ s.writer.closed = false

def Lost (s : St) : Prop := s.state.terminal = true ∧ s.state.success = false

def Won (s : St) : Prop := s.state.terminal = true ∧ s.state.success = true ∧ s.writer.closed = true

section Served

variable {expected : AudioFormat} {faults : Nat → Option Nat} {w : WavWriter} {s : St} {chunks : List PcmChunk}

theorem start_taken (h : w.Holds []) : Taken expected w [] (start w) := by
  refine ⟨fun chunk hmem => ?_, h, rfl, rfl, rfl, rfl⟩
  cases hmem

theorem lost_mark (h : Undecided s) (message : CppString) {writer : WavWriter} {concluded : Bool} :
    Lost { s with state := markSaveWavFinished false message s.state, writer := writer, concluded := concluded } := by
  unfold Lost markSaveWavFinished
  rw [h.1]
  exact ⟨rfl, rfl⟩

theorem writePcm_frames {writer : WavWriter} {data : List UInt8} (h : (writer.writePcm faults (.bytes data)).2 = .ok ()) :
    data.length % writer.blockAlign = 0 ∧ (writer.writePcm faults (.bytes data)).1.blockAlign = writer.blockAlign ∧
      (writer.writePcm faults (.bytes data)).1.closed = writer.closed := by
  have hcases : WavWriter.Written faults writer (.bytes data) (writer.writePcm faults (.bytes data)) :=
    WavWriter.writePcm_written
  generalize writer.writePcm faults (.bytes data) = result at hcases h
  cases hcases with
  | rejected e => cases h
  | broken e hfailed hopen => cases h
  | empty hempty =>
    have hnone : data = [] := hempty
    rw [hnone]
    exact ⟨Nat.zero_mod _, rfl, rfl⟩
  | written hopen hframes hlimit hgood => exact ⟨hframes, rfl, rfl⟩

variable (faults) in
theorem Taken.audio (h : Taken expected w chunks s) (hs : Undecided s) (chunk : PcmChunk) :
    Undecided (serve expected faults s (.audio chunk)) ∧
      Taken expected w (chunks ++ [chunk]) (serve expected faults s (.audio chunk)) ∨
    Lost (serve expected faults s (.audio chunk)) ∧
      ¬ (matchesFormat chunk expected = true ∧ (s.writer.writePcm faults (.bytes chunk.bytes)).2 = .ok ()) := by
  have hopen : ¬ s.state.terminal = true := by simp [hs.1]
  simp only [serve, if_neg hopen]
  by_cases hformat : matchesFormat chunk expected = true
  · rw [if_neg (by simp [hformat])]
    cases hwrite : s.writer.writePcm faults (.bytes chunk.bytes) with
    | mk writer result =>
      have hwriter : (s.writer.writePcm faults (.bytes chunk.bytes)).1 = writer := congrArg Prod.fst hwrite
      have hresult : (s.writer.writePcm faults (.bytes chunk.bytes)).2 = result := congrArg Prod.snd hwrite
      cases result with
      | error e => exact .inr ⟨lost_mark hs e, fun hboth => by cases hboth.2⟩
      | ok _ =>
        obtain ⟨hframes, halign, hclosed⟩ := writePcm_frames hresult
        have hholds : (s.writer.writePcm faults (.bytes chunk.bytes)).1.Holds _ := h.holds.writePcm
        rw [if_pos hresult, hwriter] at hholds
        rw [hwriter] at halign hclosed
        have hflat : (chunks ++ [chunk]).flatMap PcmChunk.bytes = chunks.flatMap PcmChunk.bytes ++ chunk.bytes := by
          rw [List.flatMap_append, List.flatMap_singleton]
        refine .inl ⟨⟨hs.1, hs.2.1, hclosed.trans hs.2.2⟩, ?_, ?_, ?_, ?_, ?_, ?_⟩
        · intro other hmem
          rcases List.mem_append.mp hmem with hold | hnew
          · exact h.frames other hold
          · cases List.mem_singleton.mp hnew
            exact ⟨hformat, h.blockAlign ▸ hframes⟩
        · rw [hflat]
          exact hholds
        · exact halign.trans h.blockAlign
        · rw [hflat, ← h.accepted]
        · dsimp only
          rw [h.audioChunks, List.length_append]
          exact (UInt64.ofNat_add _ _).symm
        · have hlimit := hholds.limit
          rw [hflat]
          dsimp only at hlimit ⊢
          rw [UInt64.toNat_add, UInt64.toNat_ofNat', h.audioBytes, List.length_append]
          rw [WavWriter.PcmData.data, List.length_append] at hlimit
          unfold WavWriter.maxDataSize WavWriter.maxU32 at hlimit
          omega
  · rw [if_pos (by simp [hformat])]
    exact .inr ⟨lost_mark hs _, fun hboth => hformat hboth.1⟩

variable (faults) in
theorem Taken.completed (h : Taken expected w chunks s) (hs : Undecided s) :
    Won (serve expected faults s .completed) ∧ Taken expected w chunks (serve expected faults s .completed) ∨
    Lost (serve expected faults s .completed) ∧ (s.writer.close faults).2 ≠ .ok () := by
  have hopen : ¬ s.state.terminal = true := by simp [hs.1]
  have hlimit : s.writer.dataSize ≤ WavWriter.maxDataSize := h.holds.size ▸ h.holds.limit
  have halign : (s.writer.close faults).1.blockAlign = s.writer.blockAlign :=
    (WavWriter.reply_sameFormat hlimit .close).blockAlign
  have hholds : (s.writer.close faults).1.Holds _ := h.holds.close
  have hclosed : (s.writer.close faults).2 = .ok () → (s.writer.close faults).1.closed = true := closed_of_close hlimit
  simp only [serve, if_neg hopen]
  cases hclose : s.writer.close faults with
  | mk writer result =>
    rw [hclose] at halign hholds hclosed
    cases result with
    | error e => exact .inr ⟨lost_mark hs e, fun hok => by cases hok⟩
    | ok _ =>
      have hmark : markSaveWavFinished true (CppString.lit "completed") s.state =
          { s.state with terminal := true, success := true, message := CppString.lit "completed" } := by
        unfold markSaveWavFinished
        exact if_neg hopen
      dsimp only
      rw [hmark]
      exact .inl ⟨⟨rfl, rfl, hclosed rfl⟩, h.frames, hholds, halign.trans h.blockAlign, h.accepted, h.audioChunks, h.audioBytes⟩

theorem Lost.serve (h : Lost s) (callback : Callback) : Lost (SaveWav.serve expected faults s callback) := by
  have hmark (success : Bool) (message : CppString) : markSaveWavFinished success message s.state = s.state := if_pos h.1
  cases callback with
  | audio chunk =>
    simp only [SaveWav.serve, if_pos h.1]
    exact h
  | completed =>
    simp only [SaveWav.serve, if_pos h.1]
    exact h
  | cancelled =>
    simp only [SaveWav.serve, hmark]
    exact h
  | error e =>
    simp only [SaveWav.serve, hmark]
    exact h

variable (faults) in
theorem Won.serve (h : Won s) (hs : Taken expected w chunks s) (callback : Callback) :
    Won (SaveWav.serve expected faults s callback) ∧ Taken expected w chunks (SaveWav.serve expected faults s callback) := by
  have hmark (success : Bool) (message : CppString) : markSaveWavFinished success message s.state = s.state := if_pos h.1
  have hclose : (s.writer.close faults).1 = s.writer := congrArg Prod.fst (close_closed h.2.2)
  have hkept : Won { s with concluded := true } ∧ Taken expected w chunks { s with concluded := true } :=
    ⟨h, hs.frames, hs.holds, hs.blockAlign, hs.accepted, hs.audioChunks, hs.audioBytes⟩
  cases callback with
  | audio chunk =>
    simp only [SaveWav.serve, if_pos h.1]
    exact ⟨h, hs⟩
  | completed =>
    simp only [SaveWav.serve, if_pos h.1]
    exact hkept
  | cancelled =>
    simp only [SaveWav.serve, hmark, hclose]
    exact hkept
  | error e =>
    simp only [SaveWav.serve, hmark, hclose]
    exact hkept

theorem lost_foldl (h : Lost s) (callbacks : List Callback) : Lost (callbacks.foldl (SaveWav.serve expected faults) s) := by
  induction callbacks generalizing s with
  | nil => exact h
  | cons callback callbacks ih => exact ih (h.serve callback)

variable (faults) in
theorem won_foldl (h : Won s) (hs : Taken expected w chunks s) (callbacks : List Callback) :
    Won (callbacks.foldl (SaveWav.serve expected faults) s) ∧
      Taken expected w chunks (callbacks.foldl (SaveWav.serve expected faults) s) := by
  induction callbacks generalizing s with
  | nil => exact ⟨h, hs⟩
  | cons callback callbacks ih =>
    obtain ⟨hwon, htaken⟩ := h.serve faults hs callback
    exact ih hwon htaken

/-- A session that succeeds has written its chunks and then been told that it is complete. -/
theorem saved_of_success (h : Taken expected w chunks s) (hs : Undecided s) (callbacks : List Callback)
    (hsuccess : (callbacks.foldl (SaveWav.serve expected faults) s).state.success = true) :
    ∃ more rest, callbacks = more.map Callback.audio ++ .completed :: rest ∧
      Won (callbacks.foldl (SaveWav.serve expected faults) s) ∧
      Taken expected w (chunks ++ more) (callbacks.foldl (SaveWav.serve expected faults) s) := by
  induction callbacks generalizing s chunks with
  | nil =>
    have hnone : s.state.success = true := hsuccess
    rw [hs.2.1] at hnone
    cases hnone
  | cons callback callbacks ih =>
    have hlost {t : St} (ht : Lost t) (hwon : (callbacks.foldl (SaveWav.serve expected faults) t).state.success = true) :
        False := by
      rw [(lost_foldl ht callbacks).2] at hwon
      cases hwon
    rw [List.foldl_cons] at hsuccess ⊢
    cases callback with
    | audio chunk =>
      rcases h.audio faults hs chunk with ⟨hopen, htaken⟩ | ⟨hover, -⟩
      · obtain ⟨more, rest, hsplit, hwon, hall⟩ := ih htaken hopen hsuccess
        rw [List.append_assoc] at hall
        exact ⟨chunk :: more, rest, congrArg _ hsplit, hwon, hall⟩
      · exact (hlost hover hsuccess).elim
    | completed =>
      rcases h.completed faults hs with ⟨hwon, htaken⟩ | ⟨hover, -⟩
      · obtain ⟨hstill, hkept⟩ := won_foldl faults hwon htaken callbacks
        exact ⟨[], callbacks, rfl, hstill, (List.append_nil chunks).symm ▸ hkept⟩
      · exact (hlost hover hsuccess).elim
    | cancelled => exact (hlost (lost_mark hs _) hsuccess).elim
    | error e => exact (hlost (lost_mark hs _) hsuccess).elim

/-- A write that neither the format nor the stream stands against. -/
theorem writePcm_ok (hfaults : ∀ n, faults n = none) {writer : WavWriter} {data : List UInt8} (hopen : writer.closed = false)
    (hgood : writer.file.failed = false) (hframes : data.length % writer.blockAlign = 0)
    (hlimit : writer.dataSize + data.length ≤ WavWriter.maxDataSize) :
    (writer.writePcm faults (.bytes data)).2 = .ok () := by
  have hnull : ¬ (WavWriter.PcmData.bytes data = .null (WavWriter.PcmData.bytes data).size ∧
      (WavWriter.PcmData.bytes data).size ≠ 0) := fun hboth => by cases hboth.1
  unfold WavWriter.writePcm
  rw [if_neg (by simp [hopen]), if_neg hnull]
  by_cases hempty : (WavWriter.PcmData.bytes data).size = 0
  · rw [if_pos hempty]
  · have hwhole : ¬ (WavWriter.PcmData.bytes data).size % writer.blockAlign ≠ 0 := not_not.mpr hframes
    rw [if_neg hempty, if_neg hwhole, if_neg (by simp only [WavWriter.PcmData.size]; omega)]
    dsimp only
    have hwritten : ({ writer with file := writer.file.write faults data } : WavWriter).ensureStreamOk "write PCM data" =
        .ok () := WavWriter.ensureStreamOk_of_good (OutputStream.write_good hfaults hgood data)
    rw [WavWriter.PcmData.data, hwritten]

theorem Taken.good (h : Taken expected w chunks s) (hfaults : ∀ n, faults n = none) (hgood : s.writer.file.failed = false)
    (chunk : PcmChunk) : (SaveWav.serve expected faults s (.audio chunk)).writer.file.failed = false := by
  have hwrite : (s.writer.writePcm faults (.bytes chunk.bytes)).1.file.failed = false :=
    WavWriter.reply_good hfaults (h.holds.size ▸ h.holds.limit) hgood (.writePcm (.bytes chunk.bytes))
  unfold SaveWav.serve
  dsimp only
  split
  · exact hgood
  split
  · exact hgood
  generalize s.writer.writePcm faults (.bytes chunk.bytes) = result at hwrite
  obtain ⟨writer, _ | _⟩ := result <;> exact hwrite

theorem won_of_whole (hfaults : ∀ n, faults n = none) (h : Taken expected w chunks s) (hs : Undecided s)
    (hgood : s.writer.file.failed = false) (more : List PcmChunk) (rest : List Callback)
    (hwhole : Whole expected w (chunks ++ more)) :
    Won ((more.map Callback.audio ++ .completed :: rest).foldl (SaveWav.serve expected faults) s) := by
  induction more generalizing s chunks with
  | nil =>
    rcases h.completed faults hs with ⟨hwon, htaken⟩ | ⟨-, hbroken⟩
    · exact (won_foldl faults hwon htaken rest).1
    · exact (hbroken (WavWriter.close_good hfaults (h.holds.size ▸ h.holds.limit) hgood).2.1).elim
  | cons chunk more ih =>
    have happend : chunks ++ chunk :: more = chunks ++ [chunk] ++ more := by rw [List.append_assoc]; rfl
    have hchunk := hwhole.frames chunk (List.mem_append_right _ List.mem_cons_self)
    have hok : (s.writer.writePcm faults (.bytes chunk.bytes)).2 = .ok () := by
      refine writePcm_ok hfaults hs.2.2 hgood (h.blockAlign.symm ▸ hchunk.2) ?_
      have hlimit := hwhole.limit
      simp only [List.flatMap_append, List.flatMap_cons, List.length_append] at hlimit
      rw [h.holds.size]
      omega
    rcases h.audio faults hs chunk with ⟨hopen, htaken⟩ | ⟨-, hbad⟩
    · exact ih htaken hopen (h.good hfaults hgood chunk) (happend ▸ hwhole)
    · exact (hbad ⟨hchunk.1, hok⟩).elim

end Served

/-- Of callbacks that come one at a time, as a client gives them: a session that succeeds was
    given chunks and then `on_completed`, its file has all of them and its counters are exact;
    and if no write fails, a session succeeds exactly when the chunks before `on_completed`
    are of the expected format, in whole frames, and below the limit of the RIFF sizes. -/
theorem serial_session (faults : Nat → Option Nat) (opens : Bool) (path : CppString) (sampleRate : UInt32)
    (channels bitsPerSample : UInt16) (w : WavWriter)
    (hmake : WavWriter.make faults opens path sampleRate channels bitsPerSample = .ok w) (expected : AudioFormat)
    (es : List Ev) (s : St) (hrun : run (step expected faults) serially (start w) es = some s) (hidle : s.running = []) :
    (s.state.success = true → ∃ (chunks : List PcmChunk) (rest : List Callback),
      called es = chunks.map Callback.audio ++ .completed :: rest ∧ s.accepted = chunks.flatMap PcmChunk.bytes ∧
      s.state.audioChunks = UInt64.ofNat chunks.length ∧ s.state.audioBytes.toNat = s.accepted.length ∧
      WavWriter.WavFile s.writer.file.contents s.accepted) ∧
    ((∀ n, faults n = none) → (s.state.success = true ↔
      ∃ (chunks : List PcmChunk) (rest : List Callback),
        called es = chunks.map Callback.audio ++ .completed :: rest ∧ Whole expected w chunks)) := by
  have halone : Alone (start w) := ⟨.inl rfl, fun hlocked => by cases hlocked⟩
  have hfinal : s = (called es).foldl (serve expected faults) (start w) := by
    have hsettled := settled_run halone hrun
    unfold settled at hsettled
    rw [hidle] at hsettled
    exact hsettled
  have htaken : Taken expected w [] (start w) := start_taken (WavWriter.make_holds hmake)
  have hopen : Undecided (start w) := by
    refine ⟨rfl, rfl, ?_⟩
    rw [(WavWriter.make_eq hmake).1]
    rfl
  have hsaved (hsuccess : s.state.success = true) := saved_of_success htaken hopen (called es) (hfinal ▸ hsuccess)
  rw [← hfinal] at hsaved
  refine ⟨fun hsuccess => ?_, fun hfaults => ⟨fun hsuccess => ?_, ?_⟩⟩
  · obtain ⟨chunks, rest, hcalled, hwon, hall⟩ := hsaved hsuccess
    rw [List.nil_append] at hall
    refine ⟨chunks, rest, hcalled, hall.accepted, hall.audioChunks, hall.accepted ▸ hall.audioBytes, ?_⟩
    rw [hall.accepted, hall.holds.finished hwon.2.2]
    exact WavWriter.wavFile hall.holds.limit
  · obtain ⟨chunks, rest, hcalled, hwon, hall⟩ := hsaved hsuccess
    rw [List.nil_append] at hall
    exact ⟨chunks, rest, hcalled, hall.frames, hall.holds.limit⟩
  · rintro ⟨chunks, rest, hcalled, hwhole⟩
    rw [hfinal, hcalled]
    exact (won_of_whole hfaults htaken hopen (WavWriter.make_eq hmake).2 chunks rest hwhole).2.1

theorem one_chunk_is_counted : ∃ s, run (step {} fun _ => none) serially (start writer) oneChunk = some s ∧
    s.state.audioBytes.toNat = s.accepted.length := by
  obtain ⟨s, hrun, hend⟩ : ∃ s, run (step {} fun _ => none) serially (start writer) oneChunk = some s ∧
      (s.running.isEmpty && s.state.success) = true := Option.map_eq_some_iff.mp (by decide)
  obtain ⟨hidle, hsuccess⟩ := Bool.and_eq_true_iff.mp hend
  obtain ⟨hgood, -⟩ := serial_session _ _ _ _ _ _ writer make_writer {} oneChunk s hrun (List.isEmpty_iff.mp hidle)
  obtain ⟨chunks, rest, -, -, -, hcounted, -⟩ := hgood hsuccess
  exact ⟨s, hrun, hcounted⟩

end QwenTtsBridge.Audio.SaveWav
