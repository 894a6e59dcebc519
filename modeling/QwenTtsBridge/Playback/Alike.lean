/-
  QwenTtsBridge.Playback.Alike — finished buffers make no difference to the player
  (`playback/winmm_playback.cpp`).

  A buffer that is done only waits to be reaped. `St.view` is a state without those (and
  without the record of what left); two states with one view differ in what is left to reap.
  Whatever happens to both from then on, they admit the same chunks, unless a sink fails for
  good: giving back a header is all that a finished buffer still has before it.

  - `step_alike`: one event keeps the views equal.
  - `run_alike`: so does a run of any events that leaves both players healthy.
-/

import QwenTtsBridge.Playback.EpochIsolation

namespace QwenTtsBridge.Playback.WaveOutPlayer

open QwenTtsBridge.Protocol.Control

/-! ## Views -/

def live (buffers : List Buffer) : List Buffer := buffers.filter (!·.done)

def St.view (s : St) : St := { s with buffers := live s.buffers, gone := [] }

/-- All finished buffers are gone. -/
def St.reaped (s : St) : St :=
  { s with
    buffers := live s.buffers
    gone := s.gone ++ (s.buffers.filter (·.done)).map fun b => (b.admission, b.departure) }

theorem live_live (buffers : List Buffer) : live (live buffers) = live buffers := by
  unfold live
  rw [List.filter_filter]
  simp

theorem done_live (buffers : List Buffer) : (live buffers).filter (·.done) = [] := by
  unfold live
  rw [List.filter_filter, List.filter_eq_nil_iff]
  intro b _
  cases b.done <;> simp

theorem live_cons_done {b : Buffer} {rest : List Buffer} (h : b.done = true) : live (b :: rest) = live rest :=
  List.filter_cons_of_neg (by simp [h])

theorem live_cons_queued {b : Buffer} {rest : List Buffer} (h : b.done = false) : live (b :: rest) = b :: live rest :=
  List.filter_cons_of_pos (by simp [h])

theorem live_append (left right : List Buffer) : live (left ++ right) = live left ++ live right := List.filter_append ..

variable {cfg : Config} {dev : Device} {s s' t t' : St}

theorem reaped_view : s.reaped.view = s.view := by
  unfold St.reaped St.view
  dsimp only
  rw [live_live]

theorem reaped_reaped : s.reaped.reaped = s.reaped := by
  unfold St.reaped
  dsimp only
  rw [live_live, done_live, List.map_nil, List.append_nil]

/-- The other state, in terms of the one. -/
theorem exists_of_view (h : s.view = t.view) :
    ∃ buffers gone, t = { s with buffers := buffers, gone := gone } ∧ live buffers = live s.buffers := by
  refine ⟨t.buffers, t.gone, ?_, (congrArg St.buffers h).symm⟩
  cases s
  cases t
  simp only [St.view, St.mk.injEq] at h ⊢
  tauto

/-! ## Reaping -/

/-- The sink has failed for good. -/
def Broken {α : Type} (r : Except String α × St) : Prop := (∃ e, r.1 = .error e) ∧ r.2.unhealthy = true

theorem shouldInject_eq (stage : MockFailureStage) (h : (shouldInjectMockFailure cfg s stage).1 = false) :
    shouldInjectMockFailure cfg s stage = (false, s) := by
  unfold shouldInjectMockFailure at h ⊢
  split
  · rfl
  · split
    · rfl
    · simp_all

theorem unprepare_cases (cfg : Config) (dev : Device) (s : St) (serial : Nat) :
    unprepareHeaderOrFailLocked cfg dev s serial = (.ok (), s) ∨
    Broken (unprepareHeaderOrFailLocked cfg dev s serial) := by
  unfold unprepareHeaderOrFailLocked
  by_cases hmock : cfg.sinkMode = .mock
  · rw [if_pos hmock]
    cases hinject : (shouldInjectMockFailure cfg s .unprepare).1 with
    | true =>
      dsimp only
      rw [hinject]
      exact .inr ⟨⟨_, rfl⟩, rfl⟩
    | false =>
      rw [shouldInject_eq _ hinject]
      exact .inl rfl
  · rw [if_neg hmock]
    cases dev.unprepareError serial with
    | none => exact .inl rfl
    | some text => exact .inr ⟨⟨_, rfl⟩, rfl⟩

theorem reapFrom_cases (kept todo : List Buffer) (s : St) : reapFrom cfg dev kept todo s =
      (.ok (), { s with
        buffers := kept ++ live todo
        gone := s.gone ++ (todo.filter (·.done)).map fun b => (b.admission, b.departure) }) ∨
    Broken (reapFrom cfg dev kept todo s) := by
  induction todo generalizing kept s with
  | nil =>
    left
    simp only [reapFrom, live, List.filter_nil, List.map_nil, List.append_nil]
  | cons b rest ih =>
    unfold reapFrom
    cases hdone : b.done with
    | false =>
      rw [if_pos (by simp)]
      have hrest := ih (kept ++ [b]) s
      have hnone : (b :: rest).filter (·.done) = rest.filter (·.done) := List.filter_cons_of_neg (by simp [hdone])
      rw [live_cons_queued hdone, hnone]
      rwa [List.append_assoc] at hrest
    | true =>
      rw [if_neg (by simp)]
      dsimp only
      have hone : (b :: rest).filter (·.done) = b :: rest.filter (·.done) := List.filter_cons_of_pos (by simp [hdone])
      have hunprepared : (if b.prepared then unprepareHeaderOrFailLocked cfg dev s b.admission.serial else (.ok (), s)) =
          (.ok (), s) ∨
          Broken (if b.prepared then unprepareHeaderOrFailLocked cfg dev s b.admission.serial else (.ok (), s)) := by
        split
        · exact unprepare_cases cfg dev s _
        · exact .inl rfl
      rcases hunprepared with hok | hbroken
      · rw [hok]
        have hrest := ih kept { s with gone := s.gone ++ [(b.admission, b.departure)] }
        rw [live_cons_done hdone, hone, List.map_cons]
        simpa only [List.append_assoc, List.singleton_append] using hrest
      · right
        obtain ⟨⟨e, he⟩, hunhealthy⟩ := hbroken
        generalize (if b.prepared then unprepareHeaderOrFailLocked cfg dev s b.admission.serial else (.ok (), s)) = r at *
        obtain ⟨x, s₁⟩ := r
        cases he
        exact ⟨⟨e, rfl⟩, hunhealthy⟩

/-- Reaping leaves the player without its finished buffers, or the sink has failed. -/
theorem reap_cases (cfg : Config) (dev : Device) (s : St) :
    reapFinishedLocked cfg dev s = (.ok (), s.reaped) ∨ Broken (reapFinishedLocked cfg dev s) :=
  reapFrom_cases [] s.buffers s

theorem reap_empty (h : s.buffers = []) : reapFinishedLocked cfg dev s = (.ok (), s) := by
  unfold reapFinishedLocked
  rw [h, reapFrom, ← h]

/-! ## Stretches in two states with one view -/

/-- Two stretches with one outcome and one view at the end, unless a sink has failed. -/
def Matches {α : Type} (r r' : Except String α × St) : Prop :=
  Broken r ∨ Broken r' ∨ (r.1 = r'.1 ∧ r.2.view = r'.2.view)

theorem Broken.andThen {α : Type} {r : Result} {next : St → Except String α × St} (h : Broken r) :
    Broken (r.andThen next) := by
  obtain ⟨x, s⟩ := r
  obtain ⟨⟨e, he⟩, hunhealthy⟩ := h
  cases he
  exact ⟨⟨e, rfl⟩, hunhealthy⟩

theorem Matches.same {α : Type} {x : Except String α} (h : s.view = t.view) : Matches (x, s) (x, t) :=
  .inr (.inr ⟨rfl, h⟩)

theorem Matches.andThen {α : Type} {r r' : Result} {next : St → Except String α × St} (h : Matches r r')
    (hnext : ∀ s t, s.view = t.view → Matches (next s) (next t)) : Matches (r.andThen next) (r'.andThen next) := by
  rcases h with hr | hr | ⟨hsame, hview⟩
  · exact .inl hr.andThen
  · exact .inr (.inl hr.andThen)
  · obtain ⟨x, s⟩ := r
    obtain ⟨x', t⟩ := r'
    cases hsame
    cases x with
    | error e => exact .same hview
    | ok _ => exact hnext s t hview

section Locked

theorem reap_matches (h : s.view = t.view) : Matches (reapFinishedLocked cfg dev s) (reapFinishedLocked cfg dev t) := by
  rcases reap_cases cfg dev s with hs | hs
  · rcases reap_cases cfg dev t with ht | ht
    · rw [hs, ht]
      exact .same (by rw [reaped_view, reaped_view, h])
    · exact .inr (.inl ht)
  · exact .inl hs

theorem throwIfUnhealthy_matches (h : s.view = t.view) :
    Matches (throwIfUnhealthyLocked s) (throwIfUnhealthyLocked t) := by
  obtain ⟨buffers, gone, rfl, hlive⟩ := exists_of_view h
  unfold throwIfUnhealthyLocked
  dsimp only
  split
  · exact .same h
  · exact .same h

theorem shouldInject_view (cfg : Config) (stage : MockFailureStage) (h : s.view = t.view) :
    (shouldInjectMockFailure cfg s stage).1 = (shouldInjectMockFailure cfg t stage).1 ∧
      (shouldInjectMockFailure cfg s stage).2.view = (shouldInjectMockFailure cfg t stage).2.view := by
  obtain ⟨buffers, gone, rfl, hlive⟩ := exists_of_view h
  unfold shouldInjectMockFailure
  dsimp only
  split
  · exact ⟨rfl, h⟩
  · split
    · exact ⟨rfl, h⟩
    · exact ⟨rfl, by simp only [St.view, hlive]⟩

theorem validatePendingFormat_matches (format : AudioFormat) (h : s.view = t.view) :
    Matches (validatePendingFormatLocked cfg s format) (validatePendingFormatLocked cfg t format) := by
  obtain ⟨buffers, gone, rfl, hlive⟩ := exists_of_view h
  have hrecorded : ({ s with pendingFormat := some format } : St).view =
      ({ s with buffers := buffers, gone := gone, pendingFormat := some format } : St).view := by
    simp only [St.view, hlive]
  unfold validatePendingFormatLocked
  dsimp only
  repeat' split
  all_goals first | exact .same h | exact .same hrecorded

theorem openOrValidate_matches (format : AudioFormat) (h : s.view = t.view) :
    Matches (openOrValidateLocked dev s format) (openOrValidateLocked dev t format) := by
  obtain ⟨buffers, gone, rfl, hlive⟩ := exists_of_view h
  have hopened : ({ s with handle := true, format := format } : St).view =
      ({ s with buffers := buffers, gone := gone, handle := true, format := format } : St).view := by
    simp only [St.view, hlive]
  unfold openOrValidateLocked
  dsimp only
  repeat' split
  all_goals first | exact .same h | exact .same hopened

theorem submit_view (b : Buffer) (h : s.view = t.view) : (submit s b).view = (submit t b).view := by
  obtain ⟨buffers, gone, rfl, hlive⟩ := exists_of_view h
  simp only [submit, St.view, live_append, hlive]

theorem pending_view (pending : List Buffer) (h : s.view = t.view) :
    ({ s with pendingBuffers := pending } : St).view = ({ t with pendingBuffers := pending } : St).view := by
  obtain ⟨buffers, gone, rfl, hlive⟩ := exists_of_view h
  simp only [St.view, hlive]

theorem flushed_view (h : s.view = t.view) : ({ s with pendingBuffers := [], pendingFormat := none } : St).view =
    ({ t with pendingBuffers := [], pendingFormat := none } : St).view := by
  obtain ⟨buffers, gone, rfl, hlive⟩ := exists_of_view h
  simp only [St.view, hlive]

theorem flushMock_matches (todo : List Buffer) (h : s.view = t.view) :
    Matches (flushMock cfg todo s) (flushMock cfg todo t) := by
  induction todo generalizing s t with
  | nil => exact .same (flushed_view h)
  | cons b rest ih =>
    obtain ⟨hprepare, hprepared⟩ := shouldInject_view cfg .prepare h
    obtain ⟨hwrite, hwritten⟩ := shouldInject_view cfg .write hprepared
    unfold flushMock
    dsimp only
    rw [hprepare]
    split
    · exact .same (pending_view _ hprepared)
    · rw [hwrite]
      split
      · exact .same (pending_view _ hwritten)
      · refine ih ?_
        generalize (shouldInjectMockFailure cfg (shouldInjectMockFailure cfg s .prepare).2 .write).2 = s₂ at hwritten ⊢
        obtain ⟨buffers, gone, ht₂, hlive⟩ := exists_of_view hwritten
        rw [ht₂]
        simp only [submit, St.view, live_append, hlive]

theorem flushDevice_matches (todo : List Buffer) (h : s.view = t.view) :
    Matches (flushDevice cfg dev todo s) (flushDevice cfg dev todo t) := by
  induction todo generalizing s t with
  | nil => exact .same (flushed_view h)
  | cons b rest ih =>
    unfold flushDevice
    cases dev.prepareError b.admission.serial with
    | some text => exact .same (pending_view _ h)
    | none =>
      cases dev.writeError b.admission.serial with
      | none => exact ih (submit_view b h)
      | some text =>
        -- A header that the driver does not give back is a sink that has failed.
        rcases unprepare_cases cfg dev s b.admission.serial with hs | ⟨⟨e, he⟩, hunhealthy⟩
        · rcases unprepare_cases cfg dev t b.admission.serial with ht | ⟨⟨e, he⟩, hunhealthy⟩
          · dsimp only
            rw [hs, ht]
            exact .same (pending_view _ h)
          · generalize unprepareHeaderOrFailLocked cfg dev t b.admission.serial = r at he hunhealthy
            obtain ⟨x, t₁⟩ := r
            cases he
            exact .inr (.inl ⟨⟨e, rfl⟩, hunhealthy⟩)
        · generalize unprepareHeaderOrFailLocked cfg dev s b.admission.serial = r at he hunhealthy
          obtain ⟨x, s₁⟩ := r
          cases he
          exact .inl ⟨⟨e, rfl⟩, hunhealthy⟩

theorem flushPending_matches (h : s.view = t.view) :
    Matches (flushPendingLocked cfg dev s) (flushPendingLocked cfg dev t) := by
  have hformat (format : AudioFormat) :
      ({ s with format := format } : St).view = ({ t with format := format } : St).view := by
    obtain ⟨buffers, gone, rfl, hlive⟩ := exists_of_view h
    simp only [St.view, hlive]
  obtain ⟨buffers, gone, rfl, hlive⟩ := exists_of_view h
  unfold flushPendingLocked
  dsimp only
  split
  · exact .same h
  split
  · exact .same h
  split
  · exact flushMock_matches s.pendingBuffers (hformat _)
  · refine (openOrValidate_matches _ h).andThen fun s₁ t₁ h₁ => ?_
    have hpending : s₁.pendingBuffers = t₁.pendingBuffers := by
      obtain ⟨buffers, gone, rfl, -⟩ := exists_of_view h₁
      rfl
    rw [hpending]
    exact flushDevice_matches _ h₁

end Locked

section Calls

variable {epoch : UInt64} {chunk : PcmChunk} {reset : Resetting}

theorem pushPending_view (h : s.view = t.view) :
    (pushPending epoch chunk s).view = (pushPending epoch chunk t).view := by
  obtain ⟨buffers, gone, rfl, hlive⟩ := exists_of_view h
  simp only [pushPending, St.quiet, St.view, hlive]

theorem admitChunk_matches (h : s.view = t.view) :
    Matches (admitChunk cfg dev epoch chunk s) (admitChunk cfg dev epoch chunk t) := by
  unfold admitChunk
  refine (reap_matches h).andThen fun s₁ t₁ h₁ => (validatePendingFormat_matches chunk.format h₁).andThen fun s₂ t₂ h₂ => ?_
  have hpushed : (pushPending epoch chunk s₂).view = (pushPending epoch chunk t₂).view := pushPending_view h₂
  by_cases hpartial : chunk.bytes.length % pcmFrameBytes chunk.format ≠ 0
  · rw [if_pos hpartial, if_pos hpartial]
    exact .same h₂
  · rw [if_neg hpartial, if_neg hpartial]
    generalize pushPending epoch chunk s₂ = s₃, pushPending epoch chunk t₂ = t₃ at hpushed
    have hflushed : Matches (Result.andThen (flushPendingLocked cfg dev s₃) fun s => (.ok (none : Option Waiting), s))
        (Result.andThen (flushPendingLocked cfg dev t₃) fun s => (.ok none, s)) :=
      (flushPending_matches hpushed).andThen fun _ _ h => .same h
    obtain ⟨buffers, gone, rfl, hlive⟩ := exists_of_view hpushed
    dsimp only
    split
    · exact hflushed
    · exact .same hpushed

theorem enqueueLoop_matches (h : s.view = t.view) :
    Matches (enqueueLoop cfg dev epoch chunk s) (enqueueLoop cfg dev epoch chunk t) := by
  have hstarted : s.playbackStarted = t.playbackStarted := by
    obtain ⟨buffers, gone, rfl, -⟩ := exists_of_view h
    rfl
  unfold enqueueLoop
  rw [hstarted]
  split
  · refine (reap_matches h).andThen fun s₁ t₁ h₁ => ?_
    split
    · exact .same h₁
    · exact admitChunk_matches h₁
  · exact admitChunk_matches h

theorem enqueueInEpoch_matches (h : s.view = t.view) :
    Matches (enqueueInEpoch cfg dev epoch chunk s) (enqueueInEpoch cfg dev epoch chunk t) := by
  have hloop : Matches (enqueueLoop cfg dev epoch chunk s) (enqueueLoop cfg dev epoch chunk t) := enqueueLoop_matches h
  obtain ⟨buffers, gone, rfl, hlive⟩ := exists_of_view h
  unfold enqueueInEpoch
  dsimp only
  split
  · exact .same (by simp only [St.view, hlive])
  · exact hloop

theorem enqueue_matches (h : s.view = t.view) :
    Matches (enqueue cfg dev epoch chunk s) (enqueue cfg dev epoch chunk t) := by
  unfold enqueue
  repeat' split
  all_goals first
    | exact .same h
    | exact (throwIfUnhealthy_matches h).andThen fun s₁ t₁ h₁ => enqueueInEpoch_matches h₁

theorem finishReset_matches (h : s.view = t.view) : Matches (finishReset reset s) (finishReset reset t) := by
  obtain ⟨buffers, gone, rfl, hlive⟩ := exists_of_view h
  exact .same (by simp only [clearPendingLocked, St.view, hlive])

/-- An empty queue need not be looked at first. -/
theorem drain_eq (reset : Resetting) (s : St) : drain cfg dev reset s =
    Result.andThen (reapFinishedLocked cfg dev s) fun s =>
      if s.buffers.isEmpty then finishReset reset s
      else if dev.deadlinePassed then
        (.error "timed out waiting for default audio device reset",
          markUnhealthy s "timed out waiting for default audio device reset")
      else (.ok (some (.drain reset)), s) := by
  unfold drain
  by_cases hempty : s.buffers = []
  · rw [reap_empty hempty, if_pos (List.isEmpty_iff.mpr hempty)]
    exact (if_pos (List.isEmpty_iff.mpr hempty)).symm
  · rw [if_neg (by simpa using hempty)]

theorem idleLoop_eq (s : St) : idleLoop cfg dev s =
    Result.andThen (reapFinishedLocked cfg dev s) fun s =>
      if s.buffers.isEmpty then (.ok none, s)
      else if dev.deadlinePassed then (.error "timed out waiting for default audio playback", s)
      else (.ok (some .idle), s) := by
  unfold idleLoop
  by_cases hempty : s.buffers = []
  · rw [reap_empty hempty, if_pos (List.isEmpty_iff.mpr hempty)]
    exact (if_pos (List.isEmpty_iff.mpr hempty)).symm
  · rw [if_neg (by simpa using hempty)]

/-- After a reaping both states have the same buffers. -/
theorem reap_andThen_matches {α : Type} {next : St → Except String α × St} (h : s.view = t.view)
    (hnext : ∀ s t, s.view = t.view → s.buffers = t.buffers → Matches (next s) (next t)) :
    Matches (Result.andThen (reapFinishedLocked cfg dev s) next) (Result.andThen (reapFinishedLocked cfg dev t) next) := by
  rcases reap_cases cfg dev s with hs | hs
  · rcases reap_cases cfg dev t with ht | ht
    · rw [hs, ht]
      refine hnext _ _ (by rw [reaped_view, reaped_view, h]) ?_
      obtain ⟨buffers, gone, rfl, hlive⟩ := exists_of_view h
      exact hlive.symm
    · exact .inr (.inl ht.andThen)
  · exact .inl hs.andThen

theorem drain_matches (h : s.view = t.view) : Matches (drain cfg dev reset s) (drain cfg dev reset t) := by
  rw [drain_eq, drain_eq]
  refine reap_andThen_matches h fun s₁ t₁ h₁ hbuffers => ?_
  rw [hbuffers]
  split
  · exact finishReset_matches h₁
  split
  · exact .inl ⟨⟨_, rfl⟩, rfl⟩
  · exact .same h₁

theorem idleLoop_matches (h : s.view = t.view) : Matches (idleLoop cfg dev s) (idleLoop cfg dev t) := by
  rw [idleLoop_eq, idleLoop_eq]
  refine reap_andThen_matches h fun s₁ t₁ h₁ hbuffers => ?_
  rw [hbuffers]
  repeat' split
  all_goals exact .same h₁

/-- What the sink does to buffers undoes nothing that is done. -/
theorem live_map {f : Buffer → Buffer} (hf : ∀ b : Buffer, b.done = true → (f b).done = true) (buffers : List Buffer) :
    live (buffers.map f) = live ((live buffers).map f) := by
  induction buffers with
  | nil => rfl
  | cons b rest ih =>
    cases hdone : b.done with
    | true => rw [List.map_cons, live_cons_done (hf b hdone), live_cons_done hdone, ih]
    | false =>
      rw [live_cons_queued hdone, List.map_cons, List.map_cons]
      cases hmarked : (f b).done with
      | true => rw [live_cons_done hmarked, live_cons_done hmarked, ih]
      | false => rw [live_cons_queued hmarked, live_cons_queued hmarked, ih]

theorem giveBack_done {b : Buffer} (h : b.done = true) : b.giveBack.done = true := by
  unfold Buffer.giveBack
  split
  · rfl
  all_goals exact h

theorem stop_done {b : Buffer} (reset : Resetting) (now : Nat) (h : b.done = true) : (b.stop reset now).done = true := by
  unfold Buffer.stop
  split
  · rename_i hqueued
    rw [Buffer.done, hqueued] at h
    cases h
  · exact h

theorem stopBuffers_view (h : s.view = t.view) : (stopBuffers dev reset s).view = (stopBuffers dev reset t).view := by
  obtain ⟨buffers, gone, rfl, hlive⟩ := exists_of_view h
  let f (b : Buffer) : Buffer :=
    if dev.givesBack (b.stop reset s.turn).admission.serial then (b.stop reset s.turn).giveBack else b.stop reset s.turn
  have hf (b : Buffer) (hdone : b.done = true) : (f b).done = true := by
    dsimp only [f]
    split
    · exact giveBack_done (stop_done reset s.turn hdone)
    · exact stop_done reset s.turn hdone
  have hmarked : live (buffers.map f) = live (s.buffers.map f) := by
    rw [live_map hf buffers, live_map hf s.buffers, hlive]
  exact congrArg (fun l => { s.view with buffers := l }) hmarked.symm

theorem resetSink_matches (h : s.view = t.view) : Matches (resetSink cfg dev reset s) (resetSink cfg dev reset t) := by
  have hcounted : ({ s with mockSubmissionCount := 0 } : St).view = ({ t with mockSubmissionCount := 0 } : St).view := by
    obtain ⟨buffers, gone, rfl, hlive⟩ := exists_of_view h
    simp only [St.view, hlive]
  unfold resetSink
  cases cfg.sinkMode with
  | disabled =>
    obtain ⟨buffers, gone, rfl, hlive⟩ := exists_of_view h
    exact .same (by simp only [St.view, hlive])
  | mock =>
    obtain ⟨hinject, hinjected⟩ := shouldInject_view cfg .reset hcounted
    dsimp only
    rw [hinject]
    split
    · exact .inl ⟨⟨_, rfl⟩, rfl⟩
    · refine finishReset_matches ?_
      generalize (shouldInjectMockFailure cfg { s with mockSubmissionCount := 0 } .reset).2 = s₁ at hinjected ⊢
      obtain ⟨buffers, gone, ht, hlive⟩ := exists_of_view hinjected
      rw [ht]
      rfl
  | waveOut =>
    have hfinish : Matches (finishReset reset s) (finishReset reset t) := finishReset_matches h
    have hdrain : Matches (drain cfg dev reset (stopBuffers dev reset s)) (drain cfg dev reset (stopBuffers dev reset t)) :=
      drain_matches (stopBuffers_view h)
    obtain ⟨buffers, gone, rfl, hlive⟩ := exists_of_view h
    dsimp only
    split
    · exact hfinish
    split
    · exact .inl ⟨⟨_, rfl⟩, rfl⟩
    · exact hdrain

theorem resetLocked_matches (h : s.view = t.view) : Matches (resetLocked cfg dev s) (resetLocked cfg dev t) := by
  have hbegun : (beginReset s).view = (beginReset t).view := by
    obtain ⟨buffers, gone, rfl, hlive⟩ := exists_of_view h
    simp only [beginReset, St.view, hlive]
  have hreset : (⟨(beginReset s).playbackEpoch, (beginReset s).turn⟩ : Resetting) =
      ⟨(beginReset t).playbackEpoch, (beginReset t).turn⟩ := by
    obtain ⟨buffers, gone, rfl, -⟩ := exists_of_view h
    rfl
  unfold resetLocked
  dsimp only
  rw [hreset]
  refine (throwIfUnhealthy_matches hbegun).andThen fun s₁ t₁ h₁ => ?_
  have hsink (reset : Resetting) : Matches (resetSink cfg dev reset s₁) (resetSink cfg dev reset t₁) :=
    resetSink_matches h₁
  obtain ⟨buffers, gone, rfl, hlive⟩ := exists_of_view h₁
  dsimp only
  split
  · exact .same (by simp only [St.view, hlive])
  · exact hsink _

theorem playbackEpoch_eq (h : s.view = t.view) : s.playbackEpoch = t.playbackEpoch := by
  obtain ⟨buffers, gone, rfl, -⟩ := exists_of_view h
  rfl

theorem resetIfEpoch_matches {expected : UInt64} (h : s.view = t.view) :
    Matches (resetIfEpoch cfg dev expected s) (resetIfEpoch cfg dev expected t) := by
  unfold resetIfEpoch
  rw [playbackEpoch_eq h]
  split
  · exact .same h
  · exact resetLocked_matches h

theorem interruptWithFade_matches (h : s.view = t.view) :
    Matches (interruptWithFadeLocked cfg dev s) (interruptWithFadeLocked cfg dev t) := by
  have hreaped : Matches (if cfg.sinkMode = .disabled then (.ok (), s) else reapFinishedLocked cfg dev s)
      (if cfg.sinkMode = .disabled then (.ok (), t) else reapFinishedLocked cfg dev t) := by
    split
    · exact .same h
    · exact reap_matches h
  unfold interruptWithFadeLocked
  refine hreaped.andThen fun s₁ t₁ h₁ => ?_
  cases dev.thrown with
  | some e => exact .same h₁
  | none => exact resetLocked_matches h₁

theorem interruptWithFadeIfEpoch_matches {expected : UInt64} (h : s.view = t.view) :
    Matches (interruptWithFadeIfEpoch cfg dev expected s) (interruptWithFadeIfEpoch cfg dev expected t) := by
  unfold interruptWithFadeIfEpoch
  rw [playbackEpoch_eq h]
  split
  · exact .same h
  · exact interruptWithFade_matches h

theorem waitUntilIdle_matches (h : s.view = t.view) : Matches (waitUntilIdle cfg dev s) (waitUntilIdle cfg dev t) := by
  unfold waitUntilIdle
  split
  · exact .same h
  · exact (throwIfUnhealthy_matches h).andThen fun s₁ t₁ h₁ =>
      (flushPending_matches h₁).andThen fun s₂ t₂ h₂ => idleLoop_matches h₂

theorem resumeCall_matches (w : Waiting) (h : s.view = t.view) :
    Matches (resumeCall cfg dev w s) (resumeCall cfg dev w t) := by
  unfold resumeCall
  rw [playbackEpoch_eq h]
  cases w with
  | enqueue epoch chunk => exact enqueueInEpoch_matches h
  | hook reset =>
    cases dev.thrown with
    | some e => exact .same h
    | none =>
      dsimp only
      split
      · exact .same h
      · exact resetSink_matches h
  | drain reset =>
    dsimp only
    split
    · exact .same h
    · exact drain_matches h
  | idle => exact idleLoop_matches h

end Calls

/-! ## Runs -/

theorem commit_view {r r' : Stretch} (h : Matches r r') (hs : (commit r).unhealthy = false)
    (ht : (commit r').unhealthy = false) : (commit r).view = (commit r').view := by
  have hnot {r : Stretch} (hr : Broken r) : (commit r).unhealthy = true := by
    obtain ⟨x, s⟩ := r
    obtain ⟨⟨e, he⟩, hunhealthy⟩ := hr
    cases he
    exact hunhealthy
  rcases h with hr | hr | ⟨hsame, hview⟩
  · rw [hnot hr] at hs
    cases hs
  · rw [hnot hr] at ht
    cases ht
  · obtain ⟨x, s⟩ := r
    obtain ⟨x', t⟩ := r'
    cases hsame
    match x with
    | .error _ | .ok none => exact hview
    | .ok (some w) =>
      obtain ⟨buffers, gone, rfl, hlive⟩ := exists_of_view hview
      simp only [commit, St.view, hlive]

theorem play_done {b : Buffer} (serial : Nat) (h : b.done = true) : (b.play serial).done = true := by
  unfold Buffer.play
  split
  · rfl
  · exact h

theorem giveBackIf_done {b : Buffer} (serial : Nat) (h : b.done = true) : (b.giveBackIf serial).done = true := by
  unfold Buffer.giveBackIf
  split
  · exact giveBack_done h
  · exact h

theorem step_alike {e : Ev} (h : s.view = t.view) (hs : step cfg s e = some s') (ht : step cfg t e = some t')
    (hs' : s'.unhealthy = false) (ht' : t'.unhealthy = false) : s'.view = t'.view := by
  cases e with
  | enqueue epoch chunk dev =>
    cases hs
    cases ht
    exact commit_view (enqueue_matches h) hs' ht'
  | reset dev =>
    cases hs
    cases ht
    exact commit_view (resetLocked_matches h) hs' ht'
  | resetIfEpoch expected dev =>
    cases hs
    cases ht
    exact commit_view (resetIfEpoch_matches h) hs' ht'
  | interruptWithFade dev =>
    cases hs
    cases ht
    exact commit_view (interruptWithFade_matches h) hs' ht'
  | interruptWithFadeIfEpoch expected dev =>
    cases hs
    cases ht
    exact commit_view (interruptWithFadeIfEpoch_matches h) hs' ht'
  | waitUntilIdle dev =>
    cases hs
    cases ht
    exact commit_view (waitUntilIdle_matches h) hs' ht'
  | setResetWaitHook =>
    cases hs
    cases ht
    obtain ⟨buffers, gone, rfl, hlive⟩ := exists_of_view h
    simp only [St.view, hlive]
  | resume index dev =>
    obtain ⟨w, hw, rfl⟩ := Option.map_eq_some_iff.mp hs
    obtain ⟨w', hw', rfl⟩ := Option.map_eq_some_iff.mp ht
    have hwaiting : ({ s with waiting := s.waiting.eraseIdx index } : St).view =
        ({ t with waiting := t.waiting.eraseIdx index } : St).view := by
      obtain ⟨buffers, gone, rfl, hlive⟩ := exists_of_view h
      simp only [St.view, hlive]
    have hsame : w = w' := by
      obtain ⟨buffers, gone, rfl, -⟩ := exists_of_view h
      exact Option.some.inj (hw.symm.trans hw')
    subst hsame
    exact commit_view (resumeCall_matches w hwaiting) hs' ht'
  | played serial =>
    cases hs
    cases ht
    obtain ⟨buffers, gone, rfl, hlive⟩ := exists_of_view h
    have hmap := live_map (f := Buffer.play serial) fun b => play_done serial
    simp only [St.view, hmap buffers, hmap s.buffers, hlive]
  | returned serial =>
    cases hs
    cases ht
    obtain ⟨buffers, gone, rfl, hlive⟩ := exists_of_view h
    have hmap := live_map (f := Buffer.giveBackIf serial) fun b => giveBackIf_done serial
    simp only [St.view, hmap buffers, hmap s.buffers, hlive]

/-- The run of these events, if no state of it is unhealthy. -/
def runHealthy (cfg : Config) : St → List Ev → Option St
  | s, [] => if s.unhealthy then none else some s
  | s, e :: events => if s.unhealthy then none else (step cfg s e).bind fun s' => runHealthy cfg s' events

theorem healthy_of_run {events : List Ev} (h : runHealthy cfg s events = some s') : s.unhealthy = false := by
  cases hunhealthy : s.unhealthy with
  | false => rfl
  | true =>
    cases events with
    | nil | cons _ _ =>
      rw [runHealthy, hunhealthy] at h
      cases h

theorem run_nil (h : runHealthy cfg s [] = some s') : s' = s := by
  have hhealthy := healthy_of_run h
  rw [runHealthy, if_neg (by simp [hhealthy])] at h
  exact (Option.some.inj h).symm

theorem run_cons {e : Ev} {events : List Ev} (h : runHealthy cfg s (e :: events) = some s') :
    ∃ s₁, step cfg s e = some s₁ ∧ runHealthy cfg s₁ events = some s' := by
  have hhealthy := healthy_of_run h
  rw [runHealthy, if_neg (by simp [hhealthy])] at h
  exact Option.bind_eq_some_iff.mp h

theorem run_alike {events : List Ev} (h : s.view = t.view) (hs : runHealthy cfg s events = some s')
    (ht : runHealthy cfg t events = some t') : s'.view = t'.view := by
  induction events generalizing s t with
  | nil =>
    cases run_nil hs
    cases run_nil ht
    exact h
  | cons e events ih =>
    obtain ⟨s₁, hs₁, hs⟩ := run_cons hs
    obtain ⟨t₁, ht₁, ht⟩ := run_cons ht
    exact ih (step_alike h hs₁ ht₁ (healthy_of_run hs) (healthy_of_run ht)) hs ht

end QwenTtsBridge.Playback.WaveOutPlayer
