/-
  QwenTtsBridge.Playback.EpochQueue — the queues of the mock sink hold one epoch
  (`playback/winmm_playback.cpp`).

  With the mock sink `reset_locked` lets go of the mutex in the test hook only. Where that is
  not set, the reset that moves the epoch drops both queues before anybody else is admitted,
  or it fails and the player stays unhealthy.

  - `Operated.settled`: in every state that runs without the hook reach, a chunk was dropped
    by a reset later than its admission, and a healthy player's queues hold chunks of the
    current epoch only.
-/

import QwenTtsBridge.Playback.EpochIsolation

namespace QwenTtsBridge.Playback.WaveOutPlayer

open QwenTtsBridge.Protocol.Control QwenTtsBridge.Lib.Transition

/-! ## Runs without the hook -/

def Ev.hooks : Ev → Bool
  | .setResetWaitHook => true
  | .enqueue _ _ _ | .reset _ | .resetIfEpoch _ _ | .interruptWithFade _ | .interruptWithFadeIfEpoch _ _
  | .waitUntilIdle _ | .resume _ _ | .played _ | .returned _ => false

/-- The step is not a call of the test hook's setter. -/
def unhooked {σ : Type} (_ : σ) (e : Ev) : Prop := e.hooks = false

instance {σ : Type} (s : σ) (e : Ev) : Decidable (unhooked s e) := inferInstanceAs (Decidable (e.hooks = false))

abbrev Operated (cfg : Config) := Reach (step cfg) unhooked init

/-! ## The invariant -/

structure Settled (s : St) : Prop where
  hook : s.resetWaitHook = false
  waiting : ∀ w ∈ s.waiting, w.resetting? = none
  marks : ∀ b ∈ s.buffers, b.departure = .finished
  turns : ∀ a ∈ s.queued, a.turn ≤ s.turn
  dropped : ∀ a reset now, (a, .discarded reset now) ∈ s.gone → a.turn < reset ∧ reset ≤ s.turn
  current : s.unhealthy = false → ∀ a ∈ s.queued, a.turn = s.turn

/-- What a part of a stretch does that admits and drops nothing. -/
structure Held (s s' : St) : Prop where
  turn : s'.turn = s.turn
  hook : s'.resetWaitHook = s.resetWaitHook
  waiting : s'.waiting = s.waiting
  health : s'.unhealthy = false → s.unhealthy = false
  queued : ∀ a ∈ s'.queued, a ∈ s.queued
  marks : ∀ b ∈ s'.buffers, b ∈ s.buffers ∨ b.departure = .finished
  gone : ∀ p ∈ s'.gone, p ∈ s.gone ∨ p.2 = .finished ∨ ∃ b ∈ s.buffers, b.departure = p.2

variable {cfg : Config} {dev : Device} {s s' t : St}

theorem Held.refl (s : St) : Held s s := ⟨rfl, rfl, rfl, id, fun _ ha => ha, fun _ => .inl, fun _ => .inl⟩

theorem Held.trans (h : Held s s') (h' : Held s' t) : Held s t := by
  refine ⟨h'.turn.trans h.turn, h'.hook.trans h.hook, h'.waiting.trans h.waiting, fun hnot => h.health (h'.health hnot),
    fun a ha => h.queued a (h'.queued a ha), fun b hb => ?_, fun p hp => ?_⟩
  · exact (h'.marks b hb).elim (h.marks b) .inr
  · rcases h'.gone p hp with hold | hfinished | ⟨b, hb, hd⟩
    · exact h.gone p hold
    · exact .inr (.inl hfinished)
    · rcases h.marks b hb with hold | hfinished
      · exact .inr (.inr ⟨b, hold, hd⟩)
      · exact .inr (.inl (hd.symm.trans hfinished))

theorem Held.settled (h : Held s s') (hs : Settled s) : Settled s' := by
  refine ⟨h.hook.trans hs.hook, ?_, fun b hb => (h.marks b hb).elim (hs.marks b) id, fun a ha => ?_,
    fun a reset now hmem => ?_, fun hhealthy a ha => ?_⟩
  · rw [h.waiting]
    exact hs.waiting
  · rw [h.turn]
    exact hs.turns a (h.queued a ha)
  · rw [h.turn]
    rcases h.gone _ hmem with hold | hfinished | ⟨b, hb, hd⟩
    · exact hs.dropped a reset now hold
    · cases hfinished
    · have hfinished : Departure.finished = .discarded reset now := (hs.marks b hb).symm.trans hd
      cases hfinished
  · rw [h.turn]
    exact hs.current (h.health hhealthy) a (h.queued a ha)

/-- The queues are as they were. -/
theorem Held.of_eq (hturn : s'.turn = s.turn) (hhook : s'.resetWaitHook = s.resetWaitHook) (hwaiting : s'.waiting = s.waiting)
    (hhealth : s'.unhealthy = false → s.unhealthy = false) (hbuffers : s'.buffers = s.buffers)
    (hpending : s'.pendingBuffers = s.pendingBuffers) (hgone : s'.gone = s.gone) : Held s s' := by
  refine ⟨hturn, hhook, hwaiting, hhealth, fun a ha => ?_, fun b hb => ?_, fun p hp => ?_⟩
  · rwa [St.queued, hbuffers, hpending] at ha
  · exact .inl (hbuffers ▸ hb)
  · exact .inl (hgone ▸ hp)

/-! ## The functions that hold the mutex throughout -/

section Locked

theorem throwIfUnhealthy_held (s : St) : Held s (throwIfUnhealthyLocked s).2 := by
  unfold throwIfUnhealthyLocked
  split <;> exact .refl s

theorem markUnhealthy_held (s : St) (reason : String) : Held s (markUnhealthy s reason) :=
  .of_eq rfl rfl rfl (fun h => by cases h) rfl rfl rfl

theorem shouldInject_held (cfg : Config) (s : St) (stage : MockFailureStage) :
    Held s (shouldInjectMockFailure cfg s stage).2 := by
  unfold shouldInjectMockFailure
  split
  · exact .refl s
  · split
    · exact .refl s
    · exact .of_eq rfl rfl rfl id rfl rfl rfl

theorem unprepare_held (cfg : Config) (dev : Device) (s : St) (serial : Nat) :
    Held s (unprepareHeaderOrFailLocked cfg dev s serial).2 := by
  unfold unprepareHeaderOrFailLocked
  split
  · have hinject := shouldInject_held cfg s .unprepare
    dsimp only
    split
    · exact hinject.trans (markUnhealthy_held _ _)
    · exact hinject
  · split
    · exact .refl s
    · exact markUnhealthy_held s _

theorem validatePendingFormat_held (s : St) (format : AudioFormat) :
    Held s (validatePendingFormatLocked cfg s format).2 := by
  unfold validatePendingFormatLocked
  repeat' split
  all_goals exact .of_eq rfl rfl rfl id rfl rfl rfl

theorem Held.withBuffers (h : Held s s') (hpending : s'.pendingBuffers = s.pendingBuffers) (hgone : s'.gone = s.gone)
    (buffers : List Buffer) : Held { s with buffers := buffers } { s' with buffers := buffers } :=
  .of_eq h.turn h.hook h.waiting h.health rfl hpending hgone

/-- A buffer that is done leaves `buffers_`. -/
theorem reap_held (kept rest : List Buffer) (b : Buffer) (s : St) :
    Held { s with buffers := kept ++ b :: rest }
      { s with buffers := kept ++ rest, gone := s.gone ++ [(b.admission, b.departure)] } := by
  refine ⟨rfl, rfl, rfl, id, fun a ha => ?_, fun b' hb' => ?_, fun p hp => ?_⟩
  · simp only [St.queued, List.map_append, List.map_cons, List.mem_append, List.mem_cons] at ha ⊢
    tauto
  · simp only [List.mem_append, List.mem_cons] at hb' ⊢
    tauto
  · rcases List.mem_append.mp hp with hold | hnew
    · exact .inl hold
    · cases List.mem_singleton.mp hnew
      exact .inr (.inr ⟨b, List.mem_append_right _ List.mem_cons_self, rfl⟩)

theorem reapFrom_held (kept todo : List Buffer) (s : St) :
    Held { s with buffers := kept ++ todo } (reapFrom cfg dev kept todo s).2 := by
  induction todo generalizing kept s with
  | nil =>
    rw [List.append_nil]
    exact .refl _
  | cons b rest ih =>
    unfold reapFrom
    split
    · have h := ih (kept ++ [b]) s
      rwa [List.append_assoc] at h
    · have hheld : Held s (if b.prepared then unprepareHeaderOrFailLocked cfg dev s b.admission.serial else (.ok (), s)).2 := by
        split
        · exact unprepare_held cfg dev s _
        · exact .refl s
      have hplain : Plain s (if b.prepared then unprepareHeaderOrFailLocked cfg dev s b.admission.serial
          else (.ok (), s)).2 := by
        split
        · exact unprepare_plain cfg dev s _
        · exact .refl s
      dsimp only
      split
      all_goals
        rename_i s₁ heq
        rw [heq] at hheld hplain
        have hstart := hheld.withBuffers hplain.pending hplain.gone (kept ++ b :: rest)
      · exact hstart
      · exact (hstart.trans (reap_held kept rest b s₁)).trans
          (ih kept { s₁ with gone := s₁.gone ++ [(b.admission, b.departure)] })

theorem reapFinished_held (s : St) : Held s (reapFinishedLocked cfg dev s).2 := reapFrom_held [] s.buffers s

theorem submit_held (s : St) (b : Buffer) (rest : List Buffer) (count : Nat) :
    Held { s with pendingBuffers := b :: rest }
      { submit s b with pendingBuffers := rest, mockSubmissionCount := count } := by
  refine ⟨rfl, rfl, rfl, id, fun a ha => ?_, fun b' hb' => ?_, fun p hp => .inl hp⟩
  · simp only [St.queued, submit, List.map_append, List.map_cons, List.map_nil, List.mem_append, List.mem_cons,
      List.not_mem_nil, or_false] at ha ⊢
    tauto
  · rcases List.mem_append.mp hb' with hold | hnew
    · exact .inl hold
    · cases List.mem_singleton.mp hnew
      exact .inr rfl

theorem shouldInject_withPending (cfg : Config) (s : St) (stage : MockFailureStage) (pending : List Buffer) :
    Held { s with pendingBuffers := pending } { (shouldInjectMockFailure cfg s stage).2 with pendingBuffers := pending } := by
  have h := shouldInject_held cfg s stage
  have hplain := shouldInject_plain cfg s stage
  exact .of_eq h.turn h.hook h.waiting h.health hplain.buffers rfl hplain.gone

theorem flushMock_held (todo : List Buffer) (s : St) :
    Held { s with pendingBuffers := todo } (flushMock cfg todo s).2 := by
  induction todo generalizing s with
  | nil => exact .of_eq rfl rfl rfl id rfl rfl rfl
  | cons b rest ih =>
    unfold flushMock
    dsimp only
    have hprepare := shouldInject_withPending cfg s .prepare (b :: rest)
    have hwrite := shouldInject_withPending cfg (shouldInjectMockFailure cfg s .prepare).2 .write (b :: rest)
    split
    · exact hprepare
    split
    · exact hprepare.trans hwrite
    · have hboth := hprepare.trans hwrite
      generalize (shouldInjectMockFailure cfg (shouldInjectMockFailure cfg s .prepare).2 .write).2 = s₂ at hboth
      exact hboth.trans ((submit_held s₂ b rest _).trans
        (ih { submit s₂ b with mockSubmissionCount := s₂.mockSubmissionCount + 1 }))

theorem flushPending_held (hmock : cfg.sinkMode = .mock) (s : St) : Held s (flushPendingLocked cfg dev s).2 := by
  unfold flushPendingLocked
  rw [if_pos hmock]
  split
  · exact .refl s
  split
  · exact .refl s
  · have hformat : Held s { s with format := s.pendingFormat.getD s.format } := .of_eq rfl rfl rfl id rfl rfl rfl
    exact hformat.trans (flushMock_held s.pendingBuffers { s with format := s.pendingFormat.getD s.format })

end Locked

/-! ## Calls -/

/-- What is between two states of a healthy player: if the epoch has moved, nothing is
    submitted. -/
def Turns (s s' : St) : Prop :=
  s'.unhealthy = false → s.unhealthy = false ∧ (s'.turn = s.turn ∨ s'.playbackStarted = false)

theorem Held.turns (h : Held s s') : Turns s s' := fun hhealthy => ⟨h.health hhealthy, .inl h.turn⟩

/-- A stretch that starts in `s` and keeps the invariant. -/
structure Clean (s : St) (r : Stretch) : Prop where
  settled : Settled r.2
  waits : ∀ w, r.1 = .ok (some w) → w.resetting? = none
  turns : Turns s r.2

theorem clean_done (h : Held s s') (hs : Settled s) : Clean s (.ok none, s') :=
  ⟨h.settled hs, fun _ heq => (by cases heq), h.turns⟩

theorem clean_error {e : String} (h : Held s s') (hs : Settled s) : Clean s (.error e, s') :=
  ⟨h.settled hs, fun _ heq => (by cases heq), h.turns⟩

theorem clean_waits {w : Waiting} (h : Held s s') (hs : Settled s) (hw : w.resetting? = none) :
    Clean s (.ok (some w), s') := by
  refine ⟨h.settled hs, fun w' heq => ?_, h.turns⟩
  cases heq
  exact hw

theorem Clean.after {r : Stretch} (h : Held s s') (hr : Clean s' r) : Clean s r := by
  refine ⟨hr.settled, hr.waits, fun hhealthy => ?_⟩
  obtain ⟨hbefore, hmoved⟩ := hr.turns hhealthy
  exact ⟨h.health hbefore, hmoved.imp_left (·.trans h.turn)⟩

theorem clean_andThen {r : Result} {next : St → Stretch} (h : Held s r.2) (hs : Settled s)
    (hnext : ∀ s', Settled s' → Clean s' (next s')) : Clean s (r.andThen next) := by
  obtain ⟨x, s'⟩ := r
  cases x with
  | error e => exact clean_error h hs
  | ok _ => exact .after h (hnext s' (h.settled hs))

theorem clean_commit {r : Stretch} (h : Clean s r) : Settled (commit r) ∧ Turns s (commit r) := by
  obtain ⟨x, s'⟩ := r
  rcases x with e | _ | w
  · exact ⟨h.settled, h.turns⟩
  · exact ⟨h.settled, h.turns⟩
  · refine ⟨⟨h.settled.hook, fun w' hmem => ?_, h.settled.marks, h.settled.turns, h.settled.dropped, h.settled.current⟩,
      h.turns⟩
    rcases List.mem_append.mp hmem with hold | hnew
    · exact h.settled.waiting w' hold
    · cases List.mem_singleton.mp hnew
      exact h.waits w rfl

section Enqueue

variable {epoch : UInt64} {chunk : PcmChunk}

theorem settled_pushPending (hs : Settled s) : Settled (pushPending epoch chunk s) := by
  have hqueued {a : Admission} (ha : a ∈ (pushPending epoch chunk s).queued) : a ∈ s.queued ∨ a.turn = s.turn := by
    simp only [St.queued, pushPending, List.map_append, List.map_cons, List.map_nil, List.mem_append,
      List.mem_singleton] at ha ⊢
    rcases ha with hbuffers | hpending | rfl
    · exact .inl (.inl hbuffers)
    · exact .inl (.inr hpending)
    · exact .inr rfl
  refine ⟨hs.hook, hs.waiting, hs.marks, fun a ha => ?_, hs.dropped, fun hhealthy a ha => ?_⟩
  · exact (hqueued ha).elim (hs.turns a) Nat.le_of_eq
  · exact (hqueued ha).elim (hs.current hhealthy a) id

theorem clean_admitChunk (hmock : cfg.sinkMode = .mock) (hs : Settled s) :
    Clean s (admitChunk cfg dev epoch chunk s) := by
  unfold admitChunk
  refine clean_andThen (reapFinished_held s) hs fun s₁ hs₁ => ?_
  refine clean_andThen (validatePendingFormat_held s₁ _) hs₁ fun s₂ hs₂ => ?_
  split
  · exact clean_error (.refl _) hs₂
  · have hpushed : Settled (pushPending epoch chunk s₂) := settled_pushPending hs₂
    dsimp only
    split
    · have hheld : Held (pushPending epoch chunk s₂) (flushPendingLocked cfg dev (pushPending epoch chunk s₂)).2 :=
        flushPending_held hmock _
      have hflushed := clean_andThen hheld hpushed fun s₃ hs₃ => clean_done (.refl s₃) hs₃
      exact ⟨hflushed.settled, hflushed.waits, hflushed.turns⟩
    · exact ⟨hpushed, fun _ heq => (by cases heq), (Held.refl s₂).turns⟩

theorem clean_enqueueInEpoch (hmock : cfg.sinkMode = .mock) (hs : Settled s) :
    Clean s (enqueueInEpoch cfg dev epoch chunk s) := by
  unfold enqueueInEpoch
  split
  · exact clean_done (.of_eq rfl rfl rfl id rfl rfl rfl) hs
  unfold enqueueLoop
  split
  · refine clean_andThen (reapFinished_held s) hs fun s₁ hs₁ => ?_
    split
    · exact clean_waits (.refl s₁) hs₁ rfl
    · exact clean_admitChunk hmock hs₁
  · exact clean_admitChunk hmock hs

theorem clean_enqueue (hmock : cfg.sinkMode = .mock) (hs : Settled s) : Clean s (enqueue cfg dev epoch chunk s) := by
  unfold enqueue
  split
  · exact clean_done (.refl s) hs
  split
  · exact clean_error (.refl s) hs
  split
  · exact clean_error (.refl s) hs
  split
  · exact clean_done (.refl s) hs
  · exact clean_andThen (throwIfUnhealthy_held s) hs fun s₁ hs₁ => clean_enqueueInEpoch hmock hs₁

end Enqueue

section Reset

/-- The epoch has moved: what is queued is of earlier epochs, and the player fails or drops
    it all. -/
theorem clean_resetLocked (hmock : cfg.sinkMode = .mock) (hs : Settled s) : Clean s (resetLocked cfg dev s) := by
  have hfailed {s₁ : St} {e : String} (h : Held (beginReset s) s₁) (hunhealthy : s₁.unhealthy = true) :
      Clean s (.error e, s₁) := by
    refine ⟨⟨h.hook.trans hs.hook, ?_, fun b hb => (h.marks b hb).elim (hs.marks b) id, fun a ha => ?_,
      fun a reset now hmem => ?_, fun hhealthy => ?_⟩, fun _ heq => (by cases heq), fun hhealthy => ?_⟩
    · rw [h.waiting]
      exact hs.waiting
    · rw [h.turn]
      exact Nat.le_succ_of_le (hs.turns a (h.queued a ha))
    · rw [h.turn]
      rcases h.gone _ hmem with hold | hfinished | ⟨b, hb, hd⟩
      · exact (hs.dropped a reset now hold).imp_right Nat.le_succ_of_le
      · cases hfinished
      · have hfinished : Departure.finished = .discarded reset now := (hs.marks b hb).symm.trans hd
        cases hfinished
    · rw [hunhealthy] at hhealthy
      cases hhealthy
    · rw [hunhealthy] at hhealthy
      cases hhealthy
  unfold resetLocked
  dsimp only
  unfold throwIfUnhealthyLocked
  split
  · rename_i hunhealthy
    exact hfailed (.refl _) hunhealthy
  have hhook : ¬ (beginReset s).resetWaitHook = true := by
    have hoff : (beginReset s).resetWaitHook = false := hs.hook
    simp [hoff]
  unfold Result.andThen
  dsimp only
  rw [if_neg hhook, resetSink, hmock]
  have hcount : Held (beginReset s) { beginReset s with mockSubmissionCount := 0 } := .of_eq rfl rfl rfl id rfl rfl rfl
  have hinject := hcount.trans (shouldInject_held cfg { beginReset s with mockSubmissionCount := 0 } .reset)
  dsimp only
  generalize (shouldInjectMockFailure cfg { beginReset s with mockSubmissionCount := 0 } .reset).2 = s₁ at hinject ⊢
  split
  · exact hfailed (hinject.trans (markUnhealthy_held s₁ _)) rfl
  · have hempty (a : Admission) : ¬ a ∈ St.queued { clearPendingLocked ⟨(beginReset s).playbackEpoch, (beginReset s).turn⟩
        (clearBuffers ⟨(beginReset s).playbackEpoch, (beginReset s).turn⟩ s₁) with
        playbackStarted := false, nextStreamFrame := 0 } := by
      simp [St.queued, clearPendingLocked, clearBuffers]
    have hbefore {a : Admission} (ha : a ∈ s₁.queued) : a.turn < (beginReset s).turn :=
      Nat.lt_succ_of_le (hs.turns a (hinject.queued a ha))
    refine ⟨⟨hinject.hook.trans hs.hook, ?_, fun b hb => (by cases hb), fun a ha => absurd ha (hempty a),
      fun a reset now hmem => ?_, fun _ a ha => absurd ha (hempty a)⟩, fun _ heq => (by cases heq),
      fun hhealthy => ⟨hinject.health hhealthy, .inr rfl⟩⟩
    · show ∀ w ∈ s₁.waiting, w.resetting? = none
      rw [hinject.waiting]
      exact hs.waiting
    · show a.turn < reset ∧ reset ≤ s₁.turn
      rw [hinject.turn]
      simp only [finishReset, clearPendingLocked, clearBuffers, List.mem_append, List.mem_map, Prod.mk.injEq,
        Departure.discarded.injEq] at hmem
      rcases hmem with (hold | ⟨b, hb, rfl, rfl, -⟩) | ⟨b, hb, rfl, rfl, -⟩
      · rcases hinject.gone _ hold with hold | hfinished | ⟨b, hb, hd⟩
        · exact (hs.dropped a reset now hold).imp_right Nat.le_succ_of_le
        · cases hfinished
        · have hfinished : Departure.finished = .discarded reset now := (hs.marks b hb).symm.trans hd
          cases hfinished
      · exact ⟨hbefore (mem_queued.mpr (.inl ⟨b, hb, rfl⟩)), Nat.le_refl _⟩
      · exact ⟨hbefore (mem_queued.mpr (.inr ⟨b, hb, rfl⟩)), Nat.le_refl _⟩

theorem clean_interruptWithFade (hmock : cfg.sinkMode = .mock) (hs : Settled s) :
    Clean s (interruptWithFadeLocked cfg dev s) := by
  have hreap : Held s (if cfg.sinkMode = .disabled then (.ok (), s) else reapFinishedLocked cfg dev s).2 := by
    split
    · exact .refl s
    · exact reapFinished_held s
  unfold interruptWithFadeLocked
  refine clean_andThen hreap hs fun s₁ hs₁ => ?_
  split
  · exact clean_error (.refl s₁) hs₁
  · exact clean_resetLocked hmock hs₁

end Reset

theorem clean_idleLoop (hs : Settled s) : Clean s (idleLoop cfg dev s) := by
  unfold idleLoop
  split
  · exact clean_done (.refl s) hs
  · refine clean_andThen (reapFinished_held s) hs fun s₁ hs₁ => ?_
    split
    · exact clean_done (.refl s₁) hs₁
    split
    · exact clean_error (.refl s₁) hs₁
    · exact clean_waits (.refl s₁) hs₁ rfl

theorem clean_waitUntilIdle (hmock : cfg.sinkMode = .mock) (hs : Settled s) : Clean s (waitUntilIdle cfg dev s) := by
  unfold waitUntilIdle
  split
  · exact clean_done (.refl s) hs
  · refine clean_andThen (throwIfUnhealthy_held s) hs fun s₁ hs₁ => ?_
    exact clean_andThen (flushPending_held hmock s₁) hs₁ fun s₂ hs₂ => clean_idleLoop hs₂

/-! ## Runs -/

theorem play_departure (serial : Nat) (b : Buffer) : (b.play serial).departure = b.departure ∨
    (b.play serial).departure = .finished := by
  unfold Buffer.play
  split
  · exact .inr rfl
  · exact .inl rfl

theorem mark_held (f : Buffer → Buffer) (hadmission : ∀ b, (f b).admission = b.admission)
    (hs : Settled s) (hdeparture : ∀ b, (f b).departure = b.departure ∨ (f b).departure = .finished) :
    Held s { s with buffers := s.buffers.map f } := by
  refine ⟨rfl, rfl, rfl, id, fun a ha => ?_, fun b hb => ?_, fun p hp => .inl hp⟩
  · simpa [St.queued, hadmission] using ha
  · obtain ⟨b₀, hmem, rfl⟩ := List.mem_map.mp hb
    exact .inr ((hdeparture b₀).elim (·.trans (hs.marks b₀ hmem)) id)

theorem step_settled (hmock : cfg.sinkMode = .mock) {e : Ev} (hs : Settled s) (he : e.hooks = false)
    (h : step cfg s e = some s') : Settled s' ∧ Turns s s' := by
  cases e with
  | enqueue epoch chunk dev =>
    cases h
    exact clean_commit (clean_enqueue hmock hs)
  | reset dev =>
    cases h
    exact clean_commit (clean_resetLocked hmock hs)
  | resetIfEpoch expected dev =>
    cases h
    unfold resetIfEpoch
    split
    · exact ⟨hs, (Held.refl s).turns⟩
    · exact clean_commit (clean_resetLocked hmock hs)
  | interruptWithFade dev =>
    cases h
    exact clean_commit (clean_interruptWithFade hmock hs)
  | interruptWithFadeIfEpoch expected dev =>
    cases h
    unfold interruptWithFadeIfEpoch
    split
    · exact ⟨hs, (Held.refl s).turns⟩
    · exact clean_commit (clean_interruptWithFade hmock hs)
  | waitUntilIdle dev =>
    cases h
    exact clean_commit (clean_waitUntilIdle hmock hs)
  | setResetWaitHook => cases he
  | resume index dev =>
    obtain ⟨w, hw, rfl⟩ := Option.map_eq_some_iff.mp h
    have hresumed : Settled { s with waiting := s.waiting.eraseIdx index } :=
      ⟨hs.hook, fun w' hmem => hs.waiting w' (List.mem_of_mem_eraseIdx hmem), hs.marks, hs.turns, hs.dropped, hs.current⟩
    have hclean : Clean { s with waiting := s.waiting.eraseIdx index }
        (resumeCall cfg dev w { s with waiting := s.waiting.eraseIdx index }) := by
      have hnone := hs.waiting w (List.mem_of_getElem? hw)
      cases w with
      | enqueue epoch chunk => exact clean_enqueueInEpoch hmock hresumed
      | hook reset => cases hnone
      | drain reset => cases hnone
      | idle => exact clean_idleLoop hresumed
    obtain ⟨hsettled, hturns⟩ := clean_commit hclean
    exact ⟨hsettled, hturns⟩
  | played serial =>
    cases h
    have hplayed := mark_held _ (play_admission serial) hs (play_departure serial)
    exact ⟨hplayed.settled hs, hplayed.turns⟩
  | returned serial =>
    cases h
    have hreturned : Held s { s with buffers := s.buffers.map (Buffer.giveBackIf serial) } := by
      refine mark_held _ (fun b => ?_) hs fun b => ?_
      · unfold Buffer.giveBackIf
        split
        · exact giveBack_admission b
        · rfl
      · unfold Buffer.giveBackIf
        split
        · exact .inl (giveBack_departure b)
        · exact .inl rfl
    exact ⟨hreturned.settled hs, hreturned.turns⟩

theorem init_settled : Settled init := by
  refine ⟨rfl, ?_, ?_, ?_, ?_, ?_⟩ <;> simp [init, St.queued]

theorem Operated.settled (hmock : cfg.sinkMode = .mock) (h : Operated cfg s) : Settled s :=
  h.inv init_settled fun _ _ _ _ hs he hstep => (step_settled hmock hs he hstep).1

end QwenTtsBridge.Playback.WaveOutPlayer
