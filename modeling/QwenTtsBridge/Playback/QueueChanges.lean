/-
  QwenTtsBridge.Playback.QueueChanges — what a stretch of the player does to its queues
  (`playback/winmm_playback.cpp`).

  `Queue` is the player's state without its health, its epochs and its waiting calls: the
  two queues, their formats and the position in the stream. `Change` lists what may happen
  to it, with the guards of the source; a chunk comes in by `Queue.push` only.

  - `step_evolves`: every step is a sequence of changes, with at most one chunk in between,
    the one that the step's call brings.
-/

import Mathlib.Logic.Relation
import QwenTtsBridge.Playback.RejectedChunk

namespace QwenTtsBridge.Playback.WaveOutPlayer

open QwenTtsBridge.Protocol.Control QwenTtsBridge.Lib.Transition

/-! ## Changes -/

structure Queue where
  opened : Bool
  started : Bool
  format : AudioFormat
  pendingFormat : Option AudioFormat
  buffers : List Buffer
  pending : List Buffer
  next : UInt64

def St.queue (s : St) : Queue :=
  ⟨s.handle, s.playbackStarted, s.format, s.pendingFormat, s.buffers, s.pendingBuffers, s.nextStreamFrame⟩

/-- Only audio in `format` can come in. -/
def Queue.Fixed (cfg : Config) (q : Queue) : Prop := (cfg.sinkMode = .mock ∧ q.started = true) ∨ q.opened = true

/-- The same audio at the same place: `header` and `prepared` may differ. -/
structure SameAudio (b b' : Buffer) : Prop where
  admission : b'.admission = b.admission
  bytes : b'.bytes = b.bytes
  requestId : b'.requestId = b.requestId
  first : b'.utteranceFirstSample = b.utteranceFirstSample
  count : b'.frameCount = b.frameCount
  start : b'.startFrame = b.startFrame

/-- A pending buffer when the sink has it. -/
def Buffer.submittedAt (b : Buffer) (next : UInt64) : Buffer :=
  { b with startFrame := next, prepared := true, header := .queued }

/-- `clearing`: the stretch is one of a reset. -/
inductive Change (cfg : Config) (clearing : Bool) : Queue → Queue → Prop
  /-- `pending_format_ = format`. -/
  | record (q : Queue) (format : AudioFormat) (hfixed : q.Fixed cfg → q.format = format)
      (hloose : ¬ q.Fixed cfg → ∀ pending, q.pendingFormat = some pending → pending = format) :
      Change cfg clearing q { q with pendingFormat := some format }
  /-- A buffer has been played or given back. -/
  | mark (q : Queue) (f : Buffer → Buffer) (hf : ∀ b, SameAudio b (f b)) :
      Change cfg clearing q { q with buffers := q.buffers.map f }
  | reap (q : Queue) (buffers : List Buffer) (hsub : buffers.Sublist q.buffers) : Change cfg clearing q { q with buffers := buffers }
  /-- `waveOutOpen`. -/
  | opens (q : Queue) (hclosed : q.opened = false) :
      Change cfg clearing q { q with opened := true, format := q.pendingFormat.getD q.format }
  /-- The mock sink takes the format of what is pending. -/
  | settle (q : Queue) (hmock : cfg.sinkMode = .mock) : Change cfg clearing q { q with format := q.pendingFormat.getD q.format }
  | submit (q : Queue) (b : Buffer) (rest : List Buffer) (hpending : q.pending = b :: rest)
      (hsink : cfg.sinkMode = .mock ∨ (cfg.sinkMode = .waveOut ∧ q.opened = true))
      (hformat : cfg.sinkMode = .mock → ∀ pending, q.pendingFormat = some pending → pending = q.format) :
      Change cfg clearing q
        { q with
          pending := rest
          buffers := q.buffers ++ [b.submittedAt q.next]
          next := q.next + b.frameCount
          started := true }
  /-- The driver keeps the header of a buffer. -/
  | orphan (q : Queue) (b : Buffer) (rest : List Buffer) (hpending : q.pending = b :: rest) :
      Change cfg clearing q { q with pending := rest }
  | putBack (q : Queue) (b : Buffer) (rest : List Buffer) (hpending : q.pending = b :: rest) :
      Change cfg clearing q { q with pending := { b with prepared := false } :: rest }
  | flushed (q : Queue) (hpending : q.pending = []) : Change cfg clearing q { q with pendingFormat := none }
  /-- A reset that goes through; without a device it does not look at `buffers_`. -/
  | reset (q : Queue) (buffers : List Buffer) (hclearing : clearing = true)
      (hbuffers : buffers = [] ∨ (buffers = q.buffers ∧ cfg.sinkMode = .waveOut ∧ q.opened = false)) :
      Change cfg clearing q { q with buffers := buffers, pending := [], pendingFormat := none, started := false, next := 0 }
  | rewind (q : Queue) (hclearing : clearing = true) (hdisabled : cfg.sinkMode = .disabled) : Change cfg clearing q { q with next := 0 }

abbrev Changes (cfg : Config) (clearing : Bool) : Queue → Queue → Prop := Relation.ReflTransGen (Change cfg clearing)

/-! ### Chunks -/

def Queue.push (q : Queue) (b : Buffer) : Queue := { q with pending := q.pending ++ [b] }

/-- What `enqueue` has checked of a chunk when it waits for room. -/
structure Admissible (cfg : Config) (chunk : PcmChunk) : Prop where
  enabled : cfg.sinkMode ≠ .disabled
  supported : Supported chunk.format
  nonempty : chunk.bytes ≠ []

/-- The chunk is admitted as this buffer. -/
structure Admits (cfg : Config) (chunk : PcmChunk) (q : Queue) (b : Buffer) : Prop where
  admissible : Admissible cfg chunk
  whole : chunk.bytes.length % pcmFrameBytes chunk.format = 0
  fixed : q.Fixed cfg → q.format = chunk.format
  loose : ¬ q.Fixed cfg → q.pendingFormat = some chunk.format
  bytes : b.bytes = chunk.bytes
  requestId : b.requestId = chunk.requestId
  first : b.utteranceFirstSample = chunk.firstSample
  count : b.frameCount = UInt64.ofNat (chunk.bytes.length / pcmFrameBytes chunk.format)

/-- Changes, with a chunk in between if there is one. -/
inductive Brings (cfg : Config) (clearing : Bool) (offer : Option PcmChunk) (q q' : Queue) : Prop
  | nothing (h : Changes cfg clearing q q')
  | chunk (chunk : PcmChunk) (q₁ : Queue) (b : Buffer) (hoffer : offer = some chunk) (hbefore : Changes cfg clearing q q₁)
      (hadmits : Admits cfg chunk q₁ b) (hafter : Changes cfg clearing (q₁.push b) q')

theorem Brings.after {cfg : Config} {clearing : Bool} {offer : Option PcmChunk} {q q₁ q' : Queue} (h : Changes cfg clearing q q₁)
    (h' : Brings cfg clearing offer q₁ q') : Brings cfg clearing offer q q' := by
  cases h' with
  | nothing hrest => exact .nothing (h.trans hrest)
  | chunk chunk q₂ b hoffer hbefore hadmits hafter => exact .chunk chunk q₂ b hoffer (h.trans hbefore) hadmits hafter

/-! ## The functions that hold the mutex throughout -/

/-- The queues change and nobody starts to wait. -/
structure Carries (cfg : Config) (clearing : Bool) (s s' : St) : Prop where
  changes : Changes cfg clearing s.queue s'.queue
  waiting : s'.waiting = s.waiting

/-- Neither the queues nor the waiting calls change. -/
structure Untouched (s s' : St) : Prop where
  queue : s'.queue = s.queue
  waiting : s'.waiting = s.waiting

variable {cfg : Config} {clearing : Bool} {dev : Device} {epoch : UInt64} {chunk : PcmChunk} {reset : Resetting} {s s' t : St}

theorem Carries.refl (s : St) : Carries cfg clearing s s := ⟨.refl, rfl⟩

theorem Carries.trans (h : Carries cfg clearing s s') (h' : Carries cfg clearing s' t) : Carries cfg clearing s t :=
  ⟨h.changes.trans h'.changes, h'.waiting.trans h.waiting⟩

theorem Untouched.trans (h : Untouched s s') (h' : Untouched s' t) : Untouched s t :=
  ⟨h'.queue.trans h.queue, h'.waiting.trans h.waiting⟩

theorem Untouched.withPending (h : Untouched s s') (pending : List Buffer) :
    Untouched { s with pendingBuffers := pending } { s' with pendingBuffers := pending } :=
  ⟨congrArg (fun q : Queue => { q with pending := pending }) h.queue, h.waiting⟩

theorem Untouched.carries (h : Untouched s s') : Carries cfg clearing s s' := by
  refine ⟨?_, h.waiting⟩
  rw [h.queue]

theorem Carries.change (h : Change cfg clearing s.queue s'.queue) (hwaiting : s'.waiting = s.waiting) : Carries cfg clearing s s' :=
  ⟨.single h, hwaiting⟩

section Locked

theorem throwIfUnhealthy_carries (s : St) : Carries cfg clearing s (throwIfUnhealthyLocked s).2 := by
  unfold throwIfUnhealthyLocked
  split <;> exact .refl s

theorem shouldInject_untouched (cfg : Config) (s : St) (stage : MockFailureStage) :
    Untouched s (shouldInjectMockFailure cfg s stage).2 := by
  unfold shouldInjectMockFailure
  split
  · exact ⟨rfl, rfl⟩
  · split <;> exact ⟨rfl, rfl⟩

theorem unprepare_untouched (cfg : Config) (dev : Device) (s : St) (serial : Nat) :
    Untouched s (unprepareHeaderOrFailLocked cfg dev s serial).2 := by
  unfold unprepareHeaderOrFailLocked
  split
  · have hinject := shouldInject_untouched cfg s .unprepare
    dsimp only
    split <;> exact ⟨hinject.queue, hinject.waiting⟩
  · split <;> exact ⟨rfl, rfl⟩

/-- The loop keeps what it has passed and some of the rest. -/
theorem reapFrom_frame (cfg : Config) (dev : Device) (kept todo : List Buffer) (s : St) :
    ∃ buffers, buffers.Sublist (kept ++ todo) ∧
      (reapFrom cfg dev kept todo s).2.queue = { s.queue with buffers := buffers } ∧
      (reapFrom cfg dev kept todo s).2.waiting = s.waiting := by
  induction todo generalizing kept s with
  | nil => exact ⟨kept, List.sublist_append_left kept [], rfl, rfl⟩
  | cons b rest ih =>
    unfold reapFrom
    split
    · obtain ⟨buffers, hsub, hqueue, hwaiting⟩ := ih (kept ++ [b]) s
      rw [List.append_assoc] at hsub
      exact ⟨buffers, hsub, hqueue, hwaiting⟩
    · have hframe : Untouched s (if b.prepared then unprepareHeaderOrFailLocked cfg dev s b.admission.serial
          else (.ok (), s)).2 := by
        split
        · exact unprepare_untouched cfg dev s _
        · exact ⟨rfl, rfl⟩
      dsimp only
      split
      all_goals
        rename_i s₁ heq
        rw [heq] at hframe
        obtain ⟨hqueue, hwaiting⟩ := hframe
      · refine ⟨kept ++ b :: rest, .refl _, ?_, hwaiting⟩
        rw [← hqueue]
        rfl
      · obtain ⟨buffers, hsub, hqueue', hwaiting'⟩ := ih kept { s₁ with gone := s₁.gone ++ [(b.admission, b.departure)] }
        refine ⟨buffers, hsub.trans ((List.sublist_cons_self b rest).append_left kept), ?_, hwaiting'.trans hwaiting⟩
        rw [hqueue', ← hqueue]
        rfl

theorem reapFinished_carries (s : St) : Carries cfg clearing s (reapFinishedLocked cfg dev s).2 := by
  obtain ⟨buffers, hsub, hqueue, hwaiting⟩ := reapFrom_frame cfg dev [] s.buffers s
  refine .change ?_ hwaiting
  rw [reapFinishedLocked, hqueue]
  exact .reap s.queue buffers hsub

theorem Fixed.takes {format : AudioFormat} (hfixed : s.queue.Fixed cfg) (h : Takes cfg format s) : s.format = format := by
  unfold Takes at h
  split at h
  · exact h
  · rename_i hsilent
    have hopened : s.handle = true := hfixed.resolve_left hsilent
    rwa [if_pos hopened] at h

theorem Loose.takes {format : AudioFormat} (hloose : ¬ s.queue.Fixed cfg) (h : Takes cfg format s) :
    ∀ pending, s.pendingFormat = some pending → pending = format := by
  obtain ⟨hsilent, hclosed⟩ := not_or.mp hloose
  have hsilent : ¬ (cfg.sinkMode = .mock ∧ s.playbackStarted = true) := hsilent
  have hclosed : ¬ s.handle = true := hclosed
  unfold Takes at h
  rw [if_neg hsilent, if_neg hclosed] at h
  exact h

theorem validatePendingFormat_carries (s : St) (format : AudioFormat) :
    Carries cfg clearing s (validatePendingFormatLocked cfg s format).2 := by
  by_cases htakes : Takes cfg format s
  · rw [validate_of_takes htakes]
    split
    · exact .change (.record s.queue format (Fixed.takes · htakes) (Loose.takes · htakes)) rfl
    · exact .refl s
  · obtain ⟨e, -, hrefused⟩ := validate_of_not_takes htakes
    rw [hrefused]
    exact .refl s

theorem openOrValidate_carries (cfg : Config) (clearing : Bool) (dev : Device) (s : St) :
    Carries cfg clearing s (openOrValidateLocked dev s (if s.handle then s.format else s.pendingFormat.getD s.format)).2 := by
  unfold openOrValidateLocked
  split
  · split <;> exact .refl s
  · rename_i hclosed
    split
    · exact .refl s
    · exact .change (.opens s.queue (Bool.eq_false_iff.mpr hclosed)) rfl

theorem openOrValidate_opened (dev : Device) (s : St) (format : AudioFormat) (h : (openOrValidateLocked dev s format).1 = .ok ()) :
    (openOrValidateLocked dev s format).2.handle = true := by
  unfold openOrValidateLocked at h ⊢
  split at h
  · rename_i hopened
    rw [if_pos hopened]
    split <;> exact hopened
  · rename_i hclosed
    rw [if_neg hclosed]
    split at h
    · cases h
    · rfl

theorem flushMock_carries (hmock : cfg.sinkMode = .mock) (todo : List Buffer) (s : St)
    (hformat : ∀ pending, s.pendingFormat = some pending → pending = s.format) :
    Carries cfg clearing { s with pendingBuffers := todo } (flushMock cfg todo s).2 := by
  induction todo generalizing s with
  | nil => exact .change (.flushed _ rfl) rfl
  | cons b rest ih =>
    have hprepare := shouldInject_untouched cfg s .prepare
    have hwrite := shouldInject_untouched cfg (shouldInjectMockFailure cfg s .prepare).2 .write
    unfold flushMock
    dsimp only
    generalize hs₁ : (shouldInjectMockFailure cfg s .prepare).2 = s₁ at hprepare hwrite ⊢
    generalize hs₂ : (shouldInjectMockFailure cfg s₁ .write).2 = s₂ at hwrite ⊢
    have hboth := hprepare.trans hwrite
    split
    · exact (hprepare.withPending _).carries
    split
    · exact (hboth.withPending _).carries
    · have hformat₂ : ∀ pending, s₂.pendingFormat = some pending → pending = s₂.format := by
        intro pending hpending
        have hold : s.pendingFormat = some pending := (congrArg Queue.pendingFormat hboth.queue).symm.trans hpending
        exact (hformat pending hold).trans (congrArg Queue.format hboth.queue).symm
      let counted : St := { submit s₂ b with mockSubmissionCount := s₂.mockSubmissionCount + 1 }
      have hsubmit : Carries cfg clearing { s₂ with pendingBuffers := b :: rest } { counted with pendingBuffers := rest } :=
        .change (.submit _ b rest rfl (.inl hmock) fun _ => hformat₂) rfl
      exact (hboth.withPending _).carries.trans (hsubmit.trans (ih counted hformat₂))

theorem flushDevice_carries (hsink : cfg.sinkMode = .waveOut) (todo : List Buffer) (s : St) (hopened : s.handle = true) :
    Carries cfg clearing { s with pendingBuffers := todo } (flushDevice cfg dev todo s).2 := by
  have hother : cfg.sinkMode = .mock → ∀ pending, s.pendingFormat = some pending → pending = s.format := by
    intro hmock
    rw [hsink] at hmock
    cases hmock
  induction todo generalizing s with
  | nil => exact .change (.flushed _ rfl) rfl
  | cons b rest ih =>
    unfold flushDevice
    split
    · exact .refl _
    split
    · have hsubmit : Carries cfg clearing { s with pendingBuffers := b :: rest } { submit s b with pendingBuffers := rest } :=
        .change (.submit _ b rest rfl (.inr ⟨hsink, hopened⟩) hother) rfl
      exact hsubmit.trans (ih (submit s b) hopened hother)
    · have hframe := unprepare_untouched cfg dev s b.admission.serial
      split
      all_goals
        rename_i s₁ heq
        rw [heq] at hframe
        have hsame : Carries cfg clearing { s with pendingBuffers := b :: rest } { s₁ with pendingBuffers := b :: rest } :=
          (hframe.withPending _).carries
      · exact hsame.trans (.change (.putBack _ b rest rfl) rfl)
      · exact hsame.trans (.change (.orphan _ b rest rfl) rfl)

theorem flushPending_carries (clearing : Bool) (dev : Device) (henabled : cfg.sinkMode ≠ .disabled) (s : St) :
    Carries cfg clearing s (flushPendingLocked cfg dev s).2 := by
  unfold flushPendingLocked
  split
  · exact .refl s
  split
  · exact .refl s
  split
  · rename_i hmock
    have hsettle : Carries cfg clearing s { s with format := s.pendingFormat.getD s.format } :=
      .change (.settle s.queue hmock) rfl
    refine hsettle.trans (flushMock_carries hmock s.pendingBuffers { s with format := s.pendingFormat.getD s.format } ?_)
    intro pending hpending
    have hpending : s.pendingFormat = some pending := hpending
    simp only [hpending, Option.getD_some]
  · rename_i hmock
    have hsink : cfg.sinkMode = .waveOut := by
      cases hmode : cfg.sinkMode with
      | waveOut => rfl
      | disabled => exact absurd hmode henabled
      | mock => exact absurd hmode hmock
    have hopen := openOrValidate_carries cfg clearing dev s
    have hopened := openOrValidate_opened dev s (if s.handle then s.format else s.pendingFormat.getD s.format)
    unfold Result.andThen
    split
    all_goals
      rename_i heq
      rw [heq] at hopen hopened
    · exact hopen.trans (flushDevice_carries hsink _ _ (hopened rfl))
    · exact hopen

end Locked

/-! ## Calls -/

/-- A stretch of a call that brings this chunk, or none. -/
structure Evolves (cfg : Config) (clearing : Bool) (offer : Option PcmChunk) (s : St) (r : Stretch) : Prop where
  queue : Brings cfg clearing offer s.queue r.2.queue
  waiting : r.2.waiting = s.waiting
  waits : ∀ epoch chunk, r.1 = .ok (some (.enqueue epoch chunk)) → offer = some chunk

variable {offer : Option PcmChunk}

theorem Carries.done (h : Carries cfg clearing s s') : Evolves cfg clearing offer s (.ok none, s') :=
  ⟨.nothing h.changes, h.waiting, fun _ _ heq => by cases heq⟩

theorem Carries.thrown {e : String} (h : Carries cfg clearing s s') : Evolves cfg clearing offer s (.error e, s') :=
  ⟨.nothing h.changes, h.waiting, fun _ _ heq => by cases heq⟩

theorem Carries.then {r : Stretch} (h : Carries cfg clearing s s') (hr : Evolves cfg clearing offer s' r) : Evolves cfg clearing offer s r :=
  ⟨.after h.changes hr.queue, hr.waiting.trans h.waiting, hr.waits⟩

theorem evolves_andThen {r : Result} {next : St → Stretch} (hr : Carries cfg clearing s r.2)
    (hnext : r.1 = .ok () → Evolves cfg clearing offer r.2 (next r.2)) : Evolves cfg clearing offer s (r.andThen next) := by
  obtain ⟨x, s'⟩ := r
  cases x with
  | error e => exact hr.thrown
  | ok _ => exact hr.then (hnext rfl)

section Enqueue

variable (h : Admissible cfg chunk)

include h

/-- What is pushed once the format is recorded. -/
theorem pushPending_evolves (epoch : UInt64) (htakes : Takes cfg chunk.format s) (hwhole : ¬ Torn chunk) (hs' : s' =
    if Records cfg s then { s with pendingFormat := some chunk.format } else s) :
    ∃ b, Admits cfg chunk s'.queue b ∧ (pushPending epoch chunk s').queue = s'.queue.push b := by
  have hsame : s'.queue.Fixed cfg ↔ s.queue.Fixed cfg := by
    rw [hs']
    split <;> rfl
  refine ⟨_, ⟨h, not_not.mp hwhole, fun hfixed => ?_, fun hloose => ?_, rfl, rfl, rfl, rfl⟩, rfl⟩
  · have hformat := Fixed.takes (hsame.mp hfixed) htakes
    rw [hs']
    split <;> exact hformat
  · have hclosed : s.handle = false := by
      have hnot := (not_or.mp fun hfixed => hloose (hsame.mpr hfixed)).2
      simpa [St.queue] using hnot
    rw [hs', if_pos (.inr hclosed)]
    rfl

theorem admitChunk_evolves (s : St) : Evolves cfg clearing (some chunk) s (admitChunk cfg dev epoch chunk s) := by
  unfold admitChunk
  refine evolves_andThen (reapFinished_carries s) fun _ => ?_
  generalize (reapFinishedLocked cfg dev s).2 = s₁
  refine evolves_andThen (validatePendingFormat_carries s₁ chunk.format) fun hvalid => ?_
  have htakes : Takes cfg chunk.format s₁ := by
    by_contra hnot
    obtain ⟨e, -, hrefused⟩ := validate_of_not_takes hnot
    rw [hrefused] at hvalid
    cases hvalid
  rw [validate_of_takes htakes]
  dsimp only
  generalize hrecorded : (if Records cfg s₁ then { s₁ with pendingFormat := some chunk.format } else s₁) = s₂
  split
  · exact (Carries.refl s₂).thrown
  rename_i hwhole
  obtain ⟨b, hadmits, hpushed⟩ := pushPending_evolves h epoch htakes hwhole hrecorded.symm
  split
  · have hflush := flushPending_carries clearing dev h.enabled (pushPending epoch chunk s₂)
    have hbrings := Brings.chunk chunk _ b rfl .refl hadmits (hpushed ▸ hflush.changes)
    unfold Result.andThen
    split
    all_goals
      rename_i heq
      rw [heq] at hflush hbrings
      exact ⟨hbrings, hflush.waiting, fun _ _ heq => by cases heq⟩
  · exact ⟨.chunk chunk _ b rfl .refl hadmits (hpushed ▸ .refl), rfl, fun _ _ heq => by cases heq⟩

theorem enqueueInEpoch_evolves (clearing : Bool) (dev : Device) (epoch : UInt64) (s : St) :
    Evolves cfg clearing (some chunk) s (enqueueInEpoch cfg dev epoch chunk s) := by
  unfold enqueueInEpoch
  split
  · exact Carries.done (Untouched.carries ⟨rfl, rfl⟩)
  unfold enqueueLoop
  split
  · refine evolves_andThen (reapFinished_carries s) fun _ => ?_
    split
    · refine ⟨.nothing .refl, rfl, fun _ _ heq => ?_⟩
      cases heq
      rfl
    · exact admitChunk_evolves h _
  · exact admitChunk_evolves h s

end Enqueue

theorem enqueue_evolves (clearing : Bool) (dev : Device) (epoch : UInt64) (chunk : PcmChunk) (s : St) :
    Evolves cfg clearing (some chunk) s (enqueue cfg dev epoch chunk s) ∧
    ((∃ epoch' chunk', (enqueue cfg dev epoch chunk s).1 = .ok (some (.enqueue epoch' chunk'))) → Admissible cfg chunk) := by
  unfold enqueue
  split
  · exact ⟨(Carries.refl s).done, by simp⟩
  split
  · exact ⟨(Carries.refl s).thrown, by simp⟩
  split
  · exact ⟨(Carries.refl s).thrown, by simp⟩
  split
  · exact ⟨(Carries.refl s).done, by simp⟩
  rename_i henabled hsample hvalid hnonempty
  push Not at hvalid
  have h : Admissible cfg chunk :=
    ⟨henabled, ⟨not_not.mp hsample, hvalid.1, hvalid.2.1, UInt32.not_lt.mp hvalid.2.2⟩, by simpa using hnonempty⟩
  exact ⟨evolves_andThen (throwIfUnhealthy_carries s) fun _ => enqueueInEpoch_evolves h clearing dev epoch _, fun _ => h⟩

/-! ### Resets -/

theorem finishReset_evolves (hs : s.buffers = [] ∨ (cfg.sinkMode = .waveOut ∧ s.handle = false)) :
    Evolves cfg true none s (finishReset reset s) := by
  refine Carries.done (.change (.reset s.queue s.buffers rfl ?_) rfl)
  rcases hs with hempty | hclosed
  · exact .inl hempty
  · exact .inr ⟨rfl, hclosed⟩

theorem drain_evolves (s : St) : Evolves cfg true none s (drain cfg dev reset s) := by
  rw [drain_eq]
  refine evolves_andThen (reapFinished_carries s) fun _ => ?_
  split
  · rename_i hempty
    exact finishReset_evolves (.inl (List.isEmpty_iff.mp hempty))
  split
  · exact Carries.thrown (Untouched.carries ⟨rfl, rfl⟩)
  · exact ⟨.nothing .refl, rfl, fun _ _ heq => by cases heq⟩

theorem sameAudio_header (b : Buffer) (header : Header) : SameAudio b { b with header := header } :=
  ⟨rfl, rfl, rfl, rfl, rfl, rfl⟩

theorem SameAudio.refl (b : Buffer) : SameAudio b b := ⟨rfl, rfl, rfl, rfl, rfl, rfl⟩

theorem sameAudio_giveBack (b : Buffer) : SameAudio b b.giveBack := by
  unfold Buffer.giveBack
  split
  · exact sameAudio_header b _
  all_goals exact .refl b

theorem stopBuffers_carries (s : St) : Carries cfg clearing s (stopBuffers dev reset s) := by
  refine .change (.mark s.queue _ fun b => ?_) rfl
  have hstop : SameAudio b (b.stop reset s.turn) := by
    unfold Buffer.stop
    split
    · exact sameAudio_header b _
    · exact .refl b
  dsimp only
  split
  · have hback := sameAudio_giveBack (b.stop reset s.turn)
    exact ⟨hback.admission.trans hstop.admission, hback.bytes.trans hstop.bytes, hback.requestId.trans hstop.requestId,
      hback.first.trans hstop.first, hback.count.trans hstop.count, hback.start.trans hstop.start⟩
  · exact hstop

theorem resetSink_evolves (s : St) : Evolves cfg true none s (resetSink cfg dev reset s) := by
  unfold resetSink
  cases hmode : cfg.sinkMode with
  | disabled => exact Carries.done (.change (.rewind s.queue rfl hmode) rfl)
  | mock =>
    have hcount : Untouched s { s with mockSubmissionCount := 0 } := ⟨rfl, rfl⟩
    have hinject := hcount.trans (shouldInject_untouched cfg { s with mockSubmissionCount := 0 } .reset)
    dsimp only
    split
    · exact Carries.thrown (hinject.carries.trans (Untouched.carries ⟨rfl, rfl⟩))
    · exact Carries.done (hinject.carries.trans (.change (.reset _ [] rfl (.inl rfl)) rfl))
  | waveOut =>
    dsimp only
    split
    · rename_i hclosed
      exact finishReset_evolves (.inr ⟨hmode, by simpa using hclosed⟩)
    split
    · exact Carries.thrown (Untouched.carries ⟨rfl, rfl⟩)
    · exact (stopBuffers_carries s).then (drain_evolves _)

theorem resetLocked_evolves (s : St) : Evolves cfg true none s (resetLocked cfg dev s) := by
  have hbegin : Carries cfg true s (beginReset s) := Untouched.carries ⟨rfl, rfl⟩
  unfold resetLocked
  refine hbegin.then (evolves_andThen (throwIfUnhealthy_carries _) fun _ => ?_)
  split
  · refine ⟨.nothing .refl, rfl, fun _ _ heq => ?_⟩
    cases heq
  · exact resetSink_evolves _

theorem interruptWithFadeLocked_evolves (s : St) : Evolves cfg true none s (interruptWithFadeLocked cfg dev s) := by
  have hreap : Carries cfg true s (if cfg.sinkMode = .disabled then (.ok (), s) else reapFinishedLocked cfg dev s).2 := by
    split
    · exact .refl s
    · exact reapFinished_carries s
  unfold interruptWithFadeLocked
  refine evolves_andThen hreap fun _ => ?_
  cases dev.thrown with
  | some e => exact (Carries.refl _).thrown
  | none => exact resetLocked_evolves _

theorem idleLoop_evolves (s : St) : Evolves cfg clearing none s (idleLoop cfg dev s) := by
  rw [idleLoop_eq]
  refine evolves_andThen (reapFinished_carries s) fun _ => ?_
  split
  · exact (Carries.refl _).done
  split
  · exact (Carries.refl _).thrown
  · exact ⟨.nothing .refl, rfl, fun _ _ heq => by cases heq⟩

theorem waitUntilIdle_evolves (s : St) : Evolves cfg clearing none s (waitUntilIdle cfg dev s) := by
  unfold waitUntilIdle
  split
  · exact (Carries.refl s).done
  rename_i henabled
  refine evolves_andThen (throwIfUnhealthy_carries s) fun _ => ?_
  exact evolves_andThen (flushPending_carries clearing dev henabled _) fun _ => idleLoop_evolves _

/-! ## Steps -/

def Waiting.chunk? : Waiting → Option PcmChunk
  | .enqueue _ chunk => some chunk
  | .hook _ | .drain _ | .idle => none

/-- The chunk that the step's call brings. -/
def offered (s : St) : Ev → Option PcmChunk
  | .enqueue _ chunk _ => some chunk
  | .resume index _ => (s.waiting[index]?).bind Waiting.chunk?
  | _ => none

/-- The call is a reset that no other one has overtaken. -/
def Waiting.clears (s : St) (w : Waiting) : Bool := w.resetting?.any (·.epoch == s.playbackEpoch)

/-- The step is a stretch of such a reset. -/
def clears (s : St) : Ev → Bool
  | .reset _ | .interruptWithFade _ => true
  | .resetIfEpoch expected _ | .interruptWithFadeIfEpoch expected _ => s.playbackEpoch == expected
  | .resume index _ => (s.waiting[index]?).any (·.clears s)
  | .enqueue _ _ _ | .waitUntilIdle _ | .setResetWaitHook | .played _ | .returned _ => false

/-- The chunks that wait for room have been looked at. -/
def Waits (cfg : Config) (s : St) : Prop := ∀ epoch chunk, .enqueue epoch chunk ∈ s.waiting → Admissible cfg chunk

theorem commit_evolves {r : Stretch} (h : Evolves cfg clearing offer s r) (hs : Waits cfg s)
    (hwaits : ∀ epoch chunk, r.1 = .ok (some (.enqueue epoch chunk)) → Admissible cfg chunk) :
    Brings cfg clearing offer s.queue (commit r).queue ∧ Waits cfg (commit r) := by
  obtain ⟨x, s'⟩ := r
  have hsame : s'.waiting = s.waiting := h.waiting
  rcases x with e | _ | w
  · exact ⟨h.queue, fun epoch chunk hmem => hs epoch chunk (hsame ▸ hmem)⟩
  · exact ⟨h.queue, fun epoch chunk hmem => hs epoch chunk (hsame ▸ hmem)⟩
  · refine ⟨h.queue, fun epoch chunk hmem => ?_⟩
    rcases List.mem_append.mp hmem with hold | hnew
    · exact hs epoch chunk (hsame ▸ hold)
    · cases List.mem_singleton.mp hnew
      exact hwaits epoch chunk rfl

/-- A call that brings no chunk leaves none waiting. -/
theorem commit_without {r : Stretch} (h : Evolves cfg clearing none s r) (hs : Waits cfg s) :
    Brings cfg clearing none s.queue (commit r).queue ∧ Waits cfg (commit r) :=
  commit_evolves h hs fun epoch chunk hr => by cases h.waits epoch chunk hr

/-- A call that waited goes on. -/
theorem resumeCall_evolves (w : Waiting) (hs : Waits cfg s)
    (hw : ∀ epoch chunk, w = .enqueue epoch chunk → Admissible cfg chunk) :
    Brings cfg (w.clears s) w.chunk? s.queue (commit (resumeCall cfg dev w s)).queue ∧
      Waits cfg (commit (resumeCall cfg dev w s)) := by
  have hclears {reset : Resetting} (hepoch : ¬ s.playbackEpoch ≠ reset.epoch) : (reset.epoch == s.playbackEpoch) = true :=
    beq_iff_eq.mpr (not_not.mp hepoch).symm
  cases w with
  | enqueue epoch chunk =>
    have hadmissible := hw epoch chunk rfl
    have hevolves := enqueueInEpoch_evolves hadmissible false dev epoch s
    refine commit_evolves hevolves hs fun epoch' chunk' hr => ?_
    cases hevolves.waits epoch' chunk' hr
    exact hadmissible
  | hook reset =>
    dsimp only [resumeCall]
    split
    · exact ⟨.nothing .refl, hs⟩
    split
    · exact ⟨.nothing .refl, hs⟩
    · rename_i hepoch
      have hclear : (Waiting.hook reset).clears s = true := hclears hepoch
      rw [hclear]
      exact commit_without (resetSink_evolves s) hs
  | drain reset =>
    dsimp only [resumeCall]
    split
    · exact ⟨.nothing .refl, hs⟩
    · rename_i hepoch
      have hclear : (Waiting.drain reset).clears s = true := hclears hepoch
      rw [hclear]
      exact commit_without (drain_evolves s) hs
  | idle => exact commit_without (idleLoop_evolves s) hs

/-- One step of the player, as changes of its queues. -/
theorem step_evolves {e : Ev} (h : step cfg s e = some s') (hs : Waits cfg s) :
    Brings cfg (clears s e) (offered s e) s.queue s'.queue ∧ Waits cfg s' := by
  cases e with
  | enqueue epoch chunk dev =>
    cases h
    obtain ⟨hevolves, hadmissible⟩ := enqueue_evolves false dev epoch chunk s
    refine commit_evolves hevolves hs fun epoch' chunk' hr => ?_
    cases hevolves.waits epoch' chunk' hr
    exact hadmissible ⟨epoch', chunk, hr⟩
  | reset dev =>
    cases h
    exact commit_without (resetLocked_evolves s) hs
  | resetIfEpoch expected dev =>
    cases h
    unfold resetIfEpoch
    split
    · exact ⟨.nothing .refl, hs⟩
    · rename_i hepoch
      rw [clears, beq_iff_eq.mpr (not_not.mp hepoch)]
      exact commit_without (resetLocked_evolves s) hs
  | interruptWithFade dev =>
    cases h
    exact commit_without (interruptWithFadeLocked_evolves s) hs
  | interruptWithFadeIfEpoch expected dev =>
    cases h
    unfold interruptWithFadeIfEpoch
    split
    · exact ⟨.nothing .refl, hs⟩
    · rename_i hepoch
      rw [clears, beq_iff_eq.mpr (not_not.mp hepoch)]
      exact commit_without (interruptWithFadeLocked_evolves s) hs
  | waitUntilIdle dev =>
    cases h
    exact commit_without (waitUntilIdle_evolves s) hs
  | setResetWaitHook =>
    cases h
    exact ⟨.nothing .refl, hs⟩
  | played serial =>
    cases h
    refine ⟨.nothing (.single (.mark s.queue (Buffer.play serial) fun b => ?_)), hs⟩
    unfold Buffer.play
    split
    · exact sameAudio_header b _
    · exact .refl b
  | returned serial =>
    cases h
    refine ⟨.nothing (.single (.mark s.queue (Buffer.giveBackIf serial) fun b => ?_)), hs⟩
    unfold Buffer.giveBackIf
    split
    · exact sameAudio_giveBack b
    · exact .refl b
  | resume index dev =>
    obtain ⟨w, hw, rfl⟩ := Option.map_eq_some_iff.mp h
    have hrest : Waits cfg { s with waiting := s.waiting.eraseIdx index } :=
      fun epoch chunk hmem => hs epoch chunk (List.mem_of_mem_eraseIdx hmem)
    have hoffered : offered s (.resume index dev) = w.chunk? := by
      rw [offered, hw]
      rfl
    have hclears : clears s (.resume index dev) = w.clears s := by
      rw [clears, hw]
      rfl
    rw [hoffered, hclears]
    refine resumeCall_evolves w hrest fun epoch chunk heq => hs epoch chunk ?_
    rw [← heq]
    exact List.mem_of_getElem? hw

theorem reach_waits {ok : St → Ev → Prop} (r : Reach (step cfg) ok init s) : Waits cfg s := by
  refine r.inv (fun epoch chunk hmem => ?_) fun _ _ _ _ hs _ h => (step_evolves h hs).2
  cases hmem

end QwenTtsBridge.Playback.WaveOutPlayer
