/-
  QwenTtsBridge.Playback.QueueOrder — the order of the player's two queues with the mock
  sink (`playback/winmm_playback.cpp`).

  A chunk is admitted at the end of `pending_buffers_`, goes from its front to the end of
  `buffers_` and leaves there when it has played, in whatever order the sink plays. Failed
  submissions put it back at the front. So at any time the chunks admitted are those that
  are gone, then those in `buffers_`, then those pending, except that gone ones may lie
  between the buffers.

  A reset that goes through drops both queues and the numbering starts again. The
  submissions since then are no part of the player's state: `track` reads them off the
  states of a run.

  - `queue_in_order`: what the queues hold, in order, the numbering of the submissions, and
    what a flush and a reap leave, failed or not. Where nobody sets the test hook these are
    the chunks of the current epoch that have not played, all of them.
-/

import Mathlib.Data.List.Nodup
import QwenTtsBridge.Playback.EpochQueue

namespace QwenTtsBridge.Playback.WaveOutPlayer

open QwenTtsBridge.Protocol.Control QwenTtsBridge.Lib.Transition

/-! ## Submissions -/

/-- A submitted chunk and its place in the stream. -/
structure Slot where
  admission : Admission
  startFrame : UInt64
  frameCount : UInt64
  deriving DecidableEq, Repr

def Buffer.slot (b : Buffer) : Slot := ⟨b.admission, b.startFrame, b.frameCount⟩

/-- The frames of the submissions, in the 64 bits of `next_stream_frame_`. -/
def frames (l : List Slot) : UInt64 := l.foldl (fun n x => n + x.frameCount) 0

theorem frames_snoc (l : List Slot) (x : Slot) : frames (l ++ [x]) = frames l + x.frameCount := by
  rw [frames, List.foldl_append]
  rfl

/-- Each submission starts where the ones before it end. -/
structure Contiguous (l : List Slot) (next : UInt64) : Prop where
  start : ∀ before x after, l = before ++ x :: after → x.startFrame = frames before
  next : next = frames l

theorem contiguous_nil : Contiguous [] 0 := by
  refine ⟨fun before x after h => ?_, rfl⟩
  cases before <;> cases h

theorem Contiguous.snoc {l : List Slot} {n : UInt64} (h : Contiguous l n) (x : Slot) (hx : x.startFrame = n) :
    Contiguous (l ++ [x]) (n + x.frameCount) := by
  refine ⟨fun before y after heq => ?_, ?_⟩
  · rcases List.eq_nil_or_concat after with rfl | ⟨after, z, rfl⟩
    · obtain ⟨rfl, hy⟩ := List.append_inj' heq rfl
      cases hy
      rw [hx, h.next]
    · have heq' : l ++ [x] = (before ++ y :: after) ++ [z] := by simpa using heq
      exact h.start before y after (List.append_inj' heq' rfl).1
  · rw [frames_snoc, h.next]

/-- The chunks that have left the queues. -/
def St.left (s : St) : List Admission := s.gone.map (·.1)

/-- The submissions since the last reset that dropped the queues, after a stretch that ended
    in `s`: `playback_started_` is false from such a reset to the first submission. -/
def track (submitted : List Slot) (s : St) : List Slot :=
  if s.playbackStarted then submitted ++ (s.buffers.map Buffer.slot).filter (· ∉ submitted) else []

def stepTracked (cfg : Config) (p : St × List Slot) (e : Ev) : Option (St × List Slot) :=
  (step cfg p.1 e).map fun s => (s, track p.2 s)

/-- A run reaches `s` with these submissions. -/
def Runs (cfg : Config) (s : St) (submitted : List Slot) : Prop :=
  Reach (stepTracked cfg) anyStep (init, []) (s, submitted)

/-! ## The invariant -/

structure Ordered (s : St) (submitted : List Slot) : Prop where
  serials : s.admitted.map (·.serial) = List.range s.admitted.length
  order : ∃ before, s.admitted = before ++ (submitted.map (·.admission) ++ s.pendingBuffers.map (·.admission)) ∧
    ∀ a ∈ before, a ∈ s.left
  playing : s.buffers.map Buffer.slot = submitted.filter (·.admission ∉ s.left)
  pending : ∀ b ∈ s.pendingBuffers, b.admission ∉ s.left
  known : ∀ a ∈ s.left, a ∈ s.admitted
  departures : ∀ a, (a, .orphaned) ∉ s.gone
  contiguous : Contiguous submitted s.nextStreamFrame
  started : s.playbackStarted = false → submitted = []

/-- Within a stretch: what it has submitted is there and unplayed. -/
structure Fresh (submitted more : List Slot) (s : St) : Prop where
  ordered : Ordered s (submitted ++ more)
  fresh : ∀ x ∈ more, x.admission ∉ s.left
  done : ∀ b ∈ s.buffers, b.done = true → b.slot ∈ submitted

def Grew (submitted : List Slot) (s : St) : Prop := ∃ more, Fresh submitted more s

/-- What `Ordered` does not read has changed. -/
structure Still (s s' : St) : Prop where
  admitted : s'.admitted = s.admitted
  buffers : s'.buffers = s.buffers
  pending : s'.pendingBuffers = s.pendingBuffers
  gone : s'.gone = s.gone
  next : s'.nextStreamFrame = s.nextStreamFrame
  started : s'.playbackStarted = s.playbackStarted

variable {cfg : Config} {dev : Device} {s s' t : St} {submitted more : List Slot}

theorem Still.refl (s : St) : Still s s := ⟨rfl, rfl, rfl, rfl, rfl, rfl⟩

theorem Still.trans (h : Still s s') (h' : Still s' t) : Still s t :=
  ⟨h'.admitted.trans h.admitted, h'.buffers.trans h.buffers, h'.pending.trans h.pending, h'.gone.trans h.gone,
    h'.next.trans h.next, h'.started.trans h.started⟩

theorem Still.ordered (h : Still s s') (ho : Ordered s submitted) : Ordered s' submitted := by
  have hleft : s'.left = s.left := by rw [St.left, h.gone, St.left]
  refine ⟨?_, ?_, ?_, ?_, ?_, ?_, ?_, ?_⟩
  · rw [h.admitted]
    exact ho.serials
  · rw [h.admitted, h.pending, hleft]
    exact ho.order
  · rw [h.buffers, hleft]
    exact ho.playing
  · rw [h.pending, hleft]
    exact ho.pending
  · rw [h.admitted, hleft]
    exact ho.known
  · rw [h.gone]
    exact ho.departures
  · rw [h.next]
    exact ho.contiguous
  · rw [h.started]
    exact ho.started

theorem Still.fresh (h : Still s s') (hf : Fresh submitted more s) : Fresh submitted more s' := by
  refine ⟨h.ordered hf.ordered, ?_, ?_⟩
  · rw [St.left, h.gone]
    exact hf.fresh
  · rw [h.buffers]
    exact hf.done

theorem Still.grew (h : Still s s') : Grew submitted s → Grew submitted s' := fun ⟨more, hf⟩ => ⟨more, h.fresh hf⟩

namespace Ordered

theorem nodup (h : Ordered s submitted) : s.admitted.Nodup := by
  have hserials : (s.admitted.map (·.serial)).Nodup := by
    rw [h.serials]
    exact List.nodup_range
  exact hserials.of_map _

theorem nodup_queued (h : Ordered s submitted) :
    (submitted.map (·.admission) ++ s.pendingBuffers.map (·.admission)).Nodup := by
  obtain ⟨before, hadmitted, -⟩ := h.order
  have hnodup := h.nodup
  rw [hadmitted] at hnodup
  exact hnodup.of_append_right

theorem nodup_submitted (h : Ordered s submitted) : (submitted.map (·.admission)).Nodup := h.nodup_queued.of_append_left

theorem slot_mem (h : Ordered s submitted) {b : Buffer} (hb : b ∈ s.buffers) : b.slot ∈ submitted := by
  have hmem : b.slot ∈ s.buffers.map Buffer.slot := List.mem_map.mpr ⟨b, hb, rfl⟩
  rw [h.playing] at hmem
  exact (List.mem_filter.mp hmem).1

theorem submitted_known (h : Ordered s submitted) {x : Slot} (hx : x ∈ submitted) : x.admission ∈ s.admitted := by
  obtain ⟨before, hadmitted, -⟩ := h.order
  rw [hadmitted]
  exact List.mem_append_right _ (List.mem_append_left _ (List.mem_map.mpr ⟨x, hx, rfl⟩))

theorem pending_known (h : Ordered s submitted) {b : Buffer} (hb : b ∈ s.pendingBuffers) : b.admission ∈ s.admitted := by
  obtain ⟨before, hadmitted, -⟩ := h.order
  rw [hadmitted]
  exact List.mem_append_right _ (List.mem_append_right _ (List.mem_map.mpr ⟨b, hb, rfl⟩))

theorem begins (h : Ordered s submitted) : Fresh submitted [] s := by
  refine ⟨?_, nofun, fun b hb _ => h.slot_mem hb⟩
  rw [List.append_nil]
  exact h

/-- What the queues hold. -/
theorem queued_eq (h : Ordered s submitted) : s.queued = s.admitted.filter (· ∉ s.left) := by
  obtain ⟨before, hadmitted, hbefore⟩ := h.order
  have hbuffers : s.buffers.map (·.admission) = (s.buffers.map Buffer.slot).map (·.admission) := by
    rw [List.map_map]
    rfl
  have hbefore' : before.filter (· ∉ s.left) = [] := by
    refine List.filter_eq_nil_iff.mpr fun a ha => ?_
    simpa using hbefore a ha
  have hpending : (s.pendingBuffers.map (·.admission)).filter (· ∉ s.left) = s.pendingBuffers.map (·.admission) := by
    refine List.filter_eq_self.mpr fun a ha => ?_
    obtain ⟨b, hb, rfl⟩ := List.mem_map.mp ha
    simpa using h.pending b hb
  have hsubmitted : (submitted.map (·.admission)).filter (· ∉ s.left) =
      (submitted.filter (·.admission ∉ s.left)).map (·.admission) := by
    rw [List.filter_map]
    rfl
  rw [hadmitted, List.filter_append, List.filter_append, hbefore', hpending, hsubmitted, ← h.playing, ← hbuffers,
    List.nil_append, St.queued, List.map_append]

end Ordered

/-- What the run's history becomes at the end of a stretch. -/
theorem Fresh.tracked (h : Fresh submitted more s) : track submitted s = submitted ++ more := by
  unfold track
  split
  · have hold : (submitted.filter (·.admission ∉ s.left)).filter (· ∉ submitted) = [] := by
      refine List.filter_eq_nil_iff.mpr fun x hx => ?_
      simpa using (List.mem_filter.mp hx).1
    have hmore : more.filter (·.admission ∉ s.left) = more := by
      refine List.filter_eq_self.mpr fun x hx => ?_
      simpa using h.fresh x hx
    have hnew : more.filter (· ∉ submitted) = more := by
      refine List.filter_eq_self.mpr fun x hx => ?_
      have hnodup := h.ordered.nodup_submitted
      rw [List.map_append] at hnodup
      have hx' : x.admission ∈ more.map (·.admission) := List.mem_map.mpr ⟨x, hx, rfl⟩
      have hapart := List.disjoint_right.mp (List.disjoint_of_nodup_append hnodup) hx'
      simpa using fun hmem => hapart (List.mem_map.mpr ⟨x, hmem, rfl⟩)
    rw [h.ordered.playing, List.filter_append, hmore, List.filter_append, hold, hnew, List.nil_append]
  · rename_i hstarted
    exact (h.ordered.started (by simpa using hstarted)).symm

/-! ## The functions that hold the mutex throughout -/

section Locked

theorem Still.withPending (h : Still s s') (pending : List Buffer) :
    Still { s with pendingBuffers := pending } { s' with pendingBuffers := pending } :=
  ⟨h.admitted, h.buffers, rfl, h.gone, h.next, h.started⟩

theorem throwIfUnhealthy_still (s : St) : Still s (throwIfUnhealthyLocked s).2 := by
  unfold throwIfUnhealthyLocked
  split <;> exact .refl s

theorem shouldInject_still (cfg : Config) (s : St) (stage : MockFailureStage) :
    Still s (shouldInjectMockFailure cfg s stage).2 := by
  unfold shouldInjectMockFailure
  split
  · exact .refl s
  · split
    · exact .refl s
    · exact ⟨rfl, rfl, rfl, rfl, rfl, rfl⟩

theorem markUnhealthy_still (s : St) (reason : String) : Still s (markUnhealthy s reason) :=
  ⟨rfl, rfl, rfl, rfl, rfl, rfl⟩

theorem unprepare_still (cfg : Config) (dev : Device) (s : St) (serial : Nat) :
    Still s (unprepareHeaderOrFailLocked cfg dev s serial).2 := by
  unfold unprepareHeaderOrFailLocked
  split
  · have hinject := shouldInject_still cfg s .unprepare
    dsimp only
    split
    · exact hinject.trans (markUnhealthy_still _ _)
    · exact hinject
  · split
    · exact .refl s
    · exact markUnhealthy_still s _

theorem validatePendingFormat_still (s : St) (format : AudioFormat) :
    Still s (validatePendingFormatLocked cfg s format).2 := by
  unfold validatePendingFormatLocked
  repeat' split
  all_goals exact ⟨rfl, rfl, rfl, rfl, rfl, rfl⟩

/-- A played chunk leaves the list it is in, which names every chunk once. -/
theorem filter_left {left : List Admission} {a : Admission} {l before after : List Slot} {x : Slot}
    (hnodup : (l.map (·.admission)).Nodup) (hx : x.admission = a)
    (hl : l.filter (·.admission ∉ left) = before ++ x :: after) :
    l.filter (·.admission ∉ left ++ [a]) = before ++ after := by
  have hsplit : l.filter (·.admission ∉ left ++ [a]) =
      (l.filter (·.admission ∉ left)).filter (·.admission ≠ a) := by
    rw [List.filter_filter]
    refine List.filter_congr fun y _ => ?_
    simp [and_comm]
  have hnodup' : ((before ++ x :: after).map (·.admission)).Nodup := by
    rw [← hl]
    exact hnodup.sublist (List.filter_sublist.map _)
  rw [List.map_append, List.map_cons, hx, List.nodup_middle, List.nodup_cons, ← List.map_append] at hnodup'
  have hothers : (before ++ after).filter (·.admission ≠ a) = before ++ after := by
    refine List.filter_eq_self.mpr fun y hy => ?_
    have hne : y.admission ≠ a := fun hya => hnodup'.1 (hya ▸ List.mem_map.mpr ⟨y, hy, rfl⟩)
    simpa using hne
  rw [hsplit, hl, ← hothers, List.filter_append, List.filter_append, List.filter_cons]
  simp [hx]

/-- A chunk of an earlier stretch has played and leaves `buffers_`. -/
theorem reap_fresh {kept rest : List Buffer} {b : Buffer} (h : Fresh submitted more s)
    (hbuffers : s.buffers = kept ++ b :: rest) (hdone : b.done = true) :
    Fresh submitted more
      { s with buffers := kept ++ rest, gone := s.gone ++ [(b.admission, b.departure)] } := by
  obtain ⟨ho, hfresh, hplayed⟩ := h
  have hleft : St.left { s with buffers := kept ++ rest, gone := s.gone ++ [(b.admission, b.departure)] } =
      s.left ++ [b.admission] := by
    simp [St.left]
  have hslot : b.slot ∈ submitted := by
    refine hplayed b ?_ hdone
    rw [hbuffers]
    exact List.mem_append_right _ List.mem_cons_self
  have hb : b.admission ∈ (submitted ++ more).map (·.admission) :=
    List.mem_map.mpr ⟨b.slot, List.mem_append_left _ hslot, rfl⟩
  refine ⟨⟨ho.serials, ?_, ?_, fun b' hb' => ?_, fun a ha => ?_, fun a ha => ?_, ho.contiguous, ho.started⟩,
    fun x hx => ?_, fun b' hb' => hplayed b' ?_⟩
  · obtain ⟨before, hadmitted, hbefore⟩ := ho.order
    refine ⟨before, hadmitted, fun a ha => ?_⟩
    rw [hleft]
    exact List.mem_append_left _ (hbefore a ha)
  · have hplaying := ho.playing
    rw [hbuffers, List.map_append, List.map_cons] at hplaying
    rw [hleft, List.map_append]
    exact (filter_left ho.nodup_submitted rfl hplaying.symm).symm
  · rw [hleft, List.mem_append, List.mem_singleton, not_or]
    refine ⟨ho.pending b' hb', fun heq => ?_⟩
    exact List.disjoint_of_nodup_append ho.nodup_queued hb (heq ▸ List.mem_map.mpr ⟨b', hb', rfl⟩)
  · rw [hleft] at ha
    rcases List.mem_append.mp ha with hold | hnew
    · exact ho.known a hold
    · cases List.mem_singleton.mp hnew
      exact ho.submitted_known (List.mem_append_left _ hslot)
  · rcases List.mem_append.mp ha with hold | hnew
    · exact ho.departures a hold
    · have hdeparture : Departure.orphaned = b.departure := congrArg Prod.snd (List.mem_singleton.mp hnew)
      unfold Buffer.departure at hdeparture
      split at hdeparture <;> cases hdeparture
  · rw [hleft, List.mem_append, List.mem_singleton, not_or]
    refine ⟨hfresh x hx, fun heq => ?_⟩
    have hnodup := ho.nodup_submitted
    rw [List.map_append] at hnodup
    have hb' : b.admission ∈ submitted.map (·.admission) := List.mem_map.mpr ⟨b.slot, hslot, rfl⟩
    exact List.disjoint_of_nodup_append hnodup hb' (heq ▸ List.mem_map.mpr ⟨x, hx, rfl⟩)
  · rw [hbuffers]
    simp only [List.mem_append, List.mem_cons] at hb' ⊢
    tauto

theorem reapFrom_fresh (kept todo : List Buffer) (h : Fresh submitted more { s with buffers := kept ++ todo }) :
    Fresh submitted more (reapFrom cfg dev kept todo s).2 := by
  induction todo generalizing kept s with
  | nil =>
    rw [List.append_nil] at h
    exact h
  | cons b rest ih =>
    unfold reapFrom
    split
    · refine ih (kept ++ [b]) ?_
      rw [List.append_assoc]
      exact h
    · rename_i hdone
      have hstill : Still s (if b.prepared then unprepareHeaderOrFailLocked cfg dev s b.admission.serial
          else (.ok (), s)).2 := by
        split
        · exact unprepare_still cfg dev s _
        · exact .refl s
      dsimp only
      split
      all_goals
        rename_i s₁ heq
        rw [heq] at hstill
        have hstart : Still { s with buffers := kept ++ b :: rest } { s₁ with buffers := kept ++ b :: rest } :=
          ⟨hstill.admitted, rfl, hstill.pending, hstill.gone, hstill.next, hstill.started⟩
        have h₁ := hstart.fresh h
      · exact h₁
      · exact ih kept (reap_fresh h₁ rfl (by simpa using hdone))

theorem reapFinished_grew (h : Grew submitted s) : Grew submitted (reapFinishedLocked cfg dev s).2 := by
  obtain ⟨more, hf⟩ := h
  exact ⟨more, reapFrom_fresh [] s.buffers hf⟩

/-- A pending chunk goes to the sink. -/
theorem submit_fresh {b : Buffer} {rest : List Buffer} (h : Fresh submitted more s)
    (hpending : s.pendingBuffers = b :: rest) :
    Fresh submitted (more ++ [⟨b.admission, s.nextStreamFrame, b.frameCount⟩])
      { submit s b with pendingBuffers := rest } := by
  obtain ⟨ho, hfresh, hplayed⟩ := h
  have hnew : b.admission ∉ s.left := by
    refine ho.pending b ?_
    rw [hpending]
    exact List.mem_cons_self
  refine ⟨⟨ho.serials, ?_, ?_, fun b' hb' => ?_, ho.known, ho.departures, ?_, nofun⟩, fun x hx => ?_,
    fun b' hb' hdone => ?_⟩
  · obtain ⟨before, hadmitted, hbefore⟩ := ho.order
    refine ⟨before, ?_, hbefore⟩
    rw [hpending] at hadmitted
    simpa [submit] using hadmitted
  · have hplaying := ho.playing
    rw [← List.append_assoc, List.filter_append]
    show (s.buffers ++ [_]).map Buffer.slot = List.filter (·.admission ∉ s.left) _ ++ List.filter (·.admission ∉ s.left) _
    rw [List.map_append, hplaying, List.filter_cons, if_pos (by simpa using hnew)]
    rfl
  · refine ho.pending b' ?_
    rw [hpending]
    exact List.mem_cons_of_mem _ hb'
  · rw [← List.append_assoc]
    exact ho.contiguous.snoc _ rfl
  · rcases List.mem_append.mp hx with hold | hlast
    · exact hfresh x hold
    · cases List.mem_singleton.mp hlast
      exact hnew
  · rcases List.mem_append.mp hb' with hold | hlast
    · exact hplayed b' hold hdone
    · cases List.mem_singleton.mp hlast
      cases hdone

theorem flushMock_grew (todo : List Buffer) (h : Grew submitted { s with pendingBuffers := todo }) :
    Grew submitted (flushMock cfg todo s).2 := by
  induction todo generalizing s with
  | nil =>
    have hformat : Still { s with pendingBuffers := [] } { s with pendingBuffers := [], pendingFormat := none } :=
      ⟨rfl, rfl, rfl, rfl, rfl, rfl⟩
    exact hformat.grew h
  | cons b rest ih =>
    unfold flushMock
    dsimp only
    have hprepare := shouldInject_still cfg s .prepare
    have hwrite := hprepare.trans (shouldInject_still cfg (shouldInjectMockFailure cfg s .prepare).2 .write)
    split
    · exact (hprepare.withPending _).grew h
    · split
      · exact (hwrite.withPending _).grew h
      · generalize (shouldInjectMockFailure cfg (shouldInjectMockFailure cfg s .prepare).2 .write).2 = s₂ at hwrite
        obtain ⟨more, hf⟩ := (hwrite.withPending _).grew h
        refine ih ⟨_, Still.fresh ?_ (submit_fresh hf rfl)⟩
        exact ⟨rfl, rfl, rfl, rfl, rfl, rfl⟩

theorem flushPending_grew (hmock : cfg.sinkMode = .mock) (h : Grew submitted s) :
    Grew submitted (flushPendingLocked cfg dev s).2 := by
  unfold flushPendingLocked
  split
  · exact h
  split
  · exact h
  · have hformat : Still s { s with format := s.pendingFormat.getD s.format } := ⟨rfl, rfl, rfl, rfl, rfl, rfl⟩
    exact flushMock_grew s.pendingBuffers (hformat.grew h)

end Locked

/-! ## Calls -/

/-- Both queues were dropped and the numbering starts again. -/
structure Cleared (s : St) : Prop where
  ordered : Ordered s []
  started : s.playbackStarted = false

/-- What a stretch may leave. -/
def Outcome (submitted : List Slot) (s : St) : Prop := Grew submitted s ∨ Cleared s

theorem Still.outcome (h : Still s s') : Outcome submitted s → Outcome submitted s'
  | .inl hg => .inl (h.grew hg)
  | .inr hc => .inr ⟨h.ordered hc.ordered, h.started.trans hc.started⟩

theorem Outcome.ordered (h : Outcome submitted s) : Ordered s (track submitted s) := by
  rcases h with ⟨more, hf⟩ | hc
  · rw [hf.tracked]
    exact hf.ordered
  · have hnone : track submitted s = [] := by
      unfold track
      rw [hc.started]
      rfl
    rw [hnone]
    exact hc.ordered

/-- A stretch goes on after a part that keeps the order. -/
theorem outcome_andThen {r : Result} {next : St → Stretch} (hr : Grew submitted r.2)
    (hnext : ∀ s', Grew submitted s' → Outcome submitted (next s').2) : Outcome submitted (Result.andThen r next).2 := by
  rcases r with ⟨_ | _, s'⟩
  · exact .inl hr
  · exact hnext s' hr

theorem outcome_commit {r : Stretch} (h : Outcome submitted r.2) : Outcome submitted (commit r) := by
  rcases r with ⟨_ | _ | w, s'⟩
  · exact h
  · exact h
  · have hwaits : Still s' { s' with waiting := s'.waiting ++ [w] } := ⟨rfl, rfl, rfl, rfl, rfl, rfl⟩
    exact hwaits.outcome h

section Enqueue

variable {epoch : UInt64} {chunk : PcmChunk}

theorem pushPending_fresh (h : Fresh submitted more s) : Fresh submitted more (pushPending epoch chunk s) := by
  obtain ⟨ho, hfresh, hplayed⟩ := h
  let admission : Admission := ⟨s.admitted.length, epoch, s.playbackEpoch, s.turn, s.quiet⟩
  have hnew : admission ∉ s.admitted := by
    intro hmem
    have hserial : s.admitted.length ∈ s.admitted.map (·.serial) := List.mem_map.mpr ⟨admission, hmem, rfl⟩
    rw [ho.serials] at hserial
    exact absurd (List.mem_range.mp hserial) (Nat.lt_irrefl _)
  refine ⟨⟨?_, ?_, ho.playing, fun b hb => ?_, fun a ha => List.mem_append_left _ (ho.known a ha), ho.departures,
    ho.contiguous, ho.started⟩, hfresh, hplayed⟩
  · simp [pushPending, ho.serials, List.range_succ]
  · obtain ⟨before, hadmitted, hbefore⟩ := ho.order
    refine ⟨before, ?_, hbefore⟩
    simp only [pushPending, List.map_append, List.map_cons, List.map_nil]
    rw [hadmitted]
    simp
  · rcases List.mem_append.mp hb with hold | hlast
    · exact ho.pending b hold
    · cases List.mem_singleton.mp hlast
      exact fun hleft => hnew (ho.known _ hleft)

theorem outcome_admitChunk (hmock : cfg.sinkMode = .mock) (h : Grew submitted s) :
    Outcome submitted (admitChunk cfg dev epoch chunk s).2 := by
  unfold admitChunk
  refine outcome_andThen (reapFinished_grew h) fun s₁ h₁ => ?_
  refine outcome_andThen ((validatePendingFormat_still s₁ _).grew h₁) fun s₂ h₂ => ?_
  split
  · exact .inl h₂
  · have hpushed : Grew submitted (pushPending epoch chunk s₂) := by
      obtain ⟨more, hf⟩ := h₂
      exact ⟨more, pushPending_fresh hf⟩
    dsimp only
    split
    · exact outcome_andThen (flushPending_grew hmock hpushed) fun _ h₃ => .inl h₃
    · exact .inl hpushed

theorem outcome_enqueueInEpoch (hmock : cfg.sinkMode = .mock) (h : Grew submitted s) :
    Outcome submitted (enqueueInEpoch cfg dev epoch chunk s).2 := by
  unfold enqueueInEpoch
  split
  · have hlate : Still s { s with lateAudioAfterTerminalCount := s.lateAudioAfterTerminalCount + 1 } :=
      ⟨rfl, rfl, rfl, rfl, rfl, rfl⟩
    exact .inl (hlate.grew h)
  · unfold enqueueLoop
    split
    · refine outcome_andThen (reapFinished_grew h) fun s₁ h₁ => ?_
      split
      · exact .inl h₁
      · exact outcome_admitChunk hmock h₁
    · exact outcome_admitChunk hmock h

theorem outcome_enqueue (hmock : cfg.sinkMode = .mock) (h : Grew submitted s) :
    Outcome submitted (enqueue cfg dev epoch chunk s).2 := by
  unfold enqueue
  repeat' split
  · exact .inl h
  · exact .inl h
  · exact .inl h
  · exact .inl h
  · exact outcome_andThen ((throwIfUnhealthy_still s).grew h) fun _ h₁ => outcome_enqueueInEpoch hmock h₁

end Enqueue

section Reset

variable {reset : Resetting}

theorem clearBuffers_ordered (h : Ordered s submitted) : Ordered (clearBuffers reset s) submitted := by
  have hleft (a : Admission) : a ∈ (clearBuffers reset s).left ↔ a ∈ s.left ∨ ∃ b ∈ s.buffers, b.admission = a := by
    simp [St.left, clearBuffers]
  have hsubmitted (x : Slot) (hx : x ∈ submitted) : x.admission ∈ (clearBuffers reset s).left := by
    rw [hleft]
    by_cases hgone : x.admission ∈ s.left
    · exact .inl hgone
    · have hplaying : x ∈ s.buffers.map Buffer.slot := by
        rw [h.playing]
        exact List.mem_filter.mpr ⟨hx, by simpa using hgone⟩
      obtain ⟨b, hb, rfl⟩ := List.mem_map.mp hplaying
      exact .inr ⟨b, hb, rfl⟩
  refine ⟨h.serials, ?_, ?_, fun b hb hmem => ?_, fun a ha => ?_, fun a ha => ?_, h.contiguous, h.started⟩
  · obtain ⟨before, hadmitted, hbefore⟩ := h.order
    exact ⟨before, hadmitted, fun a ha => (hleft a).mpr (.inl (hbefore a ha))⟩
  · refine (List.filter_eq_nil_iff.mpr fun x hx => ?_).symm
    simpa using hsubmitted x hx
  · rcases (hleft _).mp hmem with hold | ⟨b', hb', heq⟩
    · exact h.pending b hb hold
    · have hslot : b'.admission ∈ submitted.map (·.admission) := List.mem_map.mpr ⟨b'.slot, h.slot_mem hb', rfl⟩
      exact List.disjoint_of_nodup_append h.nodup_queued hslot (heq ▸ List.mem_map.mpr ⟨b, hb, rfl⟩)
  · rcases (hleft a).mp ha with hold | ⟨b, hb, rfl⟩
    · exact h.known a hold
    · exact h.submitted_known (h.slot_mem hb)
  · rcases List.mem_append.mp ha with hold | hnew
    · exact h.departures a hold
    · obtain ⟨b, -, heq⟩ := List.mem_map.mp hnew
      cases heq

/-- The end of a reset, when nothing is left in `buffers_`. -/
theorem cleared_finishReset (h : Ordered s submitted) (hbuffers : s.buffers = []) : Cleared (finishReset reset s).2 := by
  have hleft (a : Admission) :
      a ∈ (finishReset reset s).2.left ↔ a ∈ s.left ∨ ∃ b ∈ s.pendingBuffers, b.admission = a := by
    simp [St.left, finishReset, clearPendingLocked]
  have hall (a : Admission) (ha : a ∈ s.admitted) : a ∈ (finishReset reset s).2.left := by
    rw [hleft]
    by_cases hgone : a ∈ s.left
    · exact .inl hgone
    · have hqueued : a ∈ s.queued := by
        rw [h.queued_eq]
        exact List.mem_filter.mpr ⟨ha, by simpa using hgone⟩
      rcases mem_queued.mp hqueued with ⟨b, hb, -⟩ | hpending
      · rw [hbuffers] at hb
        cases hb
      · exact .inr hpending
  refine ⟨⟨h.serials, ⟨s.admitted, ?_, hall⟩, hbuffers ▸ rfl, fun _ hb => (by cases hb), fun a ha => ?_, fun a ha => ?_,
    contiguous_nil, fun _ => rfl⟩, rfl⟩
  · exact (List.append_nil _).symm
  · rcases (hleft a).mp ha with hold | ⟨b, hb, rfl⟩
    · exact h.known a hold
    · exact h.pending_known hb
  · rcases List.mem_append.mp ha with hold | hnew
    · exact h.departures a hold
    · obtain ⟨b, -, heq⟩ := List.mem_map.mp hnew
      cases heq

theorem outcome_drain (h : Grew submitted s) : Outcome submitted (drain cfg dev reset s).2 := by
  unfold drain
  split
  · rename_i hempty
    obtain ⟨more, hf⟩ := h
    exact .inr (cleared_finishReset hf.ordered (List.isEmpty_iff.mp hempty))
  · refine outcome_andThen (reapFinished_grew h) fun s₁ h₁ => ?_
    split
    · rename_i hempty
      obtain ⟨more, hf⟩ := h₁
      exact .inr (cleared_finishReset hf.ordered (List.isEmpty_iff.mp hempty))
    split
    · exact .inl ((markUnhealthy_still s₁ _).grew h₁)
    · exact .inl h₁

theorem outcome_resetSink (hmock : cfg.sinkMode = .mock) (h : Grew submitted s) :
    Outcome submitted (resetSink cfg dev reset s).2 := by
  have hcount : Still s { s with mockSubmissionCount := 0 } := ⟨rfl, rfl, rfl, rfl, rfl, rfl⟩
  have hinject := hcount.trans (shouldInject_still cfg { s with mockSubmissionCount := 0 } .reset)
  unfold resetSink
  rw [hmock]
  dsimp only
  split
  · exact .inl ((hinject.trans (markUnhealthy_still _ _)).grew h)
  · obtain ⟨more, hf⟩ := hinject.grew h
    exact .inr (cleared_finishReset (clearBuffers_ordered hf.ordered) rfl)

theorem outcome_resetLocked (hmock : cfg.sinkMode = .mock) (h : Grew submitted s) :
    Outcome submitted (resetLocked cfg dev s).2 := by
  have hbegun : Still s (beginReset s) := ⟨rfl, rfl, rfl, rfl, rfl, rfl⟩
  unfold resetLocked
  refine outcome_andThen ((hbegun.trans (throwIfUnhealthy_still _)).grew h) fun s₁ h₁ => ?_
  split
  · have hhook : Still s₁ { s₁ with resetWaitHook := false } := ⟨rfl, rfl, rfl, rfl, rfl, rfl⟩
    exact .inl (hhook.grew h₁)
  · exact outcome_resetSink hmock h₁

theorem outcome_interruptWithFade (hmock : cfg.sinkMode = .mock) (h : Grew submitted s) :
    Outcome submitted (interruptWithFadeLocked cfg dev s).2 := by
  have hreap : Grew submitted (if cfg.sinkMode = .disabled then (.ok (), s) else reapFinishedLocked cfg dev s).2 := by
    split
    · exact h
    · exact reapFinished_grew h
  unfold interruptWithFadeLocked
  refine outcome_andThen hreap fun s₁ h₁ => ?_
  split
  · exact .inl h₁
  · exact outcome_resetLocked hmock h₁

end Reset

theorem outcome_idleLoop (h : Grew submitted s) : Outcome submitted (idleLoop cfg dev s).2 := by
  unfold idleLoop
  split
  · exact .inl h
  · refine outcome_andThen (reapFinished_grew h) fun s₁ h₁ => ?_
    repeat' split
    all_goals exact .inl h₁

theorem outcome_waitUntilIdle (hmock : cfg.sinkMode = .mock) (h : Grew submitted s) :
    Outcome submitted (waitUntilIdle cfg dev s).2 := by
  unfold waitUntilIdle
  split
  · exact .inl h
  · refine outcome_andThen ((throwIfUnhealthy_still s).grew h) fun s₁ h₁ => ?_
    exact outcome_andThen (flushPending_grew hmock h₁) fun s₂ h₂ => outcome_idleLoop h₂

theorem outcome_resumeCall (hmock : cfg.sinkMode = .mock) (w : Waiting) (h : Grew submitted s) :
    Outcome submitted (resumeCall cfg dev w s).2 := by
  cases w with
  | enqueue epoch chunk => exact outcome_enqueueInEpoch hmock h
  | hook reset =>
    dsimp only [resumeCall]
    split
    · exact .inl h
    split
    · exact .inl h
    · exact outcome_resetSink hmock h
  | drain reset =>
    dsimp only [resumeCall]
    split
    · exact .inl h
    · exact outcome_drain h
  | idle => exact outcome_idleLoop h

/-! ## Runs -/

/-- The sink marks the buffers of `buffers_`. -/
theorem mark_ordered (h : Ordered s submitted) (f : Buffer → Buffer) (hslot : ∀ b, (f b).slot = b.slot) :
    Ordered { s with buffers := s.buffers.map f } submitted := by
  refine ⟨h.serials, h.order, ?_, h.pending, h.known, h.departures, h.contiguous, h.started⟩
  dsimp only
  rw [List.map_map]
  exact (List.map_congr_left fun b _ => hslot b).trans h.playing

theorem play_slot (serial : Nat) (b : Buffer) : (b.play serial).slot = b.slot := by
  unfold Buffer.play
  split <;> rfl

theorem giveBackIf_slot (serial : Nat) (b : Buffer) : (b.giveBackIf serial).slot = b.slot := by
  unfold Buffer.giveBackIf Buffer.giveBack
  repeat' split
  all_goals rfl

theorem step_ordered (hmock : cfg.sinkMode = .mock) {e : Ev} (h : Ordered s submitted) (hs : step cfg s e = some s') :
    Ordered s' (track submitted s') := by
  have hgrew : Grew submitted s := ⟨[], h.begins⟩
  cases e with
  | enqueue epoch chunk dev =>
    cases hs
    exact (outcome_commit (outcome_enqueue hmock hgrew)).ordered
  | reset dev =>
    cases hs
    exact (outcome_commit (outcome_resetLocked hmock hgrew)).ordered
  | resetIfEpoch expected dev =>
    cases hs
    refine (outcome_commit ?_).ordered
    unfold resetIfEpoch
    split
    · exact .inl hgrew
    · exact outcome_resetLocked hmock hgrew
  | interruptWithFade dev =>
    cases hs
    exact (outcome_commit (outcome_interruptWithFade hmock hgrew)).ordered
  | interruptWithFadeIfEpoch expected dev =>
    cases hs
    refine (outcome_commit ?_).ordered
    unfold interruptWithFadeIfEpoch
    split
    · exact .inl hgrew
    · exact outcome_interruptWithFade hmock hgrew
  | waitUntilIdle dev =>
    cases hs
    exact (outcome_commit (outcome_waitUntilIdle hmock hgrew)).ordered
  | setResetWaitHook =>
    cases hs
    have hhook : Still s { s with resetWaitHook := true } := ⟨rfl, rfl, rfl, rfl, rfl, rfl⟩
    exact Outcome.ordered (.inl (hhook.grew hgrew))
  | resume index dev =>
    obtain ⟨w, -, rfl⟩ := Option.map_eq_some_iff.mp hs
    have hresumed : Still s { s with waiting := s.waiting.eraseIdx index } := ⟨rfl, rfl, rfl, rfl, rfl, rfl⟩
    exact (outcome_commit (outcome_resumeCall hmock w (hresumed.grew hgrew))).ordered
  | played serial =>
    cases hs
    have hplayed := mark_ordered h _ (play_slot serial)
    exact Outcome.ordered (.inl ⟨[], hplayed.begins⟩)
  | returned serial =>
    cases hs
    have hreturned := mark_ordered h _ (giveBackIf_slot serial)
    exact Outcome.ordered (.inl ⟨[], hreturned.begins⟩)

theorem init_ordered : Ordered init [] where
  serials := rfl
  order := ⟨[], rfl, nofun⟩
  playing := rfl
  pending := nofun
  known := nofun
  departures := nofun
  contiguous := contiguous_nil
  started := fun _ => rfl

theorem Runs.ordered (hmock : cfg.sinkMode = .mock) (h : Runs cfg s submitted) : Ordered s submitted := by
  refine Reach.inv (I := fun p : St × List Slot => Ordered p.1 p.2) init_ordered (fun p e p' _ ho _ hs => ?_) h
  obtain ⟨s', hs', rfl⟩ := Option.map_eq_some_iff.mp hs
  exact step_ordered hmock ho hs'

/-! ## What a flush and a reap leave -/

/-- The slots that buffers take from `n` on. -/
def place (n : UInt64) : List Buffer → List Slot
  | [] => []
  | b :: rest => ⟨b.admission, n, b.frameCount⟩ :: place (n + b.frameCount) rest

/-- A flush sends the pending chunks in order up to the one that fails. -/
structure Flushed (s : St) (r : Result) (sent kept : List Buffer) : Prop where
  split : s.pendingBuffers = sent ++ kept
  pending : r.2.pendingBuffers = kept
  buffers : r.2.buffers.map Buffer.slot = s.buffers.map Buffer.slot ++ place s.nextStreamFrame sent
  next : r.2.nextStreamFrame = sent.foldl (fun n b => n + b.frameCount) s.nextStreamFrame
  failed : r.1 = .ok () ↔ kept = []

/-- A reap takes only what has played, and if it goes through all of that. -/
structure Reaped (s : St) (r : Result) : Prop where
  unplayed : ∀ b ∈ s.buffers, b.done = false → b ∈ r.2.buffers
  played : r.1 = .ok () → r.2.buffers = s.buffers.filter fun b => !b.done

theorem Still.flushed {r : Result} {sent kept : List Buffer} (h : Still s s') (hf : Flushed s' r sent kept) :
    Flushed s r sent kept := by
  refine ⟨h.pending.symm.trans hf.split, hf.pending, ?_, ?_, hf.failed⟩
  · rw [hf.buffers, h.buffers, h.next]
  · rw [hf.next, h.next]

/-- The first submission fails. -/
theorem flushed_failed {e : String} {b : Buffer} {rest : List Buffer} (hpending : s.pendingBuffers = b :: rest) :
    Flushed s (.error e, s) [] (b :: rest) := by
  refine ⟨hpending, hpending, ?_, rfl, nofun, nofun⟩
  exact (List.append_nil _).symm

theorem flushMock_flushed (cfg : Config) (todo : List Buffer) (s : St) :
    ∃ sent kept, Flushed { s with pendingBuffers := todo } (flushMock cfg todo s) sent kept := by
  induction todo generalizing s with
  | nil =>
    refine ⟨[], [], rfl, rfl, ?_, rfl, fun _ => rfl, fun _ => rfl⟩
    exact (List.append_nil _).symm
  | cons b rest ih =>
    unfold flushMock
    dsimp only
    have hprepare := shouldInject_still cfg s .prepare
    have hwrite := hprepare.trans (shouldInject_still cfg (shouldInjectMockFailure cfg s .prepare).2 .write)
    split
    · exact ⟨[], b :: rest, (hprepare.withPending (b :: rest)).flushed (flushed_failed rfl)⟩
    · split
      · exact ⟨[], b :: rest, (hwrite.withPending (b :: rest)).flushed (flushed_failed rfl)⟩
      · generalize (shouldInjectMockFailure cfg (shouldInjectMockFailure cfg s .prepare).2 .write).2 = s₂ at hwrite
        obtain ⟨sent, kept, hf⟩ := ih { submit s₂ b with mockSubmissionCount := s₂.mockSubmissionCount + 1 }
        refine ⟨b :: sent, kept, (hwrite.withPending (b :: rest)).flushed ?_⟩
        refine ⟨congrArg (b :: ·) hf.split, hf.pending, ?_, hf.next, hf.failed⟩
        rw [hf.buffers]
        simp [submit, place, Buffer.slot]

theorem flushPending_flushed (hmock : cfg.sinkMode = .mock) (s : St) :
    ∃ sent kept, Flushed s (flushPendingLocked cfg dev s) sent kept := by
  unfold flushPendingLocked
  split
  · rename_i hempty
    have hnone := List.isEmpty_iff.mp hempty
    refine ⟨[], [], hnone, hnone, ?_, rfl, fun _ => rfl, fun _ => rfl⟩
    exact (List.append_nil _).symm
  · rename_i hpending
    obtain ⟨b, rest, hcons⟩ := List.exists_cons_of_ne_nil fun h => hpending (List.isEmpty_iff.mpr h)
    split
    · exact ⟨[], b :: rest, flushed_failed hcons⟩
    · obtain ⟨sent, kept, hf⟩ := flushMock_flushed cfg s.pendingBuffers
        { s with format := s.pendingFormat.getD s.format }
      have hformat : Still s { s with format := s.pendingFormat.getD s.format } := ⟨rfl, rfl, rfl, rfl, rfl, rfl⟩
      exact ⟨sent, kept, hformat.flushed hf⟩

theorem reapFrom_reaped (cfg : Config) (dev : Device) (kept todo : List Buffer) (s : St) :
    (∀ b ∈ kept, b ∈ (reapFrom cfg dev kept todo s).2.buffers) ∧
    (∀ b ∈ todo, b.done = false → b ∈ (reapFrom cfg dev kept todo s).2.buffers) ∧
    ((reapFrom cfg dev kept todo s).1 = .ok () →
      (reapFrom cfg dev kept todo s).2.buffers = kept ++ todo.filter fun b => !b.done) := by
  induction todo generalizing kept s with
  | nil => exact ⟨fun _ hb => hb, nofun, fun _ => (List.append_nil _).symm⟩
  | cons b rest ih =>
    unfold reapFrom
    by_cases hdone : b.done = true
    · have hfilter : (b :: rest).filter (fun b => !b.done) = rest.filter fun b => !b.done := by simp [hdone]
      rw [hfilter, if_neg (by simp [hdone])]
      dsimp only
      split
      · refine ⟨fun b' hb' => List.mem_append_left _ hb', fun b' hb' _ => List.mem_append_right _ hb', nofun⟩
      · rename_i s₁ _
        obtain ⟨hkept, hrest, hok⟩ := ih kept { s₁ with gone := s₁.gone ++ [(b.admission, b.departure)] }
        refine ⟨hkept, fun b' hb' hnot => ?_, hok⟩
        rcases List.mem_cons.mp hb' with rfl | hb'
        · rw [hdone] at hnot
          cases hnot
        · exact hrest b' hb' hnot
    · have hfilter : (b :: rest).filter (fun b => !b.done) = b :: rest.filter fun b => !b.done := by simp [hdone]
      rw [hfilter, if_pos (by simpa using hdone)]
      obtain ⟨hkept, hrest, hok⟩ := ih (kept ++ [b]) s
      refine ⟨fun b' hb' => hkept b' (List.mem_append_left _ hb'), fun b' hb' hnot => ?_, fun h => ?_⟩
      · rcases List.mem_cons.mp hb' with rfl | hb'
        · exact hkept b' (List.mem_append_right _ List.mem_cons_self)
        · exact hrest b' hb' hnot
      · rw [hok h, List.append_assoc]
        rfl

theorem reapFinished_reaped (s : St) : Reaped s (reapFinishedLocked cfg dev s) := by
  obtain ⟨-, hunplayed, hplayed⟩ := reapFrom_reaped cfg dev [] s.buffers s
  exact ⟨hunplayed, hplayed⟩

/-! ## The order -/

theorem Runs.reachable (h : Runs cfg s submitted) : Reachable cfg s := by
  refine Reach.inv (I := fun p : St × List Slot => Reachable cfg p.1) .init (fun p e p' _ hr _ hs => ?_) h
  obtain ⟨s', hs', rfl⟩ := Option.map_eq_some_iff.mp hs
  exact .step e hr trivial hs'

/-- The queues hold, in the order of admission and each once, the chunks that have not left;
    a chunk leaves when it was found played or when a reset drops it. The submissions are the
    chunks admitted between those of earlier resets and those pending, end to end from 0. -/
structure InOrder (s : St) (submitted : List Slot) : Prop where
  once : s.admitted.Nodup
  queue : s.queued = s.admitted.filter (· ∉ s.left)
  left : ∀ a d, (a, d) ∈ s.gone →
    d = .finished ∨ ∃ reset now, d = .discarded reset now ∧ Legit a d ∧ reset ≤ now ∧ now ≤ s.turn
  epoch : s.playbackEpoch = epochOf s.turn
  epochs : ∀ a ∈ s.admitted, a.epoch = epochOf a.turn ∧ a.turn ≤ s.turn
  /-- Of the current epoch, with no reset under way at the admission; the epoch has not come round. -/
  quiet : s.turn < 2 ^ 64 - 1 → ∀ a ∈ s.admitted, a.turn = s.turn → a.quiet = true →
    a ∈ s.queued ∨ (a, .finished) ∈ s.gone
  playing : s.buffers.map Buffer.slot = submitted.filter (·.admission ∉ s.left)
  order : ∃ before, s.admitted = before ++ (submitted.map (·.admission) ++ s.pendingBuffers.map (·.admission)) ∧
    ∀ a ∈ before, a ∈ s.left
  contiguous : Contiguous submitted s.nextStreamFrame

/-- The chunks of the current epoch that were not found played, in the order of admission. -/
def St.unplayed (s : St) : List Admission := s.admitted.filter fun a => a.turn = s.turn ∧ (a, .finished) ∉ s.gone

/-- Nothing but playing takes a chunk of the current epoch. A player that a reset has made
    unhealthy may hold chunks of an earlier one besides. -/
structure WithinEpoch (s : St) (submitted : List Slot) : Prop where
  dropped : ∀ a reset now, (a, .discarded reset now) ∈ s.gone → a.turn < reset ∧ reset ≤ s.turn
  current : s.queued.filter (·.turn = s.turn) = s.unplayed
  healthy : s.unhealthy = false → s.queued = s.unplayed
  submitted : s.unhealthy = false → ∀ x ∈ submitted, x.admission.turn = s.turn

/-- A run of the player's own operations, without the test hook. -/
def OperatedRuns (cfg : Config) (s : St) (submitted : List Slot) : Prop :=
  Reach (stepTracked cfg) unhooked (init, []) (s, submitted)

theorem OperatedRuns.runs (h : OperatedRuns cfg s submitted) : Runs cfg s submitted := h.mono fun _ _ _ => trivial

theorem Runs.inOrder (hmock : cfg.sinkMode = .mock) (h : Runs cfg s submitted) : InOrder s submitted := by
  have ho := h.ordered hmock
  have hi := reach_inv h.reachable
  have hleft (a : Admission) (d : Departure) (hd : (a, d) ∈ s.gone) :
      d = .finished ∨ ∃ reset now, d = .discarded reset now ∧ Legit a d ∧ reset ≤ now ∧ now ≤ s.turn := by
    obtain ⟨hlegit, htimely⟩ := hi.books.legit a d hd
    cases d with
    | finished => exact .inl rfl
    | orphaned => exact absurd hd (ho.departures a)
    | discarded reset now => exact .inr ⟨reset, now, rfl, hlegit, htimely⟩
  refine ⟨ho.nodup, ho.queued_eq, hleft, hi.epoch, fun a ha => ?_, fun hround a ha hturn hquiet => ?_, ho.playing, ho.order,
    ho.contiguous⟩
  · obtain ⟨hcurrent, hepoch⟩ := hi.current a ha
    exact ⟨hcurrent.trans hepoch, hi.turns a ha⟩
  · refine (hi.books.accounted a ha).imp_right fun hgone => ?_
    obtain ⟨d, hd⟩ := hgone
    rcases hleft a d hd with rfl | ⟨reset, now, rfl, hlegit, hreset, hnow⟩
    · exact hd
    · rcases hlegit with ⟨-, hbefore⟩ | hcome
      · have hlt := hbefore hquiet
        omega
      · omega

/-- What the submissions are when a step ends. -/
theorem track_subset {x : Slot} (hx : x ∈ track submitted s) :
    s.playbackStarted = true ∧ (x ∈ submitted ∨ x ∈ s.buffers.map Buffer.slot) := by
  unfold track at hx
  split at hx
  · rename_i hstarted
    exact ⟨hstarted, (List.mem_append.mp hx).imp_right fun hnew => (List.mem_filter.mp hnew).1⟩
  · cases hx

theorem OperatedRuns.settled (hmock : cfg.sinkMode = .mock) (h : OperatedRuns cfg s submitted) :
    Settled s ∧ (s.unhealthy = false → ∀ x ∈ submitted, x.admission.turn = s.turn) := by
  refine Reach.inv (I := fun p : St × List Slot =>
    Settled p.1 ∧ (p.1.unhealthy = false → ∀ x ∈ p.2, x.admission.turn = p.1.turn))
    ⟨init_settled, fun _ x hx => (by cases hx)⟩ (fun p e p' _ hp he hs => ?_) h
  obtain ⟨s', hs', rfl⟩ := Option.map_eq_some_iff.mp hs
  obtain ⟨hsettled, hturns⟩ := step_settled hmock hp.1 he hs'
  refine ⟨hsettled, fun hhealthy x hx => ?_⟩
  obtain ⟨hbefore, hmoved⟩ := hturns hhealthy
  obtain ⟨hstarted, hold | hnew⟩ := track_subset hx
  · have hsame : s'.turn = p.1.turn := hmoved.resolve_right (by simp [hstarted])
    exact (hp.2 hbefore x hold).trans hsame.symm
  · obtain ⟨b, hb, rfl⟩ := List.mem_map.mp hnew
    exact hsettled.current hhealthy b.admission (mem_queued.mpr (.inl ⟨b, hb, rfl⟩))

theorem OperatedRuns.withinEpoch (hmock : cfg.sinkMode = .mock) (h : OperatedRuns cfg s submitted) :
    WithinEpoch s submitted := by
  obtain ⟨hsettled, hsubmitted⟩ := h.settled hmock
  have horder := h.runs.inOrder hmock
  have hleft {a : Admission} (hturn : a.turn = s.turn) : a ∉ s.left ↔ (a, .finished) ∉ s.gone := by
    refine not_congr ⟨fun hgone => ?_, fun hgone => List.mem_map.mpr ⟨_, hgone, rfl⟩⟩
    obtain ⟨⟨a', d⟩, hd, rfl⟩ := List.mem_map.mp hgone
    rcases horder.left a' d hd with rfl | ⟨reset, now, rfl, -⟩
    · exact hd
    · have hdropped := hsettled.dropped a' reset now hd
      dsimp only at hturn
      omega
  have hcurrent : s.queued.filter (·.turn = s.turn) = s.unplayed := by
    rw [horder.queue, List.filter_filter, St.unplayed]
    refine List.filter_congr fun a _ => ?_
    by_cases hturn : a.turn = s.turn
    · simp [hturn, hleft hturn]
    · simp [hturn]
  refine ⟨hsettled.dropped, hcurrent, fun hhealthy => ?_, hsubmitted⟩
  rw [← hcurrent]
  refine (List.filter_eq_self.mpr fun a ha => ?_).symm
  simpa using hsettled.current hhealthy a ha

theorem queue_in_order (hmock : cfg.sinkMode = .mock) :
    (∀ s submitted, Runs cfg s submitted → InOrder s submitted) ∧
    (∀ s submitted, OperatedRuns cfg s submitted → InOrder s submitted ∧ WithinEpoch s submitted) ∧
    ∀ dev s, (∃ sent kept, Flushed s (flushPendingLocked cfg dev s) sent kept) ∧
      Reaped s (reapFinishedLocked cfg dev s) := by
  refine ⟨fun s submitted h => h.inOrder hmock, fun s submitted h => ?_, fun dev s => ?_⟩
  · exact ⟨h.runs.inOrder hmock, h.withinEpoch hmock⟩
  · exact ⟨flushPending_flushed hmock s, reapFinished_reaped s⟩

/-- The second submission fails. The chunk goes first when the third is enqueued, after the
    first has played; a reset drops both and the next chunk starts at 0 again. -/
theorem a_failed_write_keeps_the_order :
    (∃ s submitted, Runs { sinkMode := .mock, mockFailAfterSubmissions := some 1 } s submitted ∧
      InOrder s submitted ∧ WithinEpoch s submitted ∧
      s.queued.map (·.serial) = [1, 2] ∧ submitted.map (·.startFrame) = [0, 1, 2] ∧ s.nextStreamFrame = 3) ∧
    ∃ s submitted, Runs { sinkMode := .mock, mockFailAfterSubmissions := some 1 } s submitted ∧
      InOrder s submitted ∧ WithinEpoch s submitted ∧
      s.playbackEpoch = 2 ∧ s.queued.map (·.serial) = [3] ∧ submitted.map (·.startFrame) = [0] := by
  let cfg : Config := { sinkMode := .mock, mockFailAfterSubmissions := some 1 }
  let events : List Ev := [.enqueue 1 sample {}, .enqueue 1 sample {}, .played 0, .enqueue 1 sample {}]
  obtain ⟨⟨s, submitted⟩, hr, hp⟩ := exists_reach_of_run events
    (show (run (stepTracked cfg) unhooked (init, []) events).map (fun p => p.1.queued.map (·.serial) == [1, 2] &&
      p.2.map (·.startFrame) == [0, 1, 2] && p.1.nextStreamFrame == 3) = some true by decide +kernel)
  obtain ⟨⟨t, later⟩, hl, hq⟩ := exists_reach_of_run (events ++ [.reset {}, .enqueue 2 sample {}])
    (show (run (stepTracked cfg) unhooked (init, []) (events ++ [.reset {}, .enqueue 2 sample {}])).map (fun p =>
      p.1.playbackEpoch == 2 && p.1.queued.map (·.serial) == [3] && p.2.map (·.startFrame) == [0]) = some true
      by decide +kernel)
  simp only [Bool.and_eq_true, beq_iff_eq] at hp hq
  have hmock : cfg.sinkMode = .mock := rfl
  have hfirst := (queue_in_order hmock).2.1 s submitted hr
  have hlater := (queue_in_order hmock).2.1 t later hl
  refine ⟨⟨s, submitted, OperatedRuns.runs hr, hfirst.1, hfirst.2, hp.1.1, hp.1.2, hp.2⟩, t, later, OperatedRuns.runs hl, ?_⟩
  exact ⟨hlater.1, hlater.2, hq.1.1, hq.1.2, hq.2⟩

end QwenTtsBridge.Playback.WaveOutPlayer
