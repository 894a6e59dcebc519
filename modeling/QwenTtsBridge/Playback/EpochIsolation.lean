/-
  QwenTtsBridge.Playback.EpochIsolation — no reset of the player takes the audio of a later
  epoch (`playback/winmm_playback.cpp`).

  `reset_locked` moves the epoch first and lets go of the mutex before it drops what is
  queued: in the test hook, and after `waveOutReset` until the driver has given every
  buffer back or the deadline passes. When it has the mutex again it goes on only if the
  epoch is still its own, so what it drops was admitted before it began or in its own
  window. A chunk admitted while no reset of its epoch is under way is out of reach of
  every reset but later ones.

  - `epoch_isolation`: in every reachable state every chunk admitted was enqueued with the
    epoch of that moment, and it is in `buffers_` or `pending_buffers_`, or was played, or
    is kept aside because the driver did not give back its header, or was dropped by a
    reset: by one that began after its admission if its admission was quiet.
  The epoch is 64 bits wide and skips 0. That it comes round to the epoch of a reset that
  still waits takes 2^64 - 1 resets during its wait.
-/

import QwenTtsBridge.Playback.WaveOutPlayer

namespace QwenTtsBridge.Playback.WaveOutPlayer

open QwenTtsBridge.Protocol.Control QwenTtsBridge.Lib.Transition

/-! ## Epochs -/

/-- `playback_epoch_` when `turn` resets have begun. -/
def epochOf (turn : Nat) : UInt64 := UInt64.ofNat (turn % (2 ^ 64 - 1) + 1)

theorem epochOf_toNat (turn : Nat) : (epochOf turn).toNat = turn % (2 ^ 64 - 1) + 1 := by
  have hlt : turn % (2 ^ 64 - 1) < 2 ^ 64 - 1 := Nat.mod_lt _ (by decide)
  rw [epochOf, UInt64.toNat_ofNat']
  exact Nat.mod_eq_of_lt (by omega)

theorem nextEpoch_epochOf (turn : Nat) : nextEpoch (epochOf turn) = epochOf (turn + 1) := by
  have hnow := epochOf_toNat turn
  have hnext := epochOf_toNat (turn + 1)
  have hone : (epochOf turn + 1).toNat = ((epochOf turn).toNat + 1) % 2 ^ 64 := UInt64.toNat_add _ _
  have hzero : epochOf turn + 1 = 0 ↔ (epochOf turn + 1).toNat = 0 := by
    rw [← UInt64.toNat_inj]
    rfl
  unfold nextEpoch
  apply UInt64.toNat_inj.mp
  by_cases h : epochOf turn + 1 = 0
  · have h0 := hzero.mp h
    rw [if_pos h, h]
    have hturn : (turn + 1) % (2 ^ 64 - 1) = 0 := by omega
    rw [hnext, hturn]
    rfl
  · rw [if_neg h]
    have h0 : (epochOf turn + 1).toNat ≠ 0 := fun h' => h (hzero.mpr h')
    omega

theorem turn_of_epochOf {m n : Nat} (h : epochOf m = epochOf n) (hle : m ≤ n) : m = n ∨ m + (2 ^ 64 - 1) ≤ n := by
  have heq := congrArg UInt64.toNat h
  rw [epochOf_toNat, epochOf_toNat] at heq
  omega

/-! ## The books -/

/-- A reset drops a chunk only if its admission was in the reset's own window or before, and
    before if the admission was quiet, unless the epoch has come round. -/
def Legit (a : Admission) : Departure → Prop
  | .finished | .orphaned => True
  | .discarded reset now => (a.turn ≤ reset ∧ (a.quiet = true → a.turn < reset)) ∨ reset + (2 ^ 64 - 1) ≤ now

/-- The reset and the moment of a drop, when `turn` resets have begun. -/
def Timely (turn : Nat) : Departure → Prop
  | .finished | .orphaned => True
  | .discarded reset now => reset ≤ now ∧ now ≤ turn

/-- The chunks in `buffers_` and `pending_buffers_`. -/
def St.queued (s : St) : List Admission := (s.buffers ++ s.pendingBuffers).map (·.admission)

theorem mem_queued {s : St} {a : Admission} :
    a ∈ s.queued ↔ (∃ b ∈ s.buffers, b.admission = a) ∨ ∃ b ∈ s.pendingBuffers, b.admission = a := by
  simp only [St.queued, List.map_append, List.mem_append, List.mem_map]

structure Books (s : St) : Prop where
  known : ∀ a ∈ s.queued, a ∈ s.admitted
  accounted : ∀ a ∈ s.admitted, a ∈ s.queued ∨ ∃ d, (a, d) ∈ s.gone
  legit : ∀ a d, (a, d) ∈ s.gone → Legit a d ∧ Timely s.turn d
  returned : ∀ b ∈ s.buffers, Legit b.admission b.departure ∧ Timely s.turn b.departure

/-- What no function that holds the mutex throughout changes. -/
structure SameTurn (s s' : St) : Prop where
  epoch : s'.playbackEpoch = s.playbackEpoch
  turn : s'.turn = s.turn
  admitted : s'.admitted = s.admitted
  waiting : s'.waiting = s.waiting

/-- The books stay in order and nobody is admitted. -/
structure Moves (s s' : St) : Prop where
  same : SameTurn s s'
  books : Books s → Books s'

variable {cfg : Config} {dev : Device} {s s' t : St}

theorem SameTurn.refl (s : St) : SameTurn s s := ⟨rfl, rfl, rfl, rfl⟩

theorem SameTurn.trans (h : SameTurn s s') (h' : SameTurn s' t) : SameTurn s t :=
  ⟨h'.epoch.trans h.epoch, h'.turn.trans h.turn, h'.admitted.trans h.admitted, h'.waiting.trans h.waiting⟩

theorem Moves.refl (s : St) : Moves s s := ⟨.refl s, id⟩

theorem Moves.trans (h : Moves s s') (h' : Moves s' t) : Moves s t :=
  ⟨h.same.trans h'.same, fun hb => h'.books (h.books hb)⟩

/-- Fields that the books do not hold. -/
theorem Moves.of_eq (hsame : SameTurn s s') (hbuffers : s'.buffers = s.buffers)
    (hpending : s'.pendingBuffers = s.pendingBuffers) (hgone : s'.gone = s.gone) : Moves s s' := by
  refine ⟨hsame, fun hb => ⟨?_, ?_, ?_, ?_⟩⟩
  · rw [St.queued, hbuffers, hpending, hsame.admitted]
    exact hb.known
  · rw [St.queued, hbuffers, hpending, hsame.admitted, hgone]
    exact hb.accounted
  · rw [hgone, hsame.turn]
    exact hb.legit
  · rw [hbuffers, hsame.turn]
    exact hb.returned

/-- Queued buffers leave and are entered. -/
theorem Books.leave (hb : Books s) (hsame : SameTurn s s') (dropped : List Buffer) {d : Departure}
    (hgone : s'.gone = s.gone ++ dropped.map fun b => (b.admission, d))
    (hlegit : ∀ b ∈ dropped, Legit b.admission d ∧ Timely s.turn d)
    (hkept : ∀ x ∈ s.queued, x ∈ s'.queued ∨ ∃ b ∈ dropped, b.admission = x)
    (hsub : ∀ x ∈ s'.queued, x ∈ s.queued) (hbuffers : ∀ b ∈ s'.buffers, b ∈ s.buffers) : Books s' := by
  refine ⟨fun x hx => ?_, fun x hx => ?_, fun x d' hx => ?_, fun b hmem => hsame.turn ▸ hb.returned b (hbuffers b hmem)⟩
  · rw [hsame.admitted]
    exact hb.known x (hsub x hx)
  · rw [hsame.admitted] at hx
    rw [hgone]
    rcases hb.accounted x hx with hq | ⟨d', hd⟩
    · rcases hkept x hq with hq' | ⟨b, hmem, rfl⟩
      · exact .inl hq'
      · exact .inr ⟨d, List.mem_append_right _ (List.mem_map.mpr ⟨b, hmem, rfl⟩)⟩
    · exact .inr ⟨d', List.mem_append_left _ hd⟩
  · rw [hsame.turn]
    rw [hgone] at hx
    rcases List.mem_append.mp hx with hold | hnew
    · exact hb.legit x d' hold
    · obtain ⟨b, hmem, heq⟩ := List.mem_map.mp hnew
      cases heq
      exact hlegit b hmem

/-! ## The functions that hold the mutex throughout -/

/-- Neither the queues nor the books are touched. -/
structure Plain (s s' : St) : Prop where
  same : SameTurn s s'
  buffers : s'.buffers = s.buffers
  pending : s'.pendingBuffers = s.pendingBuffers
  gone : s'.gone = s.gone

theorem Plain.refl (s : St) : Plain s s := ⟨.refl s, rfl, rfl, rfl⟩

theorem Plain.moves (h : Plain s s') : Moves s s' := .of_eq h.same h.buffers h.pending h.gone

section Locked

theorem throwIfUnhealthy_plain (s : St) : Plain s (throwIfUnhealthyLocked s).2 := by
  unfold throwIfUnhealthyLocked
  split <;> exact .refl s

theorem markUnhealthy_plain (s : St) (reason : String) : Plain s (markUnhealthy s reason) :=
  ⟨⟨rfl, rfl, rfl, rfl⟩, rfl, rfl, rfl⟩

theorem shouldInject_plain (cfg : Config) (s : St) (stage : MockFailureStage) : Plain s (shouldInjectMockFailure cfg s stage).2 := by
  unfold shouldInjectMockFailure
  split
  · exact .refl s
  · split
    · exact .refl s
    · exact ⟨⟨rfl, rfl, rfl, rfl⟩, rfl, rfl, rfl⟩

theorem unprepare_plain (cfg : Config) (dev : Device) (s : St) (serial : Nat) :
    Plain s (unprepareHeaderOrFailLocked cfg dev s serial).2 := by
  unfold unprepareHeaderOrFailLocked
  split
  · have hinject := shouldInject_plain cfg s .unprepare
    dsimp only
    split
    · exact ⟨⟨hinject.same.epoch, hinject.same.turn, hinject.same.admitted, hinject.same.waiting⟩,
        hinject.buffers, hinject.pending, hinject.gone⟩
    · exact hinject
  · split
    · exact .refl s
    · exact markUnhealthy_plain s _

theorem validatePendingFormat_plain (s : St) (format : AudioFormat) :
    Plain s (validatePendingFormatLocked cfg s format).2 := by
  unfold validatePendingFormatLocked
  repeat' split
  all_goals exact ⟨⟨rfl, rfl, rfl, rfl⟩, rfl, rfl, rfl⟩

theorem openOrValidate_plain (dev : Device) (s : St) (format : AudioFormat) :
    Plain s (openOrValidateLocked dev s format).2 := by
  unfold openOrValidateLocked
  repeat' split
  all_goals exact ⟨⟨rfl, rfl, rfl, rfl⟩, rfl, rfl, rfl⟩

/-- A buffer that is done leaves `buffers_`. -/
theorem reap_moves (kept rest : List Buffer) (b : Buffer) (s : St) :
    Moves { s with buffers := kept ++ b :: rest }
      { s with buffers := kept ++ rest, gone := s.gone ++ [(b.admission, b.departure)] } := by
  refine ⟨⟨rfl, rfl, rfl, rfl⟩, fun hb => hb.leave ⟨rfl, rfl, rfl, rfl⟩ [b] rfl ?_ ?_ ?_ ?_⟩
  · intro b' hb'
    cases List.mem_singleton.mp hb'
    exact hb.returned b (List.mem_append_right _ List.mem_cons_self)
  · intro x hx
    simp only [St.queued, List.map_append, List.map_cons, List.mem_append, List.mem_cons, List.not_mem_nil, or_false,
      exists_eq_left] at hx ⊢
    tauto
  · intro x hx
    simp only [St.queued, List.map_append, List.map_cons, List.mem_append, List.mem_cons] at hx ⊢
    tauto
  · intro b' hb'
    simp only [List.mem_append, List.mem_cons] at hb' ⊢
    tauto

theorem reapFrom_moves (kept todo : List Buffer) (s : St) :
    Moves { s with buffers := kept ++ todo } (reapFrom cfg dev kept todo s).2 := by
  induction todo generalizing kept s with
  | nil =>
    rw [List.append_nil]
    exact .refl _
  | cons b rest ih =>
    unfold reapFrom
    split
    · have h := ih (kept ++ [b]) s
      rwa [List.append_assoc] at h
    · have hplain : Plain s (if b.prepared then unprepareHeaderOrFailLocked cfg dev s b.admission.serial
          else (.ok (), s)).2 := by
        split
        · exact unprepare_plain cfg dev s _
        · exact .refl s
      dsimp only
      split
      all_goals rename_i heq; rw [heq] at hplain
      · exact .of_eq ⟨hplain.same.epoch, hplain.same.turn, hplain.same.admitted, hplain.same.waiting⟩ rfl hplain.pending
          hplain.gone
      · rename_i s₁
        have hstart : Moves { s with buffers := kept ++ b :: rest } { s₁ with buffers := kept ++ b :: rest } :=
          .of_eq ⟨hplain.same.epoch, hplain.same.turn, hplain.same.admitted, hplain.same.waiting⟩ rfl hplain.pending
            hplain.gone
        exact (hstart.trans (reap_moves kept rest b s₁)).trans
          (ih kept { s₁ with gone := s₁.gone ++ [(b.admission, b.departure)] })

theorem reapFinished_moves (s : St) : Moves s (reapFinishedLocked cfg dev s).2 := reapFrom_moves [] s.buffers s

/-- A pending buffer goes to the sink. -/
theorem submit_moves (s : St) (b : Buffer) (rest : List Buffer) :
    Moves { s with pendingBuffers := b :: rest } { submit s b with pendingBuffers := rest } := by
  have hqueued (x : Admission) : x ∈ St.queued { submit s b with pendingBuffers := rest } ↔
      x ∈ St.queued { s with pendingBuffers := b :: rest } := by
    simp only [St.queued, submit, List.map_append, List.map_cons, List.map_nil, List.mem_append, List.mem_cons,
      List.not_mem_nil, or_false]
    tauto
  refine ⟨⟨rfl, rfl, rfl, rfl⟩, fun hb => ⟨fun x hx => hb.known x ((hqueued x).mp hx), fun x hx => ?_, hb.legit, ?_⟩⟩
  · exact (hb.accounted x hx).imp_left (hqueued x).mpr
  · intro b' hb'
    rcases List.mem_append.mp hb' with hold | hnew
    · exact hb.returned b' hold
    · cases List.mem_singleton.mp hnew
      exact ⟨trivial, trivial⟩

/-- The driver keeps the header of a buffer: it is kept aside. -/
theorem orphan_moves (s : St) (b : Buffer) (rest : List Buffer) :
    Moves { s with pendingBuffers := b :: rest }
      { s with
        pendingBuffers := rest
        orphanedBuffers := s.orphanedBuffers ++ [{ b with prepared := true }]
        gone := s.gone ++ [(b.admission, .orphaned)] } := by
  refine ⟨⟨rfl, rfl, rfl, rfl⟩, fun hb => ?_⟩
  refine hb.leave ⟨rfl, rfl, rfl, rfl⟩ [b] rfl (fun _ _ => ⟨trivial, trivial⟩) ?_ ?_ fun _ h => h
  · intro x hx
    simp only [St.queued, List.map_append, List.map_cons, List.mem_append, List.mem_cons, List.not_mem_nil, or_false,
      exists_eq_left] at hx ⊢
    tauto
  · intro x hx
    simp only [St.queued, List.map_append, List.map_cons, List.mem_append, List.mem_cons] at hx ⊢
    tauto

/-- A buffer whose write failed goes back to the front. -/
theorem reinsert_moves (s : St) (b : Buffer) (rest : List Buffer) :
    Moves { s with pendingBuffers := b :: rest } { s with pendingBuffers := { b with prepared := false } :: rest } := by
  have hqueued : St.queued { s with pendingBuffers := { b with prepared := false } :: rest } =
      St.queued { s with pendingBuffers := b :: rest } := by
    simp [St.queued]
  refine ⟨⟨rfl, rfl, rfl, rfl⟩, fun hb => ⟨?_, ?_, hb.legit, hb.returned⟩⟩
  · rw [hqueued]
    exact hb.known
  · rw [hqueued]
    exact hb.accounted

theorem Plain.withPending (h : Plain s s') (pending : List Buffer) :
    Moves { s with pendingBuffers := pending } { s' with pendingBuffers := pending } :=
  .of_eq ⟨h.same.epoch, h.same.turn, h.same.admitted, h.same.waiting⟩ h.buffers rfl h.gone

theorem flushMock_moves (todo : List Buffer) (s : St) :
    Moves { s with pendingBuffers := todo } (flushMock cfg todo s).2 := by
  induction todo generalizing s with
  | nil => exact .of_eq ⟨rfl, rfl, rfl, rfl⟩ rfl rfl rfl
  | cons b rest ih =>
    unfold flushMock
    dsimp only
    have hprepare := shouldInject_plain cfg s .prepare
    have hwrite := shouldInject_plain cfg (shouldInjectMockFailure cfg s .prepare).2 .write
    split
    · exact hprepare.withPending _
    · split
      · exact (hprepare.withPending _).trans (hwrite.withPending _)
      · generalize (shouldInjectMockFailure cfg (shouldInjectMockFailure cfg s .prepare).2 .write).2 = s₂ at hwrite
        let counted : St := { submit s₂ b with mockSubmissionCount := s₂.mockSubmissionCount + 1 }
        have hcount : Moves { submit s₂ b with pendingBuffers := rest } { counted with pendingBuffers := rest } :=
          .of_eq ⟨rfl, rfl, rfl, rfl⟩ rfl rfl rfl
        have hsubmit := (submit_moves s₂ b rest).trans hcount
        exact ((hprepare.withPending _).trans (hwrite.withPending _)).trans (hsubmit.trans (ih counted))

theorem flushDevice_moves (todo : List Buffer) (s : St) :
    Moves { s with pendingBuffers := todo } (flushDevice cfg dev todo s).2 := by
  induction todo generalizing s with
  | nil => exact .of_eq ⟨rfl, rfl, rfl, rfl⟩ rfl rfl rfl
  | cons b rest ih =>
    unfold flushDevice
    split
    · exact .refl _
    · split
      · exact (submit_moves s b rest).trans (ih _)
      · have hplain := unprepare_plain cfg dev s b.admission.serial
        split
        all_goals rename_i heq; rw [heq] at hplain
        · exact (hplain.withPending _).trans (reinsert_moves _ b rest)
        · exact (hplain.withPending _).trans (orphan_moves _ b rest)

theorem flushPending_moves (s : St) : Moves s (flushPendingLocked cfg dev s).2 := by
  unfold flushPendingLocked
  split
  · exact .refl s
  split
  · exact .refl s
  split
  · have hformat : Moves s { s with format := s.pendingFormat.getD s.format } :=
      .of_eq ⟨rfl, rfl, rfl, rfl⟩ rfl rfl rfl
    exact hformat.trans (flushMock_moves s.pendingBuffers { s with format := s.pendingFormat.getD s.format })
  · have hopen := openOrValidate_plain dev s (if s.handle then s.format else s.pendingFormat.getD s.format)
    unfold Result.andThen
    split
    all_goals rename_i heq; rw [heq] at hopen
    · exact hopen.moves.trans (flushDevice_moves _ _)
    · exact hopen.moves

end Locked

/-! ## The invariant -/

/-- A reset under way: no chunk of its epoch was admitted quietly. -/
structure Underway (s : St) (reset : Resetting) : Prop where
  epoch : reset.epoch = epochOf reset.turn
  begun : reset.turn ≤ s.turn
  apart : ∀ a ∈ s.admitted, a.quiet = true → a.turn ≠ reset.turn

structure Inv (s : St) : Prop where
  books : Books s
  epoch : s.playbackEpoch = epochOf s.turn
  serials : s.admitted.map (·.serial) = List.range s.admitted.length
  current : ∀ a ∈ s.admitted, a.epoch = a.current ∧ a.current = epochOf a.turn
  turns : ∀ a ∈ s.admitted, a.turn ≤ s.turn
  waiting : ∀ w ∈ s.waiting, ∀ reset, w.resetting? = some reset → Underway s reset

/-- A stretch ends well: the call it leaves waiting may wait. -/
structure Sound (r : Stretch) : Prop where
  inv : Inv r.2
  waits : ∀ w, r.1 = .ok (some w) → ∀ reset, w.resetting? = some reset → Underway r.2 reset

theorem SameTurn.underway {reset : Resetting} (h : SameTurn s s') (hu : Underway s reset) : Underway s' reset := by
  refine ⟨hu.epoch, ?_, ?_⟩
  · rw [h.turn]
    exact hu.begun
  · rw [h.admitted]
    exact hu.apart

/-- The invariant but for the books. -/
theorem SameTurn.inv (h : SameTurn s s') (hi : Inv s) (hb : Books s') : Inv s' := by
  refine ⟨hb, ?_, ?_, ?_, ?_, fun w hw reset hreset => h.underway (hi.waiting w (h.waiting ▸ hw) reset hreset)⟩
  · rw [h.epoch, h.turn]
    exact hi.epoch
  · rw [h.admitted]
    exact hi.serials
  · rw [h.admitted]
    exact hi.current
  · rw [h.admitted, h.turn]
    exact hi.turns

theorem Moves.inv (h : Moves s s') (hi : Inv s) : Inv s' := h.same.inv hi (h.books hi.books)

theorem sound_done (hi : Inv s) : Sound (.ok none, s) := ⟨hi, nofun⟩

theorem sound_error {e : String} (hi : Inv s) : Sound (.error e, s) := ⟨hi, nofun⟩

theorem sound_waits {w : Waiting} (hi : Inv s) (hw : ∀ reset, w.resetting? = some reset → Underway s reset) :
    Sound (.ok (some w), s) := by
  refine ⟨hi, fun w' heq reset hreset => ?_⟩
  cases heq
  exact hw reset hreset

/-- A stretch goes on after a part that keeps the books. -/
theorem sound_andThen {r : Result} {next : St → Stretch} (hr : Moves s r.2) (hi : Inv s)
    (hnext : ∀ s', Moves s s' → Inv s' → Sound (next s')) : Sound (Result.andThen r next) := by
  rcases r with ⟨_ | _, s'⟩
  · exact sound_error (hr.inv hi)
  · exact hnext s' hr (hr.inv hi)

theorem sound_commit {r : Stretch} (h : Sound r) : Inv (commit r) := by
  rcases r with ⟨_ | _ | w, s'⟩
  · exact h.inv
  · exact h.inv
  · obtain ⟨hb, hepoch, hserials, hcurrent, hturns, hwaiting⟩ := h.inv
    refine ⟨⟨hb.known, hb.accounted, hb.legit, hb.returned⟩, hepoch, hserials, hcurrent, hturns, ?_⟩
    intro w' hw' reset hreset
    have hu : Underway s' reset := by
      rcases List.mem_append.mp hw' with hold | hnew
      · exact hwaiting w' hold reset hreset
      · cases List.mem_singleton.mp hnew
        exact h.waits w rfl reset hreset
    exact ⟨hu.epoch, hu.begun, hu.apart⟩

/-! ## Admission -/

section Enqueue

variable {epoch : UInt64} {chunk : PcmChunk}

/-- A quiet admission is of the epoch of no reset under way. -/
theorem quiet_apart (hi : Inv s) (hquiet : s.quiet = true) {w : Waiting} (hw : w ∈ s.waiting) {reset : Resetting}
    (hreset : w.resetting? = some reset) : s.turn ≠ reset.turn := by
  intro hturn
  have hne := List.all_eq_true.mp hquiet w hw
  rw [hreset] at hne
  have hepoch : reset.epoch = s.playbackEpoch := by
    rw [(hi.waiting w hw reset hreset).epoch, hi.epoch, hturn]
  simp [hepoch] at hne

theorem inv_pushPending (hi : Inv s) (hepoch : epoch = s.playbackEpoch) (chunk : PcmChunk) :
    Inv (pushPending epoch chunk s) := by
  let admission : Admission := ⟨s.admitted.length, epoch, s.playbackEpoch, s.turn, s.quiet⟩
  have hqueued (x : Admission) : x ∈ (pushPending epoch chunk s).queued ↔ x ∈ s.queued ∨ x = admission := by
    simp only [St.queued, pushPending, List.map_append, List.map_cons, List.map_nil, List.mem_append,
      List.mem_singleton]
    tauto
  have hadmitted (x : Admission) : x ∈ (pushPending epoch chunk s).admitted ↔ x ∈ s.admitted ∨ x = admission := by
    simp only [pushPending, List.mem_append, List.mem_singleton]
    exact Iff.rfl
  refine ⟨⟨fun x hx => ?_, fun x hx => ?_, hi.books.legit, hi.books.returned⟩, hi.epoch, ?_, fun x hx => ?_,
    fun x hx => ?_, fun w hw reset hreset => ?_⟩
  · exact (hadmitted x).mpr (((hqueued x).mp hx).imp_left (hi.books.known x))
  · rcases (hadmitted x).mp hx with hold | hnew
    · exact (hi.books.accounted x hold).imp_left fun h => (hqueued x).mpr (.inl h)
    · exact .inl ((hqueued x).mpr (.inr hnew))
  · simp [pushPending, hi.serials, List.range_succ]
  · rcases (hadmitted x).mp hx with hold | rfl
    · exact hi.current x hold
    · exact ⟨hepoch, hi.epoch⟩
  · rcases (hadmitted x).mp hx with hold | rfl
    · exact hi.turns x hold
    · exact Nat.le_refl _
  · have hu := hi.waiting w hw reset hreset
    refine ⟨hu.epoch, hu.begun, fun x hx hquiet => ?_⟩
    rcases (hadmitted x).mp hx with hold | rfl
    · exact hu.apart x hold hquiet
    · exact quiet_apart hi hquiet hw hreset

theorem sound_admitChunk (hi : Inv s) (hepoch : epoch = s.playbackEpoch) : Sound (admitChunk cfg dev epoch chunk s) := by
  unfold admitChunk
  refine sound_andThen (reapFinished_moves s) hi fun s₁ h₁ hi₁ => ?_
  refine sound_andThen (validatePendingFormat_plain s₁ _).moves hi₁ fun s₂ h₂ hi₂ => ?_
  split
  · exact sound_error hi₂
  · have hpushed := inv_pushPending hi₂ (hepoch.trans (h₁.trans h₂).same.epoch.symm) chunk
    dsimp only
    split
    · exact sound_andThen (flushPending_moves _) hpushed fun s₃ _ hi₃ => sound_done hi₃
    · exact sound_done hpushed

theorem sound_enqueueInEpoch (hi : Inv s) : Sound (enqueueInEpoch cfg dev epoch chunk s) := by
  unfold enqueueInEpoch
  split
  · have hlate : Moves s { s with lateAudioAfterTerminalCount := s.lateAudioAfterTerminalCount + 1 } :=
      .of_eq ⟨rfl, rfl, rfl, rfl⟩ rfl rfl rfl
    exact sound_done (hlate.inv hi)
  · rename_i hepoch
    have hepoch := not_not.mp hepoch
    unfold enqueueLoop
    split
    · refine sound_andThen (reapFinished_moves s) hi fun s₁ h₁ hi₁ => ?_
      split
      · exact sound_waits hi₁ nofun
      · exact sound_admitChunk hi₁ (hepoch.trans h₁.same.epoch.symm)
    · exact sound_admitChunk hi hepoch

theorem sound_enqueue (hi : Inv s) : Sound (enqueue cfg dev epoch chunk s) := by
  unfold enqueue
  split
  · exact sound_done hi
  split
  · exact sound_error hi
  split
  · exact sound_error hi
  split
  · exact sound_done hi
  · exact sound_andThen (throwIfUnhealthy_plain s).moves hi fun s₁ _ hi₁ => sound_enqueueInEpoch hi₁

end Enqueue

/-! ## Resets -/

section Reset

variable {reset : Resetting}

/-- What a reset that has not been overtaken finds in the queues it may drop. -/
theorem legit_of_underway (hi : Inv s) (hu : Underway s reset) (hepoch : s.playbackEpoch = reset.epoch) {a : Admission}
    (ha : a ∈ s.admitted) : Legit a (.discarded reset.turn s.turn) := by
  have hsame : epochOf reset.turn = epochOf s.turn := by rw [← hu.epoch, ← hepoch, hi.epoch]
  rcases turn_of_epochOf hsame hu.begun with hturn | hround
  · refine .inl ⟨hturn ▸ hi.turns a ha, fun hquiet => ?_⟩
    exact Nat.lt_of_le_of_ne (hturn ▸ hi.turns a ha) (hu.apart a ha hquiet)
  · exact .inr hround

/-- A reset that still has its epoch. -/
structure Current (s : St) (reset : Resetting) : Prop where
  inv : Inv s
  underway : Underway s reset
  epoch : s.playbackEpoch = reset.epoch

theorem Current.moves (h : Current s reset) (hm : Moves s s') : Current s' reset :=
  ⟨hm.inv h.inv, hm.same.underway h.underway, hm.same.epoch.trans h.epoch⟩

theorem Current.legit (h : Current s reset) {a : Admission} (ha : a ∈ s.queued) :
    Legit a (.discarded reset.turn s.turn) ∧ Timely s.turn (.discarded reset.turn s.turn) :=
  ⟨legit_of_underway h.inv h.underway h.epoch (h.inv.books.known a ha), h.underway.begun, Nat.le_refl _⟩

theorem clearPending_moves (h : Current s reset) : Moves s (clearPendingLocked reset s) := by
  refine ⟨⟨rfl, rfl, rfl, rfl⟩, fun hb => hb.leave ⟨rfl, rfl, rfl, rfl⟩ _ rfl (fun b hmem => ?_) ?_ ?_ fun _ h => h⟩
  · exact h.legit (mem_queued.mpr (.inr ⟨b, hmem, rfl⟩))
  · intro x hx
    exact (mem_queued.mp hx).imp_left fun hbuffer => mem_queued.mpr (.inl hbuffer)
  · intro x hx
    rcases mem_queued.mp hx with hbuffer | ⟨b, hmem, -⟩
    · exact mem_queued.mpr (.inl hbuffer)
    · cases hmem

theorem clearBuffers_moves (h : Current s reset) : Moves s (clearBuffers reset s) := by
  refine ⟨⟨rfl, rfl, rfl, rfl⟩, fun hb => hb.leave ⟨rfl, rfl, rfl, rfl⟩ _ rfl (fun b hmem => ?_) ?_ ?_ nofun⟩
  · exact h.legit (mem_queued.mpr (.inl ⟨b, hmem, rfl⟩))
  · intro x hx
    exact (mem_queued.mp hx).symm.imp_left fun hpending => mem_queued.mpr (.inr hpending)
  · intro x hx
    rcases mem_queued.mp hx with ⟨b, hmem, -⟩ | hpending
    · cases hmem
    · exact mem_queued.mpr (.inr hpending)

theorem stop_admission (reset : Resetting) (now : Nat) (b : Buffer) : (b.stop reset now).admission = b.admission := by
  unfold Buffer.stop
  split <;> rfl

theorem giveBack_admission (b : Buffer) : b.giveBack.admission = b.admission := by
  unfold Buffer.giveBack
  split <;> rfl

/-- A stopped buffer is booked by its reset before the driver gives it back. -/
theorem giveBack_departure (b : Buffer) : b.giveBack.departure = b.departure := by
  unfold Buffer.giveBack
  split
  · rename_i heq
    simp [Buffer.departure, heq]
  · rfl
  · rfl
  · rfl

theorem stop_departure (reset : Resetting) (now : Nat) (b : Buffer) :
    (b.stop reset now).departure = b.departure ∨ (b.stop reset now).departure = .discarded reset.turn now := by
  unfold Buffer.stop
  split
  · exact .inr rfl
  · exact .inl rfl

/-- The driver marks the buffers of `buffers_`. -/
theorem Books.mark (hb : Books s) (f : Buffer → Buffer) (hadmission : ∀ b, (f b).admission = b.admission)
    (hlegit : ∀ b ∈ s.buffers, Legit b.admission (f b).departure ∧ Timely s.turn (f b).departure) :
    Books { s with buffers := s.buffers.map f } := by
  have hqueued : St.queued { s with buffers := s.buffers.map f } = s.queued := by
    simp [St.queued, hadmission]
  refine ⟨?_, ?_, hb.legit, fun b hmem => ?_⟩
  · rw [hqueued]
    exact hb.known
  · rw [hqueued]
    exact hb.accounted
  · obtain ⟨b₀, hmem₀, rfl⟩ := List.mem_map.mp hmem
    rw [hadmission]
    exact hlegit b₀ hmem₀

theorem stopBuffers_moves (h : Current s reset) : Moves s (stopBuffers dev reset s) := by
  refine ⟨⟨rfl, rfl, rfl, rfl⟩, fun hb => hb.mark _ (fun b => ?_) fun b hmem => ?_⟩
  · dsimp only
    split
    · rw [giveBack_admission, stop_admission]
    · exact stop_admission ..
  · have hstopped : Legit b.admission (b.stop reset s.turn).departure ∧ Timely s.turn (b.stop reset s.turn).departure := by
      rcases stop_departure reset s.turn b with heq | heq
      · rw [heq]
        exact hb.returned b hmem
      · rw [heq]
        exact h.legit (mem_queued.mpr (.inl ⟨b, hmem, rfl⟩))
    dsimp only
    split
    · rwa [giveBack_departure]
    · exact hstopped

theorem sound_finishReset (h : Current s reset) : Sound (finishReset reset s) := by
  have hclear := clearPending_moves h
  have hrest : Moves (clearPendingLocked reset s)
      { clearPendingLocked reset s with playbackStarted := false, nextStreamFrame := 0 } :=
    .of_eq ⟨rfl, rfl, rfl, rfl⟩ rfl rfl rfl
  exact sound_done ((hclear.trans hrest).inv h.inv)

theorem sound_drain (h : Current s reset) : Sound (drain cfg dev reset s) := by
  unfold drain
  split
  · exact sound_finishReset h
  · refine sound_andThen (reapFinished_moves s) h.inv fun s₁ h₁ hi₁ => ?_
    have hcurrent := h.moves h₁
    split
    · exact sound_finishReset hcurrent
    split
    · exact sound_error ((markUnhealthy_plain s₁ _).moves.inv hi₁)
    · refine sound_waits hi₁ fun reset' hreset => ?_
      cases hreset
      exact hcurrent.underway

theorem sound_resetSink (h : Current s reset) : Sound (resetSink cfg dev reset s) := by
  unfold resetSink
  split
  · have hposition : Moves s { s with nextStreamFrame := 0 } := .of_eq ⟨rfl, rfl, rfl, rfl⟩ rfl rfl rfl
    exact sound_done (hposition.inv h.inv)
  · have hcount : Moves s { s with mockSubmissionCount := 0 } := .of_eq ⟨rfl, rfl, rfl, rfl⟩ rfl rfl rfl
    have hinject := hcount.trans (shouldInject_plain cfg { s with mockSubmissionCount := 0 } .reset).moves
    dsimp only
    split
    · exact sound_error ((hinject.trans (markUnhealthy_plain _ _).moves).inv h.inv)
    · have hcurrent := h.moves hinject
      exact sound_finishReset (hcurrent.moves (clearBuffers_moves hcurrent))
  · split
    · exact sound_finishReset h
    split
    · exact sound_error ((markUnhealthy_plain s _).moves.inv h.inv)
    · exact sound_drain (h.moves (stopBuffers_moves h))

theorem Timely.succ {turn : Nat} (d : Departure) (h : Timely turn d) : Timely (turn + 1) d := by
  cases d with
  | finished => trivial
  | orphaned => trivial
  | discarded reset now => exact ⟨h.1, Nat.le_succ_of_le h.2⟩

theorem current_beginReset (hi : Inv s) :
    Current (beginReset s) ⟨(beginReset s).playbackEpoch, (beginReset s).turn⟩ := by
  have hepoch : (beginReset s).playbackEpoch = epochOf (s.turn + 1) := by
    rw [← nextEpoch_epochOf, ← hi.epoch]
    rfl
  refine ⟨⟨⟨hi.books.known, hi.books.accounted, fun a d hd => (hi.books.legit a d hd).imp_right (Timely.succ d),
    fun b hb => (hi.books.returned b hb).imp_right (Timely.succ _)⟩, hepoch, hi.serials, hi.current,
    fun a ha => Nat.le_succ_of_le (hi.turns a ha), fun w hw reset' hreset => ?_⟩, ⟨hepoch, Nat.le_refl _, ?_⟩, rfl⟩
  · have hu := hi.waiting w hw reset' hreset
    exact ⟨hu.epoch, Nat.le_succ_of_le hu.begun, hu.apart⟩
  · intro a ha _
    exact Nat.ne_of_lt (Nat.lt_succ_of_le (hi.turns a ha))

theorem sound_resetLocked (hi : Inv s) : Sound (resetLocked cfg dev s) := by
  have hbegun := current_beginReset hi
  unfold resetLocked
  refine sound_andThen (throwIfUnhealthy_plain _).moves hbegun.inv fun s₁ h₁ hi₁ => ?_
  have hcurrent := hbegun.moves h₁
  split
  · have hhook : Moves s₁ { s₁ with resetWaitHook := false } := .of_eq ⟨rfl, rfl, rfl, rfl⟩ rfl rfl rfl
    refine sound_waits (hhook.inv hi₁) fun reset' hreset => ?_
    cases hreset
    exact hhook.same.underway hcurrent.underway
  · exact sound_resetSink hcurrent

theorem sound_resetIfEpoch {expected : UInt64} (hi : Inv s) : Sound (resetIfEpoch cfg dev expected s) := by
  unfold resetIfEpoch
  split
  · exact sound_done hi
  · exact sound_resetLocked hi

theorem sound_interruptWithFade (hi : Inv s) : Sound (interruptWithFadeLocked cfg dev s) := by
  have hreap : Moves s (if cfg.sinkMode = .disabled then (.ok (), s) else reapFinishedLocked cfg dev s).2 := by
    split
    · exact .refl s
    · exact reapFinished_moves s
  unfold interruptWithFadeLocked
  refine sound_andThen hreap hi fun s₁ _ hi₁ => ?_
  split
  · exact sound_error hi₁
  · exact sound_resetLocked hi₁

theorem sound_interruptWithFadeIfEpoch {expected : UInt64} (hi : Inv s) :
    Sound (interruptWithFadeIfEpoch cfg dev expected s) := by
  unfold interruptWithFadeIfEpoch
  split
  · exact sound_done hi
  · exact sound_interruptWithFade hi

end Reset

/-! ## Runs -/

theorem sound_idleLoop (hi : Inv s) : Sound (idleLoop cfg dev s) := by
  unfold idleLoop
  split
  · exact sound_done hi
  · refine sound_andThen (reapFinished_moves s) hi fun s₁ _ hi₁ => ?_
    split
    · exact sound_done hi₁
    split
    · exact sound_error hi₁
    · exact sound_waits hi₁ nofun

theorem sound_waitUntilIdle (hi : Inv s) : Sound (waitUntilIdle cfg dev s) := by
  unfold waitUntilIdle
  split
  · exact sound_done hi
  · refine sound_andThen (throwIfUnhealthy_plain s).moves hi fun s₁ _ hi₁ => ?_
    exact sound_andThen (flushPending_moves s₁) hi₁ fun s₂ _ hi₂ => sound_idleLoop hi₂

theorem sound_resumeCall {w : Waiting} (hi : Inv s) (hw : ∀ reset, w.resetting? = some reset → Underway s reset) :
    Sound (resumeCall cfg dev w s) := by
  cases w with
  | enqueue epoch chunk => exact sound_enqueueInEpoch hi
  | hook reset =>
    simp only [resumeCall]
    split
    · exact sound_error hi
    split
    · exact sound_done hi
    · rename_i hepoch
      exact sound_resetSink ⟨hi, hw reset rfl, not_not.mp hepoch⟩
  | drain reset =>
    simp only [resumeCall]
    split
    · exact sound_done hi
    · rename_i hepoch
      exact sound_drain ⟨hi, hw reset rfl, not_not.mp hepoch⟩
  | idle => exact sound_idleLoop hi

theorem play_admission (serial : Nat) (b : Buffer) : (b.play serial).admission = b.admission := by
  unfold Buffer.play
  split <;> rfl

theorem inv_played (hi : Inv s) (serial : Nat) : Inv { s with buffers := s.buffers.map (Buffer.play serial) } := by
  refine SameTurn.inv (s := s) ⟨rfl, rfl, rfl, rfl⟩ hi (hi.books.mark _ (play_admission serial) fun b hmem => ?_)
  unfold Buffer.play
  split
  · exact ⟨trivial, trivial⟩
  · exact hi.books.returned b hmem

theorem inv_returned (hi : Inv s) (serial : Nat) : Inv { s with buffers := s.buffers.map (Buffer.giveBackIf serial) } := by
  refine SameTurn.inv (s := s) ⟨rfl, rfl, rfl, rfl⟩ hi (hi.books.mark _ (fun b => ?_) fun b hmem => ?_)
  · unfold Buffer.giveBackIf
    split
    · exact giveBack_admission b
    · rfl
  · unfold Buffer.giveBackIf
    split
    · rw [giveBack_departure]
      exact hi.books.returned b hmem
    · exact hi.books.returned b hmem

theorem step_inv {e : Ev} (hi : Inv s) (hs : step cfg s e = some s') : Inv s' := by
  cases e with
  | enqueue epoch chunk dev =>
    cases hs
    exact sound_commit (sound_enqueue hi)
  | reset dev =>
    cases hs
    exact sound_commit (sound_resetLocked hi)
  | resetIfEpoch expected dev =>
    cases hs
    exact sound_commit (sound_resetIfEpoch hi)
  | interruptWithFade dev =>
    cases hs
    exact sound_commit (sound_interruptWithFade hi)
  | interruptWithFadeIfEpoch expected dev =>
    cases hs
    exact sound_commit (sound_interruptWithFadeIfEpoch hi)
  | waitUntilIdle dev =>
    cases hs
    exact sound_commit (sound_waitUntilIdle hi)
  | setResetWaitHook =>
    cases hs
    have hhook : Moves s { s with resetWaitHook := true } := .of_eq ⟨rfl, rfl, rfl, rfl⟩ rfl rfl rfl
    exact hhook.inv hi
  | resume index dev =>
    obtain ⟨w, hw, rfl⟩ := Option.map_eq_some_iff.mp hs
    have hwaiting := hi.waiting w (List.mem_of_getElem? hw)
    refine sound_commit (sound_resumeCall ?_ fun reset hreset => ?_)
    · refine ⟨⟨hi.books.known, hi.books.accounted, hi.books.legit, hi.books.returned⟩, hi.epoch, hi.serials, hi.current,
        hi.turns, fun w' hw' reset hreset => ?_⟩
      have hu := hi.waiting w' (List.mem_of_mem_eraseIdx hw') reset hreset
      exact ⟨hu.epoch, hu.begun, hu.apart⟩
    · have hu := hwaiting reset hreset
      exact ⟨hu.epoch, hu.begun, hu.apart⟩
  | played serial =>
    cases hs
    exact inv_played hi serial
  | returned serial =>
    cases hs
    exact inv_returned hi serial

theorem inv_init : Inv init where
  books := ⟨nofun, nofun, nofun, nofun⟩
  epoch := rfl
  serials := rfl
  current := nofun
  turns := nofun
  waiting := nofun

theorem reach_inv (h : Reachable cfg s) : Inv s := h.inv inv_init fun _ _ _ _ hi _ hs => step_inv hi hs

/-- Whatever is queued was admitted, every chunk admitted was enqueued with the epoch of
    that moment, and each is accounted for. -/
structure Isolated (s : St) : Prop where
  serials : s.admitted.map (·.serial) = List.range s.admitted.length
  known : ∀ a ∈ s.queued, a ∈ s.admitted
  current : ∀ a ∈ s.admitted, a.epoch = a.current
  accounted : ∀ a ∈ s.admitted, a ∈ s.queued ∨ ∃ d, (a, d) ∈ s.gone ∧ Legit a d

theorem epoch_isolation (h : Reachable cfg s) : Isolated s := by
  have hi := reach_inv h
  refine ⟨hi.serials, hi.books.known, fun a ha => (hi.current a ha).1, fun a ha => ?_⟩
  refine (hi.books.accounted a ha).imp_right fun hgone => ?_
  obtain ⟨d, hd⟩ := hgone
  exact ⟨d, hd, (hi.books.legit a d hd).1⟩

/-- One sample of silence. -/
def sample : PcmChunk := ⟨1, {}, 0, [0, 0]⟩

/-- A driver that gives nothing back within `waveOutReset`. -/
def tardy : Device := { givesBack := fun _ => false }

/-- A reset waits in the hook, or for the device, a second one overtakes it and a chunk of
    the new epoch is admitted: when the first goes on, the chunk stays. A reset whose
    deadline passes drops nothing. -/
theorem an_overtaken_reset_drops_nothing :
    (∃ s : St, Reachable { sinkMode := .mock } s ∧ Isolated s ∧ s.waiting = [] ∧ s.queued.map (·.epoch) = [3]) ∧
    (∃ s : St, Reachable {} s ∧ Isolated s ∧ s.waiting = [] ∧ s.queued.map (·.epoch) = [3] ∧
      s.gone = [(⟨0, 1, 1, 0, true⟩, .discarded 1 1)]) ∧
    ∃ s : St, Reachable {} s ∧ Isolated s ∧ s.unhealthy = true ∧ s.queued.map (·.epoch) = [1] ∧ s.gone = [] := by
  let hooked : List Ev := [.setResetWaitHook, .reset {}, .reset {}, .enqueue 3 sample {}, .resume 0 {}]
  let drained : List Ev := [.enqueue 1 sample {}, .reset tardy, .reset {}, .enqueue 3 sample {}, .resume 0 {}]
  let late : List Ev := [.enqueue 1 sample {}, .reset tardy, .resume 0 { deadlinePassed := true }, .returned 0]
  obtain ⟨s, hs, hp⟩ := exists_reach_of_run hooked
    (show (run (step { sinkMode := .mock }) anyStep init hooked).map
      (fun s => s.waiting == [] && s.queued.map (·.epoch) == [3]) = some true by decide +kernel)
  obtain ⟨t, ht, hq⟩ := exists_reach_of_run drained
    (show (run (step {}) anyStep init drained).map (fun s => s.waiting == [] && s.queued.map (·.epoch) == [3] &&
      s.gone == [(⟨0, 1, 1, 0, true⟩, .discarded 1 1)]) = some true by decide +kernel)
  obtain ⟨u, hu, hr⟩ := exists_reach_of_run late
    (show (run (step {}) anyStep init late).map (fun s => s.unhealthy && s.queued.map (·.epoch) == [1] &&
      s.gone == []) = some true by decide +kernel)
  simp only [Bool.and_eq_true, beq_iff_eq] at hp hq hr
  refine ⟨⟨s, hs, epoch_isolation hs, hp.1, hp.2⟩, ⟨t, ht, epoch_isolation ht, hq.1.1, hq.1.2, hq.2⟩, ?_⟩
  exact ⟨u, hu, epoch_isolation hu, hr.1.1, hr.1.2, hr.2⟩

/-- The driver neither takes a buffer nor gives back its header, and the chunk leaves
    `pending_buffers_` unplayed and with no reset begun; and a reset that waits in the hook,
    or for the device, drops a chunk of its own epoch. -/
theorem a_chunk_leaves_without_a_later_reset :
    (∃ s : St, Reachable {} s ∧ s.turn = 0 ∧ s.queued = [] ∧ s.gone = [(⟨0, 1, 1, 0, true⟩, .orphaned)]) ∧
    (∃ s : St, Reachable { sinkMode := .mock } s ∧ s.queued = [] ∧ s.gone = [(⟨0, 2, 2, 1, false⟩, .discarded 1 1)]) ∧
    ∃ s : St, Reachable {} s ∧ s.queued = [] ∧ (⟨1, 2, 2, 1, false⟩, .discarded 1 1) ∈ s.gone := by
  let refused : List Ev :=
    [.enqueue 1 sample { writeError := fun _ => some "", unprepareError := fun _ => some "" }]
  let early : List Ev := [.setResetWaitHook, .reset {}, .enqueue 2 sample {}, .resume 0 {}]
  let pending : List Ev := [.enqueue 1 sample {}, .reset tardy,
    .enqueue 2 sample { prepareError := fun _ => some "" }, .returned 0, .resume 0 {}]
  obtain ⟨s, hs, hp⟩ := exists_reach_of_run refused
    (show (run (step {}) anyStep init refused).map (fun s => s.turn == 0 && s.queued == [] &&
      s.gone == [(⟨0, 1, 1, 0, true⟩, .orphaned)]) = some true by decide +kernel)
  obtain ⟨t, ht, hq⟩ := exists_reach_of_run early
    (show (run (step { sinkMode := .mock }) anyStep init early).map (fun s => s.queued == [] &&
      s.gone == [(⟨0, 2, 2, 1, false⟩, .discarded 1 1)]) = some true by decide +kernel)
  obtain ⟨u, hu, hr⟩ := exists_reach_of_run pending
    (show (run (step {}) anyStep init pending).map (fun s => s.queued == [] &&
      decide ((⟨1, 2, 2, 1, false⟩, .discarded 1 1) ∈ s.gone)) = some true by decide +kernel)
  simp only [Bool.and_eq_true, beq_iff_eq, decide_eq_true_eq] at hp hq hr
  exact ⟨⟨s, hs, hp.1.1, hp.1.2, hp.2⟩, ⟨t, ht, hq⟩, u, hu, hr⟩

end QwenTtsBridge.Playback.WaveOutPlayer
