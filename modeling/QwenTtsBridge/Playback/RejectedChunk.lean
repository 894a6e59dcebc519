/-
  QwenTtsBridge.Playback.RejectedChunk — what a chunk that `enqueue` refuses leaves behind
  (`playback/winmm_playback.cpp`).

  `enqueue` checks the format of a chunk, waits for room, reaps, checks the format against
  what is playing or pending, and only then counts the chunk's frames. The check against the
  pending format also records the format, so a chunk with an incomplete frame has its format
  recorded before it is refused.

  - `unaffected_iff`: a refused chunk leaves the player as it was, but for the reaping, and the
    same later chunks are admitted, exactly if its format was not recorded or was the pending
    one already (`Leftover`). This holds in every state, for the stretch in which the call
    throws: the first one, or one after a wait.
  - `run_without_rejected`: a run in which no such chunk is refused ends as it does without
    the refused ones.
  - `a_torn_chunk_leaves_its_format`: after an incomplete mono chunk an empty player refuses
    stereo, "while audio is buffered".
-/

import QwenTtsBridge.Playback.Alike

namespace QwenTtsBridge.Playback.WaveOutPlayer

open QwenTtsBridge.Protocol.Control

/-! ## Refusals -/

/-- A stretch of a call of `enqueue`. -/
inductive Stage where
  | first
  | resumed
  deriving DecidableEq, Repr

def attempt (cfg : Config) (dev : Device) (epoch : UInt64) (chunk : PcmChunk) : Stage → St → Stretch
  | .first => enqueue cfg dev epoch chunk
  | .resumed => enqueueInEpoch cfg dev epoch chunk

/-- The call throws before the chunk is in the queue, and the sink has not failed. -/
structure Refused (cfg : Config) (dev : Device) (epoch : UInt64) (chunk : PcmChunk) (stage : Stage) (s : St)
    (e : String) : Prop where
  thrown : (attempt cfg dev epoch chunk stage s).1 = .error e
  healthy : (attempt cfg dev epoch chunk stage s).2.unhealthy = false
  notAdded : (attempt cfg dev epoch chunk stage s).2.admitted = s.admitted

/-- What a refusal says. -/
def reasons : List String :=
  ["default-device playback requires s16le PCM", "invalid PCM format for default-device playback",
    "mock playback sink cannot change PCM format while audio is queued",
    "default-device playback cannot change PCM format while audio is queued",
    "default-device playback cannot change PCM format while audio is buffered",
    "PCM buffer does not contain complete frames"]

/-- A format that `enqueue` takes at all. -/
def Supported (format : AudioFormat) : Prop :=
  format.sampleFormat = CppString.lit "s16le" ∧ format.sampleRate ≠ 0 ∧ format.channels ≠ 0 ∧ format.channels ≤ 65535

/-- A format that the player takes in this state. -/
def Takes (cfg : Config) (format : AudioFormat) (s : St) : Prop :=
  if cfg.sinkMode = .mock ∧ s.playbackStarted then s.format = format
  else if s.handle then s.format = format
  else ∀ pending ∈ s.pendingFormat, pending = format

/-- A mock sink that plays, or no open device: a format that is taken is recorded. -/
def Records (cfg : Config) (s : St) : Prop := (cfg.sinkMode = .mock ∧ s.playbackStarted = true) ∨ s.handle = false

def Torn (chunk : PcmChunk) : Prop := chunk.bytes.length % pcmFrameBytes chunk.format ≠ 0

/-- A chunk with an incomplete frame whose format becomes the pending one. -/
structure Leftover (cfg : Config) (stage : Stage) (chunk : PcmChunk) (s : St) : Prop where
  torn : Torn chunk
  supported : stage = .first → Supported chunk.format
  takes : Takes cfg chunk.format s
  records : Records cfg s
  new : s.pendingFormat ≠ some chunk.format

/-- The player is as it was, but for finished buffers, and admits what it would have. -/
structure Unaffected (cfg : Config) (s t : St) : Prop where
  state : t = s ∨ t = s.reaped
  later : ∀ events s' t', runHealthy cfg s events = some s' → runHealthy cfg t events = some t' →
    t'.admitted = s'.admitted

instance (format : AudioFormat) : Decidable (Supported format) := inferInstanceAs (Decidable (_ ∧ _))

instance (cfg : Config) (format : AudioFormat) (s : St) : Decidable (Takes cfg format s) := by
  unfold Takes
  infer_instance

instance (cfg : Config) (s : St) : Decidable (Records cfg s) := inferInstanceAs (Decidable (_ ∨ _))

instance (chunk : PcmChunk) : Decidable (Torn chunk) := inferInstanceAs (Decidable (_ ≠ _))

/-! ## One stretch -/

variable {cfg : Config} {dev : Device} {epoch : UInt64} {chunk : PcmChunk} {stage : Stage} {s s' t t' : St} {e : String}

theorem formatsMatch_iff {left right : AudioFormat} : formatsMatch left right = true ↔ left = right := by
  cases left
  cases right
  simp [formatsMatch, and_assoc]

theorem formatsMatch_of_ne {left right : AudioFormat} (h : left ≠ right) : formatsMatch left right = false :=
  Bool.eq_false_iff.mpr fun hmatch => h (formatsMatch_iff.mp hmatch)

theorem formatsMatch_of_eq {left right : AudioFormat} (h : left = right) : formatsMatch left right = true :=
  formatsMatch_iff.mpr h

theorem validate_of_takes {format : AudioFormat} (h : Takes cfg format s) : validatePendingFormatLocked cfg s format =
    (.ok (), if Records cfg s then { s with pendingFormat := some format } else s) := by
  unfold Takes at h
  unfold validatePendingFormatLocked
  by_cases hmock : cfg.sinkMode = .mock ∧ s.playbackStarted = true
  · rw [if_pos hmock] at h ⊢
    rw [formatsMatch_of_eq h, if_neg (by decide), if_pos (.inl hmock)]
  · rw [if_neg hmock] at h ⊢
    by_cases hhandle : s.handle = true
    · rw [if_pos hhandle] at h ⊢
      have hsilent : ¬ Records cfg s := by
        rintro (hplaying | hclosed)
        · exact hmock hplaying
        · rw [hhandle] at hclosed
          cases hclosed
      rw [formatsMatch_of_eq h, if_neg (by decide), if_neg hsilent]
    · rw [if_neg hhandle] at h ⊢
      have hrecords : Records cfg s := .inr (by simpa using hhandle)
      have hsame : ¬ (s.pendingFormat.any fun pending => !formatsMatch pending format) = true := by
        cases hpending : s.pendingFormat with
        | none => simp
        | some pending => simp [formatsMatch_of_eq (h pending hpending)]
      rw [if_neg hsame, if_pos hrecords]

theorem validate_of_not_takes {format : AudioFormat} (h : ¬ Takes cfg format s) :
    ∃ e ∈ reasons, validatePendingFormatLocked cfg s format = (.error e, s) := by
  unfold Takes at h
  unfold validatePendingFormatLocked
  by_cases hmock : cfg.sinkMode = .mock ∧ s.playbackStarted = true
  · rw [if_pos hmock] at h ⊢
    rw [formatsMatch_of_ne h, if_pos (by decide)]
    exact ⟨_, by simp [reasons], rfl⟩
  · rw [if_neg hmock] at h ⊢
    by_cases hhandle : s.handle = true
    · rw [if_pos hhandle] at h ⊢
      rw [formatsMatch_of_ne h, if_pos (by decide)]
      exact ⟨_, by simp [reasons], rfl⟩
    · rw [if_neg hhandle] at h ⊢
      have hother : (s.pendingFormat.any fun pending => !formatsMatch pending format) = true := by
        cases hpending : s.pendingFormat with
        | none => exact absurd (by simp [hpending]) h
        | some pending =>
          have hne : pending ≠ format := by simpa [hpending] using h
          simp [formatsMatch_of_ne hne]
      rw [if_pos hother]
      exact ⟨_, by simp [reasons], rfl⟩

/-- The state that a refused chunk leaves. -/
def leftBehind (cfg : Config) (chunk : PcmChunk) (s : St) : St :=
  if Torn chunk ∧ Takes cfg chunk.format s ∧ Records cfg s then { s with pendingFormat := some chunk.format } else s

theorem andThen_ok {α : Type} {next : St → Except String α × St} : Result.andThen (.ok (), s) next = next s := rfl

theorem andThen_error {α : Type} {next : St → Except String α × St} :
    Result.andThen (.error e, s) next = (.error e, s) := rfl

/-- A chunk that is in the queue stays there for the rest of the stretch. -/
theorem flush_admitted : (Result.andThen (flushPendingLocked cfg dev s) fun s => ((.ok none, s) : Stretch)).2.admitted =
    s.admitted := by
  have hflushed : (flushPendingLocked cfg dev s).2.admitted = s.admitted := (flushPending_moves s).same.admitted
  generalize flushPendingLocked cfg dev s = r at hflushed ⊢
  obtain ⟨x, s₁⟩ := r
  cases x <;> exact hflushed

theorem pushPending_admitted : (pushPending epoch chunk s).admitted.length = s.admitted.length + 1 := by
  simp [pushPending]

/-- How a stretch ends from the check of the epoch on. -/
inductive Ends (cfg : Config) (chunk : PcmChunk) (s : St) : Stretch → Prop where
  | refused {e : String} (he : e ∈ reasons) : Ends cfg chunk s (.error e, leftBehind cfg chunk s.reaped)
  | added {r : Stretch} (h : r.2.admitted ≠ s.admitted) : Ends cfg chunk s r
  | broken {r : Stretch} (h : Broken r) : Ends cfg chunk s r
  | unthrown {w : Option Waiting} {t : St} : Ends cfg chunk s (.ok w, t)

theorem admitChunk_ends (cfg : Config) (dev : Device) (epoch : UInt64) (chunk : PcmChunk) (s : St) :
    Ends cfg chunk s (admitChunk cfg dev epoch chunk s) := by
  unfold admitChunk
  rcases reap_cases cfg dev s with hreap | hreap
  swap
  · exact .broken hreap.andThen
  rw [hreap, andThen_ok]
  by_cases htakes : Takes cfg chunk.format s.reaped
  · rw [validate_of_takes htakes, andThen_ok]
    by_cases htorn : chunk.bytes.length % pcmFrameBytes chunk.format ≠ 0
    · have hleft : (if Records cfg s.reaped then { s.reaped with pendingFormat := some chunk.format } else s.reaped) =
          leftBehind cfg chunk s.reaped := by
        rw [leftBehind]
        by_cases hrecords : Records cfg s.reaped
        · rw [if_pos hrecords, if_pos ⟨htorn, htakes, hrecords⟩]
        · rw [if_neg hrecords, if_neg fun hleft => hrecords hleft.2.2]
      rw [if_pos htorn, hleft]
      exact .refused (by simp [reasons])
    · rw [if_neg htorn]
      dsimp only
      generalize hrecorded : (if Records cfg s.reaped then { s.reaped with pendingFormat := some chunk.format } else
        s.reaped) = s₁
      have hsame : s₁.admitted = s.admitted := by
        rw [← hrecorded]
        split <;> rfl
      refine .added fun hstays => ?_
      have hlength : (pushPending epoch chunk s₁).admitted.length = s.admitted.length + 1 := by
        rw [pushPending_admitted, hsame]
      have hunchanged : (pushPending epoch chunk s₁).admitted.length = s.admitted.length := by
        rw [← hstays]
        split
        · rw [flush_admitted]
        · rfl
      omega
  · obtain ⟨e, he, hrefused⟩ := validate_of_not_takes htakes
    have hleft : leftBehind cfg chunk s.reaped = s.reaped := if_neg fun hleft => htakes hleft.2.1
    have hends : Ends cfg chunk s (.error e, leftBehind cfg chunk s.reaped) := .refused he
    rw [hleft] at hends
    rwa [hrefused, andThen_error]

/-- A reaping more makes no difference. -/
theorem Ends.of_reaped {r : Stretch} (h : Ends cfg chunk s.reaped r) : Ends cfg chunk s r := by
  cases h with
  | refused he =>
    rw [reaped_reaped]
    exact .refused he
  | added h => exact .added h
  | broken h => exact .broken h
  | unthrown => exact .unthrown

theorem enqueueInEpoch_ends (cfg : Config) (dev : Device) (epoch : UInt64) (chunk : PcmChunk) (s : St) :
    Ends cfg chunk s (enqueueInEpoch cfg dev epoch chunk s) := by
  unfold enqueueInEpoch
  split
  · exact .unthrown
  unfold enqueueLoop
  split
  · rcases reap_cases cfg dev s with hreap | hreap
    · rw [hreap, andThen_ok]
      split
      · exact .unthrown
      · exact (admitChunk_ends cfg dev epoch chunk s.reaped).of_reaped
    · exact .broken hreap.andThen
  · exact admitChunk_ends cfg dev epoch chunk s

/-- The checks of a format before any state is looked at. -/
theorem enqueue_of_not_supported (cfg : Config) (dev : Device) (epoch : UInt64) (s : St)
    (h : ¬ Supported chunk.format) :
    (∃ w, enqueue cfg dev epoch chunk s = (.ok w, s)) ∨
      ∃ e ∈ reasons, enqueue cfg dev epoch chunk s = (.error e, s) := by
  unfold enqueue
  split
  · exact .inl ⟨_, rfl⟩
  by_cases hsample : chunk.format.sampleFormat = CppString.lit "s16le"
  · rw [if_neg (not_not.mpr hsample), if_pos]
    · exact .inr ⟨_, by simp [reasons], rfl⟩
    · by_contra hvalid
      push Not at hvalid
      exact h ⟨hsample, hvalid.1, hvalid.2.1, UInt32.not_lt.mp hvalid.2.2⟩
  · rw [if_pos hsample]
    exact .inr ⟨_, by simp [reasons], rfl⟩

theorem enqueue_of_supported (h : Supported chunk.format) : Ends cfg chunk s (enqueue cfg dev epoch chunk s) := by
  obtain ⟨hsample, hrate, hnone, hmany⟩ := h
  unfold enqueue
  split
  · exact .unthrown
  rw [if_neg (not_not.mpr hsample), if_neg (by simp [hrate, hnone, UInt32.not_lt.mpr hmany])]
  split
  · exact .unthrown
  unfold throwIfUnhealthyLocked
  split
  · exact .broken ⟨⟨_, rfl⟩, ‹_›⟩
  · rw [andThen_ok]
    exact enqueueInEpoch_ends cfg dev epoch chunk s

/-- What a refused call says, and the state it leaves. -/
theorem Refused.cases (h : Refused cfg dev epoch chunk stage s e) : e ∈ reasons ∧
    if stage = .first → Supported chunk.format then
      (attempt cfg dev epoch chunk stage s).2 = leftBehind cfg chunk s.reaped
    else (attempt cfg dev epoch chunk stage s).2 = s := by
  obtain ⟨hthrown, hhealthy, hnotAdded⟩ := h
  have hends (hends : Ends cfg chunk s (attempt cfg dev epoch chunk stage s)) :
      e ∈ reasons ∧ (attempt cfg dev epoch chunk stage s).2 = leftBehind cfg chunk s.reaped := by
    generalize attempt cfg dev epoch chunk stage s = r at *
    cases hends with
    | refused he =>
      cases hthrown
      exact ⟨he, rfl⟩
    | added h => exact absurd hnotAdded h
    | broken h =>
      rw [h.2] at hhealthy
      cases hhealthy
    | unthrown => cases hthrown
  cases stage with
  | resumed =>
    rw [if_pos nofun]
    exact hends (enqueueInEpoch_ends cfg dev epoch chunk s)
  | first =>
    by_cases hsupported : Supported chunk.format
    · rw [if_pos fun _ => hsupported]
      exact hends (enqueue_of_supported hsupported)
    · rw [if_neg fun h => hsupported (h rfl)]
      rcases enqueue_of_not_supported cfg dev epoch s hsupported with ⟨w, hreturned⟩ | ⟨e', he', hrefused⟩
      · rw [attempt, hreturned] at hthrown
        cases hthrown
      · rw [attempt, hrefused] at hthrown ⊢
        cases hthrown
        exact ⟨he', rfl⟩

theorem Refused.reason (h : Refused cfg dev epoch chunk stage s e) : e ∈ reasons := h.cases.1

theorem leftBehind_of_not_leftover (hnot : ¬ Leftover cfg stage chunk s)
    (hsupported : stage = .first → Supported chunk.format) : leftBehind cfg chunk s.reaped = s.reaped := by
  unfold leftBehind
  split
  · rename_i hleft
    have hpending : s.pendingFormat = some chunk.format := by
      by_contra hnew
      exact hnot ⟨hleft.1, hsupported, hleft.2.1, hleft.2.2, hnew⟩
    unfold St.reaped
    rw [← hpending]
  · rfl

theorem Leftover.pendingFormat (h : Leftover cfg stage chunk s) :
    (leftBehind cfg chunk s.reaped).pendingFormat = some chunk.format := by
  rw [leftBehind, if_pos ⟨h.torn, h.takes, h.records⟩]

theorem Refused.state (h : Refused cfg dev epoch chunk stage s e) (hnot : ¬ Leftover cfg stage chunk s) :
    (attempt cfg dev epoch chunk stage s).2 = s ∨ (attempt cfg dev epoch chunk stage s).2 = s.reaped := by
  have hcases := h.cases.2
  split at hcases
  · rename_i hsupported
    rw [leftBehind_of_not_leftover hnot hsupported] at hcases
    exact .inr hcases
  · exact .inl hcases

theorem Refused.view (h : Refused cfg dev epoch chunk stage s e) (hnot : ¬ Leftover cfg stage chunk s) :
    (attempt cfg dev epoch chunk stage s).2.view = s.view := by
  rcases h.state hnot with hsame | hreaped
  · rw [hsame]
  · rw [hreaped, reaped_view]

theorem unaffected_iff (h : Refused cfg dev epoch chunk stage s e) :
    Unaffected cfg s (attempt cfg dev epoch chunk stage s).2 ↔ ¬ Leftover cfg stage chunk s := by
  constructor
  · intro hunaffected hleft
    have hcases := h.cases.2
    rw [if_pos hleft.supported] at hcases
    have hpending := hleft.pendingFormat
    rw [← hcases] at hpending
    rcases hunaffected.state with hsame | hreaped
    · rw [hsame] at hpending
      exact hleft.new hpending
    · rw [hreaped] at hpending
      exact hleft.new hpending
  · intro hnot
    refine ⟨h.state hnot, fun events s' t' hs ht => ?_⟩
    have hview : s'.view = t'.view := run_alike (h.view hnot).symm hs ht
    exact (congrArg St.admitted hview).symm

/-! ## Runs without the refused chunks -/

/-- The call throws before the chunk is in the queue. -/
def rejects (cfg : Config) (s : St) : Ev → Bool
  | .enqueue epoch chunk dev =>
    match enqueue cfg dev epoch chunk s with
    | (.error _, t) => t.admitted == s.admitted
    | (.ok _, _) => false
  | _ => false

/-- The events of a run but for the calls that are refused at once. -/
def withoutRejected (cfg : Config) : St → List Ev → List Ev
  | _, [] => []
  | s, ev :: events =>
    let rest := match step cfg s ev with
      | some s' => withoutRejected cfg s' events
      | none => events
    if rejects cfg s ev then rest else ev :: rest

/-- No chunk that is refused at once in the run leaves its format. -/
def NoLeftover (cfg : Config) : St → List Ev → Prop
  | _, [] => True
  | s, ev :: events =>
    (rejects cfg s ev → ∀ epoch chunk dev, ev = .enqueue epoch chunk dev → ¬ Leftover cfg .first chunk s) ∧
      ∀ s', step cfg s ev = some s' → NoLeftover cfg s' events

theorem rejects_cases {ev : Ev} (h : rejects cfg s ev = true) (hs : step cfg s ev = some s')
    (hhealthy : s'.unhealthy = false) :
    ∃ epoch chunk dev e, ev = .enqueue epoch chunk dev ∧ Refused cfg dev epoch chunk .first s e ∧
      s' = (attempt cfg dev epoch chunk .first s).2 := by
  cases ev with
  | enqueue epoch chunk dev =>
    cases hs
    unfold rejects at h
    dsimp only at h
    cases hcall : enqueue cfg dev epoch chunk s with
    | mk x t =>
      rw [hcall] at h hhealthy
      cases x with
      | ok w => cases h
      | error e =>
        refine ⟨epoch, chunk, dev, e, rfl, ⟨?_, ?_, ?_⟩, ?_⟩
        · rw [attempt, hcall]
        · rw [attempt, hcall]
          exact hhealthy
        · rw [attempt, hcall]
          exact beq_iff_eq.mp h
        · rw [attempt, hcall]
          rfl
  | _ => cases h

theorem run_without_rejected {events : List Ev} (h : s.view = t.view) (hclean : NoLeftover cfg s events)
    (hs : runHealthy cfg s events = some s') (ht : runHealthy cfg t (withoutRejected cfg s events) = some t') :
    s'.view = t'.view := by
  induction events generalizing s t with
  | nil =>
    cases run_nil hs
    cases run_nil ht
    exact h
  | cons ev events ih =>
    obtain ⟨s₁, hs₁, hs⟩ := run_cons hs
    obtain ⟨hfirst, hrest⟩ := hclean
    unfold withoutRejected at ht
    rw [hs₁] at ht
    dsimp only at ht
    split at ht
    · rename_i hrejects
      obtain ⟨epoch, chunk, dev, e, rfl, hrefused, rfl⟩ := rejects_cases hrejects hs₁ (healthy_of_run hs)
      have hview := hrefused.view (hfirst hrejects epoch chunk dev rfl)
      exact ih (hview.trans h) (hrest _ hs₁) hs ht
    · obtain ⟨t₁, ht₁, ht⟩ := run_cons ht
      exact ih (step_alike h hs₁ ht₁ (healthy_of_run hs) (healthy_of_run ht)) (hrest _ hs₁) hs ht

theorem refused_leaves_nothing_iff (cfg : Config) :
    (∀ dev epoch chunk stage s e, Refused cfg dev epoch chunk stage s e →
      (Unaffected cfg s (attempt cfg dev epoch chunk stage s).2 ↔ ¬ Leftover cfg stage chunk s)) ∧
    ∀ s events s' t', NoLeftover cfg s events → runHealthy cfg s events = some s' →
      runHealthy cfg s (withoutRejected cfg s events) = some t' → s'.view = t'.view :=
  ⟨fun _ _ _ _ _ _ => unaffected_iff, fun _ _ _ _ hclean => run_without_rejected rfl hclean⟩

/-- Three bytes of mono. -/
def tornMono : PcmChunk := ⟨1, {}, 0, [0, 0, 0]⟩

/-- One frame of stereo. -/
def stereo : PcmChunk := ⟨1, { channels := 2 }, 0, [0, 0, 0, 0]⟩

/-- The player plays stereo at first. After the incomplete chunk it holds no audio and does not. -/
theorem a_torn_chunk_leaves_its_format :
    let t := (enqueue {} {} 1 tornMono init).2
    Reachable {} init ∧ Refused {} {} 1 tornMono .first init "PCM buffer does not contain complete frames" ∧
      t.buffers = [] ∧ t.pendingBuffers = [] ∧ t.pendingFormat = some tornMono.format ∧
      (enqueue {} {} 1 stereo init).1 = .ok none ∧ (enqueue {} {} 1 stereo init).2.admitted ≠ [] ∧
      enqueue {} {} 1 stereo t =
        (.error "default-device playback cannot change PCM format while audio is buffered", t) ∧
      ¬ Unaffected {} init t := by
  refine ⟨.init, ⟨rfl, rfl, rfl⟩, rfl, rfl, rfl, rfl, by decide, rfl, fun h => ?_⟩
  rcases h.state with hsame | hreaped
  · exact absurd (congrArg St.pendingFormat hsame) (by decide)
  · exact absurd (congrArg St.pendingFormat hreaped) (by decide)

/-- Stereo, and mono with an incomplete frame, after a chunk of mono: the queue stays. -/
theorem a_refused_format_leaves_nothing :
    let cfg : Config := { prebufferChunks := 2 }
    let s := (enqueue cfg {} 1 sample init).2
    s.pendingBuffers.length = 1 ∧ Unaffected cfg s (attempt cfg {} 1 stereo .first s).2 ∧
      Unaffected cfg s (attempt cfg {} 1 tornMono .first s).2 := by
  refine ⟨rfl, ?_, ?_⟩
  · exact ((refused_leaves_nothing_iff _).1 _ _ _ _ _ _ ⟨rfl, rfl, rfl⟩).mpr
      fun hleft => absurd hleft.takes (by decide)
  · exact ((refused_leaves_nothing_iff _).1 _ _ _ _ _ _ ⟨rfl, rfl, rfl⟩).mpr
      fun hleft => absurd hleft.new (by decide)

end QwenTtsBridge.Playback.WaveOutPlayer
