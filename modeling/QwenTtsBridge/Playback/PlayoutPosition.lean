/-
  QwenTtsBridge.Playback.PlayoutPosition — where playback stands (`playback/winmm_playback.cpp`,
  `audio/playout_cursor.cpp`).

  Two functions look for the buffer at the playout cursor: `interruption_tail_locked` fades
  out what comes from there on, `playback_cursor_snapshot` tells its place in the utterance.
  Both read `buffers_` and trust it: one format, whole frames, in order of the stream.

  That is an invariant of the player (`Aligned`, `Streamed`) as long as no chunk is admitted
  that would take the stream past 64 bits or the queue past the largest vector (`Roomy`).

  - `interruption_tail`: in every reachable state the tail is that of the buffer at the
    cursor, and there is one exactly if an unplayed frame is left; it never throws.
  - `tail_and_snapshot_agree`: both functions mean the same buffer.

  The device's answer and the mock sink's clock are arguments (`Clock`).
-/

import QwenTtsBridge.Audio.PlayoutQueue
import QwenTtsBridge.Playback.QueueChanges

namespace QwenTtsBridge.Playback.WaveOutPlayer

open QwenTtsBridge.Session QwenTtsBridge.Protocol.Control QwenTtsBridge.Lib.Transition

/-! ## Model -/

/-- What the sink tells of its position. -/
structure Clock where
  /-- The device's position less `device_position_base_`, 0 without a base. -/
  device : Option UInt64 := none
  /-- The frames that the mock sink has played of its first unfinished buffer. -/
  elapsed : UInt64 := 0
  deriving DecidableEq, Repr

def currentPlayoutCursorFrameLocked (cfg : Config) (clock : Clock) (s : St) : Option UInt64 :=
  if !s.playbackStarted || s.buffers.isEmpty then none
  else
    match cfg.sinkMode with
    | .mock =>
      match s.buffers.find? (!·.done) with
      | some b => some (min (b.startFrame + clock.elapsed) (b.startFrame + b.frameCount))
      | none => some s.nextStreamFrame
    | .waveOut => if s.handle then clock.device else none
    | .disabled => none

/-- No vector outgrows its `size_t`. -/
abbrev St.Sized (s : St) : Prop := ∀ b ∈ s.buffers, b.bytes.length < 2 ^ 64

/-- The snapshot that `interruption_tail_locked` takes. -/
def playoutBuffers (s : St) (h : s.Sized) : List Audio.PlayoutCursor.PlayoutBuffer :=
  s.buffers.pmap (fun b hb => ⟨{ requestId := b.requestId, format := s.format, bytes := b.bytes }, b.startFrame, hb⟩) h

def interruptionTailLocked (cfg : Config) (clock : Clock) (fadeMs : UInt32) (s : St) (h : s.Sized) :
    Except Audio.PlayoutCursor.Failure (Option Audio.PcmChunk) :=
  if s.buffers.isEmpty then .ok none
  else
    match currentPlayoutCursorFrameLocked cfg clock s with
    | none => .ok none
    | some cursorFrame => Audio.PlayoutCursor.makePlayoutCursorFade (playoutBuffers s h) cursorFrame fadeMs

structure PlaybackCursorSnapshot where
  playbackEpoch : UInt64
  requestId : RequestId
  utteranceSample : UInt64 := 0
  sampleRate : UInt32 := 0
  positionAvailable : Bool := false
  deriving DecidableEq, Repr

/-- The loop of `playback_cursor_snapshot`: the selected buffer and `local_offset`. -/
def selectBuffer (cursorFrame : UInt64) : List Buffer → Option (Buffer × UInt64)
  | [] => none
  | b :: rest =>
    if cursorFrame < b.startFrame then some (b, 0)
    else if cursorFrame < b.startFrame + b.frameCount then some (b, cursorFrame - b.startFrame)
    else selectBuffer cursorFrame rest

def playbackCursorSnapshot (cfg : Config) (clock : Clock) (epoch : UInt64) (requestId : RequestId) (s : St) :
    PlaybackCursorSnapshot :=
  let snapshot : PlaybackCursorSnapshot := { playbackEpoch := epoch, requestId := requestId }
  if epoch ≠ s.playbackEpoch ∨ requestId = 0 ∨ !s.playbackStarted ∨ s.buffers.isEmpty then snapshot
  else
    match currentPlayoutCursorFrameLocked cfg clock s with
    | none => snapshot
    | some cursorFrame =>
      match selectBuffer cursorFrame s.buffers with
      | none => snapshot
      | some (b, offset) =>
        if b.requestId ≠ requestId ∨ b.utteranceFirstSample > 18446744073709551615 - offset then snapshot
        else
          { snapshot with
            utteranceSample := b.utteranceFirstSample + offset
            sampleRate := s.format.sampleRate
            positionAvailable := s.format.sampleRate != 0 }

/-! ## The format of the queues -/

/-- A buffer of whole frames in the format. -/
structure InFormat (format : AudioFormat) (b : Buffer) : Prop where
  supported : Supported format
  nonempty : b.bytes ≠ []
  whole : b.bytes.length % pcmFrameBytes format = 0
  count : b.frameCount = UInt64.ofNat (b.bytes.length / pcmFrameBytes format)

structure Aligned (cfg : Config) (q : Queue) : Prop where
  fixed : q.Fixed cfg → ∀ b ∈ q.buffers ++ q.pending, InFormat q.format b
  recorded : q.Fixed cfg → ∀ pending, q.pendingFormat = some pending → pending = q.format
  loose : ¬ q.Fixed cfg → ∀ b ∈ q.pending, ∃ format, q.pendingFormat = some format ∧ InFormat format b
  empty : ¬ q.Fixed cfg → q.buffers = []
  idle : q.started = false → q.buffers = []
  disabled : cfg.sinkMode = .disabled → q.buffers = []

variable {cfg : Config} {clearing : Bool} {clock : Clock} {chunk : PcmChunk} {s s' : St} {q q' : Queue}

theorem SameAudio.inFormat {b b' : Buffer} {format : AudioFormat} (h : SameAudio b b') (hb : InFormat format b) :
    InFormat format b' := by
  refine ⟨hb.supported, ?_, ?_, ?_⟩
  · rw [h.bytes]
    exact hb.nonempty
  · rw [h.bytes]
    exact hb.whole
  · rw [h.bytes, h.count]
    exact hb.count

theorem InFormat.submittedAt {b : Buffer} {format : AudioFormat} (h : InFormat format b) (next : UInt64) :
    InFormat format (b.submittedAt next) := ⟨h.supported, h.nonempty, h.whole, h.count⟩

/-- The queues without some of their buffers. -/
theorem Aligned.shrink (h : Aligned cfg q) {buffers pending : List Buffer} (hbuffers : ∀ b ∈ buffers, b ∈ q.buffers)
    (hpending : ∀ b ∈ pending, b ∈ q.pending) : Aligned cfg { q with buffers := buffers, pending := pending } := by
  have hnone (hempty : q.buffers = []) : buffers = [] := by
    refine List.eq_nil_iff_forall_not_mem.mpr fun b hb => ?_
    have hmem := hbuffers b hb
    rw [hempty] at hmem
    cases hmem
  refine ⟨fun hfixed b hb => h.fixed hfixed b ?_, h.recorded, fun hloose b hb => h.loose hloose b (hpending b hb),
    fun hloose => hnone (h.empty hloose), fun hidle => hnone (h.idle hidle), fun hoff => hnone (h.disabled hoff)⟩
  rcases List.mem_append.mp hb with hold | hold
  · exact List.mem_append_left _ (hbuffers b hold)
  · exact List.mem_append_right _ (hpending b hold)

/-- Once the format is fixed, what is pending has it too. -/
theorem Aligned.getD_format (h : Aligned cfg q) (hfixed : q.Fixed cfg) : q.pendingFormat.getD q.format = q.format := by
  cases hpending : q.pendingFormat with
  | none => rfl
  | some pending => exact h.recorded hfixed pending hpending

theorem Aligned.opens (h : Aligned cfg q) :
    Aligned cfg { q with opened := true, format := q.pendingFormat.getD q.format } := by
  by_cases hfixed : q.Fixed cfg
  · rw [h.getD_format hfixed]
    exact ⟨fun _ => h.fixed hfixed, fun _ => h.recorded hfixed, fun hloose => absurd (.inr rfl) hloose,
      fun hloose => absurd (.inr rfl) hloose, h.idle, h.disabled⟩
  · have hempty := h.empty hfixed
    refine ⟨fun _ b hb => ?_, fun _ pending hpending => ?_, fun hloose => absurd (.inr rfl) hloose, fun _ => hempty, h.idle,
      h.disabled⟩
    · rw [hempty, List.nil_append] at hb
      obtain ⟨format, hformat, hin⟩ := h.loose hfixed b hb
      rw [hformat]
      exact hin
    · rw [show q.pendingFormat = some pending from hpending]
      rfl

/-- The first of what is pending goes to the sink, in the format of what is there. -/
theorem Aligned.submit (h : Aligned cfg q) {b : Buffer} {rest : List Buffer} (hpending : q.pending = b :: rest)
    (hsink : cfg.sinkMode = .mock ∨ (cfg.sinkMode = .waveOut ∧ q.opened = true))
    (hformat : cfg.sinkMode = .mock → ∀ pending, q.pendingFormat = some pending → pending = q.format) :
    Aligned cfg { q with
      pending := rest, buffers := q.buffers ++ [b.submittedAt q.next], next := q.next + b.frameCount, started := true } := by
  have hfixed' : Queue.Fixed cfg { q with
      pending := rest, buffers := q.buffers ++ [b.submittedAt q.next], next := q.next + b.frameCount, started := true } := by
    rcases hsink with hmock | hopened
    · exact .inl ⟨hmock, rfl⟩
    · exact .inr hopened.2
  have hmock (hfixed : ¬ q.Fixed cfg) : cfg.sinkMode = .mock := hsink.resolve_right fun hopened => hfixed (.inr hopened.2)
  have hall : ∀ b' ∈ q.buffers ++ q.pending, InFormat q.format b' := by
    by_cases hfixed : q.Fixed cfg
    · exact h.fixed hfixed
    · rw [h.empty hfixed, List.nil_append]
      intro b' hb'
      obtain ⟨format, hrecorded, hin⟩ := h.loose hfixed b' hb'
      exact hformat (hmock hfixed) format hrecorded ▸ hin
  rw [hpending] at hall
  refine ⟨fun _ b' hb' => ?_, fun _ pending hp => ?_, fun hloose => absurd hfixed' hloose,
    fun hloose => absurd hfixed' hloose, fun hidle => ?_, fun hoff => ?_⟩
  · simp only [List.append_assoc, List.mem_append, List.mem_singleton] at hb'
    rcases hb' with hold | rfl | hrest
    · exact hall b' (List.mem_append_left _ hold)
    · exact (hall b (by simp)).submittedAt q.next
    · exact hall b' (by simp [hrest])
  · by_cases hfixed : q.Fixed cfg
    · exact h.recorded hfixed pending hp
    · exact hformat (hmock hfixed) pending hp
  · cases hidle
  · rcases hsink with hmock | ⟨hwave, -⟩
    · rw [hoff] at hmock
      cases hmock
    · rw [hoff] at hwave
      cases hwave

theorem Aligned.change (h : Aligned cfg q) (hc : Change cfg clearing q q') : Aligned cfg q' := by
  cases hc with
  | record format hfixed hloose =>
    refine ⟨h.fixed, fun hf pending hpending => ?_, fun hl b hb => ?_, h.empty, h.idle, h.disabled⟩
    · cases hpending
      exact (hfixed hf).symm
    · obtain ⟨pending, hpending, hin⟩ := h.loose hl b hb
      exact ⟨format, rfl, hloose hl pending hpending ▸ hin⟩
  | mark f hf =>
    refine ⟨fun hfixed b hb => ?_, h.recorded, h.loose, fun hloose => ?_, fun hidle => ?_, fun hoff => ?_⟩
    · rcases List.mem_append.mp hb with hmarked | hold
      · obtain ⟨b', hb', rfl⟩ := List.mem_map.mp hmarked
        exact (hf b').inFormat (h.fixed hfixed b' (List.mem_append_left _ hb'))
      · exact h.fixed hfixed b (List.mem_append_right _ hold)
    all_goals apply List.map_eq_nil_iff.mpr
    · exact h.empty hloose
    · exact h.idle hidle
    · exact h.disabled hoff
  | reap buffers hsub => exact h.shrink (fun b hb => hsub.subset hb) fun b hb => hb
  | opens hclosed => exact h.opens
  | settle hmock =>
    by_cases hfixed : q.Fixed cfg
    · rw [h.getD_format hfixed]
      exact h
    · exact ⟨fun hf => absurd hf hfixed, fun hf => absurd hf hfixed, h.loose, h.empty, h.idle, h.disabled⟩
  | submit b rest hpending hsink hformat => exact h.submit hpending hsink hformat
  | orphan b rest hpending =>
    refine h.shrink (fun b hb => hb) fun b' hb' => ?_
    rw [hpending]
    exact List.mem_cons_of_mem _ hb'
  | putBack b rest hpending =>
    have hsame : SameAudio b { b with prepared := false } := ⟨rfl, rfl, rfl, rfl, rfl, rfl⟩
    refine ⟨fun hfixed b' hb' => ?_, h.recorded, fun hloose b' hb' => ?_, h.empty, h.idle, h.disabled⟩
    · have hall := h.fixed hfixed
      rw [hpending] at hall
      simp only [List.mem_append, List.mem_cons] at hb'
      rcases hb' with hold | rfl | hrest
      · exact hall b' (List.mem_append_left _ hold)
      · exact hsame.inFormat (hall b (by simp))
      · exact hall b' (by simp [hrest])
    · have hall := h.loose hloose
      rw [hpending] at hall
      rcases List.mem_cons.mp hb' with rfl | hrest
      · obtain ⟨format, hformat, hin⟩ := hall b List.mem_cons_self
        exact ⟨format, hformat, hsame.inFormat hin⟩
      · exact hall b' (List.mem_cons_of_mem _ hrest)
  | flushed hpending =>
    refine ⟨h.fixed, fun _ pending hp => ?_, fun _ b hb => ?_, h.empty, h.idle, h.disabled⟩
    · cases hp
    · rw [show q.pending = [] from hpending] at hb
      cases hb
  | reset buffers hclearing hbuffers =>
    have hempty : buffers = [] := by
      rcases hbuffers with hempty | ⟨rfl, hwave, hclosed⟩
      · exact hempty
      · refine h.empty ?_
        rintro (⟨hmock, -⟩ | hopened)
        · rw [hwave] at hmock
          cases hmock
        · rw [hclosed] at hopened
          cases hopened
    subst hempty
    refine ⟨fun _ b hb => ?_, fun _ pending hp => ?_, fun _ b hb => ?_, fun _ => rfl, fun _ => rfl, fun _ => rfl⟩
    · cases hb
    · cases hp
    · cases hb
  | rewind hclearing hoff => exact ⟨h.fixed, h.recorded, h.loose, h.empty, h.idle, h.disabled⟩

theorem Aligned.push {b : Buffer} (h : Aligned cfg q) (hb : Admits cfg chunk q b) : Aligned cfg (q.push b) := by
  have hin : InFormat chunk.format b := by
    refine ⟨hb.admissible.supported, ?_, ?_, ?_⟩
    · rw [hb.bytes]
      exact hb.admissible.nonempty
    · rw [hb.bytes]
      exact hb.whole
    · rw [hb.bytes]
      exact hb.count
  refine ⟨fun hfixed b' hb' => ?_, h.recorded, fun hloose b' hb' => ?_, h.empty, h.idle, h.disabled⟩
  · have hformat : q.format = chunk.format := hb.fixed hfixed
    simp only [Queue.push, ← List.append_assoc] at hb' ⊢
    rcases List.mem_append.mp hb' with hold | hnew
    · exact h.fixed hfixed b' hold
    · cases List.mem_singleton.mp hnew
      exact hformat ▸ hin
  · have hformat : q.pendingFormat = some chunk.format := hb.loose hloose
    rcases List.mem_append.mp hb' with hold | hnew
    · exact h.loose hloose b' hold
    · cases List.mem_singleton.mp hnew
      exact ⟨chunk.format, hformat, hin⟩

/-! ## The order of the stream -/

def framesIn (buffers : List Buffer) : Nat := (buffers.map (·.frameCount.toNat)).sum

def bytesIn (buffers : List Buffer) : Nat := (buffers.map (·.bytes.length)).sum

/-- The position after the buffer. -/
def Buffer.endFrame (b : Buffer) : Nat := b.startFrame.toNat + b.frameCount.toNat

/-- The positions of `buffers_`, and what is still to come. -/
structure Streamed (q : Queue) : Prop where
  ends : ∀ b ∈ q.buffers, b.endFrame ≤ q.next.toNat
  apart : q.buffers.Pairwise fun b b' => b.endFrame ≤ b'.startFrame.toNat
  frames : q.next.toNat + framesIn q.pending < 2 ^ 64
  bytes : bytesIn q.buffers + bytesIn q.pending < 2 ^ 63

/-- The chunk takes neither the stream past 64 bits nor the queue past the largest vector. -/
structure Room (q : Queue) (chunk : PcmChunk) : Prop where
  frames : q.next.toNat + framesIn q.pending + chunk.bytes.length / pcmFrameBytes chunk.format < 2 ^ 64
  bytes : bytesIn q.buffers + bytesIn q.pending + chunk.bytes.length < 2 ^ 63

/-- There is room for the chunk that the step's call brings. -/
def Roomy (s : St) (e : Ev) : Prop := ∀ chunk, offered s e = some chunk → Room s.queue chunk

/-- No change but a chunk that comes in makes the queue longer. -/
structure Lighter (q q' : Queue) : Prop where
  frames : q'.next.toNat + framesIn q'.pending ≤ q.next.toNat + framesIn q.pending
  bytes : bytesIn q'.buffers + bytesIn q'.pending ≤ bytesIn q.buffers + bytesIn q.pending

theorem framesIn_cons (b : Buffer) (rest : List Buffer) : framesIn (b :: rest) = b.frameCount.toNat + framesIn rest := by
  simp [framesIn]

theorem bytesIn_cons (b : Buffer) (rest : List Buffer) : bytesIn (b :: rest) = b.bytes.length + bytesIn rest := by
  simp [bytesIn]

theorem framesIn_snoc (l : List Buffer) (b : Buffer) : framesIn (l ++ [b]) = framesIn l + b.frameCount.toNat := by
  simp [framesIn]

theorem bytesIn_snoc (l : List Buffer) (b : Buffer) : bytesIn (l ++ [b]) = bytesIn l + b.bytes.length := by
  simp [bytesIn]

theorem bytesIn_map {f : Buffer → Buffer} (hf : ∀ b, SameAudio b (f b)) (l : List Buffer) :
    bytesIn (l.map f) = bytesIn l := by
  induction l with
  | nil => rfl
  | cons b rest ih => rw [List.map_cons, bytesIn_cons, bytesIn_cons, ih, (hf b).bytes]

theorem bytesIn_sublist {l l' : List Buffer} (h : l.Sublist l') : bytesIn l ≤ bytesIn l' := by
  induction h with
  | slnil => exact Nat.le_refl _
  | cons b _ ih =>
    rw [bytesIn_cons]
    omega
  | cons_cons b _ ih =>
    rw [bytesIn_cons, bytesIn_cons]
    omega

theorem SameAudio.endFrame {b b' : Buffer} (h : SameAudio b b') : b'.endFrame = b.endFrame := by
  rw [Buffer.endFrame, h.start, h.count, Buffer.endFrame]

/-- The position of the next submission, without a wrap. -/
theorem Streamed.submitted {b : Buffer} {rest : List Buffer} (h : Streamed q) (hpending : q.pending = b :: rest) :
    (q.next + b.frameCount).toNat = q.next.toNat + b.frameCount.toNat := by
  have hframes := h.frames
  rw [hpending, framesIn_cons] at hframes
  rw [UInt64.toNat_add]
  exact Nat.mod_eq_of_lt (by omega)

/-- A queue that has become no longer stays within its bounds. -/
theorem Streamed.lighter (h : Streamed q) (hl : Lighter q q') (hends : ∀ b ∈ q'.buffers, b.endFrame ≤ q'.next.toNat)
    (hapart : q'.buffers.Pairwise fun b b' => b.endFrame ≤ b'.startFrame.toNat) : Streamed q' :=
  ⟨hends, hapart, Nat.lt_of_le_of_lt hl.frames h.frames, Nat.lt_of_le_of_lt hl.bytes h.bytes⟩

theorem Lighter.refl (q : Queue) : Lighter q q := ⟨Nat.le_refl _, Nat.le_refl _⟩

/-- A change of what is pending, if that does not get longer. -/
theorem Streamed.pending (h : Streamed q) {pending : List Buffer} (hframes : framesIn pending ≤ framesIn q.pending)
    (hbytes : bytesIn pending ≤ bytesIn q.pending) :
    Streamed { q with pending := pending } ∧ Lighter q { q with pending := pending } := by
  have hl : Lighter q { q with pending := pending } :=
    ⟨Nat.add_le_add_left hframes _, Nat.add_le_add_left hbytes _⟩
  exact ⟨h.lighter hl h.ends h.apart, hl⟩

theorem Streamed.submit {b : Buffer} {rest : List Buffer} (h : Streamed q) (hpending : q.pending = b :: rest)
    (hq' : q' = { q with
      pending := rest, buffers := q.buffers ++ [b.submittedAt q.next], next := q.next + b.frameCount, started := true }) :
    Streamed q' ∧ Lighter q q' := by
  have hnext := h.submitted hpending
  have hstop : (b.submittedAt q.next).endFrame = (q.next + b.frameCount).toNat := hnext.symm
  subst hq'
  have hl : Lighter q { q with
      pending := rest, buffers := q.buffers ++ [b.submittedAt q.next], next := q.next + b.frameCount, started := true } := by
    constructor
    · rw [hpending, framesIn_cons]
      dsimp only
      omega
    · dsimp only
      rw [hpending, bytesIn_cons, bytesIn_snoc]
      dsimp only [Buffer.submittedAt]
      omega
  refine ⟨h.lighter hl (fun b' hb' => ?_) ?_, hl⟩
  · rcases List.mem_append.mp hb' with hold | hnew
    · have hle := h.ends b' hold
      dsimp only
      omega
    · rw [List.mem_singleton.mp hnew, hstop]
  · refine List.pairwise_append.mpr ⟨h.apart, List.pairwise_singleton _ _, fun b' hb' new hnew => ?_⟩
    rw [List.mem_singleton.mp hnew]
    exact h.ends b' hb'

theorem Streamed.change (h : Streamed q) (ha : Aligned cfg q) (hc : Change cfg clearing q q') : Streamed q' ∧ Lighter q q' := by
  cases hc with
  | record | opens | settle | flushed => exact ⟨⟨h.ends, h.apart, h.frames, h.bytes⟩, ⟨Nat.le_refl _, Nat.le_refl _⟩⟩
  | mark f hf =>
    have hl : Lighter q { q with buffers := q.buffers.map f } :=
      ⟨Nat.le_refl _, Nat.le_of_eq (by dsimp only; rw [bytesIn_map hf])⟩
    refine ⟨h.lighter hl (fun b hb => ?_) ?_, hl⟩
    · obtain ⟨b', hb', rfl⟩ := List.mem_map.mp hb
      rw [(hf b').endFrame]
      exact h.ends b' hb'
    · refine List.pairwise_map.mpr (h.apart.imp fun {b b'} hle => ?_)
      rw [(hf b).endFrame, (hf b').start]
      exact hle
  | reap buffers hsub =>
    have hl : Lighter q { q with buffers := buffers } := ⟨Nat.le_refl _, Nat.add_le_add_right (bytesIn_sublist hsub) _⟩
    exact ⟨h.lighter hl (fun b hb => h.ends b (hsub.subset hb)) (h.apart.sublist hsub), hl⟩
  | submit b rest hpending hsink hformat => exact h.submit hpending rfl
  | orphan b rest hpending =>
    refine h.pending ?_ ?_
    · rw [hpending, framesIn_cons]
      omega
    · rw [hpending, bytesIn_cons]
      omega
  | putBack b rest hpending =>
    refine h.pending (Nat.le_of_eq ?_) (Nat.le_of_eq ?_)
    · rw [hpending, framesIn_cons, framesIn_cons]
    · rw [hpending, bytesIn_cons, bytesIn_cons]
  | reset buffers hclearing hbuffers =>
    have hempty : buffers = [] := (ha.change (.reset q buffers hclearing hbuffers)).idle rfl
    subst hempty
    refine ⟨⟨fun b hb => ?_, .nil, Nat.two_pow_pos 64, Nat.two_pow_pos 63⟩, ⟨Nat.zero_le _, Nat.zero_le _⟩⟩
    cases hb
  | rewind hclearing hoff =>
    have hempty : q.buffers = [] := ha.disabled hoff
    have hl : Lighter q { q with next := 0 } := ⟨Nat.add_le_add_right (Nat.zero_le _) _, Nat.le_refl _⟩
    refine ⟨h.lighter hl (fun b hb => ?_) h.apart, hl⟩
    rw [show q.buffers = [] from hempty] at hb
    cases hb

theorem Lighter.trans {q₁ q₂ q₃ : Queue} (h : Lighter q₁ q₂) (h' : Lighter q₂ q₃) : Lighter q₁ q₃ :=
  ⟨h'.frames.trans h.frames, h'.bytes.trans h.bytes⟩

theorem Lighter.room (h : Lighter q q') (hroom : Room q chunk) : Room q' chunk := by
  obtain ⟨hframes, hbytes⟩ := h
  obtain ⟨hroomFrames, hroomBytes⟩ := hroom
  constructor <;> omega

/-- Both invariants. -/
structure Steady (cfg : Config) (q : Queue) : Prop where
  aligned : Aligned cfg q
  streamed : Streamed q

theorem Steady.changes (h : Steady cfg q) (hc : Changes cfg clearing q q') : Steady cfg q' ∧ Lighter q q' := by
  induction hc with
  | refl => exact ⟨h, .refl q⟩
  | tail _ hchange ih =>
    obtain ⟨hsteady, hlighter⟩ := ih
    obtain ⟨hstreamed, hone⟩ := hsteady.streamed.change hsteady.aligned hchange
    exact ⟨⟨hsteady.aligned.change hchange, hstreamed⟩, hlighter.trans hone⟩

theorem Steady.push {b : Buffer} (h : Steady cfg q) (hb : Admits cfg chunk q b) (hroom : Room q chunk) :
    Steady cfg (q.push b) := by
  have hcount : b.frameCount.toNat ≤ chunk.bytes.length / pcmFrameBytes chunk.format := by
    rw [hb.count, UInt64.toNat_ofNat']
    exact Nat.mod_le _ _
  refine ⟨h.aligned.push hb, ⟨h.streamed.ends, h.streamed.apart, ?_, ?_⟩⟩
  · have hframes := hroom.frames
    dsimp only [Queue.push]
    rw [framesIn_snoc]
    omega
  · have hbytes := hroom.bytes
    dsimp only [Queue.push]
    rw [bytesIn_snoc, hb.bytes]
    omega

theorem Steady.brings {offer : Option PcmChunk} (h : Steady cfg q) (hroom : ∀ chunk, offer = some chunk → Room q chunk)
    (hb : Brings cfg clearing offer q q') : Steady cfg q' := by
  cases hb with
  | nothing hchanges => exact (h.changes hchanges).1
  | chunk chunk q₁ b hoffer hbefore hadmits hafter =>
    obtain ⟨hsteady, hlighter⟩ := h.changes hbefore
    exact ((hsteady.push hadmits (hlighter.room (hroom chunk hoffer))).changes hafter).1

theorem steady_init (cfg : Config) : Steady cfg init.queue := by
  refine ⟨⟨fun _ b hb => ?_, fun _ pending hp => ?_, fun _ b hb => ?_, fun _ => rfl, fun _ => rfl, fun _ => rfl⟩,
    ⟨fun b hb => ?_, .nil, by decide, by decide⟩⟩
  · cases hb
  · cases hp
  · cases hb
  · cases hb

/-- The invariant of every run that finds room for its chunks. -/
theorem reach_steady (r : Reach (step cfg) Roomy init s) : Steady cfg s.queue :=
  r.inv (I := fun s => Steady cfg s.queue) (steady_init cfg) fun _ _ _ hr hi hroom hs =>
    hi.brings hroom (step_evolves hs (reach_waits hr)).1

/-! ## Where playback stands -/

/-- The first buffer with a frame at or after the cursor. -/
def St.atCursor (s : St) (cursorFrame : UInt64) : Option Buffer := s.buffers.find? (cursorFrame.toNat < ·.endFrame)

/-- That buffer and the frames of it that the cursor has passed. -/
def playoutPlace (cfg : Config) (clock : Clock) (s : St) : Option (Buffer × Nat) :=
  (currentPlayoutCursorFrameLocked cfg clock s).bind fun cursorFrame =>
    (s.atCursor cursorFrame).map fun b => (b, cursorFrame.toNat - b.startFrame.toNat)

theorem length_le_bytesIn {l : List Buffer} {b : Buffer} (h : b ∈ l) : b.bytes.length ≤ bytesIn l := by
  have hle := bytesIn_sublist (List.singleton_sublist.mpr h)
  rwa [bytesIn_cons, bytesIn, List.map_nil, List.sum_nil, Nat.add_zero] at hle

theorem Steady.sized (h : Steady cfg s.queue) : s.Sized := by
  intro b hb
  have hle : b.bytes.length ≤ bytesIn s.queue.buffers := length_le_bytesIn hb
  have hbytes := h.streamed.bytes
  omega

/-- The queue is in the player's format. -/
theorem Steady.inFormat (h : Steady cfg s.queue) : ∀ b ∈ s.buffers, InFormat s.format b := by
  intro b hb
  by_cases hfixed : s.queue.Fixed cfg
  · exact h.aligned.fixed hfixed b (List.mem_append_left _ hb)
  · rw [show s.buffers = [] from h.aligned.empty hfixed] at hb
    cases hb

theorem InFormat.frames {format : AudioFormat} {b : Buffer} (h : InFormat format b) (hsized : b.bytes.length < 2 ^ 64) :
    b.frameCount.toNat = b.bytes.length / pcmFrameBytes format := by
  rw [h.count, UInt64.toNat_ofNat']
  exact Nat.mod_eq_of_lt ((Nat.div_le_self _ _).trans_lt hsized)

theorem InFormat.frames_pos {format : AudioFormat} {b : Buffer} (h : InFormat format b) :
    0 < b.bytes.length / pcmFrameBytes format := by
  have hlength := List.length_pos_iff.mpr h.nonempty
  have hsplit := Nat.div_add_mod b.bytes.length (pcmFrameBytes format)
  rw [h.whole] at hsplit
  refine Nat.pos_of_ne_zero fun hzero => ?_
  rw [hzero, Nat.mul_zero] at hsplit
  omega

section Playout

open QwenTtsBridge.Audio.PlayoutCursor

/-- A buffer in the snapshot. -/
def Buffer.playout (format : AudioFormat) (b : Buffer) (h : b.bytes.length < 2 ^ 64) : PlayoutBuffer :=
  ⟨{ requestId := b.requestId, format := format, bytes := b.bytes }, b.startFrame, h⟩

def playoutOf (format : AudioFormat) (l : List Buffer) (h : ∀ b ∈ l, b.bytes.length < 2 ^ 64) : List PlayoutBuffer :=
  l.pmap (Buffer.playout format) h

theorem playoutBuffers_eq (h : s.Sized) : playoutBuffers s h = playoutOf s.format s.buffers h := rfl

variable {format : AudioFormat} {l : List Buffer}

theorem playout_count {b : Buffer} (h : InFormat format b) (hsized : b.bytes.length < 2 ^ 64) :
    (b.playout format hsized).count (format.channels.toNat * 2) = b.frameCount.toNat := (h.frames hsized).symm

theorem playoutOf_ordered (hsized : ∀ b ∈ l, b.bytes.length < 2 ^ 64) (hformat : ∀ b ∈ l, InFormat format b)
    (hapart : l.Pairwise fun b b' => b.endFrame ≤ b'.startFrame.toNat) (hends : ∀ b ∈ l, b.endFrame < 2 ^ 64) {previousEnd : Nat}
    (hafter : ∀ b ∈ l, previousEnd ≤ b.startFrame.toNat) :
    Audio.PlayoutCursor.Ordered (format.channels.toNat * 2) previousEnd (playoutOf format l hsized) := by
  induction l generalizing previousEnd with
  | nil => trivial
  | cons b rest ih =>
    obtain ⟨hfirst, hrest⟩ := List.pairwise_cons.mp hapart
    have hcount := playout_count (hformat b List.mem_cons_self) (hsized b List.mem_cons_self)
    refine ⟨hafter b List.mem_cons_self, ?_, ?_⟩
    · rw [hcount]
      exact hends b List.mem_cons_self
    · rw [hcount]
      exact ih (fun b' hb' => hsized b' (List.mem_cons_of_mem _ hb')) (fun b' hb' => hformat b' (List.mem_cons_of_mem _ hb'))
        hrest (fun b' hb' => hends b' (List.mem_cons_of_mem _ hb')) hfirst

theorem playoutOf_bytes (hsized : ∀ b ∈ l, b.bytes.length < 2 ^ 64) :
    ((playoutOf format l hsized).map (·.chunk.bytes.length)).sum = bytesIn l := by
  induction l with
  | nil => rfl
  | cons b rest ih =>
    rw [playoutOf, List.pmap_cons, List.map_cons, List.sum_cons, bytesIn_cons, ← ih fun b' hb' => hsized b' (List.mem_cons_of_mem _ hb')]
    rfl

/-- The upcoming buffer of the snapshot is the one at the cursor. -/
theorem playoutOf_upcoming (hsized : ∀ b ∈ l, b.bytes.length < 2 ^ 64) (hformat : ∀ b ∈ l, InFormat format b) (cursor : Nat) :
    (l.find? (cursor < ·.endFrame) = none ∧ upcoming (format.channels.toNat * 2) cursor (playoutOf format l hsized) = none) ∨
    ∃ b, ∃ hb : b.bytes.length < 2 ^ 64, l.find? (cursor < ·.endFrame) = some b ∧
      upcoming (format.channels.toNat * 2) cursor (playoutOf format l hsized) = some (b.playout format hb) := by
  induction l with
  | nil => exact .inl ⟨rfl, rfl⟩
  | cons b rest ih =>
    have hcount := playout_count (hformat b List.mem_cons_self) (hsized b List.mem_cons_self)
    have hahead : (b.playout format (hsized b List.mem_cons_self)).isAhead (format.channels.toNat * 2) cursor =
        decide (cursor < b.endFrame) := by
      rw [PlayoutBuffer.isAhead, hcount]
      rfl
    unfold upcoming playoutOf
    rw [List.pmap_cons]
    by_cases hlt : cursor < b.endFrame
    · rw [List.find?_cons_of_pos (p := fun x : Buffer => decide (cursor < x.endFrame)) (decide_eq_true hlt),
        List.find?_cons_of_pos (by rw [hahead]; exact decide_eq_true hlt)]
      exact .inr ⟨b, hsized b List.mem_cons_self, rfl, rfl⟩
    · rw [List.find?_cons_of_neg (by simpa using hlt), List.find?_cons_of_neg (by rw [hahead]; simpa using hlt)]
      exact ih (fun b' hb' => hsized b' (List.mem_cons_of_mem _ hb')) fun b' hb' => hformat b' (List.mem_cons_of_mem _ hb')

theorem playoutOf_format (hsized : ∀ b ∈ l, b.bytes.length < 2 ^ 64) (hsome : l ≠ []) :
    formatOf (playoutOf format l hsized) = format := by
  cases l with
  | nil => exact absurd rfl hsome
  | cons b rest => rfl

/-- The queue is one that the fade accepts. -/
theorem Steady.accepted (h : Steady cfg s.queue) (hsome : s.buffers ≠ []) :
    Accepted s.format (playoutBuffers s h.sized) := by
  have hformat := h.inFormat
  obtain ⟨b, hb⟩ := List.exists_mem_of_ne_nil _ hsome
  obtain ⟨hsample, hrate, hchannels, -⟩ := (hformat b hb).supported
  have hends : ∀ b ∈ s.buffers, b.endFrame < 2 ^ 64 := fun b hb => (h.streamed.ends b hb).trans_lt s.nextStreamFrame.toNat_lt
  rw [playoutBuffers_eq]
  refine ⟨⟨hsample, hrate, hchannels, fun buffer hbuffer => ?_, ?_⟩, fun buffer hbuffer => ?_, ?_⟩
  · obtain ⟨b', hb', rfl⟩ := List.mem_pmap.mp hbuffer
    exact ⟨by simp [Buffer.playout, Audio.PlayoutCursor.formatsMatch], (hformat b' hb').whole⟩
  · exact playoutOf_ordered h.sized hformat h.streamed.apart hends fun _ _ => Nat.zero_le _
  · obtain ⟨b', hb', rfl⟩ := List.mem_pmap.mp hbuffer
    exact (hformat b' hb').frames_pos
  · have hbytes : bytesIn s.buffers + bytesIn s.pendingBuffers < 2 ^ 63 := h.streamed.bytes
    rw [playoutOf_bytes]
    omega

theorem atCursor_cases (h : Steady cfg s.queue) (cursorFrame : UInt64) :
    (s.atCursor cursorFrame = none ∧
      upcoming (s.format.channels.toNat * 2) cursorFrame.toNat (playoutBuffers s h.sized) = none) ∨
    ∃ b, ∃ hb : b.bytes.length < 2 ^ 64, s.atCursor cursorFrame = some b ∧
      upcoming (s.format.channels.toNat * 2) cursorFrame.toNat (playoutBuffers s h.sized) = some (b.playout s.format hb) :=
  playoutOf_upcoming h.sized h.inFormat cursorFrame.toNat

/-- The tail in every state with the invariant. -/
theorem Steady.tail (h : Steady cfg s.queue) (clock : Clock) {fadeMs : UInt32} (hms : fadeMs ≠ 0) :
    (playoutPlace cfg clock s = none ∧ interruptionTailLocked cfg clock fadeMs s h.sized = .ok none) ∨
    ∃ cursorFrame b chunk, currentPlayoutCursorFrameLocked cfg clock s = some cursorFrame ∧
      s.atCursor cursorFrame = some b ∧ interruptionTailLocked cfg clock fadeMs s h.sized = .ok (some chunk) ∧
      chunk.requestId = b.requestId ∧ FadeOf (playoutBuffers s h.sized) cursorFrame fadeMs chunk := by
  unfold playoutPlace interruptionTailLocked
  by_cases hempty : s.buffers = []
  · have hnowhere : currentPlayoutCursorFrameLocked cfg clock s = none := by
      unfold currentPlayoutCursorFrameLocked
      rw [if_pos (by simp [hempty])]
    rw [hnowhere, if_pos (by simp [hempty])]
    exact .inl ⟨rfl, rfl⟩
  rw [if_neg (by simpa using hempty)]
  cases hcursor : currentPlayoutCursorFrameLocked cfg clock s with
  | none => exact .inl ⟨rfl, rfl⟩
  | some cursorFrame =>
    have haccepted := h.accepted hempty
    have hformat : formatOf (playoutBuffers s h.sized) = s.format := playoutOf_format h.sized hempty
    rw [← hformat] at haccepted
    dsimp only
    rw [Option.bind_some, makePlayoutCursorFade_eq haccepted hms, hformat]
    rcases atCursor_cases h cursorFrame with ⟨hnone, hupcoming⟩ | ⟨b, hb, hsome, hupcoming⟩
    · rw [hnone, hupcoming]
      exact .inl ⟨rfl, rfl⟩
    · rw [hupcoming]
      refine .inr ⟨cursorFrame, b, _, rfl, hsome, rfl, rfl, fadeOf_fadedTail haccepted hms ?_⟩
      rw [hformat]
      exact hupcoming

end Playout

theorem place_of_cursor {cursorFrame : UInt64} {b : Buffer}
    (hcursor : currentPlayoutCursorFrameLocked cfg clock s = some cursorFrame) (hb : s.atCursor cursorFrame = some b) :
    playoutPlace cfg clock s = some (b, cursorFrame.toNat - b.startFrame.toNat) := by
  rw [playoutPlace, hcursor, Option.bind_some, hb]
  rfl

/-- In every reachable state the interruption tail is the audio from the cursor on, faded to
    silence and owned by the request at the cursor; there is one exactly if an unplayed frame
    is left, and the call never throws. -/
theorem interruption_tail (r : Reach (step cfg) Roomy init s) (clock : Clock) (fadeMs : UInt32) :
    ∃ tail, interruptionTailLocked cfg clock fadeMs s (reach_steady r).sized = .ok tail ∧
      (tail = none ↔ fadeMs = 0 ∨ playoutPlace cfg clock s = none) ∧
      ∀ chunk, tail = some chunk → ∃ cursorFrame b,
        currentPlayoutCursorFrameLocked cfg clock s = some cursorFrame ∧ s.atCursor cursorFrame = some b ∧
        chunk.requestId = b.requestId ∧
        Audio.PlayoutCursor.FadeOf (playoutBuffers s (reach_steady r).sized) cursorFrame fadeMs chunk := by
  by_cases hms : fadeMs = 0
  · refine ⟨none, ?_, ⟨fun _ => .inl hms, fun _ => rfl⟩, fun chunk hchunk => by cases hchunk⟩
    unfold interruptionTailLocked
    split
    · rfl
    cases currentPlayoutCursorFrameLocked cfg clock s with
    | none => rfl
    | some cursorFrame =>
      dsimp only [Audio.PlayoutCursor.makePlayoutCursorFade]
      split
      · rfl
      · rw [if_pos hms]
  rcases (reach_steady r).tail clock hms with ⟨hplace, htail⟩ | ⟨cursorFrame, b, chunk, hcursor, hb, htail, hid, hfade⟩
  · exact ⟨none, htail, ⟨fun _ => .inr hplace, fun _ => rfl⟩, fun chunk hchunk => by cases hchunk⟩
  · refine ⟨some chunk, htail, ⟨fun hnone => absurd hnone (Option.some_ne_none chunk), fun hnone => ?_⟩, fun chunk' hchunk => ?_⟩
    · rw [place_of_cursor hcursor hb] at hnone
      rcases hnone with hzero | hnowhere
      · exact absurd hzero hms
      · cases hnowhere
    · cases hchunk
      exact ⟨cursorFrame, b, hcursor, hb, hid, hfade⟩

/-- Two frames of request 7 with the mock sink, the second of them unplayed. -/
def twoFrames : PcmChunk := ⟨7, {}, 10, [100, 0, 8, 0]⟩

def playing : St := commit (enqueue { sinkMode := .mock } {} 1 twoFrames init)

theorem reach_playing : Reach (step { sinkMode := .mock }) Roomy init playing := by
  refine .step (.enqueue 1 twoFrames {}) .init (fun chunk hchunk => ?_) rfl
  cases hchunk
  exact ⟨by decide, by decide⟩

theorem a_playing_chunk_has_a_tail : ∃ chunk,
    interruptionTailLocked { sinkMode := .mock } { elapsed := 1 } 20 playing (reach_steady reach_playing).sized =
      .ok (some chunk) ∧ chunk.requestId = 7 := by
  have hplace : playoutPlace { sinkMode := .mock } { elapsed := 1 } playing ≠ none := by decide
  obtain ⟨tail, htail, hnone, hsome⟩ := interruption_tail reach_playing { elapsed := 1 } 20
  cases tail with
  | none => exact ((hnone.mp rfl).elim (by decide) hplace).elim
  | some chunk =>
    obtain ⟨cursorFrame, b, -, hb, hid, -⟩ := hsome chunk rfl
    have hone : ∀ b ∈ playing.buffers, b.requestId = 7 := by decide
    exact ⟨chunk, htail, hid.trans (hone b (List.mem_of_find?_eq_some hb))⟩

/-! ### The snapshot -/

/-- The loop of the snapshot finds the same buffer. -/
theorem selectBuffer_eq {l : List Buffer} (hends : ∀ b ∈ l, b.endFrame < 2 ^ 64) (cursorFrame : UInt64) :
    (selectBuffer cursorFrame l).map (fun found => (found.1, found.2.toNat)) =
      (l.find? (cursorFrame.toNat < ·.endFrame)).map fun b => (b, cursorFrame.toNat - b.startFrame.toNat) := by
  induction l with
  | nil => rfl
  | cons b rest ih =>
    have hstop : (b.startFrame + b.frameCount).toNat = b.endFrame := by
      rw [UInt64.toNat_add]
      exact Nat.mod_eq_of_lt (hends b List.mem_cons_self)
    have hstart : b.startFrame.toNat ≤ b.endFrame := Nat.le_add_right _ _
    unfold selectBuffer
    by_cases hbefore : cursorFrame < b.startFrame
    · have hlt := UInt64.lt_iff_toNat_lt.mp hbefore
      have hzero : cursorFrame.toNat - b.startFrame.toNat = 0 := by omega
      rw [if_pos hbefore, List.find?_cons_of_pos (p := fun x : Buffer => decide (cursorFrame.toNat < x.endFrame))
        (decide_eq_true (by omega)), Option.map_some, Option.map_some, hzero]
      rfl
    rw [if_neg hbefore]
    have hle := UInt64.le_iff_toNat_le.mp (UInt64.not_lt.mp hbefore)
    by_cases hinside : cursorFrame < b.startFrame + b.frameCount
    · have hlt := UInt64.lt_iff_toNat_lt.mp hinside
      rw [if_pos hinside, List.find?_cons_of_pos (p := fun x : Buffer => decide (cursorFrame.toNat < x.endFrame))
        (decide_eq_true (by omega)), Option.map_some, Option.map_some, UInt64.toNat_sub_of_le _ _ (UInt64.not_lt.mp hbefore)]
    · have hge := UInt64.le_iff_toNat_le.mp (UInt64.not_lt.mp hinside)
      rw [if_neg hinside, List.find?_cons_of_neg (by simp only [decide_eq_true_eq]; omega)]
      exact ih fun b' hb' => hends b' (List.mem_cons_of_mem _ hb')

theorem Steady.selected (h : Steady cfg s.queue) {cursorFrame : UInt64}
    (hcursor : currentPlayoutCursorFrameLocked cfg clock s = some cursorFrame) :
    (selectBuffer cursorFrame s.buffers).map (fun found => (found.1, found.2.toNat)) = playoutPlace cfg clock s := by
  have hends : ∀ b ∈ s.buffers, b.endFrame < 2 ^ 64 := fun b hb => (h.streamed.ends b hb).trans_lt s.nextStreamFrame.toNat_lt
  rw [selectBuffer_eq hends, playoutPlace, hcursor]
  rfl

theorem place_mem {b : Buffer} {n : Nat} (h : playoutPlace cfg clock s = some (b, n)) : b ∈ s.buffers := by
  obtain ⟨cursorFrame, -, hmap⟩ := Option.bind_eq_some_iff.mp h
  obtain ⟨b', hb', heq⟩ := Option.map_eq_some_iff.mp hmap
  have hsame : b' = b := congrArg Prod.fst heq
  rw [← hsame]
  exact List.mem_of_find?_eq_some hb'

theorem started_of_cursor {cursorFrame : UInt64} (hcursor : currentPlayoutCursorFrameLocked cfg clock s = some cursorFrame) :
    s.playbackStarted = true ∧ s.buffers ≠ [] := by
  unfold currentPlayoutCursorFrameLocked at hcursor
  split at hcursor
  · cases hcursor
  · rename_i hnot
    simpa using hnot

/-- The snapshot of a request, in terms of the place of playback. -/
theorem Steady.snapshot (h : Steady cfg s.queue) {requestId : RequestId} (hid : requestId ≠ 0) :
    ((playbackCursorSnapshot cfg clock s.playbackEpoch requestId s).positionAvailable = true ↔
      ∃ b n, playoutPlace cfg clock s = some (b, n) ∧ b.requestId = requestId ∧ b.utteranceFirstSample.toNat + n < 2 ^ 64) ∧
    ((playbackCursorSnapshot cfg clock s.playbackEpoch requestId s).positionAvailable = true →
      ∀ b n, playoutPlace cfg clock s = some (b, n) →
        (playbackCursorSnapshot cfg clock s.playbackEpoch requestId s).utteranceSample.toNat =
          b.utteranceFirstSample.toNat + n) := by
  unfold playbackCursorSnapshot
  dsimp only
  cases hcursor : currentPlayoutCursorFrameLocked cfg clock s with
  | none =>
    have hplace : playoutPlace cfg clock s = none := by
      rw [playoutPlace, hcursor]
      rfl
    rw [hplace]
    split <;> simp
  | some cursorFrame =>
    obtain ⟨hstarted, hsome⟩ := started_of_cursor hcursor
    have hselected := h.selected hcursor
    rw [if_neg (by simp [hid, hstarted, hsome])]
    dsimp only
    cases hfound : selectBuffer cursorFrame s.buffers with
    | none =>
      rw [hfound] at hselected
      rw [← hselected]
      simp
    | some found =>
      obtain ⟨b, offset⟩ := found
      rw [hfound, Option.map_some] at hselected
      have hrate : (s.format.sampleRate != 0) = true := by
        simpa using (h.inFormat b (place_mem hselected.symm)).supported.2.1
      have hroom : b.utteranceFirstSample > 18446744073709551615 - offset ↔
          ¬ b.utteranceFirstSample.toNat + offset.toNat < 2 ^ 64 := by
        have hoffset := offset.toNat_lt
        have hmax : (18446744073709551615 - offset : UInt64).toNat = 18446744073709551615 - offset.toNat :=
          UInt64.toNat_sub_of_le _ _ (UInt64.le_iff_toNat_le.mpr (by simp; omega))
        rw [gt_iff_lt, UInt64.lt_iff_toNat_lt, hmax]
        omega
      rw [← hselected]
      dsimp only
      by_cases hrefused : b.requestId ≠ requestId ∨ b.utteranceFirstSample > 18446744073709551615 - offset
      · rw [if_pos hrefused]
        refine ⟨⟨fun hno => ?_, ?_⟩, fun hno => ?_⟩
        · cases hno
        · rintro ⟨b', n, heq, hrequest, hsmall⟩
          cases heq
          rcases hrefused with hother | hlarge
          · exact absurd hrequest hother
          · exact absurd hsmall (hroom.mp hlarge)
        · cases hno
      · obtain ⟨hrequest, hsmall⟩ := not_or.mp hrefused
        have hsmall : b.utteranceFirstSample.toNat + offset.toNat < 2 ^ 64 := not_not.mp (mt hroom.mpr hsmall)
        rw [if_neg hrefused]
        refine ⟨⟨fun _ => ⟨b, offset.toNat, rfl, not_not.mp hrequest, hsmall⟩, fun _ => hrate⟩, fun _ b' n heq => ?_⟩
        cases heq
        rw [UInt64.toNat_add]
        exact Nat.mod_eq_of_lt hsmall

theorem place_lt (h : Steady cfg s.queue) {b : Buffer} {n : Nat} (hplace : playoutPlace cfg clock s = some (b, n)) :
    n < b.frameCount.toNat := by
  obtain ⟨cursorFrame, -, hmap⟩ := Option.bind_eq_some_iff.mp hplace
  obtain ⟨b', hb', heq⟩ := Option.map_eq_some_iff.mp hmap
  have hsame : b' = b := congrArg Prod.fst heq
  have hn : cursorFrame.toNat - b'.startFrame.toNat = n := congrArg Prod.snd heq
  have hin := h.inFormat b' (List.mem_of_find?_eq_some hb')
  have hpos := hin.frames_pos
  rw [← hin.frames (h.sized b' (List.mem_of_find?_eq_some hb'))] at hpos
  have hlt : cursorFrame.toNat < b'.endFrame := by simpa using List.find?_some hb'
  rw [Buffer.endFrame] at hlt
  rw [← hsame]
  omega

/-- The snapshot of a request is available exactly if the tail is the request's, and then tells
    the utterance position of the tail's first frame. -/
theorem tail_and_snapshot_agree (r : Reach (step cfg) Roomy init s) (clock : Clock) {fadeMs : UInt32} (hms : fadeMs ≠ 0)
    {requestId : RequestId} (hid : requestId ≠ 0)
    (hfits : ∀ b ∈ s.buffers, b.utteranceFirstSample.toNat + b.frameCount.toNat ≤ 2 ^ 64) :
    ((playbackCursorSnapshot cfg clock s.playbackEpoch requestId s).positionAvailable = true ↔
      ∃ chunk, interruptionTailLocked cfg clock fadeMs s (reach_steady r).sized = .ok (some chunk) ∧
        chunk.requestId = requestId) ∧
    ((playbackCursorSnapshot cfg clock s.playbackEpoch requestId s).positionAvailable = true →
      ∃ cursorFrame b n, currentPlayoutCursorFrameLocked cfg clock s = some cursorFrame ∧ b ∈ s.buffers ∧
        (playbackCursorSnapshot cfg clock s.playbackEpoch requestId s).utteranceSample.toNat =
          b.utteranceFirstSample.toNat + n ∧
        (Audio.PlayoutCursor.selected (playoutBuffers s (reach_steady r).sized) s.format cursorFrame fadeMs).head? =
          some (b.startFrame.toNat + n, (b.bytes.drop (n * pcmFrameBytes s.format)).take (pcmFrameBytes s.format))) := by
  have h := reach_steady r
  constructor
  · rw [(h.snapshot hid).1]
    constructor
    · rintro ⟨b, n, hplace, hrequest, -⟩
      rcases h.tail clock hms with ⟨hnone, -⟩ | ⟨cursorFrame, b', chunk, hcursor, hb', htail, hchunk, -⟩
      · rw [hnone] at hplace
        cases hplace
      · rw [place_of_cursor hcursor hb'] at hplace
        cases hplace
        exact ⟨chunk, htail, hchunk.trans hrequest⟩
    · rintro ⟨chunk, htail, hchunk⟩
      rcases h.tail clock hms with ⟨-, hnone⟩ | ⟨cursorFrame, b, chunk', hcursor, hb, htail', hrequest, -⟩
      · rw [hnone] at htail
        cases htail
      · rw [htail'] at htail
        cases htail
        have hplace := place_of_cursor hcursor hb
        have hroom := hfits b (place_mem hplace)
        have hlt := place_lt h hplace
        exact ⟨b, _, hplace, hrequest.symm.trans hchunk, by omega⟩
  · intro havailable
    obtain ⟨b, n, hplace, -⟩ := (h.snapshot hid).1.mp havailable
    have hsample := (h.snapshot hid).2 havailable b n hplace
    obtain ⟨cursorFrame, hcursor, hmap⟩ := Option.bind_eq_some_iff.mp hplace
    obtain ⟨b', hb', heq⟩ := Option.map_eq_some_iff.mp hmap
    cases heq
    have hsome : s.buffers ≠ [] := (started_of_cursor hcursor).2
    refine ⟨cursorFrame, b, _, hcursor, List.mem_of_find?_eq_some hb', hsample, ?_⟩
    rcases atCursor_cases h cursorFrame with ⟨hnone, -⟩ | ⟨b'', hlength, hb'', hupcoming⟩
    · rw [hnone] at hb'
      cases hb'
    · rw [hb'] at hb''
      cases hb''
      exact Audio.PlayoutCursor.selected_head (h.accepted hsome) hms hupcoming

theorem the_tail_begins_at_the_snapshot : ∃ chunk,
    interruptionTailLocked { sinkMode := .mock } { elapsed := 1 } 20 playing (reach_steady reach_playing).sized =
      .ok (some chunk) ∧ chunk.requestId = 7 :=
  (tail_and_snapshot_agree reach_playing { elapsed := 1 } (by decide) (by decide) (by decide)).1.mp (by decide)

end QwenTtsBridge.Playback.WaveOutPlayer
