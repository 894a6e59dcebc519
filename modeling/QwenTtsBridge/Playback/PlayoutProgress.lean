/-
  QwenTtsBridge.Playback.PlayoutProgress — the position reported for a request does not go back
  (`playback/winmm_playback.cpp`).

  `playback_cursor_snapshot` finds the buffer at the cursor anew each time, in a queue from
  which played buffers are gone and to which others have come. Between two snapshots with no
  reset in between, and with a sink whose cursor does not go back, what it finds is the same
  buffer or one that was queued later; buffers of one request are queued in the order of
  their utterance if the chunks come so (`InTurn`, `Onward`).

  - `position_never_goes_back`: the later snapshot of a request tells no earlier sample.
-/

import QwenTtsBridge.Playback.PlayoutPosition

namespace QwenTtsBridge.Playback.WaveOutPlayer

open QwenTtsBridge.Session QwenTtsBridge.Protocol.Control QwenTtsBridge.Lib.Transition

/-! ## Pieces of utterances -/

/-- The samples of an utterance that a buffer holds. -/
structure Piece where
  requestId : RequestId
  first : Nat
  stop : Nat
  deriving DecidableEq, Repr

def Buffer.piece (b : Buffer) : Piece :=
  ⟨b.requestId, b.utteranceFirstSample.toNat, b.utteranceFirstSample.toNat + b.frameCount.toNat⟩

def Queue.pieces (q : Queue) : List Piece := (q.buffers ++ q.pending).map Buffer.piece

def Follows (p p' : Piece) : Prop := p.requestId = p'.requestId → p.stop ≤ p'.first

/-- The pieces of a request are queued in the order of its utterance. -/
def Timed (q : Queue) : Prop := q.pieces.Pairwise Follows

/-- The chunk begins where the audio of its request in this queue ends, or later. -/
def Continues (q : Queue) (chunk : PcmChunk) : Prop :=
  ∀ p ∈ q.pieces, p.requestId = chunk.requestId → p.stop ≤ chunk.firstSample.toNat

instance (q : Queue) (chunk : PcmChunk) : Decidable (Continues q chunk) :=
  inferInstanceAs (Decidable (∀ p ∈ q.pieces, _))

def InTurn (s : St) (e : Ev) : Prop := Roomy s e ∧ ∀ chunk, offered s e = some chunk → Continues s.queue chunk

/-- No stretch of a reset, and chunks that continue what was queued in `s₀`. -/
def Onward (s₀ s : St) (e : Ev) : Prop :=
  Roomy s e ∧ clears s e = false ∧ ∀ chunk, offered s e = some chunk → Continues s₀.queue chunk

variable {cfg : Config} {clearing : Bool} {clock clock' : Clock} {chunk : PcmChunk} {s s' : St} {q q' : Queue}

theorem SameAudio.piece {b b' : Buffer} (h : SameAudio b b') : b'.piece = b.piece := by
  unfold Buffer.piece
  rw [h.requestId, h.first, h.count]

/-- No change brings a piece. -/
theorem Change.pieces (hc : Change cfg clearing q q') : q'.pieces.Sublist q.pieces := by
  cases hc with
  | record | opens | settle | flushed | rewind => exact .refl _
  | mark f hf =>
    have hsame : (q.buffers.map f).map Buffer.piece = q.buffers.map Buffer.piece := by
      rw [List.map_map]
      exact List.map_congr_left fun b _ => (hf b).piece
    unfold Queue.pieces
    rw [List.map_append, List.map_append, hsame]
  | reap buffers hsub => exact (hsub.append_right q.pending).map _
  | submit b rest hpending =>
    have hsame : (b.submittedAt q.next).piece = b.piece := rfl
    unfold Queue.pieces
    rw [hpending]
    simp only [List.map_append, List.map_cons, List.append_assoc, List.singleton_append, hsame]
    exact .refl _
  | orphan b rest hpending =>
    unfold Queue.pieces
    rw [hpending]
    exact ((List.sublist_cons_self b rest).append_left q.buffers).map _
  | putBack b rest hpending =>
    have hsame : Buffer.piece { b with prepared := false } = b.piece := rfl
    unfold Queue.pieces
    rw [hpending]
    simp only [List.map_append, List.map_cons, hsame]
    exact .refl _
  | reset buffers hclearing hbuffers =>
    unfold Queue.pieces
    rw [List.append_nil]
    rcases hbuffers with rfl | ⟨rfl, -, -⟩
    · exact List.nil_sublist _
    · exact (List.sublist_append_left _ _).map _

theorem Changes.pieces (hc : Changes cfg clearing q q') : q'.pieces.Sublist q.pieces := by
  induction hc with
  | refl => exact .refl _
  | tail _ hchange ih => exact hchange.pieces.trans ih

theorem Queue.pieces_push (q : Queue) (b : Buffer) : (q.push b).pieces = q.pieces ++ [b.piece] := by
  unfold Queue.pieces Queue.push
  simp

theorem Timed.brings {offer : Option PcmChunk} (h : Timed q) (hoffer : ∀ chunk, offer = some chunk → Continues q chunk)
    (hb : Brings cfg clearing offer q q') : Timed q' := by
  cases hb with
  | nothing hchanges => exact h.sublist (Changes.pieces hchanges)
  | chunk chunk q₁ b hchunk hbefore hadmits hafter =>
    have hsub := Changes.pieces hbefore
    have hpushed : Timed (q₁.push b) := by
      unfold Timed
      rw [Queue.pieces_push]
      refine List.pairwise_append.mpr ⟨h.sublist hsub, List.pairwise_singleton _ _, fun p hp p' hp' hsame => ?_⟩
      cases List.mem_singleton.mp hp'
      have hstop := hoffer chunk hchunk p (hsub.subset hp) (hsame.trans hadmits.requestId)
      rwa [← hadmits.first] at hstop
    exact hpushed.sublist (Changes.pieces hafter)

theorem timed_init : Timed init.queue := .nil

theorem reach_timed (r : Reach (step cfg) InTurn init s) : Timed s.queue :=
  r.inv (I := fun s => Timed s.queue) timed_init fun _ _ _ hr hi hok hs => hi.brings hok.2 (step_evolves hs (reach_waits hr)).1

/-! ## From one snapshot to the next -/

/-- From position `c` on, the audio of the request is at sample `u` or later. -/
structure Later (requestId : RequestId) (c u : Nat) (q : Queue) : Prop where
  buffers : ∀ b ∈ q.buffers, b.requestId = requestId → c < b.endFrame →
    u ≤ b.utteranceFirstSample.toNat + (c - b.startFrame.toNat)
  pending : ∀ b ∈ q.pending, b.requestId = requestId → u ≤ b.utteranceFirstSample.toNat

variable {requestId : RequestId} {c u : Nat}

theorem Later.change (h : Later requestId c u q) (hc : Change cfg false q q') : Later requestId c u q' := by
  cases hc with
  | record | opens | settle | flushed => exact ⟨h.buffers, h.pending⟩
  | mark f hf =>
    refine ⟨fun b hb hid hlt => ?_, h.pending⟩
    obtain ⟨b', hb', rfl⟩ := List.mem_map.mp hb
    have hsame := hf b'
    rw [hsame.endFrame] at hlt
    rw [hsame.first, hsame.start]
    exact h.buffers b' hb' (hsame.requestId.symm.trans hid) hlt
  | reap buffers hsub => exact ⟨fun b hb => h.buffers b (hsub.subset hb), h.pending⟩
  | submit b rest hpending =>
    have hall := h.pending
    rw [hpending] at hall
    refine ⟨fun b' hb' hid _ => ?_, fun b' hb' => hall b' (List.mem_cons_of_mem _ hb')⟩
    rcases List.mem_append.mp hb' with hold | hnew
    · exact h.buffers b' hold hid ‹_›
    · cases List.mem_singleton.mp hnew
      exact (hall b List.mem_cons_self hid).trans (Nat.le_add_right _ _)
  | orphan b rest hpending =>
    have hall := h.pending
    rw [hpending] at hall
    exact ⟨h.buffers, fun b' hb' => hall b' (List.mem_cons_of_mem _ hb')⟩
  | putBack b rest hpending =>
    have hall := h.pending
    rw [hpending] at hall
    refine ⟨h.buffers, fun b' hb' hid => ?_⟩
    rcases List.mem_cons.mp hb' with rfl | hrest
    · exact hall b List.mem_cons_self hid
    · exact hall b' (List.mem_cons_of_mem _ hrest) hid
  | reset buffers hclearing => cases hclearing
  | rewind hclearing => cases hclearing

theorem Later.changes (h : Later requestId c u q) (hc : Changes cfg false q q') : Later requestId c u q' := by
  induction hc with
  | refl => exact h
  | tail _ hchange ih => exact ih.change hchange

theorem Later.brings {offer : Option PcmChunk} (h : Later requestId c u q)
    (hoffer : ∀ chunk, offer = some chunk → chunk.requestId = requestId → u ≤ chunk.firstSample.toNat)
    (hb : Brings cfg false offer q q') : Later requestId c u q' := by
  cases hb with
  | nothing hchanges => exact h.changes hchanges
  | chunk chunk q₁ b hchunk hbefore hadmits hafter =>
    have h₁ := h.changes hbefore
    have hpushed : Later requestId c u (q₁.push b) := by
      refine ⟨h₁.buffers, fun b' hb' hid => ?_⟩
      rcases List.mem_append.mp hb' with hold | hnew
      · exact h₁.pending b' hold hid
      · cases List.mem_singleton.mp hnew
        rw [hadmits.first]
        exact hoffer chunk hchunk (hadmits.requestId.symm.trans hid)
    exact hpushed.changes hafter

theorem Buffer.mem_pieces {b : Buffer} (hb : b ∈ q.buffers ++ q.pending) : b.piece ∈ q.pieces :=
  List.mem_map.mpr ⟨b, hb, rfl⟩

/-- Where a snapshot stands, everything of the request that is left is at its sample or later. -/
theorem later_of_place (h : Steady cfg s.queue) (ht : Timed s.queue) {cursorFrame : UInt64} {b : Buffer}
    (hb : s.atCursor cursorFrame = some b) :
    Later b.requestId cursorFrame.toNat (b.utteranceFirstSample.toNat + (cursorFrame.toNat - b.startFrame.toNat)) s.queue := by
  obtain ⟨hlt, before, after, hbuffers, hbefore⟩ := List.find?_eq_some_iff_append.mp hb
  have hlt : cursorFrame.toNat < b.endFrame := by simpa using hlt
  have hin := h.inFormat b (List.mem_of_find?_eq_some hb)
  have hcount := hin.frames_pos
  rw [← hin.frames (h.sized b (List.mem_of_find?_eq_some hb))] at hcount
  have hpassed : cursorFrame.toNat - b.startFrame.toNat < b.frameCount.toNat := by
    rw [Buffer.endFrame] at hlt
    omega
  have hapart : (before ++ b :: after).Pairwise fun b b' => b.endFrame ≤ b'.startFrame.toNat := hbuffers ▸ h.streamed.apart
  have hrest := (List.pairwise_cons.mp (List.pairwise_append.mp hapart).2.1).1
  -- What comes after the buffer in the queues comes after it in the utterance.
  have hfollow : ∀ b' ∈ after ++ s.pendingBuffers, b.requestId = b'.requestId →
      b.utteranceFirstSample.toNat + b.frameCount.toNat ≤ b'.utteranceFirstSample.toNat := by
    have htimed : ((before ++ b :: after) ++ s.pendingBuffers).map Buffer.piece |>.Pairwise Follows := hbuffers ▸ ht
    rw [List.append_assoc, List.cons_append, List.map_append, List.map_cons] at htimed
    intro b' hb'
    exact (List.pairwise_cons.mp (List.pairwise_append.mp htimed).2.1).1 b'.piece (List.mem_map.mpr ⟨b', hb', rfl⟩)
  refine ⟨fun b' hb' hid hlt' => ?_, fun b' hb' hid => ?_⟩
  · have hb'' : b' ∈ before ++ b :: after := hbuffers ▸ hb'
    rcases List.mem_append.mp hb'' with hearlier | hlater
    · exact absurd hlt' (by simpa using hbefore b' hearlier)
    rcases List.mem_cons.mp hlater with rfl | hlater
    · exact Nat.le_refl _
    · have hstart := hrest b' hlater
      have hfirst := hfollow b' (List.mem_append_left _ hlater) hid.symm
      omega
  · have hfirst := hfollow b' (List.mem_append_right _ hb') hid.symm
    omega

/-- What every run without a reset keeps from the first snapshot on. -/
structure Watched (cfg : Config) (requestId : RequestId) (c u : Nat) (s : St) : Prop where
  waits : Waits cfg s
  steady : Steady cfg s.queue
  later : Later requestId c u s.queue

theorem Watched.step {s₀ : St} {e : Ev} (h : Watched cfg requestId c u s) (hok : Onward s₀ s e)
    (hchunk : ∀ chunk, Continues s₀.queue chunk → chunk.requestId = requestId → u ≤ chunk.firstSample.toNat)
    (hs : step cfg s e = some s') : Watched cfg requestId c u s' := by
  obtain ⟨hroomy, hclears, hcontinues⟩ := hok
  obtain ⟨hbrings, hwaits⟩ := step_evolves hs h.waits
  refine ⟨hwaits, h.steady.brings hroomy hbrings, h.later.brings (fun chunk hoffer => hchunk chunk ?_) (hclears ▸ hbrings)⟩
  exact hcontinues chunk hoffer

/-- Between two snapshots of a request, with no reset between and a cursor that does not go
    back, the reported sample does not go back. -/
theorem position_never_goes_back (r : Reach (step cfg) InTurn init s) (r' : Reach (step cfg) (Onward s) s s')
    (hid : requestId ≠ 0)
    (hcursor : ∀ cursorFrame cursorFrame', currentPlayoutCursorFrameLocked cfg clock s = some cursorFrame →
      currentPlayoutCursorFrameLocked cfg clock' s' = some cursorFrame' → cursorFrame ≤ cursorFrame')
    (havailable : (playbackCursorSnapshot cfg clock s.playbackEpoch requestId s).positionAvailable = true)
    (havailable' : (playbackCursorSnapshot cfg clock' s'.playbackEpoch requestId s').positionAvailable = true) :
    (playbackCursorSnapshot cfg clock s.playbackEpoch requestId s).utteranceSample ≤
      (playbackCursorSnapshot cfg clock' s'.playbackEpoch requestId s').utteranceSample := by
  have hsteady : Steady cfg s.queue := reach_steady (r.mono fun _ _ hok => hok.1)
  obtain ⟨b, n, hplace, hrequest, -⟩ := (hsteady.snapshot hid).1.mp havailable
  have hsample := (hsteady.snapshot hid).2 havailable b n hplace
  obtain ⟨cursorFrame, hat, hmap⟩ := Option.bind_eq_some_iff.mp hplace
  obtain ⟨b₀, hb, heq⟩ := Option.map_eq_some_iff.mp hmap
  cases heq
  have hlater := later_of_place hsteady (reach_timed r) hb
  rw [hrequest] at hlater
  have hmem : b ∈ s.buffers := List.mem_of_find?_eq_some hb
  have hpassed := place_lt hsteady hplace
  have hchunk : ∀ chunk, Continues s.queue chunk → chunk.requestId = requestId →
      b.utteranceFirstSample.toNat + (cursorFrame.toNat - b.startFrame.toNat) ≤ chunk.firstSample.toNat := by
    intro chunk hcontinues hsame
    have hstop := hcontinues b.piece (Buffer.mem_pieces (List.mem_append_left _ hmem)) (hrequest.trans hsame.symm)
    rw [Buffer.piece] at hstop
    dsimp only at hstop
    omega
  have hwatched : Watched cfg requestId cursorFrame.toNat
      (b.utteranceFirstSample.toNat + (cursorFrame.toNat - b.startFrame.toNat)) s' :=
    r'.inv ⟨reach_waits r, hsteady, hlater⟩ fun _ _ _ _ hi hok hs => hi.step hok hchunk hs
  obtain ⟨b', n', hplace', hrequest', -⟩ := (hwatched.steady.snapshot hid).1.mp havailable'
  have hsample' := (hwatched.steady.snapshot hid).2 havailable' b' n' hplace'
  obtain ⟨cursorFrame', hat', hmap'⟩ := Option.bind_eq_some_iff.mp hplace'
  obtain ⟨b₁, hb', heq'⟩ := Option.map_eq_some_iff.mp hmap'
  cases heq'
  have hforward := UInt64.le_iff_toNat_le.mp (hcursor cursorFrame cursorFrame' hat hat')
  have hlt : cursorFrame'.toNat < b'.endFrame := by simpa using List.find?_some hb'
  have hkept := hwatched.later.buffers b' (List.mem_of_find?_eq_some hb') hrequest' (by omega)
  rw [UInt64.le_iff_toNat_le, hsample, hsample']
  omega

/-- The next frame of the utterance. -/
def nextFrame : PcmChunk := ⟨7, {}, 12, [9, 0]⟩

/-- The first chunk has been played and the second one is at the cursor. -/
theorem a_second_chunk_is_later :
    let cfg : Config := { sinkMode := .mock }
    let queued := commit (enqueue cfg {} 1 nextFrame playing)
    let moved := { queued with buffers := queued.buffers.map (Buffer.play 0) }
    (playbackCursorSnapshot cfg { elapsed := 1 } 1 7 playing).utteranceSample = 11 ∧
      (playbackCursorSnapshot cfg {} 1 7 playing).utteranceSample ≤
        (playbackCursorSnapshot cfg {} 1 7 moved).utteranceSample := by
  refine ⟨by decide, ?_⟩
  have hfirst : Reach (step { sinkMode := .mock }) InTurn init playing := by
    refine .step (.enqueue 1 twoFrames {}) .init ⟨fun chunk hchunk => ?_, fun chunk hchunk => ?_⟩ rfl
    · cases hchunk
      exact ⟨by decide, by decide⟩
    · cases hchunk
      exact by decide
  refine position_never_goes_back hfirst (.step (.played 0) (.step (.enqueue 1 nextFrame {}) .init ⟨?_, rfl, ?_⟩ rfl)
    ⟨fun chunk hchunk => ?_, rfl, fun chunk hchunk => ?_⟩ rfl) (by decide) ?_ (by decide) (by decide)
  · intro chunk hchunk
    cases hchunk
    exact ⟨by decide, by decide⟩
  · intro chunk hchunk
    cases hchunk
    exact by decide
  · cases hchunk
  · cases hchunk
  · intro cursorFrame cursorFrame' hcursor hcursor'
    have hzero : cursorFrame = 0 := Option.some_inj.mp (hcursor.symm.trans (by decide))
    rw [hzero]
    exact UInt64.zero_le

end QwenTtsBridge.Playback.WaveOutPlayer
