/-
  QwenTtsBridge.Playback.ReceiptProbe — the playback receipt probe
  (`playback/playback_receipt.cpp`).

  The probe follows one request at a time: it takes the PCM chunks of the request if they go
  on from sample 0 without a gap, and a bounded history of cues if each goes on where the one
  before it ends. `begin` and `invalidate` start over. A call that throws changes nothing.

  `St` is the probe with the chunks and cues that it has accepted since it last started over;
  the probe itself keeps counters of the chunks only. Integers have the width that they have
  in the source, so a sum that wraps would show.

  - `receipt_is_exact`: after any calls the accepted chunks lie end to end from sample 0 to
    `pcm_sample_count`, the accepted cues lie end to end, the counters are exact, an accepted
    `mark_terminal` closes the receipt until the epoch moves, the epoch does not decrease, and
    `select` finds the one cue that contains the cursor.
  - `rejection_is_harmless_iff`: a call that is not accepted changes only diagnostic flags,
    and no later status, unless it is the chunk that sets the sample rate before it turns out
    not to start at sample 0.
-/

import QwenTtsBridge.Session.Event
import QwenTtsBridge.Lib.Tiling

namespace QwenTtsBridge.Playback.ReceiptProbe

open QwenTtsBridge.Session QwenTtsBridge.Lib

/-! ## Data -/

inductive Status where
  | accepted
  | staleEpoch
  | staleRequest
  | invalidRange
  | invalidSampleRate
  | sampleRateMismatch
  | discontinuousPcm
  | discontinuousCue
  | cueHistoryFull
  | alreadyTerminal
  deriving DecidableEq, Repr

/-- The bytes of a chunk are not read. -/
structure PcmChunk where
  requestId : RequestId
  sampleRate : UInt32
  firstSample : UInt64
  sampleCount : UInt32
  deriving DecidableEq, Repr

/-- The floats are given as their bits. -/
structure Cue where
  playbackEpoch : UInt64
  requestId : RequestId
  firstSample : UInt64
  sampleCount : UInt32
  mouthOpen : UInt32
  activity : UInt32
  deriving DecidableEq, Repr

def isfinite (bits : UInt32) : Bool := bits.toNat / 2 ^ 23 % 256 != 255

structure CursorSnapshot where
  playbackEpoch : UInt64
  requestId : RequestId
  utteranceSample : UInt64
  sampleRate : UInt32
  positionAvailable : Bool
  deriving DecidableEq, Repr

/-- `PlaybackCueSelection` without what it repeats of the snapshot. -/
inductive Selection where
  | selected (cue : Cue)
  | cursorUnavailable
  | staleEpoch
  | staleRequest
  | sampleRateMismatch
  | outsideCueTimeline
  deriving DecidableEq, Repr

structure Receipt where
  playbackEpoch : UInt64 := 0
  requestId : RequestId := 0
  pcmChunkCount : UInt64 := 0
  pcmSampleCount : UInt64 := 0
  cueCount : UInt64 := 0
  cueSampleCount : UInt64 := 0
  sampleRate : UInt32 := 0
  pcmContiguous : Bool := true
  cueContiguous : Bool := true
  cueHistoryOverflow : Bool := false
  terminal : Bool := false
  deriving DecidableEq, Repr

inductive Lifecycle where
  | uninitialized
  | active
  | invalidated
  deriving DecidableEq, Repr

structure Probe where
  maxCues : UInt64
  lifecycle : Lifecycle := .uninitialized
  playbackEpoch : UInt64 := 0
  requestId : RequestId := 0
  nextPcmSample : UInt64 := 0
  nextCueSample : UInt64 := 0
  pcmStarted : Bool := false
  cueStarted : Bool := false
  receipt : Receipt := {}
  cues : List Cue := []
  deriving DecidableEq, Repr

/-! ## Operations -/

/-- `std::numeric_limits<std::uint64_t>::max()`. -/
def uint64Max : UInt64 := 0xFFFFFFFFFFFFFFFF

/-- `range_end`; `none`: it returns false. -/
def rangeEnd (firstSample : UInt64) (sampleCount : UInt32) : Option UInt64 :=
  if sampleCount = 0 ∨ firstSample > uint64Max - sampleCount.toUInt64 then none
  else some (firstSample + sampleCount.toUInt64)

/-- What `begin` and `invalidate` set alike. -/
def Probe.startOver (p : Probe) (lifecycle : Lifecycle) (playbackEpoch : UInt64) (requestId : RequestId) : Probe :=
  { maxCues := p.maxCues, lifecycle, playbackEpoch, requestId, receipt := { playbackEpoch, requestId } }

/-- `none`: it throws. -/
def Probe.begin (p : Probe) (playbackEpoch : UInt64) (requestId : RequestId) : Option Probe :=
  if playbackEpoch = 0 ∨ requestId = 0 then none
  else
    let replacementEpochClaim := p.lifecycle = .invalidated ∧ playbackEpoch = p.playbackEpoch
    if ¬ replacementEpochClaim ∧ playbackEpoch ≤ p.playbackEpoch then none
    -- one of the two holds here
    else if replacementEpochClaim ∨ playbackEpoch > p.playbackEpoch then
      some (p.startOver .active playbackEpoch requestId)
    else some (p.startOver p.lifecycle playbackEpoch requestId)

/-- `none`: it throws. -/
def Probe.invalidate (p : Probe) (playbackEpoch : UInt64) : Option Probe :=
  if playbackEpoch = 0 then none
  else if playbackEpoch ≤ p.playbackEpoch then none
  else some (p.startOver .invalidated playbackEpoch 0)

/-- The first rate is that of the run. -/
def Probe.latchRate (p : Probe) (sampleRate : UInt32) : Probe :=
  if p.receipt.sampleRate = 0 then { p with receipt := { p.receipt with sampleRate } } else p

/-- The end of `observe_pcm`, where the chunk has to go on from the ones before it. -/
def Probe.takePcm (p : Probe) (chunk : PcmChunk) (endSample : UInt64) : Status × Probe :=
  if p.pcmStarted ∧ chunk.firstSample ≠ p.nextPcmSample then
    (.discontinuousPcm, { p with receipt := { p.receipt with pcmContiguous := false } })
  else if ¬ p.pcmStarted ∧ chunk.firstSample ≠ 0 then
    (.discontinuousPcm, { p with receipt := { p.receipt with pcmContiguous := false } })
  else
    (.accepted, { p with
      pcmStarted := true
      nextPcmSample := endSample
      receipt := { p.receipt with
        pcmChunkCount := p.receipt.pcmChunkCount + 1
        pcmSampleCount := endSample } })

def Probe.observePcm (p : Probe) (playbackEpoch : UInt64) (chunk : PcmChunk) : Status × Probe :=
  if playbackEpoch ≠ p.playbackEpoch then (.staleEpoch, p)
  else if p.requestId = 0 ∨ chunk.requestId ≠ p.requestId then (.staleRequest, p)
  else if p.receipt.terminal then (.alreadyTerminal, p)
  else if chunk.sampleCount = 0 then (.invalidRange, p)
  else if chunk.sampleRate = 0 then (.invalidSampleRate, p)
  else if p.receipt.sampleRate ≠ 0 ∧ p.receipt.sampleRate ≠ chunk.sampleRate then (.sampleRateMismatch, p)
  else
    match rangeEnd chunk.firstSample chunk.sampleCount with
    | none => (.invalidRange, p)
    | some endSample => (p.latchRate chunk.sampleRate).takePcm chunk endSample

def Probe.appendCue (p : Probe) (cue : Cue) : Status × Probe :=
  if cue.playbackEpoch ≠ p.playbackEpoch then (.staleEpoch, p)
  else if p.requestId = 0 ∨ cue.requestId ≠ p.requestId then (.staleRequest, p)
  else if p.receipt.terminal then (.alreadyTerminal, p)
  else if cue.sampleCount = 0 then (.invalidRange, p)
  else if ¬ isfinite cue.mouthOpen ∨ ¬ isfinite cue.activity then (.invalidRange, p)
  else
    match rangeEnd cue.firstSample cue.sampleCount with
    | none => (.invalidRange, p)
    | some endSample =>
      if p.cueStarted ∧ cue.firstSample ≠ p.nextCueSample then
        (.discontinuousCue, { p with receipt := { p.receipt with cueContiguous := false } })
      else if p.maxCues.toNat ≤ p.cues.length then
        (.cueHistoryFull, { p with receipt := { p.receipt with cueHistoryOverflow := true } })
      else if p.receipt.cueSampleCount > uint64Max - cue.sampleCount.toUInt64 then (.invalidRange, p)
      else
        (.accepted, { p with
          cueStarted := true
          nextCueSample := endSample
          cues := p.cues ++ [cue]
          receipt := { p.receipt with
            cueCount := p.receipt.cueCount + 1
            cueSampleCount := p.receipt.cueSampleCount + cue.sampleCount.toUInt64 } })

/-- The loop of `select`. -/
def findCue (sample : UInt64) : List Cue → Option Cue
  | [] => none
  | cue :: cues =>
    match rangeEnd cue.firstSample cue.sampleCount with
    | none => findCue sample cues
    | some endSample =>
      if cue.firstSample ≤ sample ∧ sample < endSample then some cue else findCue sample cues

def Probe.select (p : Probe) (snapshot : CursorSnapshot) : Selection :=
  if snapshot.playbackEpoch ≠ p.playbackEpoch then .staleEpoch
  else if p.requestId = 0 ∨ snapshot.requestId ≠ p.requestId then .staleRequest
  else if ¬ snapshot.positionAvailable then .cursorUnavailable
  else if p.receipt.sampleRate = 0 ∨ snapshot.sampleRate ≠ p.receipt.sampleRate then .sampleRateMismatch
  else
    match findCue snapshot.utteranceSample p.cues with
    | some cue => .selected cue
    | none => .outsideCueTimeline

def Probe.markTerminal (p : Probe) (playbackEpoch : UInt64) (requestId : RequestId) : Bool × Probe :=
  if playbackEpoch ≠ p.playbackEpoch ∨ p.requestId = 0 ∨ requestId ≠ p.requestId ∨ p.receipt.terminal then (false, p)
  else (true, { p with receipt := { p.receipt with terminal := true } })

/-! ## Runs -/

inductive Call where
  | begin (playbackEpoch : UInt64) (requestId : RequestId)
  | invalidate (playbackEpoch : UInt64)
  | observePcm (playbackEpoch : UInt64) (chunk : PcmChunk)
  | appendCue (cue : Cue)
  | markTerminal (playbackEpoch : UInt64) (requestId : RequestId)
  deriving DecidableEq, Repr

/-- The probe, and what it has accepted since it last started over. -/
structure St where
  probe : Probe
  pcm : List PcmChunk := []
  cues : List Cue := []
  deriving DecidableEq, Repr

/-- A new probe. The constructor throws for a history of no cues. -/
def initial (maxCues : UInt64) : St := { probe := { maxCues } }

def step (s : St) : Call → St
  | .begin playbackEpoch requestId =>
    match s.probe.begin playbackEpoch requestId with
    | none => s
    | some probe => { probe }
  | .invalidate playbackEpoch =>
    match s.probe.invalidate playbackEpoch with
    | none => s
    | some probe => { probe }
  | .observePcm playbackEpoch chunk =>
    match s.probe.observePcm playbackEpoch chunk with
    | (.accepted, probe) => { s with probe, pcm := s.pcm ++ [chunk] }
    | (_, probe) => { s with probe }
  | .appendCue cue =>
    match s.probe.appendCue cue with
    | (.accepted, probe) => { s with probe, cues := s.cues ++ [cue] }
    | (_, probe) => { s with probe }
  | .markTerminal playbackEpoch requestId => { s with probe := (s.probe.markTerminal playbackEpoch requestId).2 }

def run (s : St) (calls : List Call) : St := calls.foldl step s

/-! ## What the operations do -/

variable {p : Probe} {s : St}

theorem rangeEnd_some {firstSample endSample : UInt64} {sampleCount : UInt32}
    (h : rangeEnd firstSample sampleCount = some endSample) :
    0 < sampleCount.toNat ∧ firstSample.toNat + sampleCount.toNat < 2 ^ 64 ∧
      endSample.toNat = firstSample.toNat + sampleCount.toNat := by
  unfold rangeEnd at h
  split at h
  · cases h
  · rename_i hcond
    cases h
    simp only [not_or, gt_iff_lt, UInt64.lt_iff_toNat_lt, not_lt] at hcond
    obtain ⟨hne, hle⟩ := hcond
    have hcount := sampleCount.toNat_lt
    have hpos : 0 < sampleCount.toNat := by
      apply Nat.pos_of_ne_zero
      intro h0
      exact hne (UInt32.toNat_inj.mp h0)
    rw [UInt64.toNat_sub_of_le, UInt32.toNat_toUInt64] at hle
    · have hmax : uint64Max.toNat = 2 ^ 64 - 1 := rfl
      rw [hmax] at hle
      refine ⟨hpos, by omega, ?_⟩
      rw [UInt64.toNat_add, UInt32.toNat_toUInt64, Nat.mod_eq_of_lt (by omega)]
    · rw [UInt64.le_iff_toNat_le, UInt32.toNat_toUInt64]
      have hmax : uint64Max.toNat = 2 ^ 64 - 1 := rfl
      omega

theorem rangeEnd_of_fits {firstSample : UInt64} {sampleCount : UInt32} (hpos : 0 < sampleCount.toNat)
    (hfits : firstSample.toNat + sampleCount.toNat < 2 ^ 64) : ∃ endSample, rangeEnd firstSample sampleCount = some endSample := by
  have hmax : uint64Max.toNat = 2 ^ 64 - 1 := rfl
  have hcount := sampleCount.toNat_lt
  unfold rangeEnd
  rw [if_neg]
  · exact ⟨_, rfl⟩
  · rintro (h0 | hlt)
    · rw [h0] at hpos
      exact absurd hpos (by decide)
    · rw [gt_iff_lt, UInt64.lt_iff_toNat_lt, UInt64.toNat_sub_of_le, UInt32.toNat_toUInt64, hmax] at hlt
      · omega
      · rw [UInt64.le_iff_toNat_le, UInt32.toNat_toUInt64, hmax]
        omega

/-- The rate of the receipt is all that changes. -/
theorem latchRate_eq (p : Probe) (sampleRate : UInt32) :
    p.latchRate sampleRate = { p with
      receipt := { p.receipt with
        sampleRate := if p.receipt.sampleRate = 0 then sampleRate else p.receipt.sampleRate } } := by
  unfold Probe.latchRate
  by_cases h : p.receipt.sampleRate = 0
  · rw [if_pos h, if_pos h]
  · rw [if_neg h, if_neg h]

/-- A chunk that passes every check but that of its position. -/
structure Checked (p : Probe) (playbackEpoch : UInt64) (chunk : PcmChunk) : Prop where
  epoch : playbackEpoch = p.playbackEpoch
  active : p.requestId ≠ 0
  request : chunk.requestId = p.requestId
  open_ : p.receipt.terminal = false
  pos : 0 < chunk.sampleCount.toNat
  rate : chunk.sampleRate ≠ 0
  sameRate : p.receipt.sampleRate = 0 ∨ p.receipt.sampleRate = chunk.sampleRate
  fits : chunk.firstSample.toNat + chunk.sampleCount.toNat < 2 ^ 64

/-- Where the next chunk has to start. -/
def Probe.pcmPosition (p : Probe) : UInt64 := if p.pcmStarted then p.nextPcmSample else 0

/-- The rate of the run once this chunk has passed the checks before its position. -/
def Probe.rateWith (p : Probe) (chunk : PcmChunk) : UInt32 :=
  if p.receipt.sampleRate = 0 then chunk.sampleRate else p.receipt.sampleRate

theorem observePcm_cases {playbackEpoch : UInt64} {chunk : PcmChunk} {status : Status} {p' : Probe}
    (h : p.observePcm playbackEpoch chunk = (status, p')) :
    (status ≠ .accepted ∧ ¬ Checked p playbackEpoch chunk ∧ p' = p) ∨
      (status = .discontinuousPcm ∧ Checked p playbackEpoch chunk ∧ chunk.firstSample ≠ p.pcmPosition ∧
        p' = { p with receipt := { p.receipt with sampleRate := p.rateWith chunk, pcmContiguous := false } }) ∨
      ∃ endSample, endSample.toNat = chunk.firstSample.toNat + chunk.sampleCount.toNat ∧
        status = .accepted ∧ Checked p playbackEpoch chunk ∧ chunk.firstSample = p.pcmPosition ∧
        p' = { p with
          pcmStarted := true
          nextPcmSample := endSample
          receipt := { p.receipt with
            sampleRate := p.rateWith chunk
            pcmChunkCount := p.receipt.pcmChunkCount + 1
            pcmSampleCount := endSample } } := by
  have hrefused {status' : Status} (heq : (status', p) = (status, p')) (hne : status' ≠ .accepted)
      (hfails : ¬ Checked p playbackEpoch chunk) :
      status ≠ .accepted ∧ ¬ Checked p playbackEpoch chunk ∧ p' = p := by
    cases heq
    exact ⟨hne, hfails, rfl⟩
  unfold Probe.observePcm at h
  split at h
  · rename_i hepoch
    exact .inl (hrefused h nofun fun hc => hepoch hc.epoch)
  rename_i hepoch
  split at h
  · rename_i hrequest
    exact .inl (hrefused h nofun fun hc => hrequest.elim hc.active (· hc.request))
  rename_i hrequest
  rw [not_or, not_not] at hrequest
  split at h
  · rename_i hterminal
    refine .inl (hrefused h nofun fun hc => ?_)
    rw [hc.open_] at hterminal
    cases hterminal
  rename_i hterminal
  split at h
  · rename_i hcount
    refine .inl (hrefused h nofun fun hc => ?_)
    have hpos := hc.pos
    rw [hcount] at hpos
    exact absurd hpos (by decide)
  rename_i hcount
  split at h
  · rename_i hrate
    exact .inl (hrefused h nofun fun hc => hc.rate hrate)
  rename_i hrate
  split at h
  · rename_i hsame
    exact .inl (hrefused h nofun fun hc => hc.sameRate.elim hsame.1 hsame.2)
  rename_i hsame
  split at h
  · rename_i hend
    refine .inl (hrefused h nofun fun hc => ?_)
    obtain ⟨endSample, hsome⟩ := rangeEnd_of_fits hc.pos hc.fits
    rw [hend] at hsome
    cases hsome
  rename_i endSample hend
  right
  obtain ⟨hpos, hfits, hends⟩ := rangeEnd_some hend
  have hsame' : p.receipt.sampleRate = 0 ∨ p.receipt.sampleRate = chunk.sampleRate := by
    by_contra hne
    rw [not_or] at hne
    exact hsame hne
  have hchecked : Checked p playbackEpoch chunk :=
    ⟨not_not.mp hepoch, hrequest.1, hrequest.2, by simpa using hterminal, hpos, hrate, hsame', hfits⟩
  rw [latchRate_eq] at h
  unfold Probe.takePcm at h
  dsimp only at h
  split at h
  · rename_i hnext
    cases h
    refine .inl ⟨rfl, hchecked, ?_, rfl⟩
    unfold Probe.pcmPosition
    rw [if_pos hnext.1]
    exact hnext.2
  split at h
  · rename_i hzero
    cases h
    refine .inl ⟨rfl, hchecked, ?_, rfl⟩
    unfold Probe.pcmPosition
    rw [if_neg hzero.1]
    exact hzero.2
  · rename_i hnext hzero
    cases h
    refine .inr ⟨endSample, hends, rfl, hchecked, ?_, rfl⟩
    unfold Probe.pcmPosition
    by_cases hstarted : p.pcmStarted = true
    · rw [if_pos hstarted]
      exact not_not.mp fun hne => hnext ⟨hstarted, hne⟩
    · rw [if_neg hstarted]
      exact not_not.mp fun hne => hzero ⟨hstarted, hne⟩

/-- A cue that the probe accepts. -/
structure TakesCue (p : Probe) (cue : Cue) (endSample : UInt64) : Prop where
  open_ : p.receipt.terminal = false
  pos : 0 < cue.sampleCount.toNat
  fits : cue.firstSample.toNat + cue.sampleCount.toNat < 2 ^ 64
  ends : endSample.toNat = cue.firstSample.toNat + cue.sampleCount.toNat
  goesOn : p.cueStarted = true → cue.firstSample = p.nextCueSample
  bounded : p.cues.length < p.maxCues.toNat
  sum : p.receipt.cueSampleCount.toNat + cue.sampleCount.toNat < 2 ^ 64

theorem appendCue_cases {cue : Cue} {status : Status} {p' : Probe} (h : p.appendCue cue = (status, p')) :
    (status ≠ .accepted ∧ ∃ contiguous overflow,
        p' = { p with receipt := { p.receipt with cueContiguous := contiguous, cueHistoryOverflow := overflow } }) ∨
      ∃ endSample, TakesCue p cue endSample ∧ status = .accepted ∧
        p' = { p with
          cueStarted := true
          nextCueSample := endSample
          cues := p.cues ++ [cue]
          receipt := { p.receipt with
            cueCount := p.receipt.cueCount + 1
            cueSampleCount := p.receipt.cueSampleCount + cue.sampleCount.toUInt64 } } := by
  have hrefused {status' : Status} (heq : (status', p) = (status, p')) (hne : status' ≠ .accepted) :
      status ≠ .accepted ∧ ∃ contiguous overflow,
        p' = { p with receipt := { p.receipt with cueContiguous := contiguous, cueHistoryOverflow := overflow } } := by
    cases heq
    exact ⟨hne, p.receipt.cueContiguous, p.receipt.cueHistoryOverflow, rfl⟩
  unfold Probe.appendCue at h
  split at h
  · exact .inl (hrefused h nofun)
  split at h
  · exact .inl (hrefused h nofun)
  split at h
  · exact .inl (hrefused h nofun)
  rename_i hterminal
  split at h
  · exact .inl (hrefused h nofun)
  split at h
  · exact .inl (hrefused h nofun)
  split at h
  · exact .inl (hrefused h nofun)
  rename_i endSample hend
  split at h
  · cases h
    exact .inl ⟨nofun, false, p.receipt.cueHistoryOverflow, rfl⟩
  rename_i hnext
  split at h
  · cases h
    exact .inl ⟨nofun, p.receipt.cueContiguous, true, rfl⟩
  rename_i hfull
  split at h
  · exact .inl (hrefused h nofun)
  rename_i hsum
  cases h
  obtain ⟨hpos, hfits, hends⟩ := rangeEnd_some hend
  refine .inr ⟨endSample, ⟨by simpa using hterminal, hpos, hfits, hends, fun hstarted => ?_, by omega, ?_⟩, rfl, rfl⟩
  · by_contra hne
    exact hnext ⟨hstarted, hne⟩
  · simp only [gt_iff_lt, UInt64.lt_iff_toNat_lt, not_lt] at hsum
    have hcount := cue.sampleCount.toNat_lt
    have hmax : uint64Max.toNat = 2 ^ 64 - 1 := rfl
    rw [UInt64.toNat_sub_of_le, UInt32.toNat_toUInt64, hmax] at hsum
    · omega
    · rw [UInt64.le_iff_toNat_le, UInt32.toNat_toUInt64, hmax]
      omega

/-- Both start over with an epoch that is not lower. -/
theorem begin_cases {playbackEpoch : UInt64} {requestId : RequestId} {p' : Probe}
    (h : p.begin playbackEpoch requestId = some p') :
    p.playbackEpoch ≤ p'.playbackEpoch ∧ ∃ lifecycle, p' = p.startOver lifecycle playbackEpoch requestId := by
  unfold Probe.begin at h
  split at h
  · cases h
  dsimp only at h
  split at h
  · cases h
  rename_i hmonotone
  split at h
  · rename_i hclaim
    cases h
    refine ⟨?_, .active, rfl⟩
    rcases hclaim with ⟨-, heq⟩ | hlt
    · exact UInt64.le_of_eq heq.symm
    · exact UInt64.le_of_lt hlt
  · rename_i hclaim
    rw [not_or] at hclaim
    exact (hmonotone ⟨hclaim.1, UInt64.not_lt.mp hclaim.2⟩).elim

theorem invalidate_cases {playbackEpoch : UInt64} {p' : Probe} (h : p.invalidate playbackEpoch = some p') :
    p.playbackEpoch ≤ p'.playbackEpoch ∧ p' = p.startOver .invalidated playbackEpoch 0 := by
  unfold Probe.invalidate at h
  split at h
  · cases h
  split at h
  · cases h
  rename_i hlt
  cases h
  exact ⟨UInt64.le_of_lt (UInt64.not_le.mp hlt), rfl⟩

theorem markTerminal_eq (p : Probe) (playbackEpoch : UInt64) (requestId : RequestId) :
    ∃ terminal, (p.markTerminal playbackEpoch requestId).2 = { p with receipt := { p.receipt with terminal } } := by
  unfold Probe.markTerminal
  split
  · exact ⟨p.receipt.terminal, rfl⟩
  · exact ⟨true, rfl⟩

/-! ## Invariant -/

def PcmChunk.first (chunk : PcmChunk) : Nat := chunk.firstSample.toNat

def PcmChunk.count (chunk : PcmChunk) : Nat := chunk.sampleCount.toNat

def Cue.first (cue : Cue) : Nat := cue.firstSample.toNat

def Cue.count (cue : Cue) : Nat := cue.sampleCount.toNat

/-- The accepted chunks and what the probe keeps of them. -/
structure PcmInv (s : St) : Prop where
  tiles : Tiles PcmChunk.first PcmChunk.count 0 s.pcm s.probe.receipt.pcmSampleCount.toNat
  next : s.probe.nextPcmSample = s.probe.receipt.pcmSampleCount
  started : s.probe.pcmStarted = false → s.pcm = []
  pos : ∀ chunk ∈ s.pcm, 0 < chunk.count
  count : s.probe.receipt.pcmChunkCount.toNat = s.pcm.length

/-- The accepted cues and what the probe keeps of them. -/
structure CueInv (s : St) : Prop where
  kept : s.probe.cues = s.cues
  tiles : ∃ lo, Tiles Cue.first Cue.count lo s.cues s.probe.nextCueSample.toNat
  started : s.probe.cueStarted = false → s.cues = []
  pos : ∀ cue ∈ s.cues, 0 < cue.count
  count : s.probe.receipt.cueCount.toNat = s.cues.length
  sum : s.probe.receipt.cueSampleCount.toNat = (s.cues.map Cue.count).sum
  bounded : s.cues.length ≤ s.probe.maxCues.toNat

structure Inv (s : St) : Prop where
  pcm : PcmInv s
  cue : CueInv s

theorem inv_fresh (maxCues : UInt64) (lifecycle : Lifecycle) (playbackEpoch : UInt64) (requestId : RequestId)
    (receipt : Receipt) (hpcm : receipt.pcmChunkCount = 0 ∧ receipt.pcmSampleCount = 0)
    (hcue : receipt.cueCount = 0 ∧ receipt.cueSampleCount = 0) :
    Inv { probe := { maxCues, lifecycle, playbackEpoch, requestId, receipt } } where
  pcm := {
    tiles := by
      show 0 = receipt.pcmSampleCount.toNat
      rw [hpcm.2]
      rfl
    next := hpcm.2.symm
    started := fun _ => rfl
    pos := nofun
    count := by rw [hpcm.1]; rfl }
  cue := {
    kept := rfl
    tiles := ⟨0, rfl⟩
    started := fun _ => rfl
    pos := nofun
    count := by rw [hcue.1]; rfl
    sum := by rw [hcue.2]; rfl
    bounded := Nat.zero_le _ }

theorem inv_initial (maxCues : UInt64) : Inv (initial maxCues) :=
  inv_fresh maxCues .uninitialized 0 0 {} ⟨rfl, rfl⟩ ⟨rfl, rfl⟩

theorem inv_startOver (p : Probe) (lifecycle : Lifecycle) (playbackEpoch : UInt64) (requestId : RequestId) :
    Inv { probe := p.startOver lifecycle playbackEpoch requestId } :=
  inv_fresh p.maxCues lifecycle playbackEpoch requestId { playbackEpoch, requestId } ⟨rfl, rfl⟩ ⟨rfl, rfl⟩

/-- Ranges that lie end to end are at least as long as they are many. -/
theorem length_le_of_tiles {α : Type} {first count : α → Nat} {lo hi : Nat} {l : List α} (h : Tiles first count lo l hi)
    (hpos : ∀ x ∈ l, 0 < count x) : l.length ≤ hi := by
  have hsum : l.length ≤ (l.map count).sum := by
    clear h
    induction l with
    | nil => exact Nat.le_refl _
    | cons x l ih =>
      have hx := hpos x List.mem_cons_self
      have := ih fun y hy => hpos y (List.mem_cons_of_mem _ hy)
      rw [List.map_cons, List.sum_cons, List.length_cons]
      omega
  rw [h.sum]
  omega

/-- The count of chunks cannot wrap: there are no more chunks than samples. -/
theorem succ_toNat {n : UInt64} {k bound : Nat} (h : n.toNat = k) (hk : k < bound) (hbound : bound < 2 ^ 64) :
    (n + 1).toNat = k + 1 := by
  rw [UInt64.toNat_add, show (1 : UInt64).toNat = 1 from rfl, h, Nat.mod_eq_of_lt (by omega)]

theorem inv_takePcm {playbackEpoch : UInt64} {chunk : PcmChunk} {endSample : UInt64} {rate : UInt32} (h : Inv s)
    (hchecked : Checked s.probe playbackEpoch chunk) (hposition : chunk.firstSample = s.probe.pcmPosition)
    (hends : endSample.toNat = chunk.firstSample.toNat + chunk.sampleCount.toNat) :
    Inv { s with
      probe := { s.probe with
        pcmStarted := true
        nextPcmSample := endSample
        receipt := { s.probe.receipt with
          sampleRate := rate
          pcmChunkCount := s.probe.receipt.pcmChunkCount + 1
          pcmSampleCount := endSample } }
      pcm := s.pcm ++ [chunk] } := by
  have hfirst : chunk.first = s.probe.receipt.pcmSampleCount.toNat := by
    unfold PcmChunk.first
    unfold Probe.pcmPosition at hposition
    split at hposition
    · rw [hposition, h.pcm.next]
    · rename_i hstarted
      have hempty := h.pcm.started (by simpa using hstarted)
      have htiles := h.pcm.tiles
      rw [hempty] at htiles
      rw [hposition]
      exact htiles
  have htiles : Tiles PcmChunk.first PcmChunk.count 0 (s.pcm ++ [chunk]) endSample.toNat := by
    rw [tiles_snoc, hfirst]
    refine ⟨h.pcm.tiles, ?_⟩
    rw [← hfirst]
    exact hends
  have hpos : ∀ c ∈ s.pcm ++ [chunk], 0 < c.count := by
    intro c hc
    rcases List.mem_append.mp hc with hc | hc
    · exact h.pcm.pos c hc
    · rw [List.mem_singleton.mp hc]
      exact hchecked.pos
  refine ⟨⟨htiles, rfl, nofun, hpos, ?_⟩, h.cue.kept, h.cue.tiles, h.cue.started, h.cue.pos, h.cue.count, h.cue.sum,
    h.cue.bounded⟩
  have hlength := length_le_of_tiles htiles hpos
  rw [List.length_append, List.length_singleton] at hlength ⊢
  exact succ_toNat h.pcm.count (by omega) endSample.toNat_lt

theorem inv_takeCue {cue : Cue} {endSample : UInt64} (h : Inv s) (htakes : TakesCue s.probe cue endSample) :
    Inv { s with
      probe := { s.probe with
        cueStarted := true
        nextCueSample := endSample
        cues := s.probe.cues ++ [cue]
        receipt := { s.probe.receipt with
          cueCount := s.probe.receipt.cueCount + 1
          cueSampleCount := s.probe.receipt.cueSampleCount + cue.sampleCount.toUInt64 } }
      cues := s.cues ++ [cue] } := by
  have htiles : ∃ lo, Tiles Cue.first Cue.count lo (s.cues ++ [cue]) endSample.toNat := by
    obtain ⟨lo, hlo⟩ := h.cue.tiles
    cases hstarted : s.probe.cueStarted with
    | true =>
      have hgoes := htakes.goesOn hstarted
      refine ⟨lo, tiles_snoc.mpr ⟨?_, htakes.ends⟩⟩
      unfold Cue.first
      rw [hgoes]
      exact hlo
    | false =>
      -- the first cue may start anywhere
      rw [h.cue.started hstarted]
      exact ⟨cue.first, rfl, htakes.ends.symm⟩
  refine ⟨⟨h.pcm.tiles, h.pcm.next, h.pcm.started, h.pcm.pos, h.pcm.count⟩, ?_, htiles, nofun, ?_, ?_, ?_, ?_⟩
  · show s.probe.cues ++ [cue] = s.cues ++ [cue]
    rw [h.cue.kept]
  · intro c hc
    rcases List.mem_append.mp hc with hc | hc
    · exact h.cue.pos c hc
    · rw [List.mem_singleton.mp hc]
      exact htakes.pos
  · have hbounded := htakes.bounded
    rw [h.cue.kept] at hbounded
    rw [List.length_append, List.length_singleton]
    exact succ_toNat h.cue.count hbounded s.probe.maxCues.toNat_lt
  · show (s.probe.receipt.cueSampleCount + cue.sampleCount.toUInt64).toNat = _
    have hsum := htakes.sum
    rw [UInt64.toNat_add, UInt32.toNat_toUInt64, Nat.mod_eq_of_lt hsum, h.cue.sum, List.map_append, List.sum_append]
    rfl
  · have hbounded := htakes.bounded
    rw [h.cue.kept] at hbounded
    show (s.cues ++ [cue]).length ≤ s.probe.maxCues.toNat
    rw [List.length_append, List.length_singleton]
    omega

/-- The flags of the receipt, the rate and the terminal do not matter for the invariant. -/
theorem Inv.of_flags (h : Inv s) (rate : UInt32) (pcmContiguous cueContiguous overflow terminal : Bool) :
    Inv { s with probe := { s.probe with receipt := { s.probe.receipt with
      sampleRate := rate, pcmContiguous := pcmContiguous, cueContiguous := cueContiguous, cueHistoryOverflow := overflow,
      terminal := terminal } } } :=
  ⟨⟨h.pcm.tiles, h.pcm.next, h.pcm.started, h.pcm.pos, h.pcm.count⟩, h.cue.kept, h.cue.tiles, h.cue.started, h.cue.pos,
    h.cue.count, h.cue.sum, h.cue.bounded⟩

theorem inv_step (h : Inv s) (call : Call) : Inv (step s call) := by
  cases call with
  | begin playbackEpoch requestId =>
    dsimp only [step]
    split
    · exact h
    · rename_i probe hbegin
      obtain ⟨-, lifecycle, rfl⟩ := begin_cases hbegin
      exact inv_startOver s.probe lifecycle playbackEpoch requestId
  | invalidate playbackEpoch =>
    dsimp only [step]
    split
    · exact h
    · rename_i probe hinvalidate
      obtain ⟨-, rfl⟩ := invalidate_cases hinvalidate
      exact inv_startOver s.probe .invalidated playbackEpoch 0
  | observePcm playbackEpoch chunk =>
    dsimp only [step]
    rcases hresult : s.probe.observePcm playbackEpoch chunk with ⟨status, probe⟩
    obtain ⟨hne, -, rfl⟩ | ⟨rfl, -, -, rfl⟩ | ⟨endSample, hends, rfl, hchecked, hposition, rfl⟩ := observePcm_cases hresult
    · cases status with
      | accepted => exact (hne rfl).elim
      | _ => exact h
    · exact h.of_flags _ _ _ _ _
    · exact inv_takePcm h hchecked hposition hends
  | appendCue cue =>
    dsimp only [step]
    rcases hresult : s.probe.appendCue cue with ⟨status, probe⟩
    obtain ⟨hne, contiguous, overflow, rfl⟩ | ⟨endSample, htakes, rfl, rfl⟩ := appendCue_cases hresult
    · cases status with
      | accepted => exact (hne rfl).elim
      | _ => exact h.of_flags _ _ _ _ _
    · exact inv_takeCue h htakes
  | markTerminal playbackEpoch requestId =>
    obtain ⟨terminal, heq⟩ := markTerminal_eq s.probe playbackEpoch requestId
    show Inv { s with probe := (s.probe.markTerminal playbackEpoch requestId).2 }
    rw [heq]
    exact h.of_flags _ _ _ _ _

theorem inv_run (h : Inv s) (calls : List Call) : Inv (run s calls) := by
  induction calls generalizing s with
  | nil => exact h
  | cons call calls ih => exact ih (inv_step h call)

/-! ## Selection -/

def Cue.Contains (cue : Cue) (sample : UInt64) : Prop := cue.first ≤ sample.toNat ∧ sample.toNat < cue.first + cue.count

instance (cue : Cue) (sample : UInt64) : Decidable (cue.Contains sample) :=
  inferInstanceAs (Decidable (cue.first ≤ sample.toNat ∧ sample.toNat < cue.first + cue.count))

theorem findCue_eq {sample : UInt64} {cues : List Cue}
    (hfits : ∀ cue ∈ cues, 0 < cue.count ∧ cue.first + cue.count < 2 ^ 64) :
    findCue sample cues = cues.find? fun cue => decide (cue.Contains sample) := by
  induction cues with
  | nil => rfl
  | cons cue cues ih =>
    obtain ⟨hpos, hlt⟩ := hfits cue List.mem_cons_self
    obtain ⟨endSample, hend⟩ := rangeEnd_of_fits hpos hlt
    obtain ⟨-, -, hends⟩ := rangeEnd_some hend
    have hcontains : (cue.firstSample ≤ sample ∧ sample < endSample) ↔ cue.Contains sample := by
      rw [UInt64.le_iff_toNat_le, UInt64.lt_iff_toNat_lt, hends]
      rfl
    unfold findCue
    rw [hend]
    dsimp only
    by_cases h : cue.Contains sample
    · rw [if_pos (hcontains.mpr h)]
      simp [h]
    · rw [if_neg (fun hc => h (hcontains.mp hc)), ih fun c hc => hfits c (List.mem_cons_of_mem _ hc)]
      simp [h]

/-- The snapshot is of the current epoch and request, with a position at the rate of the run. -/
structure Matches (p : Probe) (snapshot : CursorSnapshot) : Prop where
  epoch : snapshot.playbackEpoch = p.playbackEpoch
  active : p.requestId ≠ 0
  request : snapshot.requestId = p.requestId
  available : snapshot.positionAvailable = true
  known : p.receipt.sampleRate ≠ 0
  rate : snapshot.sampleRate = p.receipt.sampleRate

theorem select_of_matches {snapshot : CursorSnapshot} (h : Matches p snapshot) :
    p.select snapshot = match findCue snapshot.utteranceSample p.cues with
      | some cue => .selected cue
      | none => .outsideCueTimeline := by
  unfold Probe.select
  rw [if_neg (not_not.mpr h.epoch), if_neg (not_or.mpr ⟨h.active, not_not.mpr h.request⟩),
    if_neg (not_not.mpr h.available), if_neg (not_or.mpr ⟨h.known, not_not.mpr h.rate⟩)]

theorem Inv.cue_fits (h : Inv s) {cue : Cue} (hcue : cue ∈ s.cues) : 0 < cue.count ∧ cue.first + cue.count < 2 ^ 64 := by
  obtain ⟨lo, htiles⟩ := h.cue.tiles
  have hbound := (htiles.bounds hcue).2
  have hlt := s.probe.nextCueSample.toNat_lt
  exact ⟨h.cue.pos cue hcue, by omega⟩

theorem Inv.select_selected (h : Inv s) {snapshot : CursorSnapshot} (hmatches : Matches s.probe snapshot) (cue : Cue) :
    s.probe.select snapshot = .selected cue ↔ cue ∈ s.cues ∧ cue.Contains snapshot.utteranceSample := by
  rw [select_of_matches hmatches, h.cue.kept, findCue_eq fun c hc => h.cue_fits hc]
  constructor
  · intro hselect
    cases hfind : s.cues.find? fun cue => decide (cue.Contains snapshot.utteranceSample) with
    | none =>
      rw [hfind] at hselect
      cases hselect
    | some found =>
      rw [hfind] at hselect
      cases hselect
      have hcontains := List.find?_some hfind
      exact ⟨List.mem_of_find?_eq_some hfind, of_decide_eq_true hcontains⟩
  · rintro ⟨hmem, hcontains⟩
    cases hfind : s.cues.find? fun cue => decide (cue.Contains snapshot.utteranceSample) with
    | none =>
      have := List.find?_eq_none.mp hfind cue hmem
      exact (this (decide_eq_true hcontains)).elim
    | some found =>
      have hdecide := List.find?_some hfind
      have hfound : found.Contains snapshot.utteranceSample := of_decide_eq_true hdecide
      obtain ⟨lo, htiles⟩ := h.cue.tiles
      rw [htiles.unique (List.mem_of_find?_eq_some hfind) hmem hfound hcontains]

theorem Inv.select_outside (h : Inv s) {snapshot : CursorSnapshot} (hmatches : Matches s.probe snapshot) :
    s.probe.select snapshot = .outsideCueTimeline ↔ ∀ cue ∈ s.cues, ¬ cue.Contains snapshot.utteranceSample := by
  rw [select_of_matches hmatches, h.cue.kept, findCue_eq fun c hc => h.cue_fits hc]
  constructor
  · intro hselect cue hcue hcontains
    cases hfind : s.cues.find? fun cue => decide (cue.Contains snapshot.utteranceSample) with
    | none => exact List.find?_eq_none.mp hfind cue hcue (decide_eq_true hcontains)
    | some found =>
      rw [hfind] at hselect
      cases hselect
  · intro hnone
    have hfind : (s.cues.find? fun cue => decide (cue.Contains snapshot.utteranceSample)) = none := by
      rw [List.find?_eq_none]
      intro cue hcue
      simpa using hnone cue hcue
    rw [hfind]

/-! ## Terminal and epoch -/

theorem not_accepted_of_terminal (h : p.receipt.terminal = true) :
    (∀ playbackEpoch chunk, (p.observePcm playbackEpoch chunk).1 ≠ .accepted) ∧
      ∀ cue, (p.appendCue cue).1 ≠ .accepted := by
  constructor
  · intro playbackEpoch chunk haccepted
    rcases hresult : p.observePcm playbackEpoch chunk with ⟨status, p'⟩
    rw [hresult] at haccepted
    obtain ⟨hne, -⟩ | ⟨hne, -⟩ | ⟨endSample, -, -, hchecked, -⟩ := observePcm_cases hresult
    · exact hne haccepted
    · rw [hne] at haccepted
      cases haccepted
    · have := hchecked.open_
      rw [h] at this
      cases this
  · intro cue haccepted
    rcases hresult : p.appendCue cue with ⟨status, p'⟩
    rw [hresult] at haccepted
    obtain ⟨hne, -⟩ | ⟨endSample, htakes, -⟩ := appendCue_cases hresult
    · exact hne haccepted
    · have := htakes.open_
      rw [h] at this
      cases this

theorem epoch_step (s : St) (call : Call) : s.probe.playbackEpoch ≤ (step s call).probe.playbackEpoch := by
  cases call with
  | begin playbackEpoch requestId =>
    dsimp only [step]
    split
    · exact UInt64.le_refl _
    · rename_i probe hbegin
      exact (begin_cases hbegin).1
  | invalidate playbackEpoch =>
    dsimp only [step]
    split
    · exact UInt64.le_refl _
    · rename_i probe hinvalidate
      exact (invalidate_cases hinvalidate).1
  | observePcm playbackEpoch chunk =>
    dsimp only [step]
    rcases hresult : s.probe.observePcm playbackEpoch chunk with ⟨status, probe⟩
    have hepoch : probe.playbackEpoch = s.probe.playbackEpoch := by
      obtain ⟨-, -, rfl⟩ | ⟨-, -, -, rfl⟩ | ⟨endSample, -, -, -, -, rfl⟩ := observePcm_cases hresult <;> rfl
    cases status <;> exact UInt64.le_of_eq hepoch.symm
  | appendCue cue =>
    dsimp only [step]
    rcases hresult : s.probe.appendCue cue with ⟨status, probe⟩
    have hepoch : probe.playbackEpoch = s.probe.playbackEpoch := by
      obtain ⟨-, contiguous, overflow, rfl⟩ | ⟨endSample, -, -, rfl⟩ := appendCue_cases hresult <;> rfl
    cases status <;> exact UInt64.le_of_eq hepoch.symm
  | markTerminal playbackEpoch requestId =>
    obtain ⟨terminal, heq⟩ := markTerminal_eq s.probe playbackEpoch requestId
    show s.probe.playbackEpoch ≤ ((s.probe.markTerminal playbackEpoch requestId).2).playbackEpoch
    rw [heq]
    exact UInt64.le_refl _

theorem epoch_run (s : St) (calls : List Call) : s.probe.playbackEpoch ≤ (run s calls).probe.playbackEpoch := by
  induction calls generalizing s with
  | nil => exact UInt64.le_refl _
  | cons call calls ih => exact UInt64.le_trans (epoch_step s call) (ih (step s call))

/-- Who is followed: an invalidated probe follows no request, and a terminal is one of a request. -/
structure Followed (s : St) : Prop where
  invalidated : s.probe.lifecycle = .invalidated → s.probe.requestId = 0
  terminal : s.probe.receipt.terminal = true → s.probe.requestId ≠ 0

theorem begin_raises {playbackEpoch : UInt64} {requestId : RequestId} {p' : Probe}
    (h : p.begin playbackEpoch requestId = some p') :
    requestId ≠ 0 ∧ p'.lifecycle = .active ∧ (p.lifecycle ≠ .invalidated → p.playbackEpoch < p'.playbackEpoch) := by
  unfold Probe.begin at h
  split at h
  · cases h
  rename_i hnonzero
  dsimp only at h
  split at h
  · cases h
  rename_i hmonotone
  split at h
  · cases h
    refine ⟨fun hzero => hnonzero (.inr hzero), rfl, fun hactive => ?_⟩
    have hclaim : ¬ (p.lifecycle = .invalidated ∧ playbackEpoch = p.playbackEpoch) := fun hclaim => hactive hclaim.1
    exact UInt64.not_le.mp fun hle => hmonotone ⟨hclaim, hle⟩
  · rename_i hclaim
    rw [not_or] at hclaim
    exact (hmonotone ⟨hclaim.1, UInt64.not_lt.mp hclaim.2⟩).elim

theorem invalidate_raises {playbackEpoch : UInt64} {p' : Probe} (h : p.invalidate playbackEpoch = some p') :
    p.playbackEpoch < p'.playbackEpoch := by
  unfold Probe.invalidate at h
  split at h
  · cases h
  split at h
  · cases h
  rename_i hlt
  cases h
  exact UInt64.not_le.mp hlt

theorem observePcm_frame {playbackEpoch : UInt64} {chunk : PcmChunk} {status : Status} {p' : Probe}
    (h : p.observePcm playbackEpoch chunk = (status, p')) :
    p'.lifecycle = p.lifecycle ∧ p'.requestId = p.requestId ∧ p'.receipt.terminal = p.receipt.terminal := by
  obtain ⟨-, -, rfl⟩ | ⟨-, -, -, rfl⟩ | ⟨endSample, -, -, -, -, rfl⟩ := observePcm_cases h <;> exact ⟨rfl, rfl, rfl⟩

theorem appendCue_frame {cue : Cue} {status : Status} {p' : Probe} (h : p.appendCue cue = (status, p')) :
    p'.lifecycle = p.lifecycle ∧ p'.requestId = p.requestId ∧ p'.receipt.terminal = p.receipt.terminal := by
  obtain ⟨-, contiguous, overflow, rfl⟩ | ⟨endSample, -, -, rfl⟩ := appendCue_cases h <;> exact ⟨rfl, rfl, rfl⟩

theorem Followed.of_frame (h : Followed s) {s' : St} (hframe : s'.probe.lifecycle = s.probe.lifecycle ∧
    s'.probe.requestId = s.probe.requestId ∧ s'.probe.receipt.terminal = s.probe.receipt.terminal) : Followed s' := by
  obtain ⟨hlifecycle, hrequest, hterminal⟩ := hframe
  exact ⟨fun hinvalidated => hrequest.trans (h.invalidated (hlifecycle.symm.trans hinvalidated)),
    fun hmarked => hrequest ▸ h.terminal (hterminal.symm.trans hmarked)⟩

/-- `mark_terminal` is accepted once for the request that is followed, and then the receipt is
    terminal. -/
theorem markTerminal_iff {playbackEpoch : UInt64} {requestId : RequestId} :
    (p.markTerminal playbackEpoch requestId).1 = true ↔ playbackEpoch = p.playbackEpoch ∧ p.requestId ≠ 0 ∧
      requestId = p.requestId ∧ p.receipt.terminal = false := by
  unfold Probe.markTerminal
  split
  · rename_i hrefused
    constructor <;> intro h
    · cases h
    · simp [h.1, h.2.1, h.2.2.1, h.2.2.2] at hrefused
  · rename_i haccepted
    simp only [not_or, ne_eq, not_not, Bool.not_eq_true] at haccepted
    exact ⟨fun _ => haccepted, fun _ => rfl⟩

theorem markTerminal_accepted {playbackEpoch : UInt64} {requestId : RequestId}
    (h : (p.markTerminal playbackEpoch requestId).1 = true) :
    (p.markTerminal playbackEpoch requestId).2 = { p with receipt := { p.receipt with terminal := true } } := by
  unfold Probe.markTerminal at h ⊢
  split at h
  · cases h
  · rename_i haccepted
    rw [if_neg haccepted]

theorem followed_step (h : Followed s) (call : Call) : Followed (step s call) := by
  cases call with
  | begin playbackEpoch requestId =>
    dsimp only [step]
    split
    · exact h
    · rename_i probe hbegin
      obtain ⟨-, hactive, -⟩ := begin_raises hbegin
      obtain ⟨-, lifecycle, rfl⟩ := begin_cases hbegin
      have hactive : lifecycle = .active := hactive
      subst hactive
      constructor <;> intro hgone <;> cases hgone
  | invalidate playbackEpoch =>
    dsimp only [step]
    split
    · exact h
    · rename_i probe hinvalidate
      obtain ⟨-, rfl⟩ := invalidate_cases hinvalidate
      exact ⟨fun _ => rfl, fun hmarked => by cases hmarked⟩
  | observePcm playbackEpoch chunk =>
    dsimp only [step]
    rcases hresult : s.probe.observePcm playbackEpoch chunk with ⟨status, probe⟩
    cases status <;> exact h.of_frame (observePcm_frame hresult)
  | appendCue cue =>
    dsimp only [step]
    rcases hresult : s.probe.appendCue cue with ⟨status, probe⟩
    cases status <;> exact h.of_frame (appendCue_frame hresult)
  | markTerminal playbackEpoch requestId =>
    show Followed { s with probe := (s.probe.markTerminal playbackEpoch requestId).2 }
    cases haccepted : (s.probe.markTerminal playbackEpoch requestId).1 with
    | false =>
      have hsame : (s.probe.markTerminal playbackEpoch requestId).2 = s.probe := by
        unfold Probe.markTerminal at haccepted ⊢
        split at haccepted
        · rename_i hrefused
          rw [if_pos hrefused]
        · cases haccepted
      rw [hsame]
      exact h
    | true =>
      rw [markTerminal_accepted haccepted]
      exact ⟨h.invalidated, fun _ => (markTerminal_iff.mp haccepted).2.1⟩

theorem followed_run (h : Followed s) (calls : List Call) : Followed (run s calls) := by
  induction calls generalizing s with
  | nil => exact h
  | cons call calls ih => exact ih (followed_step h call)

/-- What a terminal receipt has is kept as long as the epoch is: only a call that starts over
    moves it. -/
structure Closed (s s' : St) : Prop where
  terminal : s'.probe.receipt.terminal = true
  pcm : s'.pcm = s.pcm
  cues : s'.cues = s.cues

theorem closed_step (h : Followed s) (hterminal : s.probe.receipt.terminal = true) (call : Call)
    (hepoch : (step s call).probe.playbackEpoch = s.probe.playbackEpoch) : Closed s (step s call) := by
  have hactive : s.probe.lifecycle ≠ .invalidated := fun hgone => h.terminal hterminal (h.invalidated hgone)
  have hraised {p' : Probe} (hlt : s.probe.playbackEpoch < p'.playbackEpoch)
      (hsame : p'.playbackEpoch = s.probe.playbackEpoch) : False := by
    rw [hsame] at hlt
    exact UInt64.lt_irrefl _ hlt
  cases call with
  | begin playbackEpoch requestId =>
    dsimp only [step] at hepoch ⊢
    split at hepoch
    · exact ⟨hterminal, rfl, rfl⟩
    · rename_i probe hbegin
      exact (hraised ((begin_raises hbegin).2.2 hactive) hepoch).elim
  | invalidate playbackEpoch =>
    dsimp only [step] at hepoch ⊢
    split at hepoch
    · exact ⟨hterminal, rfl, rfl⟩
    · rename_i probe hinvalidate
      exact (hraised (invalidate_raises hinvalidate) hepoch).elim
  | observePcm playbackEpoch chunk =>
    have hrefused := (not_accepted_of_terminal hterminal).1 playbackEpoch chunk
    dsimp only [step]
    rcases hresult : s.probe.observePcm playbackEpoch chunk with ⟨status, probe⟩
    rw [hresult] at hrefused
    have hkept := (observePcm_frame hresult).2.2.trans hterminal
    cases status with
    | accepted => exact (hrefused rfl).elim
    | _ => exact ⟨hkept, rfl, rfl⟩
  | appendCue cue =>
    have hrefused := (not_accepted_of_terminal hterminal).2 cue
    dsimp only [step]
    rcases hresult : s.probe.appendCue cue with ⟨status, probe⟩
    rw [hresult] at hrefused
    have hkept := (appendCue_frame hresult).2.2.trans hterminal
    cases status with
    | accepted => exact (hrefused rfl).elim
    | _ => exact ⟨hkept, rfl, rfl⟩
  | markTerminal playbackEpoch requestId =>
    have hagain : (s.probe.markTerminal playbackEpoch requestId).2 = s.probe := by
      unfold Probe.markTerminal
      rw [if_pos (.inr (.inr (.inr hterminal)))]
    refine ⟨?_, rfl, rfl⟩
    show (s.probe.markTerminal playbackEpoch requestId).2.receipt.terminal = true
    rw [hagain]
    exact hterminal

theorem closed_run (h : Followed s) (hterminal : s.probe.receipt.terminal = true) (calls : List Call)
    (hepoch : (run s calls).probe.playbackEpoch = s.probe.playbackEpoch) : Closed s (run s calls) := by
  induction calls generalizing s with
  | nil => exact ⟨hterminal, rfl, rfl⟩
  | cons call calls ih =>
    -- the epoch does not decrease, so it has not moved in the first call either
    have hlater : (step s call).probe.playbackEpoch ≤ (run s (call :: calls)).probe.playbackEpoch :=
      epoch_run (step s call) calls
    have hsame : (step s call).probe.playbackEpoch = s.probe.playbackEpoch :=
      UInt64.le_antisymm (hepoch ▸ hlater) (epoch_step s call)
    have hfirst := closed_step h hterminal call hsame
    have hrest := ih (followed_step h call) hfirst.terminal (hepoch.trans hsame.symm)
    exact ⟨hrest.terminal, hrest.pcm.trans hfirst.pcm, hrest.cues.trans hfirst.cues⟩

/-- An accepted `mark_terminal` closes the receipt until the epoch moves. -/
theorem closed_of_markTerminal (h : Followed s) {playbackEpoch : UInt64} {requestId : RequestId}
    (haccepted : (s.probe.markTerminal playbackEpoch requestId).1 = true) (later : List Call)
    (hepoch : (run (step s (.markTerminal playbackEpoch requestId)) later).probe.playbackEpoch = s.probe.playbackEpoch) :
    Closed s (run (step s (.markTerminal playbackEpoch requestId)) later) := by
  have hmarked : step s (.markTerminal playbackEpoch requestId) =
      { s with probe := { s.probe with receipt := { s.probe.receipt with terminal := true } } } := by
    show ({ s with probe := (s.probe.markTerminal playbackEpoch requestId).2 } : St) = _
    rw [markTerminal_accepted haccepted]
  have hfollowed := followed_step h (.markTerminal playbackEpoch requestId)
  rw [hmarked] at hfollowed hepoch ⊢
  have hclosed := closed_run hfollowed rfl later hepoch
  exact ⟨hclosed.terminal, hclosed.pcm, hclosed.cues⟩

/-! ## The receipt -/

/-- What the probe knows of the current timeline is exact. -/
structure Exact (s : St) : Prop where
  pcmTiles : Tiles PcmChunk.first PcmChunk.count 0 s.pcm s.probe.receipt.pcmSampleCount.toNat
  pcmChunks : s.probe.receipt.pcmChunkCount.toNat = s.pcm.length
  cueTiles : ∃ lo, Tiles Cue.first Cue.count lo s.cues (lo + s.probe.receipt.cueSampleCount.toNat)
  disjoint : s.cues.Pairwise fun cue cue' => cue.first + cue.count ≤ cue'.first
  bounded : s.cues.length ≤ s.probe.maxCues.toNat
  cueCount : s.probe.receipt.cueCount.toNat = s.cues.length
  cueSamples : s.probe.receipt.cueSampleCount.toNat = (s.cues.map Cue.count).sum
  /-- Every end of a range is a sample number. -/
  ends : (∀ chunk ∈ s.pcm, chunk.first + chunk.count < 2 ^ 64) ∧ ∀ cue ∈ s.cues, cue.first + cue.count < 2 ^ 64

theorem Inv.exact (h : Inv s) : Exact s := by
  obtain ⟨lo, htiles⟩ := h.cue.tiles
  have hsum := htiles.sum
  have hcues := h.cue.sum
  refine ⟨h.pcm.tiles, h.pcm.count, ⟨lo, ?_⟩, htiles.pairwise, h.cue.bounded, h.cue.count, h.cue.sum, ?_,
    fun cue hcue => (h.cue_fits hcue).2⟩
  · rw [hcues, ← hsum]
    exact htiles
  · intro chunk hchunk
    have hbound := (h.pcm.tiles.bounds hchunk).2
    have hlt := s.probe.receipt.pcmSampleCount.toNat_lt
    omega

theorem receipt_is_exact (maxCues : UInt64) (calls : List Call) :
    Exact (run (initial maxCues) calls) ∧
      ((run (initial maxCues) calls).probe.receipt.terminal = true →
        (∀ playbackEpoch chunk, ((run (initial maxCues) calls).probe.observePcm playbackEpoch chunk).1 ≠ .accepted) ∧
        ∀ cue, ((run (initial maxCues) calls).probe.appendCue cue).1 ≠ .accepted) ∧
      (∀ playbackEpoch requestId, ((run (initial maxCues) calls).probe.markTerminal playbackEpoch requestId).1 = true ↔
        playbackEpoch = (run (initial maxCues) calls).probe.playbackEpoch ∧
          (run (initial maxCues) calls).probe.requestId ≠ 0 ∧ requestId = (run (initial maxCues) calls).probe.requestId ∧
          (run (initial maxCues) calls).probe.receipt.terminal = false) ∧
      (∀ playbackEpoch requestId later,
        ((run (initial maxCues) calls).probe.markTerminal playbackEpoch requestId).1 = true →
        (run (step (run (initial maxCues) calls) (.markTerminal playbackEpoch requestId)) later).probe.playbackEpoch =
          (run (initial maxCues) calls).probe.playbackEpoch →
        Closed (run (initial maxCues) calls)
          (run (step (run (initial maxCues) calls) (.markTerminal playbackEpoch requestId)) later)) ∧
      (∀ later, (run (initial maxCues) calls).probe.playbackEpoch ≤
        (run (run (initial maxCues) calls) later).probe.playbackEpoch) ∧
      ∀ snapshot, Matches (run (initial maxCues) calls).probe snapshot →
        (∀ cue, (run (initial maxCues) calls).probe.select snapshot = .selected cue ↔
          cue ∈ (run (initial maxCues) calls).cues ∧ cue.Contains snapshot.utteranceSample) ∧
        ((run (initial maxCues) calls).probe.select snapshot = .outsideCueTimeline ↔
          ∀ cue ∈ (run (initial maxCues) calls).cues, ¬ cue.Contains snapshot.utteranceSample) := by
  have h := inv_run (inv_initial maxCues) calls
  have hfollowed : Followed (run (initial maxCues) calls) :=
    followed_run (by constructor <;> intro hgone <;> cases hgone) calls
  exact ⟨h.exact, not_accepted_of_terminal, fun _ _ => markTerminal_iff,
    fun _ _ later haccepted => closed_of_markTerminal hfollowed haccepted later, epoch_run _,
    fun snapshot hmatches => ⟨h.select_selected hmatches, h.select_outside hmatches⟩⟩

/-! ## Calls that are not accepted -/

/-- Without the sticky diagnostic flags. -/
def Probe.erase (p : Probe) : Probe :=
  { p with receipt := { p.receipt with pcmContiguous := true, cueContiguous := true, cueHistoryOverflow := false } }

/-- The same answer, and probes that differ in the flags at most. -/
def Alike {α : Type} (r r' : α × Probe) : Prop := r.1 = r'.1 ∧ r.2.erase = r'.2.erase

theorem alike_ite {α : Type} {c : Prop} [Decidable c] {a a' b b' : α × Probe} (ha : Alike a a') (hb : Alike b b') :
    Alike (if c then a else b) (if c then a' else b') := by
  by_cases h : c
  · rw [if_pos h, if_pos h]
    exact ha
  · rw [if_neg h, if_neg h]
    exact hb

theorem observePcm_erase (p : Probe) (playbackEpoch : UInt64) (chunk : PcmChunk) :
    Alike (p.erase.observePcm playbackEpoch chunk) (p.observePcm playbackEpoch chunk) := by
  have hsame (status : Status) : Alike (status, p.erase) (status, p) := ⟨rfl, rfl⟩
  unfold Probe.observePcm
  refine alike_ite (hsame _) (alike_ite (hsame _) (alike_ite (hsame _) (alike_ite (hsame _) (alike_ite (hsame _)
    (alike_ite (hsame _) ?_)))))
  cases rangeEnd chunk.firstSample chunk.sampleCount with
  | none => exact hsame _
  | some endSample =>
    simp only [latchRate_eq]
    exact alike_ite ⟨rfl, rfl⟩ (alike_ite ⟨rfl, rfl⟩ ⟨rfl, rfl⟩)

theorem appendCue_erase (p : Probe) (cue : Cue) : Alike (p.erase.appendCue cue) (p.appendCue cue) := by
  have hsame (status : Status) : Alike (status, p.erase) (status, p) := ⟨rfl, rfl⟩
  unfold Probe.appendCue
  refine alike_ite (hsame _) (alike_ite (hsame _) (alike_ite (hsame _) (alike_ite (hsame _) (alike_ite (hsame _) ?_))))
  cases rangeEnd cue.firstSample cue.sampleCount with
  | none => exact hsame _
  | some endSample =>
    exact alike_ite ⟨rfl, rfl⟩ (alike_ite ⟨rfl, rfl⟩ (alike_ite (hsame _) ⟨rfl, rfl⟩))

theorem markTerminal_erase (p : Probe) (playbackEpoch : UInt64) (requestId : RequestId) :
    Alike (p.erase.markTerminal playbackEpoch requestId) (p.markTerminal playbackEpoch requestId) := by
  unfold Probe.markTerminal
  exact alike_ite ⟨rfl, rfl⟩ ⟨rfl, rfl⟩

section Later

variable {p' : Probe} {s' : St}

theorem observePcm_of_erase (h : p.erase = p'.erase) (playbackEpoch : UInt64) (chunk : PcmChunk) :
    Alike (p.observePcm playbackEpoch chunk) (p'.observePcm playbackEpoch chunk) := by
  have hp := observePcm_erase p playbackEpoch chunk
  have hp' := observePcm_erase p' playbackEpoch chunk
  rw [h] at hp
  exact ⟨hp.1.symm.trans hp'.1, hp.2.symm.trans hp'.2⟩

theorem appendCue_of_erase (h : p.erase = p'.erase) (cue : Cue) : Alike (p.appendCue cue) (p'.appendCue cue) := by
  have hp := appendCue_erase p cue
  have hp' := appendCue_erase p' cue
  rw [h] at hp
  exact ⟨hp.1.symm.trans hp'.1, hp.2.symm.trans hp'.2⟩

theorem select_of_erase (h : p.erase = p'.erase) (snapshot : CursorSnapshot) : p.select snapshot = p'.select snapshot := by
  have heq : p.erase.select snapshot = p'.erase.select snapshot := by rw [h]
  exact heq

theorem erase_step (h : s.probe.erase = s'.probe.erase) (call : Call) :
    (step s call).probe.erase = (step s' call).probe.erase := by
  cases call with
  | begin playbackEpoch requestId =>
    have hbegin : s.probe.begin playbackEpoch requestId = s'.probe.begin playbackEpoch requestId := by
      have heq : s.probe.erase.begin playbackEpoch requestId = s'.probe.erase.begin playbackEpoch requestId := by rw [h]
      exact heq
    dsimp only [step]
    rw [hbegin]
    split
    · exact h
    · rfl
  | invalidate playbackEpoch =>
    have hinvalidate : s.probe.invalidate playbackEpoch = s'.probe.invalidate playbackEpoch := by
      have heq : s.probe.erase.invalidate playbackEpoch = s'.probe.erase.invalidate playbackEpoch := by rw [h]
      exact heq
    dsimp only [step]
    rw [hinvalidate]
    split
    · exact h
    · rfl
  | observePcm playbackEpoch chunk =>
    have halike := observePcm_of_erase h playbackEpoch chunk
    have hprobe (s : St) : (step s (.observePcm playbackEpoch chunk)).probe = (s.probe.observePcm playbackEpoch chunk).2 := by
      dsimp only [step]
      split
      all_goals rename_i heq; rw [heq]
    rw [hprobe, hprobe]
    exact halike.2
  | appendCue cue =>
    have halike := appendCue_of_erase h cue
    have hprobe (s : St) : (step s (.appendCue cue)).probe = (s.probe.appendCue cue).2 := by
      dsimp only [step]
      split
      all_goals rename_i heq; rw [heq]
    rw [hprobe, hprobe]
    exact halike.2
  | markTerminal playbackEpoch requestId =>
    show (s.probe.markTerminal playbackEpoch requestId).2.erase = (s'.probe.markTerminal playbackEpoch requestId).2.erase
    rw [← (markTerminal_erase s.probe playbackEpoch requestId).2, ← (markTerminal_erase s'.probe playbackEpoch requestId).2, h]

theorem erase_run (h : s.probe.erase = s'.probe.erase) (calls : List Call) :
    (run s calls).probe.erase = (run s' calls).probe.erase := by
  induction calls generalizing s s' with
  | nil => exact h
  | cons call calls ih => exact ih (erase_step h call)

end Later

/-- The call is an `observe_pcm` or `append_cue` and is not accepted. -/
def Rejected (p : Probe) : Call → Prop
  | .observePcm playbackEpoch chunk => (p.observePcm playbackEpoch chunk).1 ≠ .accepted
  | .appendCue cue => (p.appendCue cue).1 ≠ .accepted
  | _ => False

/-- Two probes give the same answers. -/
def SameAnswers (p p' : Probe) : Prop :=
  (∀ playbackEpoch chunk, (p.observePcm playbackEpoch chunk).1 = (p'.observePcm playbackEpoch chunk).1) ∧
    (∀ cue, (p.appendCue cue).1 = (p'.appendCue cue).1) ∧ ∀ snapshot, p.select snapshot = p'.select snapshot

/-- The call changes diagnostic flags at most, and no answer after any later calls. -/
def Harmless (s : St) (call : Call) : Prop :=
  (step s call).probe.erase = s.probe.erase ∧ ∀ later, SameAnswers (run (step s call) later).probe (run s later).probe

/-- A chunk that is in order but for its position, while no rate is known: it starts after
    sample 0. -/
def SetsRate (p : Probe) : Call → Prop
  | .observePcm playbackEpoch chunk =>
    p.receipt.sampleRate = 0 ∧ Checked p playbackEpoch chunk ∧ chunk.firstSample ≠ 0
  | _ => False

/-- The rate is known from the first accepted chunk on. -/
def Rated (s : St) : Prop := s.probe.receipt.sampleRate = 0 → s.probe.pcmStarted = false

theorem rated_step (h : Rated s) (call : Call) : Rated (step s call) := by
  cases call with
  | begin playbackEpoch requestId =>
    dsimp only [step]
    split
    · exact h
    · rename_i probe hbegin
      obtain ⟨-, lifecycle, rfl⟩ := begin_cases hbegin
      exact fun _ => rfl
  | invalidate playbackEpoch =>
    dsimp only [step]
    split
    · exact h
    · rename_i probe hinvalidate
      obtain ⟨-, rfl⟩ := invalidate_cases hinvalidate
      exact fun _ => rfl
  | observePcm playbackEpoch chunk =>
    dsimp only [step]
    rcases hresult : s.probe.observePcm playbackEpoch chunk with ⟨status, probe⟩
    have hrate : s.probe.rateWith chunk = 0 → chunk.sampleRate = 0 := by
      intro h0
      unfold Probe.rateWith at h0
      split at h0
      · exact h0
      · rename_i hne
        exact (hne h0).elim
    obtain ⟨hne, -, rfl⟩ | ⟨rfl, hchecked, -, rfl⟩ | ⟨endSample, -, rfl, hchecked, -, rfl⟩ := observePcm_cases hresult
    · cases status <;> exact h
    · exact fun h0 => (hchecked.rate (hrate h0)).elim
    · exact fun h0 => (hchecked.rate (hrate h0)).elim
  | appendCue cue =>
    dsimp only [step]
    rcases hresult : s.probe.appendCue cue with ⟨status, probe⟩
    obtain ⟨-, contiguous, overflow, rfl⟩ | ⟨endSample, -, rfl, rfl⟩ := appendCue_cases hresult
    · cases status <;> exact h
    · exact h
  | markTerminal playbackEpoch requestId =>
    obtain ⟨terminal, heq⟩ := markTerminal_eq s.probe playbackEpoch requestId
    show Rated { s with probe := (s.probe.markTerminal playbackEpoch requestId).2 }
    rw [heq]
    exact h

theorem rated_run (h : Rated s) (calls : List Call) : Rated (run s calls) := by
  induction calls generalizing s with
  | nil => exact h
  | cons call calls ih => exact ih (rated_step h call)

/-- A call that leaves everything but the flags as it was changes no later answer. -/
theorem harmless_of_erase {call : Call} (h : (step s call).probe.erase = s.probe.erase) : Harmless s call := by
  refine ⟨h, fun later => ?_⟩
  have herase := erase_run h later
  exact ⟨fun playbackEpoch chunk => (observePcm_of_erase herase playbackEpoch chunk).1,
    fun cue => (appendCue_of_erase herase cue).1, select_of_erase herase⟩

theorem erase_of_rejected {call : Call} (hrated : Rated s) (hrejected : Rejected s.probe call)
    (hrate : ¬ SetsRate s.probe call) : (step s call).probe.erase = s.probe.erase := by
  cases call with
  | observePcm playbackEpoch chunk =>
    dsimp only [step]
    rcases hresult : s.probe.observePcm playbackEpoch chunk with ⟨status, probe⟩
    have hstatus : (s.probe.observePcm playbackEpoch chunk).1 ≠ .accepted := hrejected
    rw [hresult] at hstatus
    obtain ⟨-, -, rfl⟩ | ⟨rfl, hchecked, hposition, rfl⟩ | ⟨endSample, -, haccepted, -⟩ := observePcm_cases hresult
    · cases status <;> rfl
    · have hknown : s.probe.receipt.sampleRate ≠ 0 := by
        intro h0
        refine hrate ⟨h0, hchecked, ?_⟩
        unfold Probe.pcmPosition at hposition
        rwa [hrated h0] at hposition
      have hsame : s.probe.rateWith chunk = s.probe.receipt.sampleRate := if_neg hknown
      rw [hsame]
      rfl
    · exact (hstatus haccepted).elim
  | appendCue cue =>
    dsimp only [step]
    rcases hresult : s.probe.appendCue cue with ⟨status, probe⟩
    have hstatus : (s.probe.appendCue cue).1 ≠ .accepted := hrejected
    rw [hresult] at hstatus
    obtain ⟨-, contiguous, overflow, rfl⟩ | ⟨endSample, -, haccepted, -⟩ := appendCue_cases hresult
    · cases status <;> rfl
    · exact (hstatus haccepted).elim
  | _ => exact hrejected.elim

theorem rate_of_setsRate {call : Call} (hrejected : Rejected s.probe call) (h : SetsRate s.probe call) :
    (step s call).probe.receipt.sampleRate ≠ s.probe.receipt.sampleRate := by
  cases call with
  | observePcm playbackEpoch chunk =>
    obtain ⟨h0, hchecked, -⟩ := h
    dsimp only [step]
    rcases hresult : s.probe.observePcm playbackEpoch chunk with ⟨status, probe⟩
    have hstatus : (s.probe.observePcm playbackEpoch chunk).1 ≠ .accepted := hrejected
    rw [hresult] at hstatus
    obtain ⟨-, hfails, -⟩ | ⟨rfl, -, -, rfl⟩ | ⟨endSample, -, haccepted, -⟩ := observePcm_cases hresult
    · exact (hfails hchecked).elim
    · show s.probe.rateWith chunk ≠ s.probe.receipt.sampleRate
      rw [show s.probe.rateWith chunk = chunk.sampleRate from if_pos h0, h0]
      exact hchecked.rate
    · exact (hstatus haccepted).elim
  | _ => exact h.elim

theorem rejection_is_harmless_iff (maxCues : UInt64) (calls : List Call) (call : Call)
    (h : Rejected (run (initial maxCues) calls).probe call) :
    Harmless (run (initial maxCues) calls) call ↔ ¬ SetsRate (run (initial maxCues) calls).probe call := by
  have hrated : Rated (run (initial maxCues) calls) := rated_run (fun _ => rfl) calls
  constructor
  · rintro ⟨hsame, -⟩ hsets
    refine rate_of_setsRate h hsets ?_
    have hrate : (step (run (initial maxCues) calls) call).probe.erase.receipt.sampleRate =
        (run (initial maxCues) calls).probe.erase.receipt.sampleRate := by rw [hsame]
    exact hrate
  · intro hrate
    exact harmless_of_erase (erase_of_rejected hrated h hrate)

/-- A chunk of request 1 in epoch 1. -/
def oneChunk (firstSample : UInt64) (sampleRate : UInt32) : PcmChunk := ⟨1, sampleRate, firstSample, 10⟩

theorem a_second_gap_is_harmless :
    Rejected (run (initial 8) [.begin 1 1, .observePcm 1 (oneChunk 0 24000)]).probe (.observePcm 1 (oneChunk 50 24000)) ∧
      Harmless (run (initial 8) [.begin 1 1, .observePcm 1 (oneChunk 0 24000)]) (.observePcm 1 (oneChunk 50 24000)) := by
  have h : Rejected (run (initial 8) [.begin 1 1, .observePcm 1 (oneChunk 0 24000)]).probe
      (.observePcm 1 (oneChunk 50 24000)) := by
    show _ ≠ _
    decide
  refine ⟨h, (rejection_is_harmless_iff 8 _ _ h).mpr ?_⟩
  rintro ⟨h0, -⟩
  exact absurd h0 (by decide)

/-- A first chunk that is out of place makes the rate of a later one wrong. -/
theorem a_rejected_chunk_sets_the_rate :
    Rejected (run (initial 8) [.begin 1 1]).probe (.observePcm 1 (oneChunk 5 48000)) ∧
      ((run (initial 8) [.begin 1 1]).probe.observePcm 1 (oneChunk 0 24000)).1 = .accepted ∧
      ((run (initial 8) [.begin 1 1, .observePcm 1 (oneChunk 5 48000)]).probe.observePcm 1 (oneChunk 0 24000)).1 =
        .sampleRateMismatch ∧
      ¬ Harmless (run (initial 8) [.begin 1 1]) (.observePcm 1 (oneChunk 5 48000)) := by
  refine ⟨by show _ ≠ _; decide, by decide, by decide, fun h => ?_⟩
  exact absurd ((h.2 []).1 1 (oneChunk 0 24000)) (by decide)

end QwenTtsBridge.Playback.ReceiptProbe
