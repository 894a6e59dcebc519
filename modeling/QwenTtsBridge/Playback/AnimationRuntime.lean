/-
  QwenTtsBridge.Playback.AnimationRuntime — the playback-locked animation runtime
  (`integration/speech_animation/playback_animation_runtime.cpp`).

  Every `begin` makes an adapter whose receipt handler captures the generation, the playback
  epoch and the request id it was made for, and shares the ownership of the state: an
  adapter that is no longer the runtime's own may still deliver. Every call takes the mutex
  once, so a run is a sequence of calls. The cue selector is a library's and is a parameter
  (`CueSelector`): a `reset` empties it and an `append` that it does not reject adds one
  receipt.

  - `receipts_are_gated`: in every reachable state the selector holds exactly the receipts
    that adapters of the current generation, epoch and request delivered since the last call
    that reset it; `push_audio` is true for these three only; from a rejected receipt to the
    next `begin` the selector holds nothing; and the three change with `begin`, `invalidate`
    and `initialize_epoch` alone, a `begin` leaving a new adapter for them, an `invalidate` none.
-/

import QwenTtsBridge.Session.Event
import QwenTtsBridge.Lib.Transition

namespace QwenTtsBridge.Playback.AnimationRuntime

open QwenTtsBridge.Session QwenTtsBridge.Lib.Transition

/-! ## The selector -/

/-- `PlaybackLockedCueSelector`, as the runtime uses it. `held` is its history. -/
structure CueSelector (ρ σ : Type*) where
  initial : σ
  reset : UInt64 → RequestId → σ → σ
  append : ρ → σ → Bool × σ
  held : σ → List ρ

structure CueSelector.Lawful {ρ σ : Type*} (lib : CueSelector ρ σ) : Prop where
  initial_held : lib.held lib.initial = []
  reset_held : ∀ epoch request s, lib.held (lib.reset epoch request s) = []
  append_held : ∀ x s, (lib.append x s).1 = true → lib.held (lib.append x s).2 = lib.held s ++ [x]

/-! ## The runtime -/

/-- What a receipt is checked against. -/
structure Lease where
  generation : UInt64
  playbackEpoch : UInt64
  requestId : RequestId
  deriving DecidableEq, Repr

/-- An adapter made by `begin`, with what its handlers capture. `serial` tells adapters
    apart: the number of calls of `begin` and `invalidate` up to its own. -/
structure Adapter where
  lease : Lease
  serial : Nat
  deriving DecidableEq, Repr

/-- What happened, for the statements; the runtime does not read it. -/
inductive Note (ρ : Type*)
  /-- A call of `initialize_epoch`, `begin` or `invalidate` has reset the selector. -/
  | opened
  | began (adapter : Adapter)
  | delivered (adapter : Adapter) (receipt : ρ)
  /-- The selector refused the receipt delivered last. -/
  | rejected
  deriving DecidableEq, Repr

/-- `PlaybackAnimationRuntime::State`, the adapters made so far and the notes. -/
structure St (ρ σ : Type*) where
  selector : σ
  adapter : Option Adapter
  playbackEpoch : UInt64
  requestId : RequestId
  generation : UInt64
  cueHistoryDegraded : Bool
  serial : Nat
  adapters : List Adapter
  log : List (Note ρ)
  deriving DecidableEq, Repr

inductive Call (ρ : Type*)
  | initializeEpoch (playbackEpoch : UInt64)
  /-- `accepted`: the new pipeline accepted its own `begin`. -/
  | begin (playbackEpoch : UInt64) (requestId : RequestId) (accepted : Bool)
  | invalidate (playbackEpoch : UInt64)
  | pushAudio (playbackEpoch generation : UInt64) (requestId : RequestId)
  /-- The receipt handler of an adapter is called. -/
  | deliver (adapter : Adapter) (receipt : ρ)
  deriving DecidableEq, Repr

variable {ρ σ : Type*} {lib : CueSelector ρ σ} {s s' : St ρ σ} {e : Call ρ}

def initial (lib : CueSelector ρ σ) : St ρ σ := ⟨lib.initial, none, 0, 0, 0, false, 0, [], []⟩

def St.lease (s : St ρ σ) : Lease := ⟨s.generation, s.playbackEpoch, s.requestId⟩

/-- `initialize_epoch`; `none`: it throws. -/
def initializeEpoch (lib : CueSelector ρ σ) (s : St ρ σ) (playbackEpoch : UInt64) : Option (St ρ σ) :=
  if playbackEpoch = 0 then none
  else if s.generation ≠ 0 then none
  else
    some { s with
      playbackEpoch := playbackEpoch
      requestId := 0
      selector := lib.reset playbackEpoch 0 s.selector
      log := s.log ++ [.opened] }

/-- `begin`; `none`: the pipeline did not accept and nothing has changed. -/
def begin (lib : CueSelector ρ σ) (s : St ρ σ) (playbackEpoch : UInt64) (requestId : RequestId)
    (accepted : Bool) : Option (St ρ σ) :=
  if accepted then
    let generation := s.generation + 1
    let adapter : Adapter := ⟨⟨generation, playbackEpoch, requestId⟩, s.serial + 1⟩
    some { s with
      generation := generation
      playbackEpoch := playbackEpoch
      requestId := requestId
      cueHistoryDegraded := false
      selector := lib.reset playbackEpoch requestId s.selector
      adapter := some adapter
      serial := s.serial + 1
      adapters := s.adapters ++ [adapter]
      log := s.log ++ [.opened, .began adapter] }
  else none

def invalidate (lib : CueSelector ρ σ) (s : St ρ σ) (playbackEpoch : UInt64) : St ρ σ :=
  { s with
    generation := s.generation + 1
    playbackEpoch := playbackEpoch
    requestId := 0
    adapter := none
    selector := lib.reset playbackEpoch 0 s.selector
    serial := s.serial + 1
    log := s.log ++ [.opened] }

/-- The receipt handler that `begin` gives an adapter. -/
def onReceipt (lib : CueSelector ρ σ) (s : St ρ σ) (adapter : Adapter) (receipt : ρ) : St ρ σ :=
  if adapter.lease.generation ≠ s.generation ∨ s.playbackEpoch ≠ adapter.lease.playbackEpoch ∨
      s.requestId ≠ adapter.lease.requestId ∨ s.cueHistoryDegraded then
    { s with log := s.log ++ [.delivered adapter receipt] }
  else
    let (accepted, selector) := lib.append receipt s.selector
    if accepted then { s with selector := selector, log := s.log ++ [.delivered adapter receipt] }
    else
      { s with
        cueHistoryDegraded := true
        selector := lib.reset adapter.lease.playbackEpoch 0 selector
        log := s.log ++ [.delivered adapter receipt, .rejected] }

/-- What `push_audio` returns; the chunk goes to the adapter outside the mutex. -/
def pushAudio (s : St ρ σ) (playbackEpoch generation : UInt64) (requestId : RequestId) : Bool :=
  if s.generation ≠ generation ∨ s.playbackEpoch ≠ playbackEpoch ∨ s.requestId ≠ requestId then false
  else s.adapter.isSome

def step (lib : CueSelector ρ σ) (s : St ρ σ) : Call ρ → Option (St ρ σ)
  | .initializeEpoch playbackEpoch => initializeEpoch lib s playbackEpoch
  | .begin playbackEpoch requestId accepted => begin lib s playbackEpoch requestId accepted
  | .invalidate playbackEpoch => some (invalidate lib s playbackEpoch)
  | .pushAudio _ _ _ => some s
  | .deliver adapter receipt => if adapter ∈ s.adapters then some (onReceipt lib s adapter receipt) else none

abbrev ReachS (lib : CueSelector ρ σ) := Reach (step lib) anyStep (initial lib)

/-- The lease after a call that is not refused: `begin` and `invalidate` take the next
    generation, `initialize_epoch` sets the epoch, and no other call touches it. -/
def Lease.after (lease : Lease) : Call ρ → Lease
  | .initializeEpoch playbackEpoch => ⟨lease.generation, playbackEpoch, 0⟩
  | .begin playbackEpoch requestId _ => ⟨lease.generation + 1, playbackEpoch, requestId⟩
  | .invalidate playbackEpoch => ⟨lease.generation + 1, playbackEpoch, 0⟩
  | .pushAudio _ _ _ => lease
  | .deliver _ _ => lease

/-! ## What the notes tell -/

/-- `held` after one more note, for the receipts of adapters with the lease. -/
def hold (lease : Lease) (held : List ρ) : Note ρ → List ρ
  | .opened => []
  | .delivered adapter receipt => if adapter.lease = lease then held ++ [receipt] else held
  | _ => held

/-- The receipts that adapters with the lease delivered since the selector was last reset. -/
def receipts (lease : Lease) (notes : List (Note ρ)) : List ρ := notes.foldl (hold lease) []

def degrade (degraded : Bool) : Note ρ → Bool
  | .began _ => false
  | .rejected => true
  | _ => degraded

/-- A receipt was rejected since the last `begin`. -/
def degraded (notes : List (Note ρ)) : Bool := notes.foldl degrade false

theorem receipts_snoc (lease : Lease) (notes : List (Note ρ)) (note : Note ρ) :
    receipts lease (notes ++ [note]) = hold lease (receipts lease notes) note := by
  simp [receipts]

theorem degraded_snoc (notes : List (Note ρ)) (note : Note ρ) :
    degraded (notes ++ [note]) = degrade (degraded notes) note := by
  simp [degraded]

/-- The last thing that reset the selector was the `begin` that made the adapter. -/
def OpenFor (adapter : Adapter) (notes : List (Note ρ)) : Prop :=
  ∃ before after, notes = before ++ .opened :: .began adapter :: after ∧ .opened ∉ after

theorem OpenFor.snoc {adapter : Adapter} {notes : List (Note ρ)} {note : Note ρ} (h : OpenFor adapter notes)
    (hnote : note ≠ .opened) : OpenFor adapter (notes ++ [note]) := by
  obtain ⟨before, after, rfl, hafter⟩ := h
  refine ⟨before, after ++ [note], by simp, ?_⟩
  simp [hafter, hnote.symm]

/-! ## The gate -/

structure Gated (lib : CueSelector ρ σ) (s : St ρ σ) : Prop where
  /-- The selector holds exactly what the adapters of the current lease delivered. -/
  held : degraded s.log = false → lib.held s.selector = receipts s.lease s.log
  /-- From a rejected receipt to the next `begin` it holds nothing. -/
  empty : degraded s.log = true → lib.held s.selector = []
  /-- An adapter of the current generation is the runtime's own, unless the 64-bit
      generation has come round since its `begin`. -/
  own : ∀ a ∈ s.adapters, a.lease.generation = s.generation → s.adapter = some a ∨ a.serial + 2 ^ 64 ≤ s.serial
  /-- What the runtime's own adapter delivers is counted from its `begin` on, unless the
      generation came round to 0 and the epoch was initialized again. -/
  since : ∀ a, s.adapter = some a → (a.lease = s.lease ∧ OpenFor a s.log) ∨ 2 ^ 64 ≤ s.serial
  pushed : ∀ epoch generation request, pushAudio s epoch generation request = true →
    s.lease = ⟨generation, epoch, request⟩
  renewed : ∀ call s', step lib s call = some s' → s'.lease = s.lease.after call
  /-- The adapter of a `begin` is a new one, for the lease that the `begin` makes current. -/
  begun : ∀ epoch request accepted s', begin lib s epoch request accepted = some s' →
    ∃ a, s'.adapter = some a ∧ a ∉ s.adapters ∧ a.lease = s'.lease
  /-- After an `invalidate` no chunk is taken until the next `begin`. -/
  invalidated : ∀ playbackEpoch epoch generation request,
    pushAudio (invalidate lib s playbackEpoch) epoch generation request = false

structure Inv (lib : CueSelector ρ σ) (s : St ρ σ) : Prop where
  flag : s.cueHistoryDegraded = degraded s.log
  held : degraded s.log = false → lib.held s.selector = receipts s.lease s.log
  empty : degraded s.log = true → lib.held s.selector = []
  generation : s.generation = UInt64.ofNat s.serial
  numbered : ∀ a ∈ s.adapters, a.lease.generation = UInt64.ofNat a.serial ∧ a.serial ≤ s.serial
  latest : ∀ a ∈ s.adapters, a.serial = s.serial → s.adapter = some a
  live : ∀ a, s.adapter = some a → 0 < s.serial
  since : ∀ a, s.adapter = some a → (a.lease = s.lease ∧ OpenFor a s.log) ∨ 2 ^ 64 ≤ s.serial

theorem inv_initial (hlib : lib.Lawful) : Inv lib (initial lib) where
  flag := rfl
  held _ := hlib.initial_held
  empty h := by cases h
  generation := rfl
  numbered _ h := (List.not_mem_nil h).elim
  latest _ h := (List.not_mem_nil h).elim
  live _ h := by cases h
  since _ h := by cases h

/-- The counter is 0 before its first step and after 2^64 of them. -/
theorem serial_of_zero {n : Nat} (h : UInt64.ofNat n = 0) : n = 0 ∨ 2 ^ 64 ≤ n := by
  have hmod : n % 2 ^ 64 = 0 := by simpa using congrArg UInt64.toNat h
  omega

theorem serial_of_eq {m n : Nat} (h : UInt64.ofNat m = UInt64.ofNat n) (hle : m ≤ n) : m = n ∨ m + 2 ^ 64 ≤ n := by
  have hmod : m % 2 ^ 64 = n % 2 ^ 64 := by simpa using congrArg UInt64.toNat h
  omega

theorem ofNat_succ (n : Nat) : UInt64.ofNat n + 1 = UInt64.ofNat (n + 1) := by
  simp

theorem inv_initializeEpoch (hlib : lib.Lawful) (hi : Inv lib s) {playbackEpoch : UInt64}
    (hs : initializeEpoch lib s playbackEpoch = some s') : Inv lib s' := by
  unfold initializeEpoch at hs
  split at hs
  · cases hs
  split at hs
  · cases hs
  rename_i hgen
  cases hs
  have hlog : degraded (s.log ++ [.opened]) = degraded s.log := degraded_snoc _ _
  refine ⟨hi.flag.trans hlog.symm, fun _ => ?_, fun _ => hlib.reset_held _ _ _, hi.generation, hi.numbered,
    hi.latest, hi.live, fun a ha => .inr ?_⟩
  · rw [receipts_snoc, hlib.reset_held]
    rfl
  · rcases serial_of_zero (hi.generation.symm.trans (not_not.mp hgen)) with hzero | hround
    · have hlive := hi.live a ha
      omega
    · exact hround

theorem inv_begin (hlib : lib.Lawful) (hi : Inv lib s) {playbackEpoch : UInt64} {requestId : RequestId}
    {accepted : Bool} (hs : begin lib s playbackEpoch requestId accepted = some s') : Inv lib s' := by
  unfold begin at hs
  split at hs
  · cases hs
    have hlog (adapter : Adapter) : degraded (s.log ++ [.opened, .began adapter]) = false := by
      simp [degraded, degrade]
    refine ⟨(hlog _).symm, fun _ => ?_, fun h => ?_, ?_, ?_, ?_, fun _ _ => Nat.succ_pos _, ?_⟩
    · simp [receipts, hold, hlib.reset_held]
    · rw [hlog] at h
      cases h
    · exact (congrArg (· + 1) hi.generation).trans (ofNat_succ _)
    · intro a ha
      rcases List.mem_append.mp ha with hold | hnew
      · obtain ⟨hgen, hle⟩ := hi.numbered a hold
        exact ⟨hgen, Nat.le_succ_of_le hle⟩
      · cases List.mem_singleton.mp hnew
        exact ⟨(congrArg (· + 1) hi.generation).trans (ofNat_succ _), Nat.le_refl _⟩
    · intro a ha hserial
      rcases List.mem_append.mp ha with hold | hnew
      · have hle := (hi.numbered a hold).2
        simp only at hserial
        omega
      · exact congrArg some (List.mem_singleton.mp hnew).symm
    · intro a ha
      cases ha
      exact .inl ⟨rfl, s.log, [], rfl, List.not_mem_nil⟩
  · cases hs

theorem inv_invalidate (hlib : lib.Lawful) (hi : Inv lib s) (playbackEpoch : UInt64) :
    Inv lib (invalidate lib s playbackEpoch) := by
  have hlog : degraded (s.log ++ [.opened]) = degraded s.log := degraded_snoc _ _
  refine ⟨hi.flag.trans hlog.symm, fun _ => ?_, fun _ => hlib.reset_held _ _ _, ?_, ?_, ?_, ?_, ?_⟩
  · simp [invalidate, receipts_snoc, hold, hlib.reset_held]
  · exact (congrArg (· + 1) hi.generation).trans (ofNat_succ _)
  · intro a ha
    obtain ⟨hgen, hle⟩ := hi.numbered a ha
    exact ⟨hgen, Nat.le_succ_of_le hle⟩
  · intro a ha hserial
    have hle := (hi.numbered a ha).2
    simp only [invalidate] at hserial
    omega
  · intro a ha
    cases ha
  · intro a ha
    cases ha

theorem inv_onReceipt (hlib : lib.Lawful) (hi : Inv lib s) (adapter : Adapter) (receipt : ρ) :
    Inv lib (onReceipt lib s adapter receipt) := by
  have hsince {log : List (Note ρ)} (hlog : ∀ a, OpenFor a s.log → OpenFor a log) (a : Adapter)
      (ha : s.adapter = some a) : (a.lease = s.lease ∧ OpenFor a log) ∨ 2 ^ 64 ≤ s.serial :=
    (hi.since a ha).imp_left fun ⟨hlease, hopen⟩ => ⟨hlease, hlog a hopen⟩
  have hdelivered : degraded (s.log ++ [.delivered adapter receipt]) = degraded s.log := degraded_snoc _ _
  unfold onReceipt
  split
  · rename_i hgate
    refine ⟨hi.flag.trans hdelivered.symm, fun h => ?_, fun h => hi.empty (hdelivered.symm.trans h), hi.generation,
      hi.numbered, hi.latest, hi.live, hsince fun _ hopen => hopen.snoc nofun⟩
    -- the handler returned although the history is intact, so the adapter's lease has ended
    rw [hdelivered] at h
    have hlease : adapter.lease ≠ s.lease := by
      rintro hlease
      simp only [hlease, hi.flag, h] at hgate
      simp [St.lease] at hgate
    have hkeep := receipts_snoc s.lease s.log (.delivered adapter receipt)
    rw [hold, if_neg hlease] at hkeep
    exact (hi.held h).trans hkeep.symm
  · rename_i hgate
    simp only [not_or, not_not, Bool.not_eq_true] at hgate
    obtain ⟨hgen, hepoch, hrequest, hflag⟩ := hgate
    have hintact : degraded s.log = false := hi.flag.symm.trans hflag
    have hlease : adapter.lease = s.lease := by
      cases adapter
      simp only [St.lease, ← hgen, hepoch, hrequest]
    dsimp only
    split
    · rename_i haccepted
      refine ⟨hi.flag.trans hdelivered.symm, fun _ => ?_, fun h => ?_, hi.generation, hi.numbered, hi.latest, hi.live,
        hsince fun _ hopen => hopen.snoc nofun⟩
      · have hadd := receipts_snoc s.lease s.log (.delivered adapter receipt)
        rw [hold, if_pos hlease] at hadd
        calc lib.held (lib.append receipt s.selector).2
            = lib.held s.selector ++ [receipt] := hlib.append_held receipt s.selector haccepted
          _ = receipts s.lease s.log ++ [receipt] := by rw [hi.held hintact]
          _ = receipts s.lease (s.log ++ [.delivered adapter receipt]) := hadd.symm
      · rw [hdelivered, hintact] at h
        cases h
    · have hrejected : degraded (s.log ++ [.delivered adapter receipt, .rejected]) = true := by
        simp [degraded, degrade]
      refine ⟨hrejected.symm, fun h => ?_, fun _ => hlib.reset_held _ _ _, hi.generation, hi.numbered, hi.latest,
        hi.live, hsince fun _ hopen => ?_⟩
      · rw [hrejected] at h
        cases h
      · have hone : OpenFor _ (s.log ++ [.delivered adapter receipt]) := hopen.snoc nofun
        have htwo : OpenFor _ (s.log ++ [.delivered adapter receipt] ++ [.rejected]) := hone.snoc nofun
        rwa [List.append_assoc] at htwo

theorem step_inv (hlib : lib.Lawful) (hi : Inv lib s) (hs : step lib s e = some s') : Inv lib s' := by
  cases e with
  | initializeEpoch playbackEpoch => exact inv_initializeEpoch hlib hi hs
  | begin playbackEpoch requestId accepted => exact inv_begin hlib hi hs
  | invalidate playbackEpoch =>
    cases hs
    exact inv_invalidate hlib hi playbackEpoch
  | pushAudio playbackEpoch generation requestId =>
    cases hs
    exact hi
  | deliver adapter receipt =>
    simp only [step] at hs
    split at hs
    · cases hs
      exact inv_onReceipt hlib hi adapter receipt
    · cases hs

theorem reach_inv (hlib : lib.Lawful) (h : ReachS lib s) : Inv lib s :=
  h.inv (inv_initial hlib) fun _ _ _ _ hi _ hs => step_inv hlib hi hs

theorem pushAudio_lease {epoch generation : UInt64} {request : RequestId}
    (h : pushAudio s epoch generation request = true) : s.lease = ⟨generation, epoch, request⟩ := by
  unfold pushAudio at h
  split at h
  · cases h
  · rename_i hgate
    simp only [not_or, not_not] at hgate
    simp [St.lease, hgate]

/-! ## The lease -/

theorem onReceipt_lease (adapter : Adapter) (receipt : ρ) : (onReceipt lib s adapter receipt).lease = s.lease := by
  unfold onReceipt
  split
  · rfl
  · dsimp only
    split <;> rfl

theorem step_lease (hs : step lib s e = some s') : s'.lease = s.lease.after e := by
  cases e with
  | initializeEpoch playbackEpoch =>
    simp only [step, initializeEpoch] at hs
    split at hs
    · cases hs
    · split at hs <;> cases hs
      rfl
  | begin playbackEpoch requestId accepted =>
    simp only [step, begin] at hs
    split at hs <;> cases hs
    rfl
  | invalidate playbackEpoch =>
    cases hs
    rfl
  | pushAudio playbackEpoch generation requestId =>
    cases hs
    rfl
  | deliver adapter receipt =>
    simp only [step] at hs
    split at hs <;> cases hs
    exact onReceipt_lease adapter receipt

theorem begin_adapter (hi : Inv lib s) {epoch : UInt64} {request : RequestId} {accepted : Bool}
    (hs : begin lib s epoch request accepted = some s') :
    ∃ a, s'.adapter = some a ∧ a ∉ s.adapters ∧ a.lease = s'.lease := by
  unfold begin at hs
  split at hs <;> cases hs
  refine ⟨_, rfl, fun hmem => ?_, rfl⟩
  -- the adapters made before have lower serials
  have hle := (hi.numbered _ hmem).2
  exact absurd hle (Nat.not_succ_le_self s.serial)

theorem pushAudio_invalidate (playbackEpoch epoch generation : UInt64) (request : RequestId) :
    pushAudio (invalidate lib s playbackEpoch) epoch generation request = false := by
  unfold pushAudio
  split <;> rfl

theorem receipts_are_gated (hlib : lib.Lawful) (h : ReachS lib s) : Gated lib s := by
  have hi := reach_inv hlib h
  refine ⟨hi.held, hi.empty, fun a ha hgen => ?_, hi.since, fun _ _ _ => pushAudio_lease, fun _ _ => step_lease,
    fun _ _ _ _ => begin_adapter hi, pushAudio_invalidate⟩
  obtain ⟨hnumber, hle⟩ := hi.numbered a ha
  exact (serial_of_eq (hnumber.symm.trans (hgen.trans hi.generation)) hle).imp_left (hi.latest a ha)

/-! ## A run -/

/-- A selector that holds at most two receipts. -/
def twoReceipts : CueSelector Nat (List Nat) where
  initial := []
  reset _ _ _ := []
  append x held := if held.length < 2 then (true, held ++ [x]) else (false, held)
  held := id

theorem twoReceipts_lawful : twoReceipts.Lawful where
  initial_held := rfl
  reset_held _ _ _ := rfl
  append_held x s h := by
    simp only [twoReceipts] at h ⊢
    split at h
    · rename_i hroom
      rw [if_pos hroom]
      rfl
    · cases h

/-- The adapter of the first `begin` delivers after the second: its receipt is not held. -/
theorem a_late_receipt_is_dropped : ∃ s : St Nat (List Nat),
    ReachS twoReceipts s ∧ Gated twoReceipts s ∧ s.adapters.length = 2 ∧ s.selector = [7] := by
  let first : Adapter := ⟨⟨1, 5, 1⟩, 1⟩
  let second : Adapter := ⟨⟨2, 5, 2⟩, 2⟩
  let calls : List (Call Nat) := [.begin 5 1 true, .deliver first 6, .begin 5 2 true, .deliver second 7, .deliver first 8]
  obtain ⟨s, hs, hp⟩ := exists_reach_of_run calls
    (show (run (step twoReceipts) anyStep (initial twoReceipts) calls).map
      (fun s => s.adapters.length == 2 && s.selector == [7]) = some true by decide)
  rw [Bool.and_eq_true, beq_iff_eq, beq_iff_eq] at hp
  exact ⟨s, hs, receipts_are_gated twoReceipts_lawful hs, hp.1, hp.2⟩

end QwenTtsBridge.Playback.AnimationRuntime
