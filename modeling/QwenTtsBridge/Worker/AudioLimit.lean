/-
  QwenTtsBridge.Worker.AudioLimit — the safety limit of the audio that the Python worker
  streams (`QwenTtsEngine.synthesize_stream` of `engine/qwen_engine.py`).

  The stream is a Python generator over the generator of the model. A step is the part of
  its body between two points where something from outside comes in: the next chunk, the
  cancel event, the consumer that resumes or closes it at a `yield`. An iteration that finds
  no PCM in a chunk yields nothing and goes on, so between two yields there may be any
  number of steps.

  What the model generates may be finite or not. How a sample becomes 16 bits (`quantise`)
  and what the close, the reset and the trace capture of the `finally` block raise are
  parameters. Before the first step the request's seed is set and the generator is made.

  `synthesize_stream_keeps_the_limit`: in every run the bytes are a prefix of the PCM,
  in whole samples, within the limit; a run that nobody disturbs ends normally with all of
  it, or with the largest prefix and the safety error, or goes on as long as the model does
  (`runFor`, which is one of these runs: `runFor_reachable`).
  A limit whose bytes a double cannot hold is none: `int` raises, and the model's generator
  is not closed (`a_limit_past_the_doubles_raises`).
-/

import QwenTtsBridge.Lib.Binary64
import QwenTtsBridge.Lib.LittleEndian
import QwenTtsBridge.Lib.Transition

namespace QwenTtsBridge.Worker.AudioLimit

open QwenTtsBridge.Lib QwenTtsBridge.Lib.LittleEndian QwenTtsBridge.Lib.Transition

/-! ## Model -/

/-- `max_audio_seconds_per_utterance`: finite and positive. -/
structure SafetyLimit where
  seconds : Binary64.Finite
  positive : seconds.negative = false ∧ seconds.mantissa ≠ 0

/-- `validate_request` lets only 24000 Hz mono through. -/
structure OutputFormat where
  sampleRate : Nat := 24000
  channels : Nat := 1
  positive : 0 < sampleRate * channels := by decide

def OutputFormat.bytesPerSecond (output : OutputFormat) : Nat := output.sampleRate * output.channels * 2

inductive EngineError where
  | unsupportedSampleRate (actual expected : Nat)
  | safetyLimit (limitSeconds : Binary64.Finite) (emittedSeconds : Binary64)
  /-- `int` of an infinity. -/
  | overflow
  /-- What the model, its close or its reset, or the trace capture raised. -/
  | raised (what : String)
  deriving DecidableEq, Repr

inductive Ending where
  | returned
  | raised (e : EngineError)
  deriving DecidableEq, Repr

structure Chunk (σ : Type) where
  wav : List σ
  sampleRate : Nat

/-- What surrounds one stream. -/
structure Setup (σ : Type) where
  quantise : σ → Int16
  output : OutputFormat := {}
  maxAudioSeconds : Option SafetyLimit
  /-- The items of the model's generator: a chunk or what it raises; none is its end. -/
  generated : Nat → Option (Except EngineError (Chunk σ))
  closable : Bool := true
  faster : Bool := false
  closeFailure : Option EngineError := none
  resetFailure : Option EngineError := none
  captureFailure : Option EngineError := none

inductive Phase where
  | created
  /-- At the head of the loop. -/
  | looping
  /-- At the `yield`. -/
  | suspended (truncated : Bool)
  | ended (ending : Ending)
  deriving DecidableEq, Repr

structure St where
  phase : Phase := .created
  maxAudioBytes : Option Int := none
  emittedAudioBytes : Int := 0
  /-- The items asked for so far. -/
  taken : Nat := 0
  /-- The model's generator was closed, the trace was captured. -/
  closed : Bool := false
  captured : Bool := false
  yielded : List (List UInt8) := []
  deriving DecidableEq, Repr

/-- What came out, as one string of bytes. -/
def St.bytes (s : St) : List UInt8 := s.yielded.flatten

/-- Where in an iteration the cancel event is found set. -/
structure Cancelled where
  atHead : Bool := false
  afterNext : Bool := false
  atEnd : Bool := false
  deriving DecidableEq, Repr

section Steps

variable {σ : Type} (setup : Setup σ)

/-- `_float_audio_to_s16le`. -/
def Setup.floatAudioToS16le (audio : List σ) : List UInt8 :=
  audio.flatMap fun sample => writeLe 2 (setup.quantise sample).toUInt16.toNat

/-- `int` of a double. -/
def intOf : Binary64 → Except EngineError (Option Int)
  | .finite x => .ok (some x.toInt)
  | _ => .error .overflow

/-- `_max_audio_bytes`. -/
def Setup.maxAudioBytes : Except EngineError (Option Int) :=
  match setup.maxAudioSeconds with
  | none => .ok none
  | some limit => intOf (limit.seconds.timesNat setup.output.bytesPerSecond)

/-- `_safety_duration_limit_error`. -/
def Setup.safetyDurationLimitError (emittedAudioBytes : Int) : EngineError :=
  match setup.maxAudioSeconds with
  | some limit =>
    .safetyLimit limit.seconds (.ofRatio (emittedAudioBytes < 0) emittedAudioBytes.natAbs setup.output.bytesPerSecond)
  | none => .raised "AssertionError"

/-- The `finally` block. -/
def finish (completed : Bool) (ending : Ending) (s : St) : St :=
  let s := { s with closed := setup.closable }
  match if setup.closable then setup.closeFailure else none with
  | some e => { s with phase := .ended (.raised e) }
  | none =>
    match if setup.faster then setup.resetFailure else none with
    | some e => { s with phase := .ended (.raised e) }
    | none =>
      if completed then
        { s with captured := true, phase := .ended ((setup.captureFailure.map Ending.raised).getD ending) }
      else { s with phase := .ended ending }

/-- Up to the loop. -/
def start (cancelled : Bool) (s : St) : St :=
  if cancelled then { s with phase := .ended .returned }
  else
    match setup.maxAudioBytes with
    | .error e => { s with phase := .ended (.raised e) }
    | .ok maxAudioBytes => { s with phase := .looping, maxAudioBytes := maxAudioBytes }

def yieldPcm (pcm : List UInt8) (truncated : Bool) (s : St) : St :=
  { s with
    phase := .suspended truncated
    emittedAudioBytes := s.emittedAudioBytes + pcm.length
    yielded := s.yielded ++ [pcm] }

/-- The PCM of a chunk, not empty, against what is left of the limit. -/
def emit (pcm : List UInt8) (s : St) : St :=
  match s.maxAudioBytes with
  | none => yieldPcm pcm false s
  | some maxAudioBytes =>
    let remainingBytes := maxAudioBytes - s.emittedAudioBytes
    if remainingBytes ≤ 0 then finish setup false (.raised (setup.safetyDurationLimitError s.emittedAudioBytes)) s
    else if (pcm.length : Int) > remainingBytes then
      let pcm := pcm.take (remainingBytes - remainingBytes % 2).toNat
      if pcm = [] then finish setup false (.raised (setup.safetyDurationLimitError s.emittedAudioBytes)) s
      else yieldPcm pcm true s
    else yieldPcm pcm false s

/-- One iteration of the loop. -/
def iterate (cancelled : Cancelled) (s : St) : St :=
  if cancelled.atHead then finish setup false .returned s
  else
    match setup.generated s.taken with
    | none => finish setup (!cancelled.atEnd) .returned s
    | some (.error e) => finish setup false (.raised e) s
    | some (.ok chunk) =>
      let s := { s with taken := s.taken + 1 }
      if cancelled.afterNext then finish setup false .returned s
      else if chunk.sampleRate ≠ setup.output.sampleRate then
        finish setup false (.raised (.unsupportedSampleRate chunk.sampleRate setup.output.sampleRate)) s
      else
        let pcm := setup.floatAudioToS16le chunk.wav
        if pcm = [] then s else emit setup pcm s

/-- The consumer asks for more after a `yield`. -/
def resume (truncated : Bool) (s : St) : St :=
  if truncated then finish setup false (.raised (setup.safetyDurationLimitError s.emittedAudioBytes)) s
  else { s with phase := .looping }

inductive Ev where
  | start (cancelled : Bool)
  | iterate (cancelled : Cancelled)
  | resume
  /-- The consumer closes the stream at a `yield`. -/
  | close
  deriving DecidableEq, Repr

def step (s : St) (e : Ev) : Option St :=
  match e, s.phase with
  | .start cancelled, .created => some (start setup cancelled s)
  | .iterate cancelled, .looping => some (iterate setup cancelled s)
  | .resume, .suspended truncated => some (resume setup truncated s)
  | .close, .suspended _ => some (finish setup false .returned s)
  | _, _ => none

abbrev Reachable := Reach (step setup) anyStep ({} : St)

/-- The run in which nothing is cancelled and the consumer takes all. -/
def advance (s : St) : St :=
  match s.phase with
  | .created => start setup false s
  | .looping => iterate setup {} s
  | .suspended truncated => resume setup truncated s
  | .ended _ => s

def runFor : Nat → St
  | 0 => {}
  | n + 1 => advance setup (runFor n)

end Steps

/-! ## The PCM -/

variable {σ : Type} {setup : Setup σ} {s : St}

/-- The PCM of an item. -/
def Setup.itemPcm (setup : Setup σ) : Option (Except EngineError (Chunk σ)) → List UInt8
  | some (.ok chunk) => setup.floatAudioToS16le chunk.wav
  | _ => []

/-- The PCM of the first `n` items. -/
def Setup.pcm (setup : Setup σ) : Nat → List UInt8
  | 0 => []
  | n + 1 => setup.pcm n ++ setup.itemPcm (setup.generated n)

/-- The largest prefix of whole samples within `limit` bytes. -/
def wholeSamples (limit : Int) (pcm : List UInt8) : List UInt8 := pcm.take (limit - limit % 2).toNat

theorem length_floatAudioToS16le (audio : List σ) : (setup.floatAudioToS16le audio).length % 2 = 0 := by
  unfold Setup.floatAudioToS16le
  induction audio with
  | nil => rfl
  | cons sample audio ih =>
    rw [List.flatMap_cons, List.length_append, writeLe_length]
    omega

theorem length_pcm (n : Nat) : (setup.pcm n).length % 2 = 0 := by
  induction n with
  | zero => rfl
  | succ n ih =>
    have hitem : (setup.itemPcm (setup.generated n)).length % 2 = 0 := by
      unfold Setup.itemPcm
      split
      · exact length_floatAudioToS16le _
      · rfl
    rw [Setup.pcm, List.length_append]
    omega

theorem pcm_mono {n m : Nat} (h : n ≤ m) : setup.pcm n <+: setup.pcm m := by
  induction m with
  | zero =>
    cases Nat.le_zero.mp h
    exact List.prefix_rfl
  | succ m ih =>
    rcases Nat.le_or_eq_of_le_succ h with h | rfl
    · exact (ih h).trans (List.prefix_append _ _)
    · exact List.prefix_rfl

theorem length_wholeSamples {limit : Int} {pcm : List UInt8} (hlimit : 0 ≤ limit) (hpcm : pcm.length % 2 = 0) :
    ((wholeSamples limit pcm).length : Int) ≤ limit ∧ (wholeSamples limit pcm).length % 2 = 0 := by
  unfold wholeSamples
  rw [List.length_take]
  omega

theorem wholeSamples_starts (limit : Int) (pcm : List UInt8) : wholeSamples limit pcm <+: pcm := List.take_prefix _ _

theorem wholeSamples_largest {limit : Int} {part pcm : List UInt8} (hpart : part <+: pcm) (heven : part.length % 2 = 0)
    (hfits : (part.length : Int) ≤ limit) : part <+: wholeSamples limit pcm := by
  unfold wholeSamples
  rw [List.prefix_take_iff]
  exact ⟨hpart, by omega⟩

/-- Whole samples that fit stay in front. -/
theorem wholeSamples_append {limit : Int} {old new : List UInt8} (heven : old.length % 2 = 0)
    (hfits : (old.length : Int) ≤ limit) : wholeSamples limit (old ++ new) = old ++ wholeSamples (limit - old.length) new := by
  unfold wholeSamples
  have hcount : (limit - limit % 2).toNat =
      old.length + (limit - old.length - (limit - old.length) % 2).toNat := by omega
  rw [hcount, List.take_length_add_append]

/-- More PCM past the limit does not matter. -/
theorem wholeSamples_of_extends {limit : Int} {pcm more : List UInt8} (hextends : pcm <+: more)
    (hover : limit < pcm.length) : wholeSamples limit more = wholeSamples limit pcm := by
  obtain ⟨rest, rfl⟩ := hextends
  unfold wholeSamples
  rw [List.take_append_of_le_length (by omega)]

/-! ## One step -/

theorem bytes_yieldPcm (pcm : List UInt8) (truncated : Bool) : (yieldPcm pcm truncated s).bytes = s.bytes ++ pcm := by
  simp [St.bytes, yieldPcm]

section Finish

variable {completed : Bool} {ending : Ending}

@[simp] theorem finish_yielded : (finish setup completed ending s).yielded = s.yielded := by
  unfold finish
  dsimp only
  repeat' split
  all_goals rfl

@[simp] theorem finish_bytes : (finish setup completed ending s).bytes = s.bytes := by
  unfold St.bytes
  rw [finish_yielded]

@[simp] theorem finish_taken : (finish setup completed ending s).taken = s.taken := by
  unfold finish
  dsimp only
  repeat' split
  all_goals rfl

@[simp] theorem finish_closed : (finish setup completed ending s).closed = setup.closable := by
  unfold finish
  dsimp only
  repeat' split
  all_goals rfl

theorem finish_ended : ∃ ending', (finish setup completed ending s).phase = .ended ending' := by
  unfold finish
  dsimp only
  repeat' split
  all_goals exact ⟨_, rfl⟩

/-- Only a completed stream has its trace captured. -/
theorem finish_captured (h : s.captured = false) (hcaptured : (finish setup completed ending s).captured = true) :
    completed = true ∧
      (setup.captureFailure = none → (finish setup completed ending s).phase = .ended ending) := by
  unfold finish at hcaptured ⊢
  dsimp only at hcaptured ⊢
  split at hcaptured
  · rw [h] at hcaptured
    cases hcaptured
  split at hcaptured
  · rw [h] at hcaptured
    cases hcaptured
  split at hcaptured
  · rename_i hcompleted
    refine ⟨hcompleted, fun hnone => ?_⟩
    rw [if_pos hcompleted, hnone]
    rfl
  · rw [h] at hcaptured
    cases hcaptured

/-- The `finally` block of a model whose calls go through. -/
theorem finish_quiet (hclose : setup.closeFailure = none) (hreset : setup.resetFailure = none)
    (hcapture : setup.captureFailure = none) :
    finish setup completed ending s =
      { s with closed := setup.closable, captured := completed || s.captured, phase := .ended ending } := by
  unfold finish
  simp only [hclose, hreset, hcapture, ite_self]
  cases completed <;> rfl

end Finish

/-- Between two items: all that was generated has come out. -/
structure Steady (setup : Setup σ) (s : St) : Prop where
  bytes : s.bytes = setup.pcm s.taken
  emitted : s.emittedAudioBytes = s.bytes.length
  limit : setup.maxAudioBytes = .ok s.maxAudioBytes
  within : ∀ max, s.maxAudioBytes = some max → (s.bytes.length : Int) ≤ max
  uncaptured : s.captured = false

/-- The limit is reached: what fits has come out. -/
structure Reached (setup : Setup σ) (s : St) : Prop where
  exceeded : ∃ max, setup.maxAudioBytes = .ok (some max) ∧ 0 ≤ max ∧ max < (setup.pcm s.taken).length ∧
    s.bytes = wholeSamples max (setup.pcm s.taken)
  uncaptured : s.captured = false

/-- What holds of the bytes at every moment. -/
structure Within (setup : Setup σ) (s : St) : Prop where
  front : s.bytes <+: setup.pcm s.taken
  whole : s.bytes.length % 2 = 0
  limit : ∀ max, setup.maxAudioBytes = .ok (some max) → (s.bytes.length : Int) ≤ max

/-- An item has been asked for. -/
def St.next (s : St) : St := { s with taken := s.taken + 1 }

theorem Steady.within_self (h : Steady setup s) : Within setup s := by
  refine ⟨h.bytes ▸ List.prefix_rfl, ?_, fun max hmax => ?_⟩
  · rw [h.bytes]
    exact length_pcm _
  · rw [h.limit] at hmax
    exact h.within max (Except.ok.inj hmax)

theorem Steady.within_next (h : Steady setup s) : Within setup s.next := by
  obtain ⟨hfront, hwhole, hlimit⟩ := h.within_self
  exact ⟨hfront.trans (pcm_mono (Nat.le_succ _)), hwhole, hlimit⟩

theorem Reached.within_self (h : Reached setup s) : Within setup s := by
  obtain ⟨max, hmax, hnonneg, hover, hbytes⟩ := h.exceeded
  have heven : (setup.pcm s.taken).length % 2 = 0 := length_pcm s.taken
  obtain ⟨hle, hwhole⟩ := length_wholeSamples hnonneg heven
  rw [← hbytes] at hle hwhole
  refine ⟨hbytes ▸ wholeSamples_starts max _, hwhole, fun max' hmax' => ?_⟩
  rw [hmax] at hmax'
  cases hmax'
  exact hle

theorem Within.after_finish {completed : Bool} {ending : Ending} (h : Within setup s) :
    Within setup (finish setup completed ending s) := by
  refine ⟨?_, ?_, ?_⟩
  · rw [finish_bytes, finish_taken]
    exact h.front
  · rw [finish_bytes]
    exact h.whole
  · rw [finish_bytes]
    exact h.limit

section Emit

variable {chunk : Chunk σ}

theorem pcm_next (hitem : setup.generated s.taken = some (.ok chunk)) :
    setup.pcm s.next.taken = setup.pcm s.taken ++ setup.floatAudioToS16le chunk.wav := by
  rw [St.next, Setup.pcm, hitem]
  rfl

/-- A chunk without PCM. -/
theorem Steady.skip (h : Steady setup s) (hitem : setup.generated s.taken = some (.ok chunk))
    (hempty : setup.floatAudioToS16le chunk.wav = []) : Steady setup s.next := by
  refine ⟨?_, h.emitted, h.limit, h.within, h.uncaptured⟩
  rw [pcm_next hitem, hempty, List.append_nil]
  exact h.bytes

/-- A chunk that fits comes out whole. -/
theorem Steady.emit_fits (h : Steady setup s) (hitem : setup.generated s.taken = some (.ok chunk))
    (hpcm : setup.floatAudioToS16le chunk.wav ≠ [])
    (hfits : ∀ max, s.maxAudioBytes = some max → ((setup.pcm s.next.taken).length : Int) ≤ max) :
    emit setup (setup.floatAudioToS16le chunk.wav) s.next = yieldPcm (setup.floatAudioToS16le chunk.wav) false s.next ∧
      Steady setup (yieldPcm (setup.floatAudioToS16le chunk.wav) false s.next) := by
  have hbytes : (yieldPcm (setup.floatAudioToS16le chunk.wav) false s.next).bytes = setup.pcm s.next.taken := by
    rw [bytes_yieldPcm, pcm_next hitem, ← h.bytes]
    rfl
  constructor
  · unfold emit
    cases hmax : s.next.maxAudioBytes with
    | none => rfl
    | some max =>
      have hroom := hfits max hmax
      rw [pcm_next hitem, List.length_append, ← h.bytes] at hroom
      have hpositive := List.length_pos_iff.mpr hpcm
      have hemitted : s.next.emittedAudioBytes = s.bytes.length := h.emitted
      dsimp only
      rw [if_neg (by omega), if_neg (by omega)]
  · refine ⟨hbytes, ?_, h.limit, fun max hmax => ?_, h.uncaptured⟩
    · rw [bytes_yieldPcm, List.length_append, Nat.cast_add]
      exact congrArg (· + _) h.emitted
    · rw [hbytes]
      exact hfits max hmax

/-- A chunk that does not fit: its samples that fit come out, if any. -/
theorem Steady.emit_over (h : Steady setup s) (hitem : setup.generated s.taken = some (.ok chunk)) {max : Int}
    (hmax : s.maxAudioBytes = some max) (hover : max < (setup.pcm s.next.taken).length) :
    ∃ s', (emit setup (setup.floatAudioToS16le chunk.wav) s.next =
          finish setup false (.raised (setup.safetyDurationLimitError s'.emittedAudioBytes)) s' ∨
        emit setup (setup.floatAudioToS16le chunk.wav) s.next = s' ∧ s'.phase = .suspended true) ∧
      Reached setup s' ∧ s'.emittedAudioBytes = s'.bytes.length ∧ s'.taken = s.next.taken := by
  have hroom := h.within max hmax
  have heven := h.within_self.whole
  have hall : wholeSamples max (setup.pcm s.next.taken) =
      s.bytes ++ wholeSamples (max - s.bytes.length) (setup.floatAudioToS16le chunk.wav) := by
    rw [pcm_next hitem, ← h.bytes, wholeSamples_append heven hroom]
  have hlimit : setup.maxAudioBytes = .ok (some max) := hmax ▸ h.limit
  have hemitted : s.next.emittedAudioBytes = s.bytes.length := h.emitted
  have hnew := hover
  rw [pcm_next hitem, List.length_append, ← h.bytes] at hnew
  -- What is cut off, when nothing more comes out.
  have hdone (hnothing : wholeSamples (max - s.bytes.length) (setup.floatAudioToS16le chunk.wav) = []) :
      Reached setup s.next := by
    refine ⟨⟨max, hlimit, by omega, hover, ?_⟩, h.uncaptured⟩
    rw [hall, hnothing, List.append_nil]
    rfl
  unfold emit
  rw [show s.next.maxAudioBytes = some max from hmax]
  dsimp only
  by_cases hspent : max - s.next.emittedAudioBytes ≤ 0
  · rw [if_pos hspent]
    refine ⟨s.next, .inl rfl, hdone ?_, hemitted, rfl⟩
    unfold wholeSamples
    rw [List.take_eq_nil_iff]
    left
    omega
  · rw [if_neg hspent, if_pos (by omega)]
    have hcut : (setup.floatAudioToS16le chunk.wav).take
        (max - s.next.emittedAudioBytes - (max - s.next.emittedAudioBytes) % 2).toNat =
          wholeSamples (max - s.bytes.length) (setup.floatAudioToS16le chunk.wav) := by
      rw [hemitted]
      rfl
    rw [hcut]
    by_cases hnothing : wholeSamples (max - s.bytes.length) (setup.floatAudioToS16le chunk.wav) = []
    · rw [if_pos hnothing]
      exact ⟨s.next, .inl rfl, hdone hnothing, hemitted, rfl⟩
    · rw [if_neg hnothing]
      refine ⟨_, .inr ⟨rfl, rfl⟩, ⟨⟨max, hlimit, by omega, hover, ?_⟩, h.uncaptured⟩, ?_, rfl⟩
      · exact (bytes_yieldPcm _ _).trans hall.symm
      · rw [bytes_yieldPcm, List.length_append, Nat.cast_add]
        exact congrArg (· + _) hemitted

end Emit

/-! ## Every run -/

/-- A captured trace is that of a stream that has ended normally with all of the PCM. -/
structure Safe (setup : Setup σ) (s : St) : Prop extends Within setup s where
  trace : s.captured = true → setup.generated s.taken = none ∧ s.bytes = setup.pcm s.taken ∧
    (setup.captureFailure = none → s.phase = .ended .returned)

inductive Inv (setup : Setup σ) : St → Prop
  | created : Inv setup {}
  | looping {s : St} : s.phase = .looping → Steady setup s → Inv setup s
  | suspended {s : St} : s.phase = .suspended false → Steady setup s → Inv setup s
  | truncated {s : St} : s.phase = .suspended true → Reached setup s → Inv setup s
  | ended {s : St} {ending : Ending} : s.phase = .ended ending → Safe setup s → Inv setup s

theorem inv_finish {completed : Bool} {ending : Ending} (h : Within setup s) (huncaptured : s.captured = false)
    (hcompleted : completed = true →
      setup.generated s.taken = none ∧ s.bytes = setup.pcm s.taken ∧ ending = .returned) :
    Inv setup (finish setup completed ending s) := by
  obtain ⟨ending', hended⟩ : ∃ ending', (finish setup completed ending s).phase = .ended ending' := finish_ended
  refine .ended hended ⟨h.after_finish, fun hcaptured => ?_⟩
  obtain ⟨hdone, hphase⟩ := finish_captured huncaptured hcaptured
  obtain ⟨hend, hbytes, rfl⟩ := hcompleted hdone
  rw [finish_taken, finish_bytes]
  exact ⟨hend, hbytes, hphase⟩

theorem intOf_nonneg {product : Binary64} (hnonneg : ∀ x, product = .finite x → 0 ≤ x.toInt) {max : Int}
    (h : intOf product = .ok (some max)) : 0 ≤ max := by
  cases product with
  | finite x =>
    cases h
    exact hnonneg x rfl
  | nan | infinity negative => cases h

theorem maxAudioBytes_nonneg {max : Int} (h : setup.maxAudioBytes = .ok (some max)) : 0 ≤ max := by
  unfold Setup.maxAudioBytes at h
  split at h
  · cases h
  · rename_i limit _
    exact intOf_nonneg (fun _ hx => Binary64.Finite.timesNat_nonneg limit.positive.1 hx) h

theorem steady_start {maxAudioBytes : Option Int} (h : setup.maxAudioBytes = .ok maxAudioBytes) :
    Steady setup { ({} : St) with phase := .looping, maxAudioBytes := maxAudioBytes } := by
  refine ⟨rfl, rfl, h, fun max hmax => ?_, rfl⟩
  dsimp only at hmax
  rw [hmax] at h
  exact maxAudioBytes_nonneg h

theorem safe_of_nothing {s : St} (hbytes : s.bytes = []) (huncaptured : s.captured = false) : Safe setup s := by
  refine ⟨⟨?_, ?_, fun max hmax => ?_⟩, fun hcaptured => ?_⟩
  · rw [hbytes]
    exact List.nil_prefix
  · rw [hbytes]
    rfl
  · rw [hbytes]
    exact maxAudioBytes_nonneg hmax
  · rw [huncaptured] at hcaptured
    cases hcaptured

theorem start_inv (cancelled : Bool) : Inv setup (start setup cancelled {}) := by
  unfold start
  split
  · exact .ended rfl (safe_of_nothing rfl rfl)
  · cases hmax : setup.maxAudioBytes with
    | error e => exact .ended rfl (safe_of_nothing rfl rfl)
    | ok maxAudioBytes => exact .looping rfl (steady_start hmax)

/-- The PCM of a chunk comes out whole, or the limit is reached. -/
theorem emit_inv {chunk : Chunk σ} (h : Steady setup s) (hitem : setup.generated s.taken = some (.ok chunk))
    (hpcm : setup.floatAudioToS16le chunk.wav ≠ []) :
    Inv setup (emit setup (setup.floatAudioToS16le chunk.wav) s.next) := by
  by_cases hfits : ∀ max, s.maxAudioBytes = some max → ((setup.pcm s.next.taken).length : Int) ≤ max
  · obtain ⟨hemit, hsteady⟩ := h.emit_fits hitem hpcm hfits
    rw [hemit]
    exact .suspended rfl hsteady
  · obtain ⟨max, hover⟩ := Classical.not_forall.mp hfits
    obtain ⟨hmax, hover⟩ := Classical.not_imp.mp hover
    obtain ⟨s', hemit, hreached, -⟩ := h.emit_over hitem hmax (Int.not_le.mp hover)
    rcases hemit with hemit | ⟨hemit, hsuspended⟩
    · rw [hemit]
      exact inv_finish hreached.within_self hreached.uncaptured nofun
    · rw [hemit]
      exact .truncated hsuspended hreached

theorem iterate_inv (h : Steady setup s) (hphase : s.phase = .looping) (cancelled : Cancelled) :
    Inv setup (iterate setup cancelled s) := by
  unfold iterate
  split
  · exact inv_finish h.within_self h.uncaptured nofun
  cases hitem : setup.generated s.taken with
  | none => exact inv_finish h.within_self h.uncaptured fun _ => ⟨hitem, h.bytes, rfl⟩
  | some item =>
    cases item with
    | error e => exact inv_finish h.within_self h.uncaptured nofun
    | ok chunk =>
      dsimp only
      split
      · exact inv_finish h.within_next h.uncaptured nofun
      split
      · exact inv_finish h.within_next h.uncaptured nofun
      split
      · rename_i hempty
        exact .looping hphase (h.skip hitem hempty)
      · rename_i hpcm
        exact emit_inv h hitem hpcm

theorem resume_inv {truncated : Bool} (h : Inv setup s) (hphase : s.phase = .suspended truncated) :
    Inv setup (resume setup truncated s) := by
  cases h with
  | suspended hsuspended hsteady =>
    rw [hphase] at hsuspended
    cases hsuspended
    exact .looping rfl ⟨hsteady.bytes, hsteady.emitted, hsteady.limit, hsteady.within, hsteady.uncaptured⟩
  | truncated hsuspended hreached =>
    rw [hphase] at hsuspended
    cases hsuspended
    exact inv_finish hreached.within_self hreached.uncaptured nofun
  | created => cases hphase
  | looping hlooping | ended hlooping =>
    rw [hphase] at hlooping
    cases hlooping

theorem Inv.safe (h : Inv setup s) : Safe setup s := by
  cases h with
  | created => exact safe_of_nothing rfl rfl
  | looping _ hsteady | suspended _ hsteady =>
    exact ⟨hsteady.within_self, fun hcaptured => absurd hcaptured (by simp [hsteady.uncaptured])⟩
  | truncated _ hreached =>
    exact ⟨hreached.within_self, fun hcaptured => absurd hcaptured (by simp [hreached.uncaptured])⟩
  | ended _ hsafe => exact hsafe

theorem uncaptured_of_suspended {truncated : Bool} (h : Inv setup s) (hphase : s.phase = .suspended truncated) :
    s.captured = false := by
  cases h with
  | created => rfl
  | looping _ hsteady | suspended _ hsteady => exact hsteady.uncaptured
  | truncated _ hreached => exact hreached.uncaptured
  | ended hended =>
    rw [hphase] at hended
    cases hended

theorem step_inv {s' : St} {e : Ev} (h : Inv setup s) (hs : step setup s e = some s') : Inv setup s' := by
  unfold step at hs
  split at hs
  · rename_i cancelled hphase
    cases hs
    cases h with
    | created => exact start_inv cancelled
    | looping hother | suspended hother | truncated hother | ended hother =>
      rw [hphase] at hother
      cases hother
  · rename_i cancelled hphase
    cases hs
    cases h with
    | looping _ hsteady => exact iterate_inv hsteady hphase cancelled
    | created => cases hphase
    | suspended hother | truncated hother | ended hother =>
      rw [hphase] at hother
      cases hother
  · rename_i truncated hphase
    cases hs
    exact resume_inv h hphase
  · rename_i truncated hphase
    cases hs
    exact inv_finish h.safe.toWithin (uncaptured_of_suspended h hphase) nofun
  · cases hs

theorem reach_inv (h : Reachable setup s) : Inv setup s :=
  Reach.inv (I := Inv setup) .created (fun _ _ _ _ hi _ hs => step_inv hi hs) h

/-! ## The run that nobody disturbs -/

/-- The first `k` items are chunks at the requested rate. -/
def Generates (setup : Setup σ) (k : Nat) : Prop :=
  ∀ i < k, ∃ chunk, setup.generated i = some (.ok chunk) ∧ chunk.sampleRate = setup.output.sampleRate

/-- What the `finally` block calls goes through. -/
structure Quiet (setup : Setup σ) : Prop where
  close : setup.closeFailure = none
  reset : setup.resetFailure = none
  capture : setup.captureFailure = none

/-- The PCM of the first `k` items is within the limit. -/
def Fits (setup : Setup σ) (limit : Option Int) (k : Nat) : Prop :=
  ∀ max, limit = some max → ((setup.pcm k).length : Int) ≤ max

theorem Fits.of_le {limit : Option Int} {k m : Nat} (h : Fits setup limit m) (hle : k ≤ m) : Fits setup limit k := by
  intro max hmax
  have hlength : (setup.pcm k).length ≤ (setup.pcm m).length := (pcm_mono hle).length_le
  have hfits := h max hmax
  omega

/-- The run that nobody disturbs is a run. -/
theorem runFor_reachable (n : Nat) : Reachable setup (runFor setup n) := by
  induction n with
  | zero => exact .init
  | succ n ih =>
    rw [runFor, advance]
    cases hphase : (runFor setup n).phase with
    | created =>
      refine ih.step (.start false) trivial ?_
      simp only [step, hphase]
    | looping =>
      refine ih.step (.iterate {}) trivial ?_
      simp only [step, hphase]
    | suspended truncated =>
      refine ih.step .resume trivial ?_
      simp only [step, hphase]
    | ended ending => exact ih

/-- An iteration that takes a chunk at the requested rate. -/
theorem iterate_chunk {chunk : Chunk σ} (hitem : setup.generated s.taken = some (.ok chunk))
    (hrate : chunk.sampleRate = setup.output.sampleRate) :
    iterate setup {} s =
      if setup.floatAudioToS16le chunk.wav = [] then s.next
      else emit setup (setup.floatAudioToS16le chunk.wav) s.next := by
  unfold iterate
  simp only [hitem, hrate, Bool.false_eq_true, if_false, ne_eq, not_true_eq_false]
  rfl

/-- At the head of the loop with all of the first `k` items out. -/
structure AtHead (setup : Setup σ) (k : Nat) (s : St) : Prop where
  phase : s.phase = .looping
  taken : s.taken = k
  steady : Steady setup s

theorem AtHead.advance_eq {k : Nat} (h : AtHead setup k s) : advance setup s = iterate setup {} s := by
  rw [advance, h.phase]

theorem atHead_start {limit : Option Int} (hlimit : setup.maxAudioBytes = .ok limit) :
    AtHead setup 0 (runFor setup 1) := by
  have hstart : runFor setup 1 = { ({} : St) with phase := .looping, maxAudioBytes := limit } := by
    simp only [runFor, advance, start, hlimit, Bool.false_eq_true, if_false]
  rw [hstart]
  exact ⟨rfl, rfl, steady_start hlimit⟩

theorem Steady.limit_eq {limit : Option Int} (h : Steady setup s) (hlimit : setup.maxAudioBytes = .ok limit) :
    s.maxAudioBytes = limit := by
  have hsame := h.limit
  rw [hlimit] at hsame
  exact (Except.ok.inj hsame).symm

/-- One item that fits: one step if it has no PCM, else the `yield` and its resumption. -/
theorem atHead_next {limit : Option Int} {k n : Nat} (hlimit : setup.maxAudioBytes = .ok limit)
    (hgenerates : Generates setup (k + 1)) (hfits : Fits setup limit (k + 1)) (h : AtHead setup k (runFor setup n)) :
    ∃ m, n < m ∧ AtHead setup (k + 1) (runFor setup m) := by
  obtain ⟨chunk, hitem, hrate⟩ := hgenerates k (Nat.lt_succ_self k)
  have htaken := h.taken
  rw [← htaken] at hitem
  have hnext : runFor setup (n + 1) = iterate setup {} (runFor setup n) := h.advance_eq
  rw [iterate_chunk hitem hrate] at hnext
  by_cases hempty : setup.floatAudioToS16le chunk.wav = []
  · rw [if_pos hempty] at hnext
    refine ⟨n + 1, Nat.lt_succ_self n, ?_⟩
    rw [hnext]
    exact ⟨h.phase, congrArg (· + 1) htaken, h.steady.skip hitem hempty⟩
  · rw [if_neg hempty] at hnext
    have hroom : ∀ max, (runFor setup n).maxAudioBytes = some max →
        ((setup.pcm (runFor setup n).next.taken).length : Int) ≤ max := by
      intro max hmax
      rw [h.steady.limit_eq hlimit] at hmax
      have hroom := hfits max hmax
      rw [← htaken] at hroom
      exact hroom
    obtain ⟨hemit, hsteady⟩ := h.steady.emit_fits hitem hempty hroom
    rw [hemit] at hnext
    refine ⟨n + 2, by omega, ?_⟩
    have hresumed : runFor setup (n + 2) = { runFor setup (n + 1) with phase := .looping } := by
      rw [runFor, hnext]
      rfl
    rw [hresumed, hnext]
    exact ⟨rfl, congrArg (· + 1) htaken,
      ⟨hsteady.bytes, hsteady.emitted, hsteady.limit, hsteady.within, hsteady.uncaptured⟩⟩

/-- The run gets through the items that fit. -/
theorem atHead_of_fits {limit : Option Int} {k : Nat} (hlimit : setup.maxAudioBytes = .ok limit)
    (hgenerates : Generates setup k) (hfits : Fits setup limit k) : ∃ n, k ≤ n ∧ AtHead setup k (runFor setup n) := by
  induction k with
  | zero => exact ⟨1, Nat.zero_le 1, atHead_start hlimit⟩
  | succ k ih =>
    obtain ⟨n, hn, h⟩ := ih (fun i hi => hgenerates i (Nat.lt_succ_of_lt hi)) (hfits.of_le (Nat.le_succ k))
    obtain ⟨m, hm, h⟩ := atHead_next hlimit hgenerates hfits h
    exact ⟨m, by omega, h⟩

/-- All of the PCM has come out of a stream that is closed and whose trace is captured. -/
structure EndedNormally (setup : Setup σ) (k : Nat) (s : St) : Prop where
  phase : s.phase = .ended .returned
  bytes : s.bytes = setup.pcm k
  closed : s.closed = setup.closable
  captured : s.captured = true

/-- The whole samples that fit have come out of a stream that is closed and has raised. -/
structure EndedAtLimit (setup : Setup σ) (max : Int) (s : St) : Prop where
  phase : ∃ limit, setup.maxAudioSeconds = some limit ∧ s.phase = .ended (.raised (.safetyLimit limit.seconds
    (.ofRatio false s.bytes.length setup.output.bytesPerSecond)))
  bytes : ∀ k, max < (setup.pcm k).length → s.bytes = wholeSamples max (setup.pcm k)
  largest : ∀ k part, part <+: setup.pcm k → part.length % 2 = 0 → (part.length : Int) ≤ max → part <+: s.bytes
  closed : s.closed = setup.closable
  captured : s.captured = false

theorem ends_normally {limit : Option Int} {k : Nat} (hquiet : Quiet setup) (hlimit : setup.maxAudioBytes = .ok limit)
    (hgenerates : Generates setup k) (hend : setup.generated k = none) (hfits : Fits setup limit k) :
    ∃ n, EndedNormally setup k (runFor setup n) := by
  obtain ⟨n, -, h⟩ := atHead_of_fits hlimit hgenerates hfits
  have hnext : runFor setup (n + 1) = finish setup true .returned (runFor setup n) := by
    rw [runFor, h.advance_eq]
    unfold iterate
    simp only [h.taken, hend, Bool.false_eq_true, if_false, Bool.not_false]
  have hbytes : (runFor setup (n + 1)).bytes = setup.pcm k := by
    rw [hnext, finish_bytes, h.steady.bytes, h.taken]
  rw [finish_quiet hquiet.close hquiet.reset hquiet.capture] at hnext
  exact ⟨n + 1, by rw [hnext], hbytes, by rw [hnext], by rw [hnext]; rfl⟩

/-- The first item past the limit. -/
theorem exists_crossing {max : Int} {k : Nat} (hmax : 0 ≤ max) (hover : max < (setup.pcm k).length) :
    ∃ j < k, Fits setup (some max) j ∧ max < (setup.pcm (j + 1)).length := by
  induction k with
  | zero =>
    have hnothing : (setup.pcm 0).length = 0 := rfl
    omega
  | succ k ih =>
    by_cases hearlier : max < (setup.pcm k).length
    · obtain ⟨j, hj, h⟩ := ih hearlier
      exact ⟨j, by omega, h⟩
    · refine ⟨k, Nat.lt_succ_self k, ?_, hover⟩
      intro max' hmax'
      cases hmax'
      omega

theorem limit_of_max {max : Int} (h : setup.maxAudioBytes = .ok (some max)) :
    ∃ limit, setup.maxAudioSeconds = some limit := by
  unfold Setup.maxAudioBytes at h
  split at h
  · cases h
  · exact ⟨_, ‹_›⟩

theorem safetyDurationLimitError_eq {limit : SafetyLimit} (h : setup.maxAudioSeconds = some limit) (count : Nat) :
    setup.safetyDurationLimitError count =
      .safetyLimit limit.seconds (.ofRatio false count setup.output.bytesPerSecond) := by
  unfold Setup.safetyDurationLimitError
  have hsign : decide ((count : Int) < 0) = false := decide_eq_false (by omega)
  rw [h, hsign]
  rfl

/-- The limit has been reached and the generator raises. -/
theorem ended_of_reached {max : Int} (hquiet : Quiet setup) (hmax : setup.maxAudioBytes = .ok (some max))
    (h : Reached setup s) (hemitted : s.emittedAudioBytes = s.bytes.length) :
    EndedAtLimit setup max
      (finish setup false (.raised (setup.safetyDurationLimitError s.emittedAudioBytes)) s) := by
  obtain ⟨limit, hlimit⟩ := limit_of_max hmax
  obtain ⟨max', hmax', -, hover, hbytes⟩ := h.exceeded
  rw [hmax] at hmax'
  cases hmax'
  rw [hemitted, safetyDurationLimitError_eq hlimit]
  refine ⟨⟨limit, hlimit, ?_⟩, fun k hk => ?_, fun k part hpart heven hfits => ?_, finish_closed, ?_⟩
  · rw [finish_bytes, finish_quiet hquiet.close hquiet.reset hquiet.capture]
  · rw [finish_bytes, hbytes]
    -- Of two lengths past the limit one is a prefix of the other.
    rcases Nat.le_total s.taken k with hle | hle
    · exact (wholeSamples_of_extends (pcm_mono hle) hover).symm
    · exact wholeSamples_of_extends (pcm_mono hle) hk
  · rw [finish_bytes, hbytes]
    refine wholeSamples_largest ?_ heven hfits
    rcases Nat.le_total k s.taken with hle | hle
    · exact hpart.trans (pcm_mono hle)
    · exact List.prefix_of_prefix_length_le hpart (pcm_mono hle) (by omega)
  · rw [finish_quiet hquiet.close hquiet.reset hquiet.capture]
    exact h.uncaptured

theorem ends_at_limit {max : Int} {k : Nat} (hquiet : Quiet setup) (hmax : setup.maxAudioBytes = .ok (some max))
    (hgenerates : Generates setup k) (hover : max < (setup.pcm k).length) :
    ∃ n, EndedAtLimit setup max (runFor setup n) := by
  obtain ⟨j, hj, hfits, hcrossing⟩ := exists_crossing (maxAudioBytes_nonneg hmax) hover
  obtain ⟨n, -, h⟩ := atHead_of_fits hmax (fun i hi => hgenerates i (by omega)) hfits
  obtain ⟨chunk, hitem, hrate⟩ := hgenerates j hj
  have htaken := h.taken
  rw [← htaken] at hitem hcrossing
  have hnext : runFor setup (n + 1) = iterate setup {} (runFor setup n) := h.advance_eq
  have hpcm : setup.floatAudioToS16le chunk.wav ≠ [] := by
    intro hempty
    have hwithin := hfits max rfl
    rw [Setup.pcm, hitem, Setup.itemPcm, hempty, List.append_nil, htaken] at hcrossing
    omega
  rw [iterate_chunk hitem hrate, if_neg hpcm] at hnext
  obtain ⟨s', hemit, hreached, hemitted, -⟩ :=
    h.steady.emit_over hitem (h.steady.limit_eq hmax) hcrossing
  have hended := ended_of_reached hquiet hmax hreached hemitted
  rcases hemit with hemit | ⟨hemit, hsuspended⟩
  · refine ⟨n + 1, ?_⟩
    rw [hnext, hemit]
    exact hended
  · refine ⟨n + 2, ?_⟩
    rw [runFor, hnext, hemit, advance, hsuspended]
    exact hended

/-- What holds of an undisturbed run that the model never ends and the limit never cuts. -/
def Going (setup : Setup σ) (s : St) : Prop :=
  s.phase = .created ∧ s = {} ∨ s.phase = .looping ∧ Steady setup s ∨ s.phase = .suspended false ∧ Steady setup s

theorem goes_on {limit : Option Int} (hlimit : setup.maxAudioBytes = .ok limit)
    (hgenerates : ∀ k, Generates setup k) (hfits : ∀ k, Fits setup limit k) (n : Nat) : Going setup (runFor setup n) := by
  induction n with
  | zero => exact .inl ⟨rfl, rfl⟩
  | succ n ih =>
    rcases ih with ⟨-, hstart⟩ | ⟨hphase, hsteady⟩ | ⟨hphase, hsteady⟩
    · have h := atHead_start hlimit
      rw [runFor, runFor] at h
      rw [runFor, hstart]
      exact .inr (.inl ⟨h.phase, h.steady⟩)
    · obtain ⟨chunk, hitem, hrate⟩ := hgenerates _ _ (Nat.lt_succ_self (runFor setup n).taken)
      rw [runFor, advance, hphase]
      dsimp only
      rw [iterate_chunk hitem hrate]
      by_cases hempty : setup.floatAudioToS16le chunk.wav = []
      · rw [if_pos hempty]
        exact .inr (.inl ⟨hphase, hsteady.skip hitem hempty⟩)
      · rw [if_neg hempty]
        obtain ⟨hemit, hsteady⟩ := hsteady.emit_fits hitem hempty fun max hmax =>
          hfits _ max (hsteady.limit_eq hlimit ▸ hmax)
        rw [hemit]
        exact .inr (.inr ⟨rfl, hsteady⟩)
    · rw [runFor, advance, hphase]
      exact .inr (.inl ⟨rfl, ⟨hsteady.bytes, hsteady.emitted, hsteady.limit, hsteady.within, hsteady.uncaptured⟩⟩)

theorem Going.not_ended (h : Going setup s) (ending : Ending) : s.phase ≠ .ended ending := by
  rcases h with ⟨hphase, -⟩ | ⟨hphase, -⟩ | ⟨hphase, -⟩
  all_goals
    rw [hphase]
    simp

/-- Every run keeps the limit; the one that nobody disturbs ends with all of the PCM, or at the
    limit, unless the model goes on within it. -/
theorem synthesize_stream_keeps_the_limit {limit : Option Int} (hquiet : Quiet setup)
    (hlimit : setup.maxAudioBytes = .ok limit) :
    (∀ s, Reachable setup s → Safe setup s) ∧
      (∀ k, Generates setup k → setup.generated k = none → Fits setup limit k →
        ∃ n, EndedNormally setup k (runFor setup n)) ∧
      (∀ k max, Generates setup k → limit = some max → max < (setup.pcm k).length →
        ∃ n, EndedAtLimit setup max (runFor setup n)) ∧
      ((∀ k, Generates setup k) → (∀ k, Fits setup limit k) →
        (∀ n ending, (runFor setup n).phase ≠ .ended ending) ∧ ∀ k, ∃ n, (runFor setup n).bytes = setup.pcm k) := by
  refine ⟨fun s hs => (reach_inv hs).safe, fun k hgenerates hend hfits => ?_, fun k max hgenerates hmax hover => ?_,
    fun hgenerates hfits => ⟨fun n => (goes_on hlimit hgenerates hfits n).not_ended, fun k => ?_⟩⟩
  · exact ends_normally hquiet hlimit hgenerates hend hfits
  · rw [hmax] at hlimit
    exact ends_at_limit hquiet hlimit hgenerates hover
  · obtain ⟨n, -, h⟩ := atHead_of_fits hlimit (hgenerates k) (hfits k)
    exact ⟨n, by rw [h.steady.bytes, h.taken]⟩

/-- 1.25 / 2 ^ 14 seconds: three bytes, so one sample. -/
def briefLimit : SafetyLimit where
  seconds := ⟨false, 5 * 2 ^ 50, -66, by decide⟩
  positive := by decide

/-- One sample, then two. -/
def brief : Setup Int16 where
  quantise := id
  maxAudioSeconds := some briefLimit
  generated i := [⟨[1], 24000⟩, ⟨[2, 3], 24000⟩][i]?.map .ok

theorem brief_generates : Generates brief 2 := by
  intro i hi
  match i, hi with
  | 0, _ => exact ⟨_, rfl, rfl⟩
  | 1, _ => exact ⟨_, rfl, rfl⟩

theorem the_second_chunk_is_past_the_limit : ∃ n, EndedAtLimit brief 3 (runFor brief n) :=
  (synthesize_stream_keeps_the_limit ⟨rfl, rfl, rfl⟩ (by decide +kernel)).2.2.1 2 3 brief_generates rfl (by decide)

/-- Chunks without samples, for ever. -/
def silent : Setup Int16 where
  quantise := id
  maxAudioSeconds := some briefLimit
  generated _ := some (.ok ⟨[], 24000⟩)

theorem pcm_silent (k : Nat) : silent.pcm k = [] := by
  induction k with
  | zero => rfl
  | succ k ih =>
    rw [Setup.pcm, ih]
    rfl

/-- All that is generated is within the limit, yet the stream does not end. -/
theorem empty_chunks_never_end :
    silent.maxAudioBytes = .ok (some 3) ∧ (∀ k, silent.pcm k = []) ∧
      ∀ n ending, (runFor silent n).phase ≠ .ended ending := by
  have hlimit : silent.maxAudioBytes = .ok (some 3) := by decide +kernel
  refine ⟨hlimit, pcm_silent, fun n => (goes_on hlimit (fun k i _ => ⟨_, rfl, rfl⟩) (fun k max hmax => ?_) n).not_ended⟩
  cases hmax
  rw [pcm_silent k]
  decide

/-- `2 ^ 1020` seconds. -/
def endless : Setup Int16 where
  quantise := id
  maxAudioSeconds := some ⟨⟨false, 2 ^ 52, 968, by decide⟩, by decide⟩
  generated i := [⟨[1], 24000⟩][i]?.map .ok

/-- The bytes of the limit overflow a double: `int` raises before the `try`. -/
theorem a_limit_past_the_doubles_raises :
    runFor endless 1 = { ({} : St) with phase := .ended (.raised .overflow) } := by
  have hlimit : endless.maxAudioBytes = .error .overflow := by decide +kernel
  simp only [runFor, advance, start, hlimit, Bool.false_eq_true, if_false]

end QwenTtsBridge.Worker.AudioLimit
