/-
  QwenTtsBridge.Audio.PostProcessor — `AudioPostProcessorChain` (`audio/post_processor.cpp`).

  A processor is an object with a state of its own (`Lib.Transducer`): `process` and `finish`
  give chunks or throw, and what a throwing call leaves behind is up to the processor. The
  calls of a chain are serialized by its mutex, so each is one step; `processors_` is the
  list of the processors in order, and the loops over its indices go down that list.

  `chain_is_composition`: what a chain gives for a whole stream is what its processors give
  when each takes the complete output of the one before it (`Transducer.series`), and it
  gives something whenever no processor throws. `process_range` may be given its chunks in
  parts (`processRange_append_ok`), which is why the interleaving does not matter. After
  `finish`, also one that threw, a chain gives nothing and leaves its processors alone.

  `add`, `reset` and `empty` are not modelled: a chain is what it is when its stream starts.
-/

import QwenTtsBridge.Protocol.Control
import QwenTtsBridge.Lib.Transducer

namespace QwenTtsBridge.Audio

open QwenTtsBridge.Protocol.Control QwenTtsBridge.Lib

/-! ## Data -/

structure PcmChunk where
  requestId : UInt64 := 0
  format : AudioFormat := {}
  bytes : List UInt8 := []
  firstSample : UInt64 := 0
  sampleCount : UInt32 := 0
  deriving DecidableEq, Repr

inductive AudioTerminalReason where
  | completed
  | cancelled
  | error
  deriving DecidableEq, Repr

/-- What was thrown: a `std::exception` with its text, or something else. -/
inductive Exception where
  | std (what : CppString)
  | other
  deriving DecidableEq, Repr

abbrev Processor := Transducer Exception PcmChunk AudioTerminalReason

/-! ## The chain -/

/-- The chunks go through the processors one processor after the other. -/
def processRange : List Processor → List PcmChunk → List Processor × Except Exception (List PcmChunk)
  | [], chunks => ([], .ok chunks)
  | processor :: processors, chunks =>
    match processor.feed chunks with
    | (processor, .error e) => (processor :: processors, .error e)
    | (processor, .ok next) => (processor :: (processRange processors next).1, (processRange processors next).2)

/-- The loop of `finish` over `count` more processors: what one releases goes through the ones
    after it, before these are finished themselves. -/
def finishRange (reason : AudioTerminalReason) : Nat → List Processor → List Processor × Except Exception (List PcmChunk)
  | count + 1, processor :: processors =>
    match processor.close reason with
    | (processor, .error e) => (processor :: processors, .error e)
    | (processor, .ok released) =>
      match processRange processors released with
      | (processors, .error e) => (processor :: processors, .error e)
      | (processors, .ok chunks) =>
        match finishRange reason count processors with
        | (processors, .error e) => (processor :: processors, .error e)
        | (processors, .ok output) => (processor :: processors, .ok (chunks ++ output))
  | _, processors => (processors, .ok [])

structure AudioPostProcessorChain where
  processors : List Processor
  started : Bool := false
  finished : Bool := false

namespace AudioPostProcessorChain

def process (chain : AudioPostProcessorChain) (chunk : PcmChunk) :
    AudioPostProcessorChain × Except Exception (List PcmChunk) :=
  if chain.finished then ({ chain with started := true }, .ok [])
  else
    let result := processRange chain.processors [chunk]
    ({ chain with processors := result.1, started := true }, result.2)

def finish (chain : AudioPostProcessorChain) (reason : AudioTerminalReason) :
    AudioPostProcessorChain × Except Exception (List PcmChunk) :=
  if chain.finished then ({ chain with started := true }, .ok [])
  else
    let result := finishRange reason chain.processors.length chain.processors
    ({ processors := result.1, started := true, finished := true }, result.2)

/-- One chunk after the other, and all that came out. -/
def processEach : AudioPostProcessorChain → List PcmChunk → AudioPostProcessorChain × Except Exception (List PcmChunk)
  | chain, [] => (chain, .ok [])
  | chain, chunk :: chunks =>
    match chain.process chunk with
    | (chain, .error e) => (chain, .error e)
    | (chain, .ok output) =>
      match chain.processEach chunks with
      | (chain, .error e) => (chain, .error e)
      | (chain, .ok outputs) => (chain, .ok (output ++ outputs))

/-- What the chain gives for a whole stream. -/
def stream (chain : AudioPostProcessorChain) (chunks : List PcmChunk) (reason : AudioTerminalReason) :
    Except Exception (List PcmChunk) :=
  match chain.processEach chunks with
  | (_, .error e) => .error e
  | (chain, .ok body) =>
    match chain.finish reason with
    | (_, .error e) => .error e
    | (_, .ok tail) => .ok (body ++ tail)

inductive Call where
  | process (chunk : PcmChunk)
  | finish (reason : AudioTerminalReason)

def call (chain : AudioPostProcessorChain) : Call → AudioPostProcessorChain × Except Exception (List PcmChunk)
  | .process chunk => chain.process chunk
  | .finish reason => chain.finish reason

/-- The results of the calls, whether they throw or not. -/
def calls : AudioPostProcessorChain → List Call → AudioPostProcessorChain × List (Except Exception (List PcmChunk))
  | chain, [] => (chain, [])
  | chain, c :: cs => (((chain.call c).1.calls cs).1, (chain.call c).2 :: ((chain.call c).1.calls cs).2)

end AudioPostProcessorChain

/-! ## Runs without an exception -/

section Ok

variable {processor : Processor} {processors processors' : List Processor} {chunks chunks' output : List PcmChunk}
  {reason : AudioTerminalReason}

theorem processRange_cons_ok : processRange (processor :: processors) chunks = (processors', .ok output) ↔
    ∃ processor' next rest, processor.feed chunks = (processor', .ok next) ∧
      processRange processors next = (rest, .ok output) ∧ processors' = processor' :: rest := by
  constructor
  · intro h
    dsimp only [processRange] at h
    split at h
    · cases h
    · rename_i processor' next hfeed
      obtain ⟨hrest, houtput⟩ := Prod.ext_iff.mp h
      exact ⟨processor', next, (processRange processors next).1, hfeed, Prod.ext rfl houtput, hrest.symm⟩
  · rintro ⟨processor', next, rest, hfeed, hrange, rfl⟩
    simp only [processRange, hfeed, hrange]

theorem processRange_length : (processRange processors chunks).1.length = processors.length := by
  induction processors generalizing chunks with
  | nil => rfl
  | cons processor processors ih =>
    dsimp only [processRange]
    split
    · rfl
    · simp only [List.length_cons, ih]

theorem processRange_nil : processRange processors [] = (processors, .ok []) := by
  induction processors with
  | nil => rfl
  | cons processor processors ih => simp only [processRange, Transducer.feed, ih]

/-- The chunks may be given in parts. -/
theorem processRange_append_ok : processRange processors (chunks ++ chunks') = (processors', .ok output) ↔
    ∃ middle first second, processRange processors chunks = (middle, .ok first) ∧
      processRange middle chunks' = (processors', .ok second) ∧ output = first ++ second := by
  induction processors generalizing chunks chunks' processors' output with
  | nil =>
    constructor
    · intro h
      cases h
      exact ⟨[], chunks, chunks', rfl, rfl, rfl⟩
    · rintro ⟨middle, first, second, h, h', rfl⟩
      cases h
      cases h'
      rfl
  | cons processor processors ih =>
    constructor
    · intro h
      obtain ⟨processor', next, rest, hfeed, hrange, rfl⟩ := processRange_cons_ok.mp h
      obtain ⟨between, next₁, next₂, hfirst, hsecond, rfl⟩ := Transducer.feed_append_ok.mp hfeed
      obtain ⟨middle, first, second, hrange₁, hrange₂, rfl⟩ := ih.mp hrange
      exact ⟨between :: middle, first, second, processRange_cons_ok.mpr ⟨between, next₁, middle, hfirst, hrange₁, rfl⟩,
        processRange_cons_ok.mpr ⟨processor', next₂, rest, hsecond, hrange₂, rfl⟩, rfl⟩
    · rintro ⟨middle', first, second, h, h', rfl⟩
      obtain ⟨between, next₁, middle, hfirst, hrange₁, rfl⟩ := processRange_cons_ok.mp h
      obtain ⟨processor', next₂, rest, hsecond, hrange₂, rfl⟩ := processRange_cons_ok.mp h'
      exact processRange_cons_ok.mpr ⟨processor', next₁ ++ next₂, rest,
        Transducer.feed_append_ok.mpr ⟨between, next₁, next₂, hfirst, hsecond, rfl⟩,
        ih.mpr ⟨middle, first, second, hrange₁, hrange₂, rfl⟩, rfl⟩

theorem finishRange_cons_ok : finishRange reason (processor :: processors).length (processor :: processors) =
      (processors', .ok output) ↔
    ∃ processor' released middle chunks rest tail, processor.close reason = (processor', .ok released) ∧
      processRange processors released = (middle, .ok chunks) ∧
      finishRange reason middle.length middle = (rest, .ok tail) ∧
      processors' = processor' :: rest ∧ output = chunks ++ tail := by
  have hlength {released middle chunks} (h : processRange processors released = (middle, .ok chunks)) :
      middle.length = processors.length := by
    have hsame : (processRange processors released).1.length = processors.length := processRange_length
    rwa [h] at hsame
  constructor
  · intro h
    dsimp only [List.length_cons, finishRange] at h
    split at h
    · cases h
    · rename_i processor' released hclose
      split at h
      · cases h
      · rename_i middle chunks hrange
        split at h
        · cases h
        · rename_i rest tail hfinish
          cases h
          rw [← hlength hrange] at hfinish
          exact ⟨processor', released, middle, chunks, rest, tail, hclose, hrange, hfinish, rfl, rfl⟩
  · rintro ⟨processor', released, middle, chunks, rest, tail, hclose, hrange, hfinish, rfl, rfl⟩
    rw [hlength hrange] at hfinish
    simp only [List.length_cons, finishRange, hclose, hrange, hfinish]

/-- All chunks first and the end after them: the processors one by one. -/
theorem series_iff : Transducer.series processors chunks reason = .ok output ↔
    ∃ middle body rest tail, processRange processors chunks = (middle, .ok body) ∧
      finishRange reason middle.length middle = (rest, .ok tail) ∧ output = body ++ tail := by
  induction processors generalizing chunks output with
  | nil =>
    constructor
    · intro h
      cases h
      exact ⟨[], chunks, [], [], rfl, rfl, (List.append_nil _).symm⟩
    · rintro ⟨middle, body, rest, tail, h, h', rfl⟩
      cases h
      cases h'
      exact congrArg Except.ok (List.append_nil _).symm
  | cons processor processors ih =>
    constructor
    · intro h
      obtain ⟨whole, hcomplete, hseries⟩ := Transducer.series_cons_ok.mp h
      obtain ⟨processor₁, body, processor₂, released, hfeed, hclose, rfl⟩ := Transducer.complete_ok.mp hcomplete
      obtain ⟨middle, both, rest, tail, hrange, hfinish, rfl⟩ := ih.mp hseries
      obtain ⟨between, first, second, hrange₁, hrange₂, rfl⟩ := processRange_append_ok.mp hrange
      exact ⟨processor₁ :: between, first, processor₂ :: rest, second ++ tail,
        processRange_cons_ok.mpr ⟨processor₁, body, between, hfeed, hrange₁, rfl⟩,
        finishRange_cons_ok.mpr ⟨processor₂, released, middle, second, rest, tail, hclose, hrange₂, hfinish, rfl, rfl⟩,
        List.append_assoc _ _ _⟩
    · rintro ⟨middle', first, rest', tail', h, h', rfl⟩
      obtain ⟨processor₁, body, between, hfeed, hrange₁, rfl⟩ := processRange_cons_ok.mp h
      obtain ⟨processor₂, released, middle, second, rest, tail, hclose, hrange₂, hfinish, rfl, rfl⟩ :=
        finishRange_cons_ok.mp h'
      refine Transducer.series_cons_ok.mpr ⟨body ++ released,
        Transducer.complete_ok.mpr ⟨processor₁, body, processor₂, released, hfeed, hclose, rfl⟩, ?_⟩
      exact ih.mpr ⟨middle, first ++ second, rest, tail,
        processRange_append_ok.mpr ⟨between, first, second, hrange₁, hrange₂, rfl⟩, hfinish, (List.append_assoc _ _ _).symm⟩

namespace AudioPostProcessorChain

variable {chain chain' : AudioPostProcessorChain}

theorem process_ok {chunk : PcmChunk} (h : chain.finished = false) : chain.process chunk = (chain', .ok output) ↔
    ∃ processors', processRange chain.processors [chunk] = (processors', .ok output) ∧
      chain' = ⟨processors', true, false⟩ := by
  unfold process
  rw [if_neg (by simp [h])]
  constructor
  · intro hprocess
    obtain ⟨hchain, houtput⟩ := Prod.ext_iff.mp hprocess
    dsimp only at hchain houtput
    rw [h] at hchain
    exact ⟨_, Prod.ext rfl houtput, hchain.symm⟩
  · rintro ⟨processors', hrange, rfl⟩
    rw [hrange, h]

theorem process_finished (chain : AudioPostProcessorChain) (chunk : PcmChunk) :
    (chain.process chunk).1.finished = chain.finished := by
  unfold process
  split <;> rfl

theorem processEach_finished (chain : AudioPostProcessorChain) (chunks : List PcmChunk) :
    (chain.processEach chunks).1.finished = chain.finished := by
  induction chunks generalizing chain with
  | nil => rfl
  | cons chunk chunks ih =>
    have hfirst := process_finished chain chunk
    dsimp only [processEach]
    split
    · rename_i chain₁ e hprocess
      rwa [hprocess] at hfirst
    · rename_i chain₁ output hprocess
      rw [hprocess] at hfirst
      have hrest := ih chain₁
      split
      all_goals
        rename_i heach
        rw [heach] at hrest
        exact hrest.trans hfirst

/-- Chunk by chunk is all at once. -/
theorem processEach_ok (h : chain.finished = false) :
    (∃ started, chain.processEach chunks = (⟨processors', started, false⟩, .ok output)) ↔
      processRange chain.processors chunks = (processors', .ok output) := by
  induction chunks generalizing chain output with
  | nil =>
    rw [processRange_nil]
    constructor
    · rintro ⟨started, heach⟩
      cases heach
      rfl
    · intro hrange
      cases hrange
      exact ⟨chain.started, by rw [← h]; rfl⟩
  | cons chunk chunks ih =>
    rw [show chunk :: chunks = [chunk] ++ chunks from rfl, processRange_append_ok]
    constructor
    · rintro ⟨started, heach⟩
      dsimp only [List.cons_append, List.nil_append, processEach] at heach
      split at heach
      · cases heach
      · rename_i chain₁ first hprocess
        split at heach
        · cases heach
        · rename_i chain₂ second hrest
          cases heach
          obtain ⟨middle, hfirst, rfl⟩ := (process_ok h).mp hprocess
          exact ⟨middle, first, second, hfirst, (ih rfl).mp ⟨started, hrest⟩, rfl⟩
    · rintro ⟨middle, first, second, hfirst, hsecond, rfl⟩
      have hprocess := (process_ok h).mpr ⟨middle, hfirst, rfl⟩
      obtain ⟨started, hrest⟩ : ∃ started, processEach ⟨middle, true, false⟩ chunks =
        (⟨processors', started, false⟩, .ok second) := (ih rfl).mpr hsecond
      refine ⟨started, ?_⟩
      simp only [List.cons_append, List.nil_append, processEach, hprocess, hrest]

end AudioPostProcessorChain

end Ok

/-! ## The results -/

namespace AudioPostProcessorChain

theorem stream_ok {processors : List Processor} {chunks output : List PcmChunk} {reason : AudioTerminalReason} :
    stream ⟨processors, false, false⟩ chunks reason = .ok output ↔
      ∃ middle body rest tail, processRange processors chunks = (middle, .ok body) ∧
        finishRange reason middle.length middle = (rest, .ok tail) ∧ output = body ++ tail := by
  constructor
  · intro h
    unfold stream at h
    split at h
    · cases h
    · rename_i chain body hbody
      have hopen := processEach_finished ⟨processors, false, false⟩ chunks
      rw [hbody] at hopen
      obtain ⟨middle, started, finished⟩ := chain
      cases hopen
      have hrange := (processEach_ok rfl).mp ⟨started, hbody⟩
      split at h
      · cases h
      · rename_i chain' tail htail
        cases h
        exact ⟨middle, body, (finishRange reason middle.length middle).1, tail, hrange,
          Prod.ext rfl (Prod.ext_iff.mp htail).2, rfl⟩
  · rintro ⟨middle, body, rest, tail, hbody, htail, rfl⟩
    obtain ⟨started, heach⟩ : ∃ started, processEach ⟨processors, false, false⟩ chunks =
      (⟨middle, started, false⟩, .ok body) := (processEach_ok rfl).mpr hbody
    simp only [stream, heach, finish, htail]
    rfl

theorem finish_finished (chain : AudioPostProcessorChain) (reason : AudioTerminalReason) :
    (chain.finish reason).1.finished = true := by
  unfold finish
  split
  · assumption
  · rfl

theorem calls_of_finished {chain : AudioPostProcessorChain} (h : chain.finished = true) (cs : List Call) :
    (chain.calls cs).1.processors = chain.processors ∧ ∀ result ∈ (chain.calls cs).2, result = .ok [] := by
  induction cs generalizing chain with
  | nil => exact ⟨rfl, nofun⟩
  | cons c cs ih =>
    have hcall : chain.call c = ({ chain with started := true }, .ok []) := by
      cases c
      all_goals exact if_pos h
    obtain ⟨hprocessors, hresults⟩ : (calls { chain with started := true } cs).1.processors = chain.processors ∧
        ∀ result ∈ (calls { chain with started := true } cs).2, result = .ok [] := ih h
    simp only [calls, hcall]
    refine ⟨hprocessors, fun result hresult => ?_⟩
    cases hresult with
    | head => rfl
    | tail _ hresult => exact hresults result hresult

theorem chain_is_composition (processors : List Processor) (chunks : List PcmChunk) (reason : AudioTerminalReason) :
    (∀ output, stream ⟨processors, false, false⟩ chunks reason = .ok output ↔
      Transducer.series processors chunks reason = .ok output) ∧
    ((∀ processor ∈ processors, processor.NeverThrows) →
      ∃ output, stream ⟨processors, false, false⟩ chunks reason = .ok output) ∧
    (∀ chunk, (process ⟨[], false, false⟩ chunk).2 = .ok [chunk]) ∧
    ∀ (chain : AudioPostProcessorChain) (later : List Call),
      ((chain.finish reason).1.calls later).1.processors = (chain.finish reason).1.processors ∧
        ∀ result ∈ ((chain.finish reason).1.calls later).2, result = .ok [] := by
  have hcomposed : ∀ output, stream ⟨processors, false, false⟩ chunks reason = .ok output ↔
      Transducer.series processors chunks reason = .ok output := by
    intro output
    rw [stream_ok, series_iff]
  refine ⟨hcomposed, fun hnever => ?_, fun _ => rfl, fun chain later => calls_of_finished (finish_finished chain reason) later⟩
  obtain ⟨output, houtput⟩ := Transducer.series_of_neverThrows hnever chunks reason
  exact ⟨output, (hcomposed output).mpr houtput⟩

end AudioPostProcessorChain

end QwenTtsBridge.Audio
