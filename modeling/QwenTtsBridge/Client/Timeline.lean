/-
  QwenTtsBridge.Client.Timeline — the audio timeline of a request
  (`handle_audio_event`, `client/qwen_tts_client.cpp`).

  A chunk gets its place under the mutex and its callbacks are called outside it, so what
  is on the timeline of a request at any moment are the calls of `on_audio` and `on_timing`
  already made and those that the dispatcher has still to make (`track`). The dispatcher
  handles an event only after the callbacks of the one before (`Lanes`), so the track only
  grows at its end: a step leaves it alone or adds the calls of one chunk (`Plays`).

  - `audio_timeline`: in every reachable state the chunks passed to `on_audio` follow each
    other without gap from sample 0, each holds whole sample frames, each `on_timing` tells
    what the `on_audio` before it told, and after a chunk was rejected there is none.
    `first_sample` is a `std::uint64_t` and so is the sum.
-/

import Mathlib.Data.UInt
import QwenTtsBridge.Client.Silence

namespace QwenTtsBridge.Client

open QwenTtsBridge.Protocol.Control QwenTtsBridge.Session QwenTtsBridge.Lib.Transition

/-! ## Chunks -/

/-- The bytes of one sample of every channel. -/
def frameSize (format : AudioFormat) : Nat := (bytesPerSample format).getD 0 * format.channels.toNat

def PcmChunk.timing (chunk : PcmChunk) : SpeechTimingChunk :=
  ⟨chunk.firstSample, chunk.sampleCount, chunk.format.sampleRate⟩

def PcmChunk.Whole (chunk : PcmChunk) : Prop := chunk.sampleCount.toNat * frameSize chunk.format = chunk.bytes.length

/-- The samples of some chunks, as `next_sample` counts them. -/
def samples (chunks : List PcmChunk) : UInt64 := (chunks.map (·.sampleCount.toUInt64)).sum

/-- Each chunk starts where the chunks before it end, and the first at 0. -/
def Consecutive (chunks : List PcmChunk) : Prop :=
  ∀ before chunk after, chunks = before ++ chunk :: after → chunk.firstSample = samples before

section Count

variable {format : AudioFormat} {n : Nat} {count : UInt32}

theorem sampleCount_whole (h : sampleCountForAudio format n = some count) : count.toNat * frameSize format = n := by
  unfold sampleCountForAudio at h
  split at h
  · cases h
  rename_i sampleBytes hbytes
  simp only at h
  split at h
  · cases h
  split at h
  · cases h
  rename_i hchannels hrem
  split at h
  · cases h
  rename_i hsmall
  cases h
  have hframe : frameSize format = sampleBytes * format.channels.toNat := by simp [frameSize, hbytes]
  have hsize : n / (sampleBytes * format.channels.toNat) < 2 ^ 32 := by omega
  rw [hframe, UInt32.toNat_ofNat_of_lt' hsize]
  exact Nat.div_mul_cancel (Nat.dvd_of_mod_eq_zero (by simpa using hrem))

theorem sampleCount_pos (h : sampleCountForAudio format n = some count) (hn : n ≠ 0) : count ≠ 0 := by
  intro hzero
  have hwhole := sampleCount_whole h
  rw [hzero] at hwhole
  simp at hwhole
  exact hn hwhole.symm

theorem sampleCount_empty : (sampleCountForAudio format 0).getD 0 = 0 := by
  cases h : sampleCountForAudio format 0 with
  | none => rfl
  | some count =>
    unfold sampleCountForAudio at h
    split at h
    · cases h
    · simp at h
      exact h.2.symm

end Count

theorem samples_append (chunks : List PcmChunk) (chunk : PcmChunk) :
    samples (chunks ++ [chunk]) = samples chunks + chunk.sampleCount.toUInt64 := by
  simp [samples]

theorem Consecutive.snoc {chunks : List PcmChunk} {chunk : PcmChunk} (h : Consecutive chunks)
    (hfirst : chunk.firstSample = samples chunks) : Consecutive (chunks ++ [chunk]) := by
  intro before c after heq
  rcases List.eq_nil_or_concat after with rfl | ⟨init, last, rfl⟩
  · obtain ⟨rfl, hlast⟩ := List.append_inj' heq rfl
    cases hlast
    exact hfirst
  · have hsplit : chunks ++ [chunk] = (before ++ c :: init) ++ [last] := by simpa using heq
    obtain ⟨hchunks, -⟩ := List.append_inj' hsplit rfl
    exact h before c init hchunks

theorem Consecutive.of_prefix {chunks chunks' : List PcmChunk} (h : Consecutive chunks') (hp : chunks <+: chunks') :
    Consecutive chunks := by
  obtain ⟨rest, rfl⟩ := hp
  intro before c after heq
  exact h before c (after ++ rest) (by simp [heq])

/-! ## Calls -/

def Callback.onTrack (r : RequestId) : Callback → Bool
  | .onAudio id _ | .onTiming id _ => id == r
  | _ => false

def Callback.audio? (r : RequestId) : Callback → Option PcmChunk
  | .onAudio id chunk => if id = r then some chunk else none
  | _ => none

def Callback.timing? (r : RequestId) : Callback → Option SpeechTimingChunk
  | .onTiming id timing => if id = r then some timing else none
  | _ => none

/-- The chunks passed to `on_audio` of `r`. -/
def audioOf (r : RequestId) (log : List Callback) : List PcmChunk := log.filterMap (Callback.audio? r)

def timingsOf (r : RequestId) (log : List Callback) : List SpeechTimingChunk := log.filterMap (Callback.timing? r)

def Act.call? : Act → Option Callback
  | .invoke c => some c
  | _ => none

/-- The callbacks that a thread has still to call. -/
def callsIn (acts : List Act) : List Callback := acts.filterMap Act.call?

/-- The calls on the timeline of `r`, made or due. -/
def track (r : RequestId) (s : St) : List Callback := (s.log ++ callsIn s.dispatcher).filter (·.onTrack r)

/-- The calls of one chunk that is not empty. -/
def chunkCalls (r : RequestId) (callbacks : TtsCallbacks) (chunk : PcmChunk) : List Callback :=
  (if callbacks.onAudio then [.onAudio r chunk] else []) ++ if callbacks.onTiming then [.onTiming r chunk.timing] else []

/-- Every `on_timing` of `r` tells what the last `on_audio` before it told. Without an `on_audio` to
    call, the timings follow each other as the chunks do. -/
structure Mirrored (r : RequestId) (callbacks : TtsCallbacks) (log : List Callback) : Prop where
  chunk : callbacks.onAudio = true → ∀ before timing after, log = before ++ .onTiming r timing :: after →
    (audioOf r before).getLast?.map PcmChunk.timing = some timing
  alone : ∀ before timing after, timingsOf r log = before ++ timing :: after →
    timing.firstSample = (before.map (·.sampleCount.toUInt64)).sum

section Calls

variable {r : RequestId} {callbacks : TtsCallbacks} {chunks : List PcmChunk}

theorem audioOf_filter (log : List Callback) : audioOf r (log.filter (·.onTrack r)) = audioOf r log := by
  unfold audioOf
  rw [List.filterMap_filter]
  congr 1
  funext c
  cases c with
  | onAudio id chunk => by_cases h : id = r <;> simp [Callback.onTrack, Callback.audio?, h]
  | onTiming id timing => by_cases h : id = r <;> simp [Callback.onTrack, Callback.audio?, h]
  | _ => rfl

theorem timingsOf_filter (log : List Callback) : timingsOf r (log.filter (·.onTrack r)) = timingsOf r log := by
  unfold timingsOf
  rw [List.filterMap_filter]
  congr 1
  funext c
  cases c with
  | onAudio id chunk => by_cases h : id = r <;> simp [Callback.onTrack, Callback.timing?, h]
  | onTiming id timing => by_cases h : id = r <;> simp [Callback.onTrack, Callback.timing?, h]
  | _ => rfl

theorem audioOf_chunks :
    audioOf r (chunks.flatMap (chunkCalls r callbacks)) = if callbacks.onAudio then chunks else [] := by
  induction chunks with
  | nil => simp [audioOf]
  | cons chunk chunks ih =>
    have hhead : audioOf r (chunkCalls r callbacks chunk) = if callbacks.onAudio then [chunk] else [] := by
      cases ha : callbacks.onAudio <;> cases ht : callbacks.onTiming <;> simp [chunkCalls, audioOf, Callback.audio?, ha, ht]
    rw [List.flatMap_cons, audioOf, List.filterMap_append, ← audioOf, ← audioOf, ih, hhead]
    split <;> rfl

theorem timingsOf_chunks :
    timingsOf r (chunks.flatMap (chunkCalls r callbacks)) =
      if callbacks.onTiming then chunks.map PcmChunk.timing else [] := by
  induction chunks with
  | nil => simp [timingsOf]
  | cons chunk chunks ih =>
    have hhead : timingsOf r (chunkCalls r callbacks chunk) = if callbacks.onTiming then [chunk.timing] else [] := by
      cases ha : callbacks.onAudio <;> cases ht : callbacks.onTiming <;>
        simp [chunkCalls, timingsOf, List.filterMap_cons, Callback.timing?, ha, ht]
    rw [List.flatMap_cons, timingsOf, List.filterMap_append, ← timingsOf, ← timingsOf, ih, hhead]
    split <;> rfl

/-- In the calls of some chunks each `on_timing` comes right after its `on_audio`. -/
theorem timing_after_audio (haudio : callbacks.onAudio = true) {before after : List Callback} {timing : SpeechTimingChunk}
    (h : chunks.flatMap (chunkCalls r callbacks) = before ++ .onTiming r timing :: after) :
    (audioOf r before).getLast?.map PcmChunk.timing = some timing := by
  induction chunks generalizing before with
  | nil => simp at h
  | cons chunk chunks ih =>
    -- whatever comes before the call of a later chunk, the last `on_audio` there is the one of `ih`
    have later : ∀ head rest, audioOf r head = [chunk] → before = head ++ rest →
        chunks.flatMap (chunkCalls r callbacks) = rest ++ .onTiming r timing :: after →
        (audioOf r before).getLast?.map PcmChunk.timing = some timing := by
      intro head rest hhead hbefore hrest
      have hlast := ih hrest
      rw [hbefore, audioOf, List.filterMap_append, ← audioOf, ← audioOf, hhead]
      rw [List.getLast?_append]
      cases hl : (audioOf r rest).getLast? with
      | none => simp [hl] at hlast
      | some c => simpa [hl] using hlast
    have haud : audioOf r [Callback.onAudio r chunk] = [chunk] := by simp [audioOf, Callback.audio?]
    cases ht : callbacks.onTiming with
    | false =>
      simp only [List.flatMap_cons, chunkCalls, haudio, ht, if_true, Bool.false_eq_true, if_false, List.append_nil,
        List.singleton_append] at h
      cases before with
      | nil => cases h
      | cons x rest =>
        obtain ⟨rfl, hrest⟩ := List.cons_eq_cons.mp h
        exact later [.onAudio r chunk] rest haud rfl (by simpa [chunkCalls, haudio, ht] using hrest)
    | true =>
      simp only [List.flatMap_cons, chunkCalls, haudio, ht, if_true, List.cons_append] at h
      cases before with
      | nil => cases h
      | cons x rest =>
        obtain ⟨rfl, hrest⟩ := List.cons_eq_cons.mp h
        cases rest with
        | nil =>
          obtain ⟨htiming, -⟩ := List.cons_eq_cons.mp hrest
          cases htiming
          simp [haud]
        | cons y rest =>
          obtain ⟨rfl, hrest⟩ := List.cons_eq_cons.mp hrest
          refine later [.onAudio r chunk, .onTiming r chunk.timing] rest ?_ rfl ?_
          · simp [audioOf, List.filterMap_cons, Callback.audio?]
          · simpa [chunkCalls, haudio, ht] using hrest

end Calls

/-! ## What one act does -/

section Acts

variable {opts : Options} {s s' : St} {th : Thread} {act : Act} {acts rest : List Act} {id r : RequestId}
  {order : List (RequestId × TtsCallbacks)} {request : ActiveRequest}

theorem callsIn_append (a b : List Act) : callsIn (a ++ b) = callsIn a ++ callsIn b := List.filterMap_append

theorem find?_erase (hne : r ≠ id) : (s.erase id).find? r = s.find? r := by
  have hfilter : (s.active.filter (·.1 != id)).find? (·.1 == r) = s.active.find? (·.1 == r) := by
    rw [List.find?_filter]
    congr 1
    funext q
    by_cases hq : q.1 = r
    · simp [hq, hne]
    · simp [hq]
  show ((s.active.filter (·.1 != id)).find? (·.1 == r)).map (·.2) = _
  rw [hfilter]
  rfl

theorem find?_of_erase (h : (s.erase id).find? r = some request) : r ≠ id ∧ s.find? r = some request := by
  obtain ⟨p, hp, rfl⟩ := Option.map_eq_some_iff.mp h
  have hid : p.1 = r := by simpa using List.find?_some hp
  have hne : r ≠ id := by
    have hmem := (List.mem_filter.mp (List.mem_of_find?_eq_some hp)).2
    simpa [hid] using hmem
  exact ⟨hne, find?_erase hne ▸ h⟩

theorem find?_update (f : ActiveRequest → ActiveRequest) :
    (s.update id f).find? r = (s.find? r).map fun q => if r = id then f q else q := by
  unfold St.update St.find?
  induction s.active with
  | nil => rfl
  | cons p active ih =>
    by_cases hp : p.1 = r
    · by_cases hid : p.1 = id
      · have hr : r = id := hp.symm.trans hid
        simp [hid, hr]
      · have hr : r ≠ id := fun h => hid (hp.trans h)
        simp [hp, hr]
    · by_cases hid : p.1 = id
      · have hr : id ≠ r := fun h => hp (hid.trans h)
        simpa [hid, hr] using ih
      · simpa [hp, hid] using ih

theorem find?_push (acts : List Act) : (push s th acts).find? r = s.find? r := by
  cases th <;> rfl

/-- What an act in the middle of an event does on its thread: it leaves `acts` in its place. -/
structure Passed (s s' : St) (th : Thread) (act : Act) (rest acts : List Act) : Prop where
  stack : s'.stack th = acts ++ rest
  other : ∀ th', th' ≠ th → s'.stack th' = s.stack th'
  inEvent : ∀ a ∈ acts, a.inEvent = true
  quiet : speechIn acts = []
  log : s'.log = s.log ++ act.call?.toList
  find : ∀ r q, s'.find? r = some q → s.find? r = some q

theorem passed_push {s₁ : St} (hstack : s₁.stack th = rest) (hother : ∀ th', th' ≠ th → s₁.stack th' = s.stack th')
    (hin : ∀ a ∈ acts, a.inEvent = true) (hquiet : speechIn acts = []) (hlog : s₁.log = s.log ++ act.call?.toList)
    (hfind : ∀ r q, s₁.find? r = some q → s.find? r = some q) : Passed s (push s₁ th acts) th act rest acts where
  stack := by
    unfold push
    rw [stack_setStack, if_pos rfl, hstack]
  other := by
    intro th' hne
    unfold push
    rw [stack_setStack, if_neg hne]
    exact hother th' hne
  inEvent := hin
  quiet := hquiet
  log := by
    cases th <;> exact hlog
  find := by
    cases th <;> exact hfind

theorem stack_pop : (s.setStack rest th).stack th = rest := by
  rw [stack_setStack, if_pos rfl]

theorem stack_pop_other : ∀ th', th' ≠ th → (s.setStack rest th).stack th' = s.stack th' := by
  intro th' hne
  rw [stack_setStack, if_neg hne]

theorem act_passed (hin : act.inEvent = true) (h : runAct (s.setStack rest th) th rest order act = some s') :
    ∃ acts, Passed s s' th act rest acts := by
  have hlog : (s.setStack rest th).log = s.log ++ [] := by cases th <;> simp [St.setStack]
  have hfind : ∀ r q, (s.setStack rest th).find? r = some q → s.find? r = some q := by
    cases th <;> exact fun r q hq => hq
  -- the acts that only go on
  have pop : ∀ s₁ : St, act.call? = none → s₁.owner = (s.setStack rest th).owner →
      s₁.dispatcher = (s.setStack rest th).dispatcher → s₁.log = (s.setStack rest th).log →
      s₁.active = (s.setStack rest th).active → ∃ acts, Passed s s₁ th act rest acts := by
    intro s₁ hcall ho hd hl ha
    have hstack : ∀ th', s₁.stack th' = (s.setStack rest th).stack th' := by
      intro th'
      cases th' with
      | owner => exact ho
      | dispatcher => exact hd
    refine ⟨[], ?_, ?_, fun _ hm => (List.not_mem_nil hm).elim, rfl, ?_, ?_⟩
    · rw [hstack th, stack_pop]
      rfl
    · intro th' hne
      rw [hstack th', stack_pop_other th' hne]
    · rw [hl, hlog, hcall]
      rfl
    · intro r q hq
      refine hfind r q ?_
      unfold St.find? at hq ⊢
      rw [← ha]
      exact hq
  cases act with
  | loop => cases hin
  | handleEvent e => cases hin
  | failRequest id e =>
    cases h
    unfold failRequest terminate
    split
    · exact pop _ rfl rfl rfl rfl rfl
    · rename_i request hreq
      refine ⟨_, passed_push stack_pop stack_pop_other (inEvent_invocations _) ?_ hlog ?_⟩
      · refine speechIn_invocations fun c hc => ?_
        rw [List.mem_singleton.mp hc]
        rfl
      · intro r q hq
        exact hfind r q (find?_of_erase hq).2
  | failAllRequests e =>
    simp only [runAct] at h
    split at h
    · cases h
      refine ⟨_, passed_push stack_pop stack_pop_other (inEvent_invocations _) ?_ hlog ?_⟩
      · refine speechIn_invocations fun c hc => ?_
        obtain ⟨p, -, rfl⟩ := List.mem_map.mp hc
        rfl
      · intro r q hq
        cases hq
    · cases h
  | invoke c =>
    cases h
    refine ⟨[.user], passed_push stack_pop stack_pop_other ?_ rfl ?_ hfind⟩
    · intro a ha
      rw [List.mem_singleton.mp ha]
      rfl
    · cases th <;> rfl
  | user =>
    cases h
    exact pop _ rfl rfl rfl rfl rfl
  | stop =>
    cases h
    refine ⟨[.joinWriter, .joinDispatcher, .failAllRequests clientStopped, .finish, .returned],
      passed_push stack_pop stack_pop_other ?_ rfl hlog hfind⟩
    intro a ha
    simp only [List.mem_cons, List.not_mem_nil, or_false] at ha
    rcases ha with rfl | rfl | rfl | rfl | rfl <;> rfl
  | joinWriter =>
    simp only [runAct] at h
    split at h <;> cases h <;> exact pop _ rfl rfl rfl rfl rfl
  | joinDispatcher =>
    simp only [runAct] at h
    split at h
    · split at h <;> cases h
      exact pop _ rfl rfl rfl rfl rfl
    · cases h
      exact pop _ rfl rfl rfl rfl rfl
  | finish =>
    cases h
    obtain ⟨hd, ho, -, hl⟩ := finishStop_keeps (s.setStack rest th) th
    refine pop _ rfl ho hd hl ?_
    unfold finishStop
    simp only
    split <;> rfl
  | returned =>
    simp only [runAct] at h
    cases th <;> cases h <;> exact pop _ rfl rfl rfl rfl rfl

end Acts

/-! ## The two threads -/

/-- The dispatcher is done with an event before the next one, and the owner has no callback of an
    event to call. -/
structure Lanes (s : St) : Prop where
  shape : Shape s.dispatcher
  mute : speechIn s.owner = []

section Lanes

variable {opts : Options} {s s' : St} {th : Thread} {act : Act} {acts rest : List Act} {r : RequestId}
  {order : List (RequestId × TtsCallbacks)}

theorem Lanes.congr (h : Lanes s) (hd : s'.dispatcher = s.dispatcher) (ho : s'.owner = s.owner) : Lanes s' :=
  ⟨hd ▸ h.shape, ho ▸ h.mute⟩

theorem Lanes.passed_dispatcher (h : Lanes s) (hrest : Inner rest) (hp : Passed s s' .dispatcher act rest acts) : Lanes s' where
  shape := by
    have hstack : s'.dispatcher = acts ++ rest := hp.stack
    rw [hstack]
    exact hrest.push hp.inEvent
  mute := by
    have howner : s'.owner = s.owner := hp.other .owner nofun
    rw [howner]
    exact h.mute

theorem Lanes.passed_owner (h : Lanes s) (ho : s.owner = act :: rest) (hp : Passed s s' .owner act rest acts) : Lanes s' where
  shape := by
    have hdispatcher : s'.dispatcher = s.dispatcher := hp.other .dispatcher nofun
    rw [hdispatcher]
    exact h.shape
  mute := by
    have hstack : s'.owner = acts ++ rest := hp.stack
    have hmute := h.mute
    rw [ho, speechIn_cons] at hmute
    rw [hstack, speechIn_append, hp.quiet, (List.append_eq_nil_iff.mp hmute).2]
    rfl

theorem Lanes.callStop (h : Lanes s) (hcan : canCallStop s th = true) : Lanes (push s th [.stop]) := by
  cases th with
  | owner =>
    refine ⟨h.shape, ?_⟩
    show speechIn ([.stop] ++ s.owner) = []
    rw [speechIn_append, h.mute]
    rfl
  | dispatcher =>
    refine ⟨?_, h.mute⟩
    show Shape ([.stop] ++ s.dispatcher)
    rcases h.shape with hd | ⟨e, hd⟩ | ⟨inner, hd, hin⟩
    · rw [canCallStop, hd] at hcan
      cases hcan
    · rw [canCallStop, hd] at hcan
      cases hcan
    · rw [hd]
      refine Inner.push ⟨inner, rfl, hin⟩ fun a ha => ?_
      rw [List.mem_singleton.mp ha]
      rfl

/-- An act of the owner. -/
theorem StopInv.inEvent (h : StopInv s) (ho : s.owner = act :: rest) : act.inEvent = true := by
  have hof := h.ofStop act (ho ▸ List.mem_cons_self)
  cases act with
  | loop | handleEvent => cases hof
  | _ => rfl

theorem Lanes.step {e : Ev} (h : Lanes s) (hstop : StopInv s) (hs : step opts s e = some s') : Lanes s' := by
  rcases step_cases hs with ha | ⟨th, -, hcan, rfl⟩ | ⟨ev, rest, -, hd, rfl⟩ | ⟨th, order, act, rest, -, hstack, hrun⟩
  · exact h.congr ha.dispatcher ha.owner
  · exact h.callStop hcan
  · have hrest : rest = [] := by
      rcases (hd ▸ h.shape).cons with ⟨-, hrest⟩ | ⟨e, he, -⟩ | ⟨he, -⟩
      · exact hrest
      · cases he
      · cases he
    refine ⟨.inr (.inl ⟨ev, ?_⟩), h.mute⟩
    show Act.handleEvent ev :: s.dispatcher = _
    rw [hd, hrest]
  · cases th with
    | owner =>
      obtain ⟨acts, hp⟩ := act_passed (hstop.inEvent hstack) hrun
      exact h.passed_owner hstack hp
    | dispatcher =>
      have hd : s.dispatcher = act :: rest := hstack
      rcases (hd ▸ h.shape).cons with ⟨rfl, rfl⟩ | ⟨e, rfl, rfl⟩ | ⟨hin, hinner⟩
      · simp only [runAct] at hrun
        split at hrun <;> cases hrun
        exact ⟨.inl rfl, h.mute⟩
      · obtain ⟨acts, hh, -⟩ := handled_event hrun
        refine ⟨?_, ?_⟩
        · rw [hh.dispatcher]
          exact inner_loop.push hh.inEvent
        · rw [hh.owner]
          exact h.mute
      · obtain ⟨acts, hp⟩ := act_passed hin hrun
        exact h.passed_dispatcher hinner hp

end Lanes

theorem reach_lanes {opts : Options} {s : St} {ok : St → Ev → Prop} (h : Reach (step opts) ok init s) : Lanes s :=
  h.inv (I := Lanes) ⟨.inr (.inr ⟨[], rfl, fun _ ha => (List.not_mem_nil ha).elim⟩), rfl⟩
    fun _ _ _ hr hl _ hs => hl.step (reach_stopInv hr) hs

/-! ## What one step plays -/

/-- What a step does to the timeline of `r`. -/
inductive Plays (r : RequestId) (s s' : St) : Prop
  | same : track r s' = track r s →
      (∀ q', s'.find? r = some q' →
        ∃ q, s.find? r = some q ∧ q'.callbacks = q.callbacks ∧ q'.nextSample = q.nextSample) → Plays r s s'
  | start (request : ActiveRequest) : track r s' = track r s → s.find? r = none → s'.find? r = some request →
      request.nextSample = 0 → Plays r s s'
  | chunk (request : ActiveRequest) (chunk : PcmChunk) : s.find? r = some request →
      track r s' = track r s ++ chunkCalls r request.callbacks chunk → chunk.firstSample = request.nextSample →
      chunk.Whole →
      (∀ q', s'.find? r = some q' → q'.callbacks = request.callbacks ∧
        q'.nextSample = request.nextSample + chunk.sampleCount.toUInt64) → Plays r s s'

section Plays

variable {opts : Options} {s s' : St} {th : Thread} {act : Act} {acts rest : List Act} {id r : RequestId}
  {order : List (RequestId × TtsCallbacks)} {request : ActiveRequest}

theorem callsIn_quiet (h : speechIn acts = []) : (callsIn acts).filter (·.onTrack r) = [] := by
  refine List.filter_eq_nil_iff.mpr fun c hc htrack => ?_
  obtain ⟨a, ha, hcall⟩ := List.mem_filterMap.mp hc
  have hspeech : c.speech? = some r := by
    cases c with
    | onAudio i chunk => simpa [Callback.onTrack, Callback.speech?] using htrack
    | onTiming i timing => simpa [Callback.onTrack, Callback.speech?] using htrack
    | _ => cases htrack
  have hact : a.speech? = some r := by
    cases a with
    | invoke c' =>
      cases hcall
      exact hspeech
    | _ => cases hcall
  have hmem : r ∈ speechIn acts := List.mem_filterMap.mpr ⟨a, ha, hact⟩
  rw [h] at hmem
  cases hmem

theorem track_congr (hd : callsIn s'.dispatcher = callsIn s.dispatcher) (hl : s'.log = s.log) : track r s' = track r s := by
  unfold track
  rw [hd, hl]

theorem find?_congr (ha : s'.active = s.active) : s'.find? r = s.find? r := by
  unfold St.find?
  rw [ha]

theorem enqueue_active {m : ControlMessage} (h : enqueueOutboundLocked opts s id m = some s') : s'.active = s.active := by
  unfold enqueueOutboundLocked at h
  simp only at h
  split at h
  · cases h
  split at h <;> cases h
  rfl

/-- `synthesize_async` enters a request at sample 0. -/
theorem find?_synthesize {callbacks : TtsCallbacks} {sub : Submission}
    (h : (synthesizeAsync opts s callbacks sub).1.find? r = some request) :
    s.find? r = some request ∨ (s.find? r = none ∧ request.nextSample = 0) := by
  have emplaced : ∀ (s₁ : St) (id : RequestId) (q : ActiveRequest), s₁.active = s.active → q.nextSample = 0 →
      (s₁.emplace id q).find? r = some request → s.find? r = some request ∨ (s.find? r = none ∧ request.nextSample = 0) := by
    intro s₁ id q hactive hnext hfound
    have hsame : s₁.find? r = s.find? r := find?_congr hactive
    unfold St.emplace at hfound
    split at hfound
    · exact .inl (hsame ▸ hfound)
    · have hsplit : (List.find? (·.1 == r) (s₁.active ++ [(id, q)])).map (·.2) = some request := hfound
      rw [List.find?_append] at hsplit
      cases hold : s₁.active.find? (·.1 == r) with
      | some p =>
        rw [hold] at hsplit
        refine .inl (hsame ▸ ?_)
        simpa [St.find?, hold] using hsplit
      | none =>
        rw [hold] at hsplit
        refine .inr ⟨hsame ▸ by simp [St.find?, hold], ?_⟩
        obtain ⟨p, hp, hq⟩ := Option.map_eq_some_iff.mp hsplit
        have hlast : [(id, q)].find? (·.1 == r) = some p := hp
        have hmem : p ∈ [(id, q)] := List.mem_of_find?_eq_some hlast
        rw [← hq, List.mem_singleton.mp hmem]
        exact hnext
  cases sub with
  | refused e =>
    simp only [synthesizeAsync] at h
    split at h
    · exact .inl h
    · exact .inl h
  | unencodable => exact .inl h
  | submit requestedId message prepared =>
    simp only [synthesizeAsync, synthesizeLocked] at h
    split at h
    · exact .inl h
    cases hal : allocateRequestIdLocked s requestedId with
    | mk id next =>
    rw [hal] at h
    dsimp only at h
    split at h
    · exact .inl h
    split at h
    · exact emplaced { s with nextRequestId := next, allocated := s.allocated ++ [id] } id
        { callbacks, audioFormat := message.output, preparedText := some prepared } rfl rfl (find?_of_erase h).2
    · rename_i s₁ henq
      refine emplaced { s with nextRequestId := next, allocated := s.allocated ++ [id] } id
        { callbacks, audioFormat := message.output, preparedText := some prepared } rfl rfl ?_
      rw [← find?_congr (enqueue_active henq)]
      exact h

theorem find?_cancel : (cancel opts s id).1.find? r = s.find? r := by
  unfold cancel
  split
  · rfl
  split
  · rfl
  split
  · rfl
  · rename_i s₁ henq
    exact find?_congr (enqueue_active henq)

theorem find?_writer (h : stepWriter s = some s') : s'.find? r = s.find? r := by
  unfold stepWriter at h
  split at h
  · split at h
    · split at h <;> cases h
      rfl
    · simp only at h
      split at h <;> cases h <;> rfl
  · cases h
    rfl
  · cases h

/-- A step outside the two threads' acts. -/
theorem plays_aside (hd : callsIn s'.dispatcher = callsIn s.dispatcher) (hl : s'.log = s.log)
    (hfind : ∀ q, s'.find? r = some q → s.find? r = some q ∨ (s.find? r = none ∧ q.nextSample = 0)) : Plays r s s' := by
  have htrack : track r s' = track r s := track_congr hd hl
  cases hq : s'.find? r with
  | none =>
    refine .same htrack fun q' hq' => ?_
    rw [hq] at hq'
    cases hq'
  | some q =>
    rcases hfind q hq with hold | ⟨hnone, hzero⟩
    · refine .same htrack fun q' hq' => ⟨q, hold, ?_⟩
      rw [hq] at hq'
      cases hq'
      exact ⟨rfl, rfl⟩
    · exact .start q htrack hnone hq hzero

theorem Passed.track_dispatcher (hd : s.dispatcher = act :: rest) (hp : Passed s s' .dispatcher act rest acts) :
    track r s' = track r s := by
  have hstack : s'.dispatcher = acts ++ rest := hp.stack
  unfold track
  rw [hp.log, hstack, hd, callsIn_append]
  -- a call that is made moves from the stack to the log
  have hcons : callsIn (act :: rest) = act.call?.toList ++ callsIn rest := by
    cases hcall : act.call? <;> simp [callsIn, hcall]
  rw [hcons]
  simp [List.filter_append, callsIn_quiet hp.quiet]

theorem Passed.track_owner (h : Lanes s) (ho : s.owner = act :: rest) (hp : Passed s s' .owner act rest acts) :
    track r s' = track r s := by
  have hdispatcher : s'.dispatcher = s.dispatcher := hp.other .dispatcher nofun
  have hmute := h.mute
  rw [ho, speechIn_cons] at hmute
  have hact : speechIn [act] = [] := by
    rw [speechIn_cons, (List.append_eq_nil_iff.mp hmute).1]
    rfl
  have hcall : (act.call?.toList).filter (·.onTrack r) = [] := by
    have hq := callsIn_quiet (r := r) hact
    cases hc : act.call? with
    | none => rfl
    | some c => simpa [callsIn, hc] using hq
  unfold track
  rw [hp.log, hdispatcher]
  simp [List.filter_append, hcall]

theorem Passed.plays (hp : Passed s s' th act rest acts) (htrack : track r s' = track r s) : Plays r s s' :=
  .same htrack fun q' hq' => ⟨q', hp.find r q' hq', rfl, rfl⟩

/-- What a handler does when it has nothing for the timeline of `r`. -/
structure Aloof (r : RequestId) (s s' : St) : Prop where
  acts : ∃ acts, s'.dispatcher = acts ++ s.dispatcher ∧ (callsIn acts).filter (·.onTrack r) = []
  log : s'.log = s.log
  find : ∀ q', s'.find? r = some q' →
    ∃ q, s.find? r = some q ∧ q'.callbacks = q.callbacks ∧ q'.nextSample = q.nextSample

theorem Aloof.track {e : WorkerSessionEvent} (hd : s.dispatcher = [.handleEvent e, .loop])
    (h : Aloof r { s with dispatcher := [.loop] } s') : track r s' = track r s := by
  obtain ⟨acts, hstack, hquiet⟩ := h.acts
  have hlog : s'.log = s.log := h.log
  have hstack : s'.dispatcher = acts ++ [.loop] := hstack
  have hnone : callsIn [.handleEvent e, .loop] = [] := rfl
  have hloop : callsIn [Act.loop] = [] := rfl
  unfold Client.track
  rw [hlog, hstack, hd, callsIn_append, hnone, hloop]
  simp [List.filter_append, hquiet]

theorem Aloof.plays {e : WorkerSessionEvent} (hd : s.dispatcher = [.handleEvent e, .loop])
    (h : Aloof r { s with dispatcher := [.loop] } s') : Plays r s s' := .same (h.track hd) h.find

theorem callsIn_invocations (cs : List (Bool × Callback)) : callsIn (invocations cs) = (cs.filter (·.1)).map (·.2) := by
  unfold callsIn invocations
  rw [List.filterMap_map]
  exact congrFun List.filterMap_eq_map _

theorem invocations_offTrack {cs : List (Bool × Callback)} (h : ∀ c ∈ cs, c.2.onTrack r = false) :
    (callsIn (invocations cs)).filter (·.onTrack r) = [] := by
  rw [callsIn_invocations]
  refine List.filter_eq_nil_iff.mpr fun c hc => ?_
  obtain ⟨p, hp, rfl⟩ := List.mem_map.mp hc
  rw [h p (List.mem_filter.mp hp).1]
  exact Bool.false_ne_true

theorem aloof_push (hcalls : (callsIn acts).filter (·.onTrack r) = []) {s₁ : St} (hd : s₁.dispatcher = s.dispatcher)
    (hl : s₁.log = s.log)
    (hfind : ∀ q', s₁.find? r = some q' →
      ∃ q, s.find? r = some q ∧ q'.callbacks = q.callbacks ∧ q'.nextSample = q.nextSample) :
    Aloof r s (push s₁ .dispatcher acts) where
  acts := by
    refine ⟨acts, ?_, hcalls⟩
    show acts ++ s₁.dispatcher = _
    rw [hd]
  log := hl
  find := hfind

theorem find?_same : ∀ q', s.find? r = some q' →
    ∃ q, s.find? r = some q ∧ q'.callbacks = q.callbacks ∧ q'.nextSample = q.nextSample :=
  fun q' hq' => ⟨q', hq', rfl, rfl⟩

theorem aloof_keep (hd : s'.dispatcher = s.dispatcher) (hl : s'.log = s.log) (ha : s'.active = s.active) : Aloof r s s' := by
  refine ⟨⟨[], hd, rfl⟩, hl, fun q' hq' => ?_⟩
  rw [find?_congr ha] at hq'
  exact find?_same q' hq'

theorem aloof_terminate {kind : Terminal} {calls : TtsCallbacks → List (Bool × Callback)}
    (h : ∀ callbacks, ∀ c ∈ calls callbacks, c.2.onTrack r = false) : Aloof r s (terminate s .dispatcher id kind calls) := by
  unfold terminate
  split
  · exact aloof_keep rfl rfl rfl
  · refine aloof_push (invocations_offTrack (h _)) rfl rfl fun q' hq' => ?_
    exact find?_same q' (find?_of_erase hq').2

theorem find?_update_same {f : ActiveRequest → ActiveRequest}
    (hf : r = id → ∀ q, s.find? r = some q → (f q).callbacks = q.callbacks ∧ (f q).nextSample = q.nextSample) :
    ∀ q', (s.update id f).find? r = some q' →
      ∃ q, s.find? r = some q ∧ q'.callbacks = q.callbacks ∧ q'.nextSample = q.nextSample := by
  intro q' hq'
  rw [find?_update] at hq'
  obtain ⟨q, hq, rfl⟩ := Option.map_eq_some_iff.mp hq'
  refine ⟨q, hq, ?_⟩
  split
  · rename_i hr
    exact hf hr q hq
  · exact ⟨rfl, rfl⟩

theorem aloof_control (m : ControlMessage) : Aloof r s (handleControlEvent s .dispatcher id m) := by
  unfold handleControlEvent
  split
  · unfold handleStarted
    split
    · exact aloof_keep rfl rfl rfl
    split
    · refine aloof_push (invocations_offTrack fun c hc => ?_) rfl rfl (find?_update_same fun _ _ _ => ⟨rfl, rfl⟩)
      rw [List.mem_singleton.mp hc]
      rfl
    · exact ⟨⟨[], rfl, rfl⟩, rfl, find?_update_same fun _ _ _ => ⟨rfl, rfl⟩⟩
  · refine aloof_terminate fun callbacks c hc => ?_
    rcases List.mem_pair.mp hc with rfl | rfl <;> rfl
  · refine aloof_terminate fun callbacks c hc => ?_
    rw [List.mem_singleton.mp hc]
    rfl
  · exact aloof_keep rfl rfl rfl

theorem aloof_fail (e : TtsError) : Aloof r s (failRequest s .dispatcher id e) := by
  refine aloof_terminate fun callbacks c hc => ?_
  rw [List.mem_singleton.mp hc]
  rfl

/-- The error of a payload that is not a whole number of sample frames. -/
def invalidTimeline (id : RequestId) : TtsError :=
  makeLocalError id "protocol_error" "invalid_audio_timeline"
    "worker audio payload has an unsupported format or incomplete sample frame"

theorem handleAudioEvent_rejects {audio : List UInt8} (hfind : s.find? id = some request) (hne : audio ≠ [])
    (hbad : sampleCountForAudio request.audioFormat audio.length = none) :
    handleAudioEvent s th id audio = push s th [.failRequest id (invalidTimeline id)] := by
  unfold handleAudioEvent
  rw [hfind]
  simp only [hbad, Option.isNone_none, Bool.and_true]
  rw [if_pos (by simpa using hne)]
  rfl

/-- The calls for a chunk of another request. -/
theorem audioCalls_offTrack (hid : id ≠ r) (callbacks : TtsCallbacks) (text : Option PreparedText) (chunk : PcmChunk) :
    ∀ c ∈ audioCalls id callbacks text chunk, c.2.onTrack r = false := by
  intro c hc
  simp only [audioCalls, List.mem_append, List.mem_map, List.mem_cons, List.not_mem_nil, or_false] at hc
  rcases hc with ⟨t, -, rfl⟩ | rfl | rfl
  · rfl
  · exact beq_false_of_ne hid
  · exact beq_false_of_ne hid

/-- The calls for a chunk, `on_text_prepared` apart. -/
theorem audioCalls_onTrack {callbacks : TtsCallbacks} {text : Option PreparedText} {chunk : PcmChunk}
    (hcount : chunk.bytes ≠ [] → chunk.sampleCount ≠ 0) :
    (callsIn (invocations (audioCalls r callbacks text chunk))).filter (·.onTrack r) =
      if chunk.bytes = [] then [] else chunkCalls r callbacks chunk := by
  rw [callsIn_invocations, audioCalls, List.filter_append, List.map_append, List.filter_append]
  have htext : (((text.toList.map fun t => (callbacks.onTextPrepared, Callback.onTextPrepared r t)).filter (·.1)).map
      (·.2)).filter (·.onTrack r) = [] := by
    refine List.filter_eq_nil_iff.mpr fun c hc => ?_
    obtain ⟨p, hp, rfl⟩ := List.mem_map.mp hc
    obtain ⟨t, -, rfl⟩ := List.mem_map.mp (List.mem_filter.mp hp).1
    exact Bool.false_ne_true
  rw [htext, List.nil_append]
  by_cases hbytes : chunk.bytes = []
  · simp [hbytes]
  · have hne := hcount hbytes
    cases ha : callbacks.onAudio <;> cases ht : callbacks.onTiming <;>
      simp [hbytes, hne, ha, ht, chunkCalls, Callback.onTrack, PcmChunk.timing]

/-- What `handle_audio_event` does with a chunk that it delivers. -/
structure Sounds (r : RequestId) (s s' : St) (request : ActiveRequest) (chunk : PcmChunk) : Prop where
  found : s.find? r = some request
  placed : chunk.firstSample = request.nextSample
  whole : chunk.Whole
  acts : ∃ acts, s'.dispatcher = acts ++ s.dispatcher ∧
    (callsIn acts).filter (·.onTrack r) = chunkCalls r request.callbacks chunk
  log : s'.log = s.log
  find : s'.find? r = some { request with
    textContextDelivered := request.textContextDelivered || request.preparedText.isSome
    nextSample := request.nextSample + chunk.sampleCount.toUInt64 }

theorem Sounds.track {e : WorkerSessionEvent} {chunk : PcmChunk} (hd : s.dispatcher = [.handleEvent e, .loop])
    (h : Sounds r { s with dispatcher := [.loop] } s' request chunk) :
    track r s' = track r s ++ chunkCalls r request.callbacks chunk := by
  obtain ⟨acts, hstack, hcalls⟩ := h.acts
  have hlog : s'.log = s.log := h.log
  have hstack : s'.dispatcher = acts ++ [.loop] := hstack
  have hnone : callsIn [.handleEvent e, .loop] = [] := rfl
  have hloop : callsIn [Act.loop] = [] := rfl
  unfold Client.track
  rw [hlog, hstack, hd, callsIn_append, hnone, hloop]
  simp [List.filter_append, hcalls]

theorem Sounds.plays {e : WorkerSessionEvent} {chunk : PcmChunk} (hd : s.dispatcher = [.handleEvent e, .loop])
    (h : Sounds r { s with dispatcher := [.loop] } s' request chunk) : Plays r s s' := by
  refine .chunk request chunk h.found (h.track hd) h.placed h.whole fun q' hq' => ?_
  rw [h.find] at hq'
  cases hq'
  exact ⟨rfl, rfl⟩

/-- The chunk that `handle_audio_event` makes of a payload. -/
def chunkOf (request : ActiveRequest) (count : UInt32) (audio : List UInt8) : PcmChunk :=
  ⟨request.audioFormat, request.nextSample, count, audio⟩

/-- A payload of whole sample frames is delivered. -/
theorem sounds_audio {audio : List UInt8} {count : UInt32} (hfind : s.find? r = some request) (hne : audio ≠ [])
    (hcount : sampleCountForAudio request.audioFormat audio.length = some count) :
    Sounds r s (handleAudioEvent s .dispatcher r audio) request (chunkOf request count audio) := by
  have hpos : count ≠ 0 := sampleCount_pos hcount fun hz => hne (List.eq_nil_of_length_eq_zero hz)
  unfold handleAudioEvent
  rw [hfind]
  simp only [hcount, Option.isNone_some, Bool.and_false, Bool.false_eq_true, if_false, Option.getD_some]
  refine ⟨hfind, rfl, sampleCount_whole hcount, ⟨_, rfl, ?_⟩, rfl, ?_⟩
  · rw [audioCalls_onTrack fun _ => hpos]
    exact if_neg hne
  · rw [find?_push, find?_update, hfind]
    simp [chunkOf]

/-- Any other audio event has nothing for the timeline of `r`. -/
theorem aloof_audio {audio : List UInt8}
    (h : id = r → ∀ request, s.find? r = some request → audio ≠ [] →
      sampleCountForAudio request.audioFormat audio.length = none) :
    Aloof r s (handleAudioEvent s .dispatcher id audio) := by
  unfold handleAudioEvent
  cases hfind : s.find? id with
  | none => exact aloof_keep rfl rfl rfl
  | some request =>
    dsimp only
    split
    · exact aloof_push rfl rfl rfl find?_same
    rename_i hvalid
    by_cases hid : id = r
    · subst hid
      have hempty : audio = [] := by
        by_contra hne
        rw [h rfl request hfind hne] at hvalid
        simp [hne] at hvalid
      subst hempty
      refine aloof_push ?_ rfl rfl (find?_update_same fun _ q hq => ?_)
      · rw [audioCalls_onTrack fun hne => absurd rfl hne]
        exact if_pos rfl
      · simp [sampleCount_empty]
    · refine aloof_push (invocations_offTrack (audioCalls_offTrack hid _ _ _)) rfl rfl ?_
      exact find?_update_same fun hr => absurd hr.symm hid

theorem event_plays {e : WorkerSessionEvent} (hd : s.dispatcher = [.handleEvent e, .loop])
    (h : runAct { s with dispatcher := [.loop] } .dispatcher [.loop] order (.handleEvent e) = some s') : Plays r s s' := by
  cases e with
  | control id m =>
    cases h
    exact (aloof_control m).plays hd
  | audio id audio =>
    cases h
    by_cases hsounds : id = r ∧ audio ≠ [] ∧ ∃ request count, s.find? r = some request ∧
        sampleCountForAudio request.audioFormat audio.length = some count
    · obtain ⟨rfl, hne, request, count, hfind, hcount⟩ := hsounds
      have hfound : ({ s with dispatcher := [.loop] } : St).find? id = some request := hfind
      exact (sounds_audio hfound hne hcount).plays hd
    · refine (aloof_audio fun hid request hfind hne => ?_).plays hd
      cases hcount : sampleCountForAudio request.audioFormat audio.length with
      | none => rfl
      | some count => exact absurd ⟨hid, hne, request, count, hfind, hcount⟩ hsounds
  | workerError id e =>
    simp only [runAct] at h
    split at h <;> cases h
    · exact (aloof_push rfl rfl rfl find?_same).plays hd
    · exact (aloof_fail _).plays hd
  | localEvent type message =>
    cases h
    refine Aloof.plays hd ?_
    unfold handleLocalError
    split
    · exact aloof_keep rfl rfl rfl
    · exact aloof_push rfl rfl rfl find?_same

/-- Only `synthesize_async` enters a request outside the threads' acts. -/
theorem find?_outside {e : Ev} {q : ActiveRequest} (hs : step opts s e = some s') (hrun : ∀ th order, e ≠ .run th order)
    (h : s'.find? r = some q) : s.find? r = some q ∨ (s.find? r = none ∧ q.nextSample = 0) := by
  cases e with
  | synthesize hooks tts callbacks =>
    cases hs
    exact find?_synthesize h
  | synthesizePrepared tts prepared callbacks =>
    cases hs
    exact find?_synthesize h
  | cancel id =>
    cases hs
    exact .inl (find?_cancel ▸ h)
  | callStop th =>
    simp only [step] at hs
    split at hs <;> cases hs
    exact .inl (find?_push _ ▸ h)
  | event ev =>
    simp only [step] at hs
    split at hs
    · split at hs <;> cases hs
      exact .inl (find?_push _ ▸ h)
    · cases hs
  | run th order => exact absurd rfl (hrun th order)
  | writer => exact .inl (find?_writer hs ▸ h)

theorem run_plays (hlanes : Lanes s) (hstop : StopInv s) (hstack : s.stack th = act :: rest)
    (hrun : runAct (s.setStack rest th) th rest order act = some s') : Plays r s s' := by
  cases th with
  | owner =>
    obtain ⟨acts, hp⟩ := act_passed (hstop.inEvent hstack) hrun
    exact hp.plays (hp.track_owner hlanes hstack)
  | dispatcher =>
    have hd : s.dispatcher = act :: rest := hstack
    rcases (hd ▸ hlanes.shape).cons with ⟨rfl, rfl⟩ | ⟨e, rfl, rfl⟩ | ⟨hin, -⟩
    · simp only [runAct] at hrun
      split at hrun <;> cases hrun
      exact .same (track_congr (by rw [hd]; rfl) rfl) find?_same
    · exact event_plays hd hrun
    · obtain ⟨acts, hp⟩ := act_passed hin hrun
      exact hp.plays (hp.track_dispatcher hd)

theorem step_plays {e : Ev} (hlanes : Lanes s) (hstop : StopInv s) (hs : step opts s e = some s') : Plays r s s' := by
  by_cases hrun : ∃ th order, e = .run th order
  · obtain ⟨th, order, rfl⟩ := hrun
    simp only [step] at hs
    split at hs
    · rename_i act rest hstack
      exact run_plays hlanes hstop hstack hs
    · cases hs
  · have hout : ∀ q, s'.find? r = some q → s.find? r = some q ∨ (s.find? r = none ∧ q.nextSample = 0) :=
      fun q hq => find?_outside hs (fun th order he => hrun ⟨th, order, he⟩) hq
    rcases step_cases hs with ha | ⟨th, -, -, rfl⟩ | ⟨ev, rest, -, -, rfl⟩ | ⟨th, order, act, rest, he, -, -⟩
    · exact plays_aside (by rw [ha.dispatcher]) ha.log hout
    · cases th <;> exact plays_aside rfl rfl hout
    · exact plays_aside rfl rfl hout
    · exact absurd ⟨th, order, he⟩ hrun

end Plays

/-! ## Whole runs -/

/-- The timeline of `r`: `chunks` are those that the client delivered to it. -/
structure OnTimeline (r : RequestId) (s : St) (callbacks : TtsCallbacks) (chunks : List PcmChunk) : Prop where
  calls : track r s = chunks.flatMap (chunkCalls r callbacks)
  consecutive : Consecutive chunks
  whole : ∀ chunk ∈ chunks, chunk.Whole
  next : ∀ request, s.find? r = some request → request.callbacks = callbacks ∧ request.nextSample = samples chunks
  accepted : chunks ≠ [] → (r, callbacks) ∈ s.accepted

section Runs

variable {opts : Options} {s s' : St} {r : RequestId} {callbacks : TtsCallbacks} {chunks : List PcmChunk}

theorem Effect.accepted_mem {v v' : Account} (e : Effect v v') {p : RequestId × TtsCallbacks} (hp : p ∈ v.accepted) :
    p ∈ v'.accepted := by
  cases e with
  | keep | spend | decide => exact hp
  | accept id callbacks => exact List.mem_append_left _ hp

theorem accepted_of_find? {request : ActiveRequest} (hi : Inv s.account) (hfind : s.find? r = some request) :
    (r, request.callbacks) ∈ s.accepted := by
  obtain ⟨p, hp, rfl⟩ := Option.map_eq_some_iff.mp hfind
  have hid : p.1 = r := by simpa using List.find?_some hp
  have hentry : (p.1, p.2.callbacks) ∈ s.entries :=
    List.mem_map_of_mem (f := fun q : RequestId × ActiveRequest => (q.1, q.2.callbacks)) (List.mem_of_find?_eq_some hp)
  exact hid ▸ hi.ledger.mem_iff.mpr (List.mem_append_left _ hentry)

/-- A request that enters the map was never accepted before. -/
theorem not_accepted_of_start {request : ActiveRequest} (hi : Inv s.account) (he : Effect s.account s'.account)
    (hnone : s.find? r = none) (hfind : s'.find? r = some request) : r ∉ s.accepted.map Prod.fst := by
  obtain ⟨p, hp, rfl⟩ := Option.map_eq_some_iff.mp hfind
  have hid : p.1 = r := by simpa using List.find?_some hp
  have hentry : (p.1, p.2.callbacks) ∈ s'.account.entries :=
    List.mem_map_of_mem (f := fun q : RequestId × ActiveRequest => (q.1, q.2.callbacks)) (List.mem_of_find?_eq_some hp)
  rcases he.entries hi _ hentry with hold | hnew
  · obtain ⟨q, hq, hpq⟩ := List.mem_map.mp hold
    have hqid : q.1 = r := (congrArg Prod.fst hpq).trans hid
    have hmiss : s.active.find? (·.1 == r) = none := Option.map_eq_none_iff.mp hnone
    exact absurd (beq_iff_eq.mpr hqid) (List.find?_eq_none.mp hmiss q hq)
  · exact hid ▸ hnew

theorem OnTimeline.step (h : OnTimeline r s callbacks chunks) (hi : Inv s.account) (he : Effect s.account s'.account)
    (hp : Plays r s s') : ∃ callbacks' chunks', OnTimeline r s' callbacks' chunks' := by
  cases hp with
  | same htrack hfind =>
    refine ⟨callbacks, chunks, htrack ▸ h.calls, h.consecutive, h.whole, fun q' hq' => ?_,
      fun hne => he.accepted_mem (h.accepted hne)⟩
    obtain ⟨q, hq, hcallbacks, hnext⟩ := hfind q' hq'
    obtain ⟨hc, hn⟩ := h.next q hq
    exact ⟨hcallbacks.trans hc, hnext.trans hn⟩
  | start request htrack hnone hfind hzero =>
    have hnew := not_accepted_of_start hi he hnone hfind
    have hempty : chunks = [] := by
      by_contra hne
      exact hnew (List.mem_map_of_mem (h.accepted hne))
    have hcalls := h.calls
    rw [hempty] at hcalls
    refine ⟨request.callbacks, [], htrack.trans hcalls, ?_, fun _ hc => (List.not_mem_nil hc).elim, fun q hq => ?_,
      fun hne => absurd rfl hne⟩
    · intro before chunk after hsplit
      cases before <;> cases hsplit
    · rw [hfind] at hq
      cases hq
      exact ⟨rfl, hzero⟩
  | chunk request chunk hfind htrack hfirst hwhole hnext =>
    obtain ⟨hcallbacks, hsamples⟩ := h.next request hfind
    refine ⟨callbacks, chunks ++ [chunk], ?_, h.consecutive.snoc (hfirst.trans hsamples), fun c hc => ?_,
      fun q' hq' => ?_, fun _ => ?_⟩
    · rw [htrack, h.calls, hcallbacks]
      simp
    · rcases List.mem_append.mp hc with hc | hc
      · exact h.whole c hc
      · rw [List.mem_singleton.mp hc]
        exact hwhole
    · obtain ⟨hc, hn⟩ := hnext q' hq'
      exact ⟨hc.trans hcallbacks, by rw [hn, samples_append, hsamples]⟩
    · exact he.accepted_mem (hcallbacks ▸ accepted_of_find? hi hfind)

theorem reach_timeline (h : Reachable opts s) (r : RequestId) : ∃ callbacks chunks, OnTimeline r s callbacks chunks := by
  refine h.inv (I := fun s => ∃ callbacks chunks, OnTimeline r s callbacks chunks) ?_ ?_
  · refine ⟨{}, [], rfl, ?_, fun _ hc => (List.not_mem_nil hc).elim, fun q hq => ?_, fun hne => absurd rfl hne⟩
    · intro before chunk after hsplit
      cases before <;> cases hsplit
    · cases hq
  · intro s e s' hr ht _ hs
    obtain ⟨callbacks, chunks, ht⟩ := ht
    exact ht.step (reach_inv hr) (step_effect (reach_inv hr) hs) (step_plays (reach_lanes hr) (reach_stopInv hr) hs)

end Runs

/-! ## After a rejected chunk -/

/-- The dispatcher is about to reject an audio frame of the request `r`. -/
def Rejects (r : RequestId) (s : St) : Prop :=
  ∃ audio rest request, s.dispatcher = .handleEvent (.audio r audio) :: rest ∧ s.find? r = some request ∧
    audio ≠ [] ∧ sampleCountForAudio request.audioFormat audio.length = none

section Rejected

variable {opts : Options} {s s' t t' : St} {act : Act} {rest : List Act} {r : RequestId}

/-- What the others leave alone while the dispatcher is in the middle of something. -/
structure Elsewhere (r : RequestId) (s s' : St) : Prop where
  dispatcher : s'.dispatcher = s.dispatcher
  log : s'.log = s.log
  decided : s'.decided = s.decided
  find : ∀ q, s'.find? r = some q → s.find? r = some q

/-- Before it has joined the dispatcher the owner fails no request and calls no callback. -/
theorem owner_elsewhere {order : List (RequestId × TtsCallbacks)} (hstop : StopInv s) (hbusy : s.dispatcher ≠ [])
    (hstack : s.owner = act :: rest) (hrun : runAct (s.setStack rest .owner) .owner rest order act = some s') :
    Elsewhere r s s' := by
  obtain ⟨acts, hp⟩ := act_passed (hstop.inEvent hstack) hrun
  have hact : act = .stop ∨ act = .joinWriter ∨ act = .joinDispatcher := by
    rcases hstop.waiting hbusy with hw | hw | hw | hw
    · rw [hstack] at hw
      cases hw
    · rw [hstack] at hw
      cases hw
      exact .inl rfl
    · rw [hstack] at hw
      cases hw
      exact .inr (.inl rfl)
    · rw [hstack] at hw
      cases hw
      exact .inr (.inr rfl)
  refine ⟨hp.other .dispatcher nofun, ?_, ?_, hp.find r⟩
  · rw [hp.log]
    rcases hact with rfl | rfl | rfl <;> exact List.append_nil _
  · rcases hact with rfl | rfl | rfl
    · cases hrun
      rfl
    · simp only [runAct] at hrun
      split at hrun <;> cases hrun <;> rfl
    · simp only [runAct] at hrun
      split at hrun
      · split at hrun <;> cases hrun
        rfl
      · cases hrun
        rfl

theorem step_elsewhere {e : Ev} (hstop : StopInv s) (hi : Inv s.account) (hknown : r ∈ s.accepted.map Prod.fst)
    (hd : s.dispatcher = act :: rest) (hloop : act ≠ .loop) (huser : act ≠ .user) (hs : step opts s e = some s') :
    (∃ order, e = .run .dispatcher order ∧ runAct { s with dispatcher := rest } .dispatcher rest order act = some s') ∨
      Elsewhere r s s' := by
  by_cases hrun : ∃ th order, e = .run th order
  · obtain ⟨th, order, rfl⟩ := hrun
    simp only [step] at hs
    split at hs
    · rename_i act' rest' hstack
      cases th with
      | owner => exact .inr (owner_elsewhere hstop (hd ▸ List.cons_ne_nil _ _) hstack hs)
      | dispatcher =>
        have hd' : s.dispatcher = act' :: rest' := hstack
        rw [hd] at hd'
        cases hd'
        exact .inl ⟨order, rfl, hs⟩
    · cases hs
  · have hout : ∀ q, s'.find? r = some q → s.find? r = some q := by
      intro q hq
      rcases find?_outside hs (fun th order he => hrun ⟨th, order, he⟩) hq with hsame | ⟨hnone, -⟩
      · exact hsame
      · exact absurd hknown (not_accepted_of_start hi (step_effect hi hs) hnone hq)
    rcases step_cases hs with ha | ⟨th, -, hcan, rfl⟩ | ⟨ev, rest', -, hd', rfl⟩ | ⟨th, order, act', rest', he, -, -⟩
    · exact .inr ⟨ha.dispatcher, ha.log, ha.decided, hout⟩
    · cases th with
      | owner => exact .inr ⟨rfl, rfl, rfl, hout⟩
      | dispatcher =>
        rw [canCallStop, hd] at hcan
        cases act with
        | user => exact absurd rfl huser
        | _ => cases hcan
    · rw [hd] at hd'
      cases hd'
      exact absurd rfl hloop
    · exact absurd ⟨th, order, he⟩ hrun

theorem Elsewhere.track (h : Elsewhere r s s') : track r s' = track r s := track_congr (by rw [h.dispatcher]) h.log

/-- From the state `s` that rejects a chunk of `r` on: the frame waits to be handled, the request is
    about to be failed, or it is gone. -/
structure Barred (r : RequestId) (s t : St) : Prop where
  track : track r t = track r s
  known : r ∈ t.accepted.map Prod.fst
  stage : (t.dispatcher = s.dispatcher ∧ ∀ q, t.find? r = some q → s.find? r = some q) ∨
    (∃ e, t.dispatcher = [.failRequest r e, .loop]) ∨ t.find? r = none

theorem find?_failRequest {th : Thread} {e : TtsError} : (failRequest s th r e).find? r = none := by
  cases hfind : (failRequest s th r e).find? r with
  | none => rfl
  | some q =>
    unfold failRequest terminate at hfind
    split at hfind
    · rename_i hnone
      have hsome : s.find? r = some q := hfind
      rw [hnone] at hsome
      cases hsome
    · rw [find?_push] at hfind
      exact absurd rfl (find?_of_erase hfind).1

/-- An accepted request that left the map does not come back. -/
theorem gone_step {e : Ev} (hr : Reachable opts t) (hknown : r ∈ t.accepted.map Prod.fst) (hnone : t.find? r = none)
    (hs : step opts t e = some t') : Client.track r t' = Client.track r t ∧ t'.find? r = none := by
  have hi := reach_inv hr
  have hplays : Plays r t t' := step_plays (reach_lanes hr) (reach_stopInv hr) hs
  cases hplays with
  | same htrack hfind =>
    refine ⟨htrack, ?_⟩
    cases hq : t'.find? r with
    | none => rfl
    | some q' =>
      obtain ⟨q, hsome, -⟩ := hfind q' hq
      rw [hnone] at hsome
      cases hsome
  | start request _ _ hfind _ => exact absurd hknown (not_accepted_of_start hi (step_effect hi hs) hnone hfind)
  | chunk request chunk hfind =>
    rw [hnone] at hfind
    cases hfind

theorem Barred.step {e : Ev} (h : Barred r s t) (hrej : Rejects r s) (hr : Reachable opts t) (hs : step opts t e = some t') :
    Barred r s t' := by
  have hi := reach_inv hr
  have he := step_effect hi hs
  have hlanes := reach_lanes hr
  have hknown : r ∈ t'.accepted.map Prod.fst := he.accepted r h.known
  rcases h.stage with ⟨hd, hfind⟩ | ⟨error, hd⟩ | hnone
  · obtain ⟨audio, rest, request, hd', hreq, hne, hbad⟩ := hrej
    have hdt : t.dispatcher = .handleEvent (.audio r audio) :: rest := hd.trans hd'
    rcases step_elsewhere (reach_stopInv hr) hi h.known hdt nofun nofun hs with ⟨order, -, hrun⟩ | helse
    · have hrest : rest = [.loop] := by
        rcases (hdt ▸ hlanes.shape).cons with ⟨hact, -⟩ | ⟨_, _, hrest⟩ | ⟨hin, -⟩
        · cases hact
        · exact hrest
        · cases hin
      subst hrest
      cases hrun
      have haloof : Aloof r { t with dispatcher := [.loop] }
          (handleAudioEvent { t with dispatcher := [.loop] } .dispatcher r audio) := by
        refine aloof_audio fun _ q hq _ => ?_
        have hq : t.find? r = some q := hq
        rw [hfind q hq] at hreq
        cases hreq
        exact hbad
      refine ⟨(haloof.track hdt).trans h.track, hknown, ?_⟩
      cases hq : t.find? r with
      | none =>
        refine .inr (.inr ?_)
        cases hq' : (handleAudioEvent { t with dispatcher := [.loop] } .dispatcher r audio).find? r with
        | none => rfl
        | some q' =>
          obtain ⟨q, hsome, -⟩ := haloof.find q' hq'
          have hsome : t.find? r = some q := hsome
          rw [hq] at hsome
          cases hsome
      | some q =>
        rw [hfind q hq] at hreq
        cases hreq
        have hfound : ({ t with dispatcher := [.loop] } : St).find? r = some request := hq
        refine .inr (.inl ⟨invalidTimeline r, ?_⟩)
        rw [handleAudioEvent_rejects hfound hne hbad]
        rfl
    · exact ⟨helse.track.trans h.track, hknown, .inl ⟨helse.dispatcher.trans hd, fun q hq => hfind q (helse.find q hq)⟩⟩
  · rcases step_elsewhere (reach_stopInv hr) hi h.known hd nofun nofun hs with ⟨order, -, hrun⟩ | helse
    · have hpop : runAct (t.setStack [.loop] .dispatcher) .dispatcher [.loop] order (.failRequest r error) = some t' := hrun
      obtain ⟨acts, hp⟩ := act_passed rfl hpop
      refine ⟨(hp.track_dispatcher hd).trans h.track, hknown, .inr (.inr ?_)⟩
      cases hrun
      exact find?_failRequest
    · exact ⟨helse.track.trans h.track, hknown, .inr (.inl ⟨error, helse.dispatcher.trans hd⟩)⟩
  · obtain ⟨htrack, hgone⟩ := gone_step hr h.known hnone hs
    exact ⟨htrack.trans h.track, hknown, .inr (.inr hgone)⟩

theorem reach_barred (hs : Reachable opts s) (hrej : Rejects r s) (ht : Reach (step opts) anyStep s t) : Barred r s t := by
  refine ht.inv (I := Barred r s) ⟨rfl, ?_, .inl ⟨rfl, fun q hq => hq⟩⟩ ?_
  · obtain ⟨_, _, request, _, hfind, _⟩ := hrej
    exact List.mem_map_of_mem (accepted_of_find? (reach_inv hs) hfind)
  · intro u e u' hu hb _ hstep
    exact hb.step hrej (hs.trans hu) hstep

end Rejected

/-! ## The result -/

section Result

variable {s : St} {r : RequestId} {callbacks : TtsCallbacks} {chunks : List PcmChunk}

theorem OnTimeline.log_prefix (h : OnTimeline r s callbacks chunks) :
    s.log.filter (·.onTrack r) <+: chunks.flatMap (chunkCalls r callbacks) := by
  rw [← h.calls, track, List.filter_append]
  exact List.prefix_append _ _

theorem OnTimeline.audio_prefix (h : OnTimeline r s callbacks chunks) : audioOf r s.log <+: chunks := by
  have hp := h.log_prefix.filterMap (Callback.audio? r)
  have hlog : audioOf r s.log <+: audioOf r (chunks.flatMap (chunkCalls r callbacks)) := audioOf_filter s.log ▸ hp
  rw [audioOf_chunks] at hlog
  split at hlog
  · exact hlog
  · rw [List.prefix_nil.mp hlog]
    exact List.nil_prefix

theorem mirrored_of_prefix (hlog : s.log.filter (·.onTrack r) <+: chunks.flatMap (chunkCalls r callbacks))
    (hc : Consecutive chunks) : Mirrored r callbacks s.log where
  chunk := by
    intro haudio before timing after hsplit
    obtain ⟨rest, hrest⟩ := hlog
    have htrack : (Callback.onTiming r timing).onTrack r = true := beq_self_eq_true r
    rw [hsplit, List.filter_append, List.filter_cons_of_pos htrack, List.append_assoc, List.cons_append] at hrest
    rw [← audioOf_filter before]
    exact timing_after_audio haudio hrest.symm
  alone := by
    intro before timing after hsplit
    have hp := hlog.filterMap (Callback.timing? r)
    have hlog : timingsOf r s.log <+: timingsOf r (chunks.flatMap (chunkCalls r callbacks)) := timingsOf_filter s.log ▸ hp
    rw [timingsOf_chunks] at hlog
    split at hlog
    · obtain ⟨rest, hrest⟩ := hlog
      rw [hsplit, List.append_assoc, List.cons_append] at hrest
      obtain ⟨first, last, hchunks, rfl, hlast⟩ := List.map_eq_append_iff.mp hrest.symm
      obtain ⟨chunk, others, rfl, rfl, -⟩ := List.map_eq_cons_iff.mp hlast
      have hfirst := hc first chunk others hchunks
      simpa [samples, PcmChunk.timing, Function.comp_def] using hfirst
    · rw [List.prefix_nil.mp hlog] at hsplit
      cases before <;> cases hsplit

theorem OnTimeline.mirrored (h : OnTimeline r s callbacks chunks) (hi : Inv s.account) {callbacks' : TtsCallbacks}
    (haccepted : (r, callbacks') ∈ s.accepted) : Mirrored r callbacks' s.log := by
  by_cases hempty : chunks = []
  · have hlog : s.log.filter (·.onTrack r) <+: chunks.flatMap (chunkCalls r callbacks') := by
      have hnone := h.log_prefix
      rw [hempty] at hnone ⊢
      exact hnone
    exact mirrored_of_prefix hlog h.consecutive
  · have hsame := List.inj_on_of_nodup_map hi.distinct (h.accepted hempty) haccepted rfl
    cases hsame
    exact mirrored_of_prefix h.log_prefix h.consecutive

end Result

section Log

variable {opts : Options} {s s' t : St} {r : RequestId}

theorem log_step {e : Ev} (hlanes : Lanes s) (hstop : StopInv s) (hs : step opts s e = some s') : s.log <+: s'.log := by
  rcases step_cases hs with ha | ⟨th, -, -, rfl⟩ | ⟨ev, rest, -, -, rfl⟩ | ⟨th, order, act, rest, -, hstack, hrun⟩
  · exact ⟨[], by rw [ha.log, List.append_nil]⟩
  · cases th <;> exact List.prefix_refl _
  · exact List.prefix_refl _
  · have passed : act.inEvent = true → s.log <+: s'.log := by
      intro hin
      obtain ⟨acts, hp⟩ := act_passed hin hrun
      rw [hp.log]
      exact List.prefix_append _ _
    cases th with
    | owner => exact passed (hstop.inEvent hstack)
    | dispatcher =>
      have hd : s.dispatcher = act :: rest := hstack
      rcases (hd ▸ hlanes.shape).cons with ⟨rfl, rfl⟩ | ⟨e, rfl, rfl⟩ | ⟨hin, -⟩
      · simp only [runAct] at hrun
        split at hrun <;> cases hrun
        exact List.prefix_refl _
      · obtain ⟨acts, hh, -⟩ := handled_event hrun
        rw [hh.log]
        exact List.prefix_refl _
      · exact passed hin

theorem log_grows (hs : Reachable opts s) (ht : Reach (step opts) anyStep s t) : s.log <+: t.log := by
  refine ht.inv (I := fun t => s.log <+: t.log) (List.prefix_refl _) fun u e u' hu hlog _ hstep => ?_
  have hr := hs.trans hu
  exact hlog.trans (log_step (reach_lanes hr) (reach_stopInv hr) hstep)

/-- Between two events nothing is due. -/
theorem track_idle (hd : callsIn s.dispatcher = []) : track r s = s.log.filter (·.onTrack r) := by
  unfold track
  rw [hd, List.append_nil]

/-- When the track stays as it is, so does what was passed to `on_audio`. -/
theorem audioOf_of_track (hidle : callsIn s.dispatcher = []) (htrack : track r t = track r s) (hlog : s.log <+: t.log) :
    audioOf r t.log = audioOf r s.log := by
  have hback : audioOf r t.log <+: audioOf r s.log := by
    rw [← audioOf_filter t.log, ← audioOf_filter s.log, ← track_idle hidle, ← htrack]
    refine List.IsPrefix.filterMap _ ?_
    unfold track
    rw [List.filter_append]
    exact List.prefix_append _ _
  have hforth : audioOf r s.log <+: audioOf r t.log := hlog.filterMap _
  exact hback.eq_of_length_le hforth.length_le

end Log

/-- The audio timeline of every request, in every state that the client reaches. -/
theorem audio_timeline (opts : Options) (s : St) (hs : Reachable opts s) (r : RequestId) :
    Consecutive (audioOf r s.log) ∧ (∀ chunk ∈ audioOf r s.log, chunk.Whole) ∧
      (∀ callbacks, (r, callbacks) ∈ s.accepted → Mirrored r callbacks s.log) ∧
      (Rejects r s → ∀ t, Reach (step opts) anyStep s t → audioOf r t.log = audioOf r s.log) := by
  obtain ⟨callbacks, chunks, ht⟩ := reach_timeline hs r
  refine ⟨ht.consecutive.of_prefix ht.audio_prefix, fun c hc => ht.whole c (ht.audio_prefix.subset hc), ?_, ?_⟩
  · intro callbacks' haccepted
    exact ht.mirrored (reach_inv hs) haccepted
  · intro hrej t hreach
    refine audioOf_of_track ?_ (reach_barred hs hrej hreach).track (log_grows hs hreach)
    obtain ⟨audio, rest, request, hd, -⟩ := hrej
    rcases (hd ▸ (reach_lanes hs).shape).cons with ⟨hact, -⟩ | ⟨_, _, rfl⟩ | ⟨hin, -⟩
    · cases hact
    · rw [hd]
      rfl
    · cases hin

/-- Two chunks of request 1, of one and of two samples. -/
def twoChunks : List Ev :=
  [sampleRequest {}, .event (.audio 1 [0, 0])] ++ List.replicate 7 (.run .dispatcher []) ++
    [.event (.audio 1 [0, 0, 0, 0])] ++ List.replicate 5 (.run .dispatcher [])

theorem the_second_chunk_starts_at_one : ∃ s, Reachable sampleOptions s ∧
    (audioOf 1 s.log).map (·.firstSample) = [0, 1] ∧ Consecutive (audioOf 1 s.log) ∧ Mirrored 1 {} s.log := by
  have hrun : ∃ s, Reachable sampleOptions s ∧
      decide ((audioOf 1 s.log).map (·.firstSample) = [0, 1] ∧ (1, {}) ∈ s.accepted) = true :=
    exists_reach_of_run twoChunks (by decide +kernel)
  obtain ⟨s, hs, hp⟩ := hrun
  obtain ⟨hfirst, haccepted⟩ := of_decide_eq_true hp
  have h := audio_timeline sampleOptions s hs 1
  exact ⟨s, hs, hfirst, h.1, h.2.2.1 {} haccepted⟩

end QwenTtsBridge.Client
