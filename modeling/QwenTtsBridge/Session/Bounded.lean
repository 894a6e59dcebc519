/-
  QwenTtsBridge.Session.Bounded — how many events a session holds when nobody takes them.

  A regular event needs room in the queue, and the overflow diagnostic comes once. The
  other events are exempt. `fail_with_event_locked` asks for no stop of the transport when
  it enqueues one, so `handle_bytes` goes on with the next frame: every frame that the
  session refuses adds an event, however many there are
  (`every_refused_frame_adds_an_event`).

  Proved (`queue_bounded_of_orderly`): while no refused frame and no framing error is met by
  a session that has left Starting and Ready, it holds at most two events more than
  `max_event_queue_events` and those that the transport and the client's own calls cause.
-/

import QwenTtsBridge.Session.Queue

namespace QwenTtsBridge.Session

open QwenTtsBridge.Protocol.Control QwenTtsBridge.Protocol.Framing QwenTtsBridge.Lib.Transition

variable (lib : JsonLibrary) (options : WorkerSessionOptions)

/-! ## Orderly runs -/

/-- The session answers the frame with an exempt event. -/
def refuses (s : St) (frame : Frame) : Bool :=
  if frame.header.frameType = FrameType.controlJson.value then
    match decodeControlMessage lib frame.payload .workerToClient with
    | .error _ => true
    | .ok message => !isControlMessageAllowed s frame.header.requestId (controlMessageType message)
  else if frame.header.frameType = FrameType.audioPcm.value then s.state != .ready || frame.header.requestId == 0
  else if frame.header.frameType = FrameType.errorJson.value then
    match decodeErrorMessage lib frame.payload with
    | .error _ => true
    | .ok _ => s.state == .starting
  else true

/-- The frames that the loop of `handle_bytes` takes, one after the other: none is refused, and
    no framing error is met, unless the session is Starting or Ready. -/
def orderlyFrames : Nat → St → Bool
  | 0, _ => true
  | fuel + 1, s =>
    match s.parser.parseNext with
    | (_, .needMoreData) => true
    | (_, .fatalError _) => s.state.live
    | (parser, .frameReady frame) =>
      (!refuses lib s frame || s.state.live) &&
        ((handleFrame lib options { s with parser } frame).2 ||
          orderlyFrames fuel (handleFrame lib options { s with parser } frame).1)

def orderlyBytes (s : St) (bytes : Bytes) : Bool :=
  let s := { s with parser := s.parser.append bytes }
  orderlyFrames lib options (s.parser.bufferedSize + 1) s

/-- No step but `handle_bytes` matters. -/
def orderly (s : St) : Ev → Bool
  | .receive bytes => orderlyBytes lib options s bytes
  | _ => true

def Orderly (s : St) (e : Ev) : Prop := orderly lib options s e = true

instance (s : St) (e : Ev) : Decidable (Orderly lib options s e) := inferInstanceAs (Decidable (_ = true))

/-! ## Exempt events of the worker -/

/-- An exempt event that a frame or a framing error draws. -/
def Entry.isVerdict : Entry → Bool
  | .event (.localEvent .protocolError _) .exempt | .event (.workerError _ _) .exempt => true
  | _ => false

/-- Any other exempt event: a transport error, the exit, a message that could not be sent. -/
def Entry.isLocal : Entry → Bool
  | .event e .exempt => !(Entry.event e .exempt).isVerdict
  | _ => false

def verdicts (s : St) : Nat := s.log.countP Entry.isVerdict

/-- No verdict was added, and a session that is live was so before. -/
structure Quiet (s s' : St) : Prop where
  verdicts : verdicts s' = verdicts s
  live : s'.state.live = true → s.state.live = true

section Quiet

variable {lib : JsonLibrary} {options : WorkerSessionOptions} {s s' s'' : St}

theorem Quiet.refl (s : St) : Quiet s s := ⟨rfl, id⟩

theorem Quiet.trans (h : Quiet s s') (h' : Quiet s' s'') : Quiet s s'' := ⟨h'.verdicts.trans h.verdicts, h.live ∘ h'.live⟩

theorem isVerdict_of_isOwn {entry : Entry} (h : entry.isOwn = true) : entry.isVerdict = false := by
  cases entry with
  | event event limit =>
    cases event with
    | localEvent type message =>
      cases limit with
      | exempt =>
        cases type with
        | protocolError => cases h
        | _ => rfl
      | _ => cases h
    | _ => cases h
  | _ => rfl

theorem Aside.quiet (h : Aside s s') : Quiet s s' := by
  constructor
  · obtain ⟨added, hlog, hown⟩ := h.grows.log
    have hnone : added.countP Entry.isVerdict = 0 := by
      refine List.countP_eq_zero.mpr fun entry hentry => ?_
      rw [isVerdict_of_isOwn (hown entry hentry)]
      exact Bool.false_ne_true
    rw [verdicts, hlog, List.countP_append, hnone]
    rfl
  · intro hlive
    rcases h.state with heq | hended
    · rwa [heq] at hlive
    · rw [hended] at hlive
      cases hlive

theorem quiet_pushBack (s : St) {event : WorkerSessionEvent} {limit : Limit}
    (h : (Entry.event event limit).isVerdict = false) : Quiet s (pushBack s event limit) := by
  refine ⟨?_, id⟩
  show (s.log ++ [Entry.event event limit]).countP _ = _
  rw [List.countP_append]
  simp [verdicts, h]

theorem quiet_enqueueRegular (s : St) (event : WorkerSessionEvent) :
    Quiet s (enqueueEvent options s event false).1 := by
  rcases enqueueRegular_cases options s event with ⟨-, -, heq⟩ | ⟨-, heq⟩ | ⟨-, -, heq⟩
  · rw [heq]
    have hmarked : Quiet s { s with eventQueueOverflowed := true } := ⟨rfl, id⟩
    exact (hmarked.trans (aside_fail _).quiet).trans (quiet_pushBack _ rfl)
  · rw [heq]
    exact .refl s
  · rw [heq]
    refine quiet_pushBack s ?_
    cases event with
    | localEvent type message => cases type <;> rfl
    | _ => rfl

/-! ## Frames -/

/-- A frame that is not refused adds no verdict. -/
theorem quiet_handleFrame {frame : Frame} (h : refuses lib s frame = false) :
    Quiet s (handleFrame lib options s frame).1 := by
  unfold refuses at h
  unfold handleFrame
  split
  · rename_i htype
    rw [if_pos htype] at h
    unfold handleControlFrame
    split
    · rename_i hdecode
      rw [hdecode] at h
      cases h
    · rename_i message hdecode
      rw [hdecode] at h
      split
      · rename_i hnot
        simp only at h
        rw [h] at hnot
        cases hnot
      · cases message with
        | ready ready =>
          simp only [isControlMessageAllowed, controlMessageType, if_true, Bool.not_eq_false', Bool.and_eq_true,
            beq_iff_eq] at h
          have henqueued : Quiet s (enqueueEvent options s (.control frame.header.requestId (.ready ready)) false).1 :=
            quiet_enqueueRegular s _
          rcases enqueueRegular_cases options s (.control frame.header.requestId (.ready ready)) with
            ⟨-, -, heq⟩ | ⟨-, heq⟩ | ⟨-, -, heq⟩
          · simp only [heq, if_true] at henqueued ⊢
            exact henqueued
          · simp only [heq, if_true]
            exact .refl s
          · simp only [heq, Bool.false_eq_true, if_false] at henqueued ⊢
            have hready : Quiet (pushBack s (.control frame.header.requestId (.ready ready)) .regular)
                (setState { pushBack s (.control frame.header.requestId (.ready ready)) .regular with readyMessage := ready }
                  .ready) := by
              refine ⟨?_, fun _ => ?_⟩
              · show (_ ++ [Entry.state .ready]).countP _ = _
                rw [List.countP_append]
                rfl
              · show s.state.live = true
                rw [h.1]
                rfl
            exact henqueued.trans hready
        | _ => exact quiet_enqueueRegular s _
  · rename_i hcontrol
    rw [if_neg hcontrol] at h
    split
    · rename_i htype
      rw [if_pos htype] at h
      unfold handleAudioFrame
      split
      · rename_i hnot
        simp only [Bool.or_eq_false_iff, bne_eq_false_iff_eq, beq_eq_false_iff_ne] at h
        rcases hnot with hnot | hnot
        · exact absurd h.1 hnot
        · exact absurd hnot h.2
      · exact quiet_enqueueRegular s _
    · rename_i haudio
      rw [if_neg haudio] at h
      split
      · rename_i htype
        rw [if_pos htype] at h
        unfold handleErrorFrame
        split
        · rename_i hdecode
          rw [hdecode] at h
          cases h
        · rename_i error hdecode
          rw [hdecode] at h
          split
          · rename_i hstarting
            simp only [beq_eq_false_iff_ne] at h
            exact absurd hstarting h
          · exact quiet_enqueueRegular s _
      · rename_i htype
        rw [if_neg htype] at h
        cases h

/-- One that is refused adds one, and ends a live session. -/
theorem verdict_failWithEvent (s : St) (event : WorkerSessionEvent) :
    verdicts (failWithEvent options s event true).1 ≤ verdicts s + 1 ∧
      (failWithEvent options s event true).1.state.live = false := by
  have hfail := (aside_fail s).quiet
  have hended : (fail s).state.live = false := by
    unfold fail
    split
    · rfl
    · rename_i h
      simpa using h
  rw [failWithEvent, enqueueExempt_eq]
  refine ⟨?_, hended⟩
  rw [← hfail.verdicts]
  show ((fail s).log ++ [Entry.event event .exempt]).countP _ ≤ _
  rw [List.countP_append]
  exact Nat.add_le_add_left List.countP_le_length _

theorem verdict_handleFrame {frame : Frame} (h : refuses lib s frame = true) :
    verdicts (handleFrame lib options s frame).1 ≤ verdicts s + 1 ∧
      (handleFrame lib options s frame).1.state.live = false := by
  unfold refuses at h
  unfold handleFrame
  split
  · rename_i htype
    rw [if_pos htype] at h
    unfold handleControlFrame
    split
    · exact verdict_failWithEvent s _
    · rename_i message hdecode
      rw [hdecode] at h
      simp only at h
      rw [if_pos h]
      exact verdict_failWithEvent s _
  · rename_i hcontrol
    rw [if_neg hcontrol] at h
    split
    · rename_i htype
      rw [if_pos htype] at h
      unfold handleAudioFrame
      rw [if_pos (by simpa using h)]
      exact verdict_failWithEvent s _
    · rename_i haudio
      rw [if_neg haudio] at h
      split
      · rename_i htype
        rw [if_pos htype] at h
        unfold handleErrorFrame
        split
        · exact verdict_failWithEvent s _
        · rename_i error hdecode
          rw [hdecode] at h
          simp only [beq_iff_eq] at h
          rw [if_pos h]
          exact verdict_failWithEvent s _
      · exact verdict_failWithEvent s _

/-- One verdict at most, and none while the session is live. -/
structure OneVerdict (s : St) : Prop where
  live : s.state.live = true → verdicts s = 0
  atMost : verdicts s ≤ 1

theorem OneVerdict.quiet (h : OneVerdict s) (hq : Quiet s s') : OneVerdict s' := by
  refine ⟨fun hlive => ?_, ?_⟩
  · rw [hq.verdicts]
    exact h.live (hq.live hlive)
  · rw [hq.verdicts]
    exact h.atMost

theorem OneVerdict.verdict (h : OneVerdict s) (hlive : s.state.live = true)
    (hv : verdicts s' ≤ verdicts s + 1 ∧ s'.state.live = false) : OneVerdict s' := by
  have hzero := h.live hlive
  refine ⟨fun hl => ?_, by omega⟩
  rw [hv.2] at hl
  cases hl

theorem oneVerdict_handleFrames (fuel : Nat) (h : OneVerdict s) (ho : orderlyFrames lib options fuel s = true) :
    OneVerdict (handleFrames lib options fuel s) := by
  induction fuel generalizing s with
  | zero => exact h
  | succ fuel ih =>
    simp only [handleFrames]
    simp only [orderlyFrames] at ho
    split
    · exact h.quiet ⟨rfl, fun hl => hl⟩
    · rename_i parser e hparse
      rw [hparse] at ho
      have hp : OneVerdict { s with parser } := h.quiet ⟨rfl, fun hl => hl⟩
      exact hp.verdict ho (verdict_failWithEvent _ _)
    · rename_i parser frame hparse
      rw [hparse] at ho
      simp only [Bool.and_eq_true, Bool.or_eq_true, Bool.not_eq_true'] at ho
      obtain ⟨hrefused, hnext⟩ := ho
      have hp : OneVerdict { s with parser } := h.quiet ⟨rfl, fun hl => hl⟩
      have hframe : OneVerdict (handleFrame lib options { s with parser } frame).1 := by
        cases hr : refuses lib { s with parser } frame with
        | false => exact hp.quiet (quiet_handleFrame hr)
        | true =>
          rcases hrefused with hnot | hlive
          · exact absurd (hr.symm.trans hnot) (by decide)
          · exact hp.verdict hlive (verdict_handleFrame hr)
      split
      · exact hframe
      · rename_i hstop
        exact ih hframe (hnext.resolve_left hstop)

theorem oneVerdict_step {e : Ev} (h : OneVerdict s) (hfresh : s.startAttempted = false → s.log = [])
    (ho : Orderly lib options s e) (hs : step lib options s e = some s') : OneVerdict s' := by
  cases e with
  | start =>
    simp only [step] at hs
    split at hs
    · cases hs
    · rename_i hrefused
      have hlog : s.log = [] := by
        refine hfresh ?_
        simp only [startRefused, Bool.not_eq_true, Bool.or_eq_false_iff] at hrefused
        exact hrefused.1.1.1
      cases hs
      have hzero : verdicts (startBegin s) = 0 := by
        show (s.log ++ [Entry.state .starting]).countP _ = 0
        rw [hlog]
        rfl
      exact ⟨fun _ => hzero, hzero.trans_le (Nat.zero_le _)⟩
  | receive bytes =>
    simp only [step] at hs
    split at hs
    · cases hs
      have hp : OneVerdict { s with parser := s.parser.append bytes } := h.quiet ⟨rfl, fun hl => hl⟩
      exact oneVerdict_handleFrames _ hp ho
    · cases hs
  | _ =>
    have haside := aside_step (by simp) (by simp) hs
    exact h.quiet haside.quiet

/-- In an orderly run the worker draws one exempt event at most. -/
theorem reach_oneVerdict (h : Reach (step lib options) (Orderly lib options) init s) : OneVerdict s := by
  refine h.inv ⟨fun _ => rfl, Nat.zero_le _⟩ fun s e s' hr hone ho hs => ?_
  exact oneVerdict_step hone (fun hfresh => ((reach_charged hr).fresh hfresh).1) ho hs

/-- What is no regular event is the diagnostic of the overflow, a verdict or a local event. -/
theorem irregular_length (log : List Entry) :
    ((enqueued log).filter (·.2 != .regular)).length =
      log.countP Entry.isOverflow + log.countP Entry.isVerdict + log.countP Entry.isLocal := by
  induction log with
  | nil => rfl
  | cons e log ih =>
    rw [enqueued] at ih ⊢
    cases e with
    | event event limit =>
      cases limit with
      | regular => simpa [Entry.event?, Entry.isOverflow, Entry.isVerdict, Entry.isLocal] using ih
      | overflow =>
        simp only [List.filterMap_cons, Entry.event?, List.countP_cons]
        simp [Entry.isOverflow, Entry.isVerdict, Entry.isLocal, ih]
        omega
      | exempt =>
        simp only [List.filterMap_cons, Entry.event?, List.countP_cons]
        cases hv : (Entry.event event .exempt).isVerdict <;> simp [Entry.isOverflow, Entry.isLocal, hv, ih] <;> omega
    | _ => simpa [List.filterMap_cons, Entry.event?, Entry.isOverflow, Entry.isVerdict, Entry.isLocal] using ih

/-- The queue holds regular events within the limit, and others that the log counts. -/
theorem Charged.events_length_le (h : Charged options s) :
    s.events.length ≤ options.maxEventQueueEvents + (s.log.countP Entry.isOverflow + verdicts s +
      s.log.countP Entry.isLocal) := by
  have hregular := h.regularEvents
  rw [regularQueued] at hregular
  have hirregular : ((queued s).filter (·.2 != .regular)).length ≤ ((enqueued s.log).filter (·.2 != .regular)).length :=
    ((List.drop_sublist _ _).filter _).length_le
  rw [irregular_length] at hirregular
  have hsplit := List.length_eq_length_filter_add (l := queued s) (·.2 == .regular)
  rw [← queued_map h.order, List.length_map, hsplit]
  exact Nat.add_le_add hregular hirregular

end Quiet

/-- The events an orderly session holds. -/
theorem queue_bounded_of_orderly {s : St} (h : Reach (step lib options) (Orderly lib options) init s) :
    s.events.length ≤ options.maxEventQueueEvents + 2 + s.log.countP Entry.isLocal := by
  have hheld := (reach_charged h).events_length_le
  have hverdict := (reach_oneVerdict h).atMost
  have hoverflow : s.log.countP Entry.isOverflow ≤ 1 := by
    rw [(reach_charged h).overflow]
    split <;> omega
  omega

/-- A control frame whose payload is no JSON. -/
def undecodableFrame : Bytes := (encodeFrame FrameType.controlJson.value 0 [120]).toOption.getD []

theorem one_refused_frame_ends_the_session :
    ∃ s, Reach (step sampleLibrary { maxEventQueueEvents := 1 }) (Orderly sampleLibrary { maxEventQueueEvents := 1 }) init s ∧
      s.state = .failed ∧ s.events.length ≤ 1 + 2 + s.log.countP Entry.isLocal := by
  have hrun : ∃ s, Reach (step sampleLibrary { maxEventQueueEvents := 1 })
      (Orderly sampleLibrary { maxEventQueueEvents := 1 }) init s ∧ decide (s.state = .failed) = true :=
    exists_reach_of_run (startRun ++ [.receive undecodableFrame]) (by decide +kernel)
  obtain ⟨s, hreach, hfailed⟩ := hrun
  exact ⟨s, hreach, of_decide_eq_true hfailed, queue_bounded_of_orderly sampleLibrary _ hreach⟩

theorem parse_undecodableFrame :
    (FrameParser.append {} undecodableFrame).parseNext = ({}, .frameReady ⟨{ payloadSize := 1 }, [120]⟩) := rfl

theorem decode_undecodableFrame : ∃ e, decodeControlMessage sampleLibrary [120] .workerToClient = .error e := by
  have hnone : (decodeControlMessage sampleLibrary [120] .workerToClient).toOption = none := by decide +kernel
  cases h : decodeControlMessage sampleLibrary [120] .workerToClient with
  | error e => exact ⟨e, rfl⟩
  | ok message =>
    rw [h] at hnone
    cases hnone

/-- Whatever state the session is in, it enqueues an event and reads on. -/
theorem receive_undecodableFrame {s : St} (ha : s.startAttempted = true) (hp : s.parser = {}) :
    ∃ s', step sampleLibrary { maxEventQueueEvents := 1 } s (.receive undecodableFrame) = some s' ∧
      s'.startAttempted = true ∧ s'.parser = {} ∧ s'.events.length = s.events.length + 1 ∧
      s'.log.countP Entry.isLocal = s.log.countP Entry.isLocal := by
  obtain ⟨e, hdecode⟩ := decode_undecodableFrame
  let refused := pushBack (fail { s with parser := {} }) (makeProtocolError e.2) .exempt
  have hframe : handleFrame sampleLibrary { maxEventQueueEvents := 1 } { s with parser := {} }
      ⟨{ payloadSize := 1 }, [120]⟩ = (refused, false) := by
    simp [handleFrame, handleControlFrame, hdecode, FrameType.value, failWithEvent, refused]
  have hparser : refused.parser = {} := by
    simp only [refused, pushBack, fail]
    split <;> rfl
  have hbytes : handleBytes sampleLibrary { maxEventQueueEvents := 1 } s undecodableFrame = refused := by
    rw [handleBytes, hp]
    refine (handleFrames_frame _ _ _ _ parse_undecodableFrame).trans ?_
    rw [hframe]
    have hwait : refused.parser.parseNext = (refused.parser, .needMoreData) := by
      rw [hparser]
      rfl
    exact handleFrames_wait _ _ _ _ hwait
  refine ⟨refused, ?_, ?_, hparser, ?_, ?_⟩
  · rw [step, if_pos ha, hbytes]
  · simpa [refused, pushBack] using ha
  · simp only [refused, pushBack, fail]
    split <;> simp [setState]
  · simp only [refused, pushBack, fail]
    split <;> simp [setState, Entry.isLocal, Entry.isVerdict, makeProtocolError]

/-- The worker sends frames that are no JSON to a queue for one event. The transport reports
    nothing, and no call fails. -/
theorem every_refused_frame_adds_an_event :
    ¬ ∃ bound, ∀ s, Reachable sampleLibrary { maxEventQueueEvents := 1 } s → s.log.countP Entry.isLocal = 0 →
      s.events.length ≤ 1 + bound := by
  rintro ⟨bound, hbound⟩
  have hmany : ∀ n, ∃ s, Reachable sampleLibrary { maxEventQueueEvents := 1 } s ∧ s.startAttempted = true ∧
      s.parser = {} ∧ n ≤ s.events.length ∧ s.log.countP Entry.isLocal = 0 := by
    intro n
    induction n with
    | zero =>
      have hrun : ∃ s, Reachable sampleLibrary { maxEventQueueEvents := 1 } s ∧
          decide (s.startAttempted = true ∧ s.parser = {} ∧ s.log.countP Entry.isLocal = 0) = true :=
        exists_reach_of_run startRun (by decide +kernel)
      obtain ⟨s, hreach, hstarted⟩ := hrun
      obtain ⟨ha, hp, hlocal⟩ := of_decide_eq_true hstarted
      exact ⟨s, hreach, ha, hp, Nat.zero_le _, hlocal⟩
    | succ n ih =>
      obtain ⟨s, hreach, ha, hp, hlen, hlocal⟩ := ih
      obtain ⟨s', hs, ha', hp', hlen', hlocal'⟩ := receive_undecodableFrame ha hp
      refine ⟨s', .step _ hreach trivial hs, ha', hp', ?_, hlocal'.trans hlocal⟩
      omega
  obtain ⟨s, hreach, -, -, hlen, hlocal⟩ := hmany (bound + 2)
  have := hbound s hreach hlocal
  omega

end QwenTtsBridge.Session
