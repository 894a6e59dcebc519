/-
  QwenTtsBridge.Client.MalformedAudio — what becomes of an audio frame of an active request
  (`handle_audio_event`, `client/qwen_tts_client.cpp`).

  The frame is judged under the mutex; a bad one is then failed by `fail_request`, which
  takes the mutex again. Until then the dispatcher does nothing else and nobody else can
  end the request (`Failing`).

  - `audio_frame_is_judged_iff`: a malformed frame fails its request with one `on_error` and
    says nothing else to it or to others, and every other frame is delivered, if and only if
    the payload is not empty. `invalid_timeline` is only looked for in a payload that is not
    empty, so an empty one is taken for audio with no samples.
-/

import QwenTtsBridge.Client.Timeline

namespace QwenTtsBridge.Client

open QwenTtsBridge.Protocol.Control QwenTtsBridge.Session QwenTtsBridge.Lib.Transition

/-- The payload is empty, or no whole number of sample frames of a format that the client knows. -/
def Malformed (format : AudioFormat) (audio : List UInt8) : Prop :=
  audio = [] ∨ bytesPerSample format = none ∨ format.channels = 0 ∨ audio.length % frameSize format ≠ 0

/-- The dispatcher is done with the event: it is in its loop or has left it. -/
def Idle (s : St) : Prop := s.dispatcher = [.loop] ∨ s.dispatcher = []

def speechOf (r : RequestId) (log : List Callback) : List Callback := log.filter (·.speech? == some r)

/-- From `s` on, the frame for `id` fails the request and does nothing else. -/
structure FailsItsRequest (opts : Options) (s : St) (id : RequestId) (request : ActiveRequest) : Prop where
  decided : ∀ t, Reach (step opts) anyStep s t → Idle t →
    t.find? id = none ∧ ⟨id, request.callbacks, .error⟩ ∈ t.decided
  /-- One terminal callback, which is the `on_error` if there is one. -/
  answered : ∀ t, Reach (step opts) anyStep s t → Idle t →
    terminals id t.log = request.callbacks.onError.toNat ∧
      (request.callbacks.onError = true → .onError id (invalidTimeline id) ∈ t.log)
  silent : ∀ t, Reach (step opts) anyStep s t → speechOf id t.log = speechOf id s.log
  /-- Nothing that the dispatcher does until then touches another request. -/
  spares : ∀ t t' order, Reach (step opts) anyStep s t → t.find? id ≠ none →
    step opts t (.run .dispatcher order) = some t' → ∀ i, i ≠ id → t'.find? i = t.find? i

/-- The frame's chunk is the next one that `on_audio` gets. -/
def Delivers (opts : Options) (s : St) (id : RequestId) (request : ActiveRequest) (audio : List UInt8) : Prop :=
  ∃ count, sampleCountForAudio request.audioFormat audio.length = some count ∧
    (request.callbacks.onAudio = true → ∀ t, Reach (step opts) anyStep s t → Idle t →
      audioOf id s.log ++ [chunkOf request count audio] <+: audioOf id t.log)

structure JudgesAudio (opts : Options) (s : St) (id : RequestId) (request : ActiveRequest) (audio : List UInt8) : Prop where
  malformed : Malformed request.audioFormat audio → FailsItsRequest opts s id request
  delivered : ¬Malformed request.audioFormat audio → Delivers opts s id request audio

section Count

variable {format : AudioFormat} {n : Nat}

/-- A payload fits a frame, whose size field has 32 bits, so the number of sample frames does too. -/
theorem sampleCount_none_iff (hn : n < 2 ^ 32) :
    sampleCountForAudio format n = none ↔
      bytesPerSample format = none ∨ format.channels = 0 ∨ n % frameSize format ≠ 0 := by
  unfold sampleCountForAudio frameSize
  cases hbytes : bytesPerSample format with
  | none => simp
  | some sampleBytes =>
    by_cases hchannels : format.channels = 0
    · simp [hchannels]
    · have hle : n / (sampleBytes * format.channels.toNat) ≤ n := Nat.div_le_self _ _
      by_cases hrem : n % (sampleBytes * format.channels.toNat) = 0
      · have hfits : ¬n / (sampleBytes * format.channels.toNat) > 2 ^ 32 - 1 := by omega
        simp only [hchannels, hrem, hfits, if_false, ne_eq, not_true_eq_false, Option.getD_some]
        simp
      · simp [hchannels, hrem]

end Count

section Failing

variable {opts : Options} {s s' t t' : St} {act : Act} {acts rest : List Act} {id r : RequestId} {request : ActiveRequest}
  {audio : List UInt8}

/-- What a step decides is never undone. -/
theorem Effect.decided_mem {v v' : Account} (e : Effect v v') {d : Decision} (hd : d ∈ v.decided) : d ∈ v'.decided := by
  cases e with
  | keep | spend | accept => exact hd
  | decide ds => exact List.mem_append_left _ hd

/-- A step that decides nothing leaves the request in the map. -/
theorem find?_kept (hi : Inv s.account) (he : Effect s.account s'.account) (hdecided : s'.decided = s.decided)
    (hfind : s.find? r = some request) : ∃ q, s'.find? r = some q := by
  have hi' := hi.effect he
  have haccepted := he.accepted_mem (accepted_of_find? hi hfind)
  rcases List.mem_append.mp (hi'.ledger.mem_iff.mp haccepted) with hentry | hdec
  · obtain ⟨p, hp, hpr⟩ := List.mem_map.mp hentry
    have hid : p.1 = r := congrArg Prod.fst hpr
    cases hq : s'.active.find? (·.1 == r) with
    | none => exact absurd (beq_iff_eq.mpr hid) (List.find?_eq_none.mp hq p hp)
    | some q => exact ⟨q.2, by simp [St.find?, hq]⟩
  · exfalso
    have hdec : (r, request.callbacks) ∈ s.decided.map Decision.entry := by
      have hsame : s'.account.decided = s.decided := hdecided
      rw [← hsame]
      exact hdec
    obtain ⟨p, hp, rfl⟩ := Option.map_eq_some_iff.mp hfind
    have hid : p.1 = r := by simpa using List.find?_some hp
    have hentry : p.1 ∈ s.entries.map Prod.fst := by
      rw [St.entries, List.map_map]
      exact List.mem_map_of_mem (f := Prod.fst ∘ fun q : RequestId × ActiveRequest => (q.1, q.2.callbacks))
        (List.mem_of_find?_eq_some hp)
    have hnodup := (hi.ledger.map Prod.fst).nodup_iff.mp hi.distinct
    rw [List.map_append] at hnodup
    exact (List.nodup_append.mp hnodup).2.2 p.1 hentry p.1 (hid ▸ List.mem_map_of_mem hdec) rfl

/-- From the state `s` in which a bad frame of `id` is about to be handled: it still is, the request
    is about to be failed, or it has been. -/
inductive Stage (id : RequestId) (request : ActiveRequest) (s t : St) : Prop
  | waits : t.dispatcher = s.dispatcher → t.find? id = some request → Stage id request s t
  | fails (q : ActiveRequest) : t.dispatcher = [.failRequest id (invalidTimeline id), .loop] → t.find? id = some q →
      q.callbacks = request.callbacks → Stage id request s t
  | failed : t.find? id = none → ⟨id, request.callbacks, .error⟩ ∈ t.decided →
      (request.callbacks.onError = true →
        .onError id (invalidTimeline id) ∈ t.log ∨ .invoke (.onError id (invalidTimeline id)) ∈ t.dispatcher) →
      Stage id request s t

structure Failing (id : RequestId) (request : ActiveRequest) (s t : St) : Prop where
  stage : Stage id request s t
  known : id ∈ t.accepted.map Prod.fst
  silent : speechOf id t.log = speechOf id s.log
  mute : id ∉ speechIn t.dispatcher

theorem speechOf_snoc {log : List Callback} {c : Callback} (h : c.speech? ≠ some id) :
    speechOf id (log ++ [c]) = speechOf id log := by
  simp [speechOf, List.filter_append, h]

/-- While `id` is not in the map and no callback of its is due, no step calls one or makes one due. -/
theorem mute_step {e : Ev} (hlanes : Lanes t) (hstop : StopInv t) (hnone : t.find? id = none)
    (hmute : id ∉ speechIn t.dispatcher) (hs : step opts t e = some t') :
    speechOf id t'.log = speechOf id t.log ∧ id ∉ speechIn t'.dispatcher := by
  rcases step_cases hs with ha | ⟨th, -, -, rfl⟩ | ⟨ev, rest, -, -, rfl⟩ | ⟨th, order, act, rest, -, hstack, hrun⟩
  · rw [ha.log, ha.dispatcher]
    exact ⟨rfl, hmute⟩
  · cases th with
    | owner => exact ⟨rfl, hmute⟩
    | dispatcher =>
      refine ⟨rfl, ?_⟩
      show id ∉ speechIn ([.stop] ++ t.dispatcher)
      rw [speechIn_append]
      exact hmute
  · refine ⟨rfl, ?_⟩
    show id ∉ speechIn ([.handleEvent ev] ++ t.dispatcher)
    rw [speechIn_append]
    exact hmute
  · -- the call of an act that is not for `id`
    have called : ∀ log : List Callback, act.speech? ≠ some id → speechOf id (log ++ act.call?.toList) = speechOf id log := by
      intro log hact
      cases act with
      | invoke c => exact speechOf_snoc hact
      | _ => exact congrArg (speechOf id) (List.append_nil log)
    cases th with
    | owner =>
      obtain ⟨acts, hp⟩ := act_passed (hstop.inEvent hstack) hrun
      have hdispatcher : t'.dispatcher = t.dispatcher := hp.other .dispatcher nofun
      have howner : t.owner = act :: rest := hstack
      have hact : act.speech? = none := by
        have hm := hlanes.mute
        rw [howner, speechIn_cons] at hm
        cases hsp : act.speech? with
        | none => rfl
        | some i => simp [hsp] at hm
      rw [hp.log, hdispatcher]
      refine ⟨called _ ?_, hmute⟩
      rw [hact]
      exact nofun
    | dispatcher =>
      have hd : t.dispatcher = act :: rest := hstack
      rcases (hd ▸ hlanes.shape).cons with ⟨rfl, rfl⟩ | ⟨ev, rfl, rfl⟩ | ⟨hin, -⟩
      · simp only [runAct] at hrun
        split at hrun <;> cases hrun
        exact ⟨rfl, fun hm => List.not_mem_nil hm⟩
      · obtain ⟨acts, hh, hspeech⟩ := handled_event hrun
        have hstack' : t'.dispatcher = acts ++ [.loop] := hh.dispatcher
        refine ⟨congrArg (speechOf id) hh.log, ?_⟩
        rw [hstack', speechIn_append]
        intro hm
        rcases List.mem_append.mp hm with hm | hm
        · rcases hspeech with hquiet | ⟨i, hspk⟩
          · rw [hquiet] at hm
            cases hm
          · obtain ⟨q, hq⟩ := hspk.found
            have hq : t.find? i = some q := hq
            rw [← hspk.speech id hm, hnone] at hq
            cases hq
        · cases hm
      · obtain ⟨acts, hp⟩ := act_passed hin hrun
        have hstack' : t'.dispatcher = acts ++ rest := hp.stack
        rw [hd, speechIn_cons] at hmute
        refine ⟨?_, ?_⟩
        · rw [hp.log]
          refine called _ fun hact => hmute (List.mem_append_left _ ?_)
          rw [hact]
          exact List.mem_cons_self
        · rw [hstack', speechIn_append, hp.quiet]
          exact fun hm => hmute (List.mem_append_right _ hm)

/-- A callback that is due is called before the dispatcher goes on. -/
theorem due_step {e : Ev} {c : Callback} (hlanes : Lanes t) (hstop : StopInv t) (hs : step opts t e = some t')
    (h : c ∈ t.log ∨ .invoke c ∈ t.dispatcher) : c ∈ t'.log ∨ .invoke c ∈ t'.dispatcher := by
  rcases h with hlog | hdue
  · exact .inl ((log_step hlanes hstop hs).subset hlog)
  rcases step_cases hs with ha | ⟨th, -, -, rfl⟩ | ⟨ev, rest, -, -, rfl⟩ | ⟨th, order, act, rest, -, hstack, hrun⟩
  · exact .inr (ha.dispatcher ▸ hdue)
  · cases th with
    | owner => exact .inr hdue
    | dispatcher => exact .inr (List.mem_cons_of_mem _ hdue)
  · exact .inr (List.mem_cons_of_mem _ hdue)
  · cases th with
    | owner =>
      obtain ⟨acts, hp⟩ := act_passed (hstop.inEvent hstack) hrun
      have hdispatcher : t'.dispatcher = t.dispatcher := hp.other .dispatcher nofun
      exact .inr (hdispatcher ▸ hdue)
    | dispatcher =>
      have hd : t.dispatcher = act :: rest := hstack
      rw [hd] at hdue
      rcases (hd ▸ hlanes.shape).cons with ⟨rfl, rfl⟩ | ⟨ev, rfl, rfl⟩ | ⟨hin, -⟩
      · simp at hdue
      · simp at hdue
      · obtain ⟨acts, hp⟩ := act_passed hin hrun
        have hstack' : t'.dispatcher = acts ++ rest := hp.stack
        rcases List.mem_cons.mp hdue with rfl | hdue
        · left
          rw [hp.log]
          exact List.mem_append_right _ List.mem_cons_self
        · right
          rw [hstack']
          exact List.mem_append_right _ hdue

/-- The request is failed. -/
theorem failRequest_failed {e : TtsError} {q : ActiveRequest} (hfind : s.find? id = some q) :
    (failRequest s .dispatcher id e).find? id = none ∧
      ⟨id, q.callbacks, .error⟩ ∈ (failRequest s .dispatcher id e).decided ∧
      (q.callbacks.onError = true → .invoke (.onError id e) ∈ (failRequest s .dispatcher id e).dispatcher) := by
  refine ⟨find?_failRequest, ?_, fun hon => ?_⟩
  · unfold failRequest terminate
    rw [hfind]
    exact List.mem_append_right _ List.mem_cons_self
  · unfold failRequest terminate
    rw [hfind]
    refine List.mem_append_left _ ?_
    simp [invocations, hon]

theorem Failing.step {e : Ev} (h : Failing id request s t) (hr : Reachable opts t)
    (hd : s.dispatcher = .handleEvent (.audio id audio) :: rest) (hne : audio ≠ [])
    (hbad : sampleCountForAudio request.audioFormat audio.length = none) (hs : step opts t e = some t') :
    Failing id request s t' := by
  have hi := reach_inv hr
  have he := step_effect hi hs
  have hlanes := reach_lanes hr
  have hstop := reach_stopInv hr
  have hknown : id ∈ t'.accepted.map Prod.fst := he.accepted id h.known
  -- a step of another thread leaves the frame where it is
  have kept : ∀ q, t.find? id = some q → Elsewhere id t t' → t'.find? id = some q := by
    intro q hq helse
    obtain ⟨q', hq'⟩ := find?_kept hi he helse.decided hq
    have hsame := helse.find q' hq'
    rw [hq] at hsame
    cases hsame
    exact hq'
  cases h.stage with
  | waits hdt hfind =>
    have hdt : t.dispatcher = .handleEvent (.audio id audio) :: rest := hdt.trans hd
    rcases step_elsewhere hstop hi h.known hdt nofun nofun hs with ⟨order, -, hrun⟩ | helse
    · have hrest : rest = [.loop] := by
        rcases (hdt ▸ hlanes.shape).cons with ⟨hact, -⟩ | ⟨_, _, hrest⟩ | ⟨hin, -⟩
        · cases hact
        · exact hrest
        · cases hin
      subst hrest
      cases hrun
      have hfound : ({ t with dispatcher := [.loop] } : St).find? id = some request := hfind
      rw [handleAudioEvent_rejects hfound hne hbad] at hknown ⊢
      exact ⟨.fails request rfl hfind rfl, hknown, h.silent, fun hm => List.not_mem_nil hm⟩
    · refine ⟨.waits (helse.dispatcher.trans (hdt.trans hd.symm)) (kept request hfind helse), hknown, ?_, ?_⟩
      · rw [helse.log]
        exact h.silent
      · rw [helse.dispatcher]
        exact h.mute
  | fails q hdt hfind hcallbacks =>
    rcases step_elsewhere hstop hi h.known hdt nofun nofun hs with ⟨order, -, hrun⟩ | helse
    · cases hrun
      have hfound : ({ t with dispatcher := [.loop] } : St).find? id = some q := hfind
      obtain ⟨hgone, hdecided, hdue⟩ := failRequest_failed (e := invalidTimeline id) hfound
      obtain ⟨acts, hh, hquiet⟩ := handled_fail { t with dispatcher := [.loop] } id (invalidTimeline id)
      refine ⟨.failed hgone (hcallbacks ▸ hdecided) fun hon => .inr (hdue (hcallbacks ▸ hon)), hknown, ?_, ?_⟩
      · rw [hh.log]
        exact h.silent
      · rw [hh.dispatcher, speechIn_append, hquiet]
        exact fun hm => List.not_mem_nil hm
    · refine ⟨.fails q (helse.dispatcher.trans hdt) (kept q hfind helse) hcallbacks, hknown, ?_, ?_⟩
      · rw [helse.log]
        exact h.silent
      · rw [helse.dispatcher]
        exact h.mute
  | failed hnone hdecided hdue =>
    obtain ⟨hsilent, hmute⟩ := mute_step hlanes hstop hnone h.mute hs
    exact ⟨.failed (gone_step hr h.known hnone hs).2 (he.decided_mem hdecided) fun hon => due_step hlanes hstop hs (hdue hon),
      hknown, hsilent.trans h.silent, hmute⟩

theorem reach_failing (hs : Reachable opts s) (hd : s.dispatcher = .handleEvent (.audio id audio) :: rest)
    (hfind : s.find? id = some request) (hne : audio ≠ [])
    (hbad : sampleCountForAudio request.audioFormat audio.length = none) (ht : Reach (step opts) anyStep s t) :
    Failing id request s t := by
  refine ht.inv (I := Failing id request s) ⟨.waits rfl hfind, ?_, rfl, ?_⟩ ?_
  · exact List.mem_map_of_mem (accepted_of_find? (reach_inv hs) hfind)
  · rcases (hd ▸ (reach_lanes hs).shape).cons with ⟨hact, -⟩ | ⟨_, _, rfl⟩ | ⟨hin, -⟩
    · cases hact
    · rw [hd]
      exact fun hm => List.not_mem_nil hm
    · cases hin
  · intro u e u' hu hf _ hstep
    exact hf.step (hs.trans hu) hd hne hbad hstep

theorem Stage.of_idle (h : Stage id request s t) (hd : s.dispatcher = .handleEvent (.audio id audio) :: rest) (hidle : Idle t) :
    t.find? id = none ∧ ⟨id, request.callbacks, .error⟩ ∈ t.decided ∧
      (request.callbacks.onError = true → .onError id (invalidTimeline id) ∈ t.log) := by
  cases h with
  | waits hdt =>
    rcases hidle with hidle | hidle
    · rw [hdt, hd] at hidle
      cases hidle
    · rw [hdt, hd] at hidle
      cases hidle
  | fails q hdt =>
    rcases hidle with hidle | hidle
    · rw [hdt] at hidle
      cases hidle
    · rw [hdt] at hidle
      cases hidle
  | failed hnone hdecided hdue =>
    refine ⟨hnone, hdecided, fun hon => (hdue hon).resolve_right fun hm => ?_⟩
    rcases hidle with hidle | hidle
    · simp [hidle] at hm
    · simp [hidle] at hm

theorem failsItsRequest (hs : Reachable opts s) (hd : s.dispatcher = .handleEvent (.audio id audio) :: rest)
    (hfind : s.find? id = some request) (hne : audio ≠ [])
    (hbad : sampleCountForAudio request.audioFormat audio.length = none) : FailsItsRequest opts s id request where
  decided := by
    intro t ht hidle
    obtain ⟨hnone, hdecided, -⟩ := (reach_failing hs hd hfind hne hbad ht).stage.of_idle hd hidle
    exact ⟨hnone, hdecided⟩
  answered := by
    intro t ht hidle
    obtain ⟨-, hdecided, hcalled⟩ := (reach_failing hs hd hfind hne hbad ht).stage.of_idle hd hidle
    have hi := reach_inv (hs.trans ht)
    have hle := terminals_le id hi
    have hcount := count_called hi.decided_once hdecided
    have hcount : (t.decided.filterMap Decision.called?).count id = request.callbacks.onError.toNat := hcount
    refine ⟨?_, hcalled⟩
    cases hon : request.callbacks.onError with
    | false =>
      rw [hcount, hon] at hle
      exact Nat.le_zero.mp hle
    | true =>
      rw [hcount, hon] at hle
      have hmem : id ∈ t.log.filterMap Callback.terminal? := List.mem_filterMap.mpr ⟨_, hcalled hon, rfl⟩
      exact Nat.le_antisymm hle (List.count_pos_iff.mpr hmem)
  silent := fun t ht => (reach_failing hs hd hfind hne hbad ht).silent
  spares := by
    intro t t' order ht hactive hrun i hi
    simp only [step, St.stack] at hrun
    cases (reach_failing hs hd hfind hne hbad ht).stage with
    | waits hdt hsame =>
      rw [hdt, hd] at hrun
      cases hrun
      have hfound : (t.setStack rest .dispatcher).find? id = some request := hsame
      rw [handleAudioEvent_rejects hfound hne hbad]
      rfl
    | fails q hdt hq =>
      rw [hdt] at hrun
      cases hrun
      have hfound : (t.setStack [.loop] .dispatcher).find? id = some q := hq
      unfold failRequest terminate
      rw [hfound]
      exact find?_erase hi
    | failed hnone => exact absurd hnone hactive

end Failing

/-! ## Frames that are delivered -/

section Delivered

variable {opts : Options} {s t t' : St} {rest : List Act} {id : RequestId} {request : ActiveRequest} {audio : List UInt8}
  {count : UInt32}

/-- From the state `s` in which a good frame is about to be handled: it still is, or its calls are on
    the track. -/
inductive Delivering (id : RequestId) (request : ActiveRequest) (chunk : PcmChunk) (s t : St) : Prop
  | waits : t.dispatcher = s.dispatcher → t.find? id = some request → track id t = track id s →
      id ∈ t.accepted.map Prod.fst → Delivering id request chunk s t
  | played : track id s ++ chunkCalls id request.callbacks chunk <+: track id t → Delivering id request chunk s t

theorem Plays.track_of_append {r : RequestId} (h : Plays r t t') : track r t <+: track r t' := by
  cases h with
  | same htrack => exact htrack ▸ List.prefix_refl _
  | start request htrack => exact htrack ▸ List.prefix_refl _
  | chunk request chunk _ htrack => exact htrack ▸ List.prefix_append _ _

theorem Delivering.step {e : Ev} (h : Delivering id request (chunkOf request count audio) s t) (hr : Reachable opts t)
    (hd : s.dispatcher = .handleEvent (.audio id audio) :: rest) (hne : audio ≠ [])
    (hcount : sampleCountForAudio request.audioFormat audio.length = some count) (hs : step opts t e = some t') :
    Delivering id request (chunkOf request count audio) s t' := by
  have hi := reach_inv hr
  have he := step_effect hi hs
  have hlanes := reach_lanes hr
  have hstop := reach_stopInv hr
  cases h with
  | waits hdt hfind htrack hknown =>
    have hdt' : t.dispatcher = .handleEvent (.audio id audio) :: rest := hdt.trans hd
    rcases step_elsewhere hstop hi hknown hdt' nofun nofun hs with ⟨order, -, hrun⟩ | helse
    · have hrest : rest = [.loop] := by
        rcases (hdt' ▸ hlanes.shape).cons with ⟨hact, -⟩ | ⟨_, _, hrest⟩ | ⟨hin, -⟩
        · cases hact
        · exact hrest
        · cases hin
      subst hrest
      cases hrun
      have hfound : ({ t with dispatcher := [.loop] } : St).find? id = some request := hfind
      refine .played ?_
      exact ⟨[], by rw [List.append_nil, ← htrack, (sounds_audio hfound hne hcount).track hdt']⟩
    · obtain ⟨q, hq⟩ := find?_kept hi he helse.decided hfind
      have hsame := helse.find q hq
      rw [hfind] at hsame
      cases hsame
      exact .waits (helse.dispatcher.trans hdt) hq (helse.track.trans htrack) (he.accepted id hknown)
  | played hplayed => exact .played (hplayed.trans (step_plays hlanes hstop hs).track_of_append)

theorem delivers (hs : Reachable opts s) (hd : s.dispatcher = .handleEvent (.audio id audio) :: rest)
    (hfind : s.find? id = some request) (hne : audio ≠ [])
    (hcount : sampleCountForAudio request.audioFormat audio.length = some count) : Delivers opts s id request audio := by
  refine ⟨count, hcount, fun haudio t ht hidle => ?_⟩
  have hdelivering : Delivering id request (chunkOf request count audio) s t := by
    refine ht.inv (I := Delivering id request (chunkOf request count audio) s) (.waits rfl hfind rfl ?_) ?_
    · exact List.mem_map_of_mem (accepted_of_find? (reach_inv hs) hfind)
    · intro u e u' hu hf _ hstep
      exact hf.step (hs.trans hu) hd hne hcount hstep
  cases hdelivering with
  | waits hdt =>
    rw [Idle, hdt, hd] at hidle
    rcases hidle with hidle | hidle <;> cases hidle
  | played hplayed =>
    have hquiet : callsIn t.dispatcher = [] := by
      rcases hidle with hidle | hidle
      · rw [hidle]
        rfl
      · rw [hidle]
        rfl
    have hstart : callsIn s.dispatcher = [] := by
      rcases (hd ▸ (reach_lanes hs).shape).cons with ⟨hact, -⟩ | ⟨_, _, rfl⟩ | ⟨hin, -⟩
      · cases hact
      · rw [hd]
        rfl
      · cases hin
    have hcalls : audioOf id (chunkCalls id request.callbacks (chunkOf request count audio)) = [chunkOf request count audio] := by
      cases ht : request.callbacks.onTiming <;>
        simp [chunkCalls, audioOf, List.filterMap_cons, Callback.audio?, haudio, ht]
    rw [track_idle hquiet, track_idle hstart] at hplayed
    have hlog := hplayed.filterMap (Callback.audio? id)
    rw [List.filterMap_append] at hlog
    rw [← audioOf_filter s.log, ← audioOf_filter t.log, ← hcalls]
    exact hlog

end Delivered

/-! ## The empty payload -/

section Empty

variable {opts : Options} {s : St} {id : RequestId} {request : ActiveRequest}

theorem invocations_eq (cs : List (Bool × Callback)) : invocations cs = ((cs.filter (·.1)).map (·.2)).map .invoke := by
  rw [List.map_map]
  rfl

/-- The dispatcher makes the calls that are due and is back in its loop. -/
theorem drain_calls (cs : List Callback) (hd : s.dispatcher = cs.map .invoke ++ [.loop]) :
    ∃ t, Reach (step opts) anyStep s t ∧ Idle t ∧ t.find? id = s.find? id := by
  induction cs generalizing s with
  | nil => exact ⟨s, .init, .inl hd, rfl⟩
  | cons c cs ih =>
    let called : St := { s with log := s.log ++ [c], dispatcher := .user :: (cs.map .invoke ++ [.loop]) }
    let returned : St := { called with dispatcher := cs.map .invoke ++ [.loop] }
    have hcall : step opts s (.run .dispatcher []) = some called := by
      simp [step, St.stack, hd, runAct, push, St.setStack, called]
    have hreturn : step opts called (.run .dispatcher []) = some returned := by
      simp [step, St.stack, runAct, St.setStack, called, returned]
    have hreach : Reach (step opts) anyStep s returned := .step _ (.step _ .init trivial hcall) trivial hreturn
    obtain ⟨t, ht, hidle, hfind⟩ := ih (s := returned) rfl
    exact ⟨t, hreach.trans ht, hidle, hfind⟩

/-- An empty payload leaves its request in the map. -/
theorem empty_is_not_failed (hs : Reachable opts s) {rest : List Act}
    (hd : s.dispatcher = .handleEvent (.audio id []) :: rest) (hfind : s.find? id = some request) :
    ¬FailsItsRequest opts s id request := by
  intro hfails
  have hrest : rest = [.loop] := by
    rcases (hd ▸ (reach_lanes hs).shape).cons with ⟨hact, -⟩ | ⟨_, _, hrest⟩ | ⟨hin, -⟩
    · cases hact
    · exact hrest
    · cases hin
  subst hrest
  let handled := handleAudioEvent { s with dispatcher := [.loop] } .dispatcher id []
  have hstep : step opts s (.run .dispatcher []) = some handled := by
    simp [step, St.stack, hd, runAct, St.setStack, handled]
  have hfound : ({ s with dispatcher := [.loop] } : St).find? id = some request := hfind
  obtain ⟨q, hq⟩ : ∃ q, handled.find? id = some q := by
    unfold handled handleAudioEvent
    rw [hfound]
    simp only [List.isEmpty_nil, Bool.not_true, Bool.false_and, Bool.false_eq_true, if_false]
    rw [find?_push, find?_update, hfound]
    exact ⟨_, rfl⟩
  obtain ⟨cs, hstack⟩ : ∃ cs : List Callback, handled.dispatcher = cs.map .invoke ++ [.loop] := by
    unfold handled handleAudioEvent
    rw [hfound]
    simp only [List.isEmpty_nil, Bool.not_true, Bool.false_and, Bool.false_eq_true, if_false]
    exact ⟨_, congrArg (· ++ [Act.loop]) (invocations_eq _)⟩
  have hdrain : ∃ t, Reach (step opts) anyStep handled t ∧ Idle t ∧ t.find? id = handled.find? id := drain_calls cs hstack
  obtain ⟨t, ht, hidle, hsame⟩ := hdrain
  have hreach : Reach (step opts) anyStep s t := Reach.trans (.step _ .init trivial hstep) ht
  have hgone := (hfails.decided t hreach hidle).1
  rw [hsame, hq] at hgone
  cases hgone

end Empty

/-- Every audio frame of an active request, in every state in which the dispatcher is about to handle
    one. A payload is shorter than 4 GiB, its size being a 32-bit field of the frame. -/
theorem audio_frame_is_judged_iff (opts : Options) (s : St) (hs : Reachable opts s) (id : RequestId) (audio : List UInt8)
    (rest : List Act) (hd : s.dispatcher = .handleEvent (.audio id audio) :: rest) (request : ActiveRequest)
    (hfind : s.find? id = some request) (hlen : audio.length < 2 ^ 32) :
    JudgesAudio opts s id request audio ↔ audio ≠ [] := by
  constructor
  · rintro hjudges rfl
    exact empty_is_not_failed hs hd hfind (hjudges.malformed (.inl rfl))
  · intro hne
    refine ⟨fun hmalformed => ?_, fun hgood => ?_⟩
    · have hbad := (sampleCount_none_iff hlen).mpr (hmalformed.resolve_left hne)
      exact failsItsRequest hs hd hfind hne hbad
    · cases hcount : sampleCountForAudio request.audioFormat audio.length with
      | none => exact absurd (.inr ((sampleCount_none_iff hlen).mp hcount)) hgood
      | some count => exact delivers hs hd hfind hne hcount

/-- Request 1 gets half a sample. -/
theorem half_a_sample_fails_the_request : ∃ s request, Reachable sampleOptions s ∧
    s.dispatcher = [.handleEvent (.audio 1 [0]), .loop] ∧ s.find? 1 = some request ∧
    FailsItsRequest sampleOptions s 1 request := by
  let s := (run (step sampleOptions) anyStep init [sampleRequest {}, .event (.audio 1 [0])]).getD init
  have hrun : run (step sampleOptions) anyStep init [sampleRequest {}, .event (.audio 1 [0])] = some s := rfl
  have hs : Reachable sampleOptions s := reach_of_run .init hrun
  let request := (s.find? 1).getD ⟨{}, {}, none, 0, false⟩
  have hfind : s.find? 1 = some request := rfl
  have hjudges := (audio_frame_is_judged_iff sampleOptions s hs 1 [0] [.loop] rfl request hfind (by decide)).mpr (by decide)
  refine ⟨s, request, hs, rfl, hfind, hjudges.malformed (.inr (.inr (.inr ?_)))⟩
  decide

/-- Request 1 gets an empty payload, which protocol-v1.md makes a violation that fails the request. -/
theorem an_empty_payload_is_not_failed : ∃ s request, Reachable sampleOptions s ∧
    s.dispatcher = [.handleEvent (.audio 1 []), .loop] ∧ s.find? 1 = some request ∧
    Malformed request.audioFormat [] ∧ ¬FailsItsRequest sampleOptions s 1 request := by
  let s := (run (step sampleOptions) anyStep init [sampleRequest {}, .event (.audio 1 [])]).getD init
  have hrun : run (step sampleOptions) anyStep init [sampleRequest {}, .event (.audio 1 [])] = some s := rfl
  have hs : Reachable sampleOptions s := reach_of_run .init hrun
  let request := (s.find? 1).getD ⟨{}, {}, none, 0, false⟩
  have hfind : s.find? 1 = some request := rfl
  exact ⟨s, request, hs, rfl, hfind, .inl rfl, empty_is_not_failed hs rfl hfind⟩

end QwenTtsBridge.Client
