/-
  QwenTtsBridge.Client.Silence — no callback of a request after its terminal callback.

  The callbacks of one event are made one after the other outside the mutex, from the set
  that was copied inside it. On the dispatcher nothing else happens between two of them but
  user code. If that user code calls `stop()`, the request at hand is failed at once and the
  callbacks still due follow its `on_error`; an external `stop()` waits for the dispatcher
  first.

  Proved: `silent_after_terminal_callback` — in every run where `stop()` is called in a
  callback on the dispatcher only when no callback is due there for an active request with
  an `on_error`, no `on_text_prepared`, `on_audio` or `on_timing` of a request follows its
  terminal callback. `audio_after_on_error` is the run that breaks it otherwise.
-/

import QwenTtsBridge.Client.Terminal
import QwenTtsBridge.Lib.EventLog

namespace QwenTtsBridge.Client

open QwenTtsBridge.Protocol.Control QwenTtsBridge.Session QwenTtsBridge.Lib.Transition QwenTtsBridge.Lib.EventLog

def Act.speech? : Act → Option RequestId
  | .invoke c => c.speech?
  | _ => none

/-- The requests for which a thread has still to call `on_text_prepared`, `on_audio` or
    `on_timing`. -/
def speechIn (acts : List Act) : List RequestId := acts.filterMap Act.speech?

/-- A callback on the dispatcher calls `stop()` only when no callback is due there for an
    active request that has an `on_error`. -/
def Patient (s : St) : Ev → Prop
  | .callStop .dispatcher => ∀ p ∈ s.entries, p.1 ∈ speechIn s.dispatcher → p.2.onError = false
  | _ => True

def SilentAfterTerminal (log : List Callback) : Prop :=
  Silent (fun r c => c.terminal? == some r) (fun r c => c.speech? == some r) log

/-- An act below `loop` in the life of one event. -/
def Act.inEvent : Act → Bool
  | .loop | .handleEvent _ => false
  | _ => true

/-- The dispatcher's stack: finished, about to handle an event, or in the middle of one. -/
def Shape (acts : List Act) : Prop :=
  acts = [] ∨ (∃ e, acts = [.handleEvent e, .loop]) ∨ ∃ inner, acts = inner ++ [.loop] ∧ ∀ a ∈ inner, a.inEvent = true

structure Hush (s : St) : Prop where
  shape : Shape s.dispatcher
  mute : speechIn s.owner = []
  /-- Nothing is decided one by one while callbacks of an event are due. -/
  calm : speechIn s.dispatcher ≠ [] → ∀ id e, .failRequest id e ∉ s.dispatcher
  spared : (∃ a ∈ s.dispatcher, a.beforeFail = true) →
    ∀ p ∈ s.entries, p.1 ∈ speechIn s.dispatcher → p.2.onError = false
  known : ∀ r ∈ speechIn s.dispatcher, r ∈ s.accepted.map Prod.fst
  undecided : ∀ r ∈ speechIn s.dispatcher, r ∉ s.decided.filterMap Decision.called?
  silent : SilentAfterTerminal s.log

section Step

variable {opts : Options} {s s' : St} {act : Act} {acts rest : List Act} {id : RequestId}
  {order : List (RequestId × TtsCallbacks)}

theorem speechIn_append (a b : List Act) : speechIn (a ++ b) = speechIn a ++ speechIn b := List.filterMap_append

theorem speechIn_cons (a : Act) : speechIn (a :: acts) = a.speech?.toList ++ speechIn acts := by
  cases h : a.speech? <;> simp [speechIn, h]

/-- A step accepts only fresh ids. -/
theorem Effect.entries {v v' : Account} (e : Effect v v') (h : Inv v) :
    ∀ p ∈ v'.entries, p ∈ v.entries ∨ p.1 ∉ v.accepted.map Prod.fst := by
  intro p hp
  cases e with
  | keep => exact .inl hp
  | spend id => exact .inl hp
  | accept id callbacks hnext hle =>
    rcases List.mem_append.mp hp with hp | hp
    · exact .inl hp
    · rw [List.mem_singleton.mp hp]
      refine .inr fun hm => ?_
      obtain ⟨q, hq, he⟩ := List.mem_map.mp hm
      have hlt := UInt64.lt_of_lt_of_le (h.below hnext q hq) hle
      rw [he] at hlt
      exact UInt64.lt_irrefl _ hlt
  | decide ds entries hperm => exact .inl (hperm.mem_iff.mpr (List.mem_append_right _ hp))

theorem Effect.accepted {v v' : Account} (e : Effect v v') :
    ∀ r ∈ v.accepted.map Prod.fst, r ∈ v'.accepted.map Prod.fst := by
  intro r hr
  cases e with
  | keep => exact hr
  | spend id => exact hr
  | accept id callbacks =>
    show r ∈ (v.accepted ++ _).map Prod.fst
    rw [List.map_append]
    exact List.mem_append_left _ hr
  | decide => exact hr

/-- A step that makes no callback due and decides nothing that has one. -/
theorem Hush.keep (h : Hush s) (hi : Inv s.account) (he : Effect s.account s'.account) (hshape : Shape s'.dispatcher)
    (hmute : speechIn s'.owner = []) (hsub : ∀ r ∈ speechIn s'.dispatcher, r ∈ speechIn s.dispatcher)
    (hcalm : speechIn s'.dispatcher ≠ [] → ∀ id e, .failRequest id e ∉ s'.dispatcher)
    (hspared : (∃ a ∈ s'.dispatcher, a.beforeFail = true) →
      ∀ p ∈ s.entries, p.1 ∈ speechIn s.dispatcher → p.2.onError = false)
    (hdecided : ∀ r ∈ speechIn s'.dispatcher, r ∈ s'.decided.filterMap Decision.called? →
      r ∈ s.decided.filterMap Decision.called?)
    (hsilent : SilentAfterTerminal s'.log) : Hush s' where
  shape := hshape
  mute := hmute
  calm := hcalm
  spared := by
    intro hfail p hp hspeech
    have hold := hsub p.1 hspeech
    rcases he.entries hi p hp with hp | hnew
    · exact hspared hfail p hp hold
    · exact absurd (h.known p.1 hold) hnew
  known := fun r hr => he.accepted r (h.known r (hsub r hr))
  undecided := fun r hr hm => h.undecided r (hsub r hr) (hdecided r hr hm)
  silent := hsilent

/-- A step after which no callback of an event is due. -/
theorem Hush.quiet (hshape : Shape s'.dispatcher) (hmute : speechIn s'.owner = [])
    (hnone : speechIn s'.dispatcher = []) (hsilent : SilentAfterTerminal s'.log) : Hush s' where
  shape := hshape
  mute := hmute
  calm := fun hne => absurd hnone hne
  spared := by
    intro _ p _ hm
    rw [hnone] at hm
    cases hm
  known := by
    rw [hnone]
    exact fun r hr => (List.not_mem_nil hr).elim
  undecided := by
    rw [hnone]
    exact fun r hr => (List.not_mem_nil hr).elim
  silent := hsilent

theorem Hush.apart (h : Hush s) (hi : Inv s.account) (he : Effect s.account s'.account) (ha : Apart s s') : Hush s' := by
  refine h.keep hi he ?_ ?_ ?_ ?_ ?_ ?_ ?_
  · rw [ha.dispatcher]; exact h.shape
  · rw [ha.owner]; exact h.mute
  · rw [ha.dispatcher]; exact fun r hr => hr
  · rw [ha.dispatcher]; exact h.calm
  · rw [ha.dispatcher]; exact h.spared
  · rw [ha.decided]; exact fun r _ hm => hm
  · rw [ha.log]; exact h.silent

/-- The stack below an act in the middle of an event. -/
def Inner (rest : List Act) : Prop := ∃ inner, rest = inner ++ [Act.loop] ∧ ∀ a ∈ inner, a.inEvent = true

theorem Shape.cons (h : Shape (act :: rest)) :
    (act = .loop ∧ rest = []) ∨ (∃ e, act = .handleEvent e ∧ rest = [.loop]) ∨ (act.inEvent = true ∧ Inner rest) := by
  rcases h with h | ⟨e, h⟩ | ⟨inner, h, hin⟩
  · cases h
  · cases h
    exact .inr (.inl ⟨e, rfl, rfl⟩)
  · cases inner with
    | nil =>
      cases h
      exact .inl ⟨rfl, rfl⟩
    | cons a inner =>
      cases h
      exact .inr (.inr ⟨hin _ List.mem_cons_self, inner, rfl, fun a ha => hin a (List.mem_cons_of_mem _ ha)⟩)

theorem Inner.push (h : Inner rest) (hacts : ∀ a ∈ acts, a.inEvent = true) : Shape (acts ++ rest) := by
  obtain ⟨inner, rfl, hin⟩ := h
  refine .inr (.inr ⟨acts ++ inner, (List.append_assoc _ _ _).symm, fun a ha => ?_⟩)
  rcases List.mem_append.mp ha with ha | ha
  · exact hacts a ha
  · exact hin a ha

theorem inner_loop : Inner [Act.loop] := ⟨[], rfl, fun _ ha => (List.not_mem_nil ha).elim⟩

/-- The dispatcher goes on with acts that make no callback of the event due. -/
theorem Hush.go (acts : List Act) (h : Hush s) (hi : Inv s.account) (he : Effect s.account s'.account) (hd : s.dispatcher = act :: rest)
    (hrest : Inner rest) (hstack : s'.dispatcher = acts ++ rest) (hin : ∀ a ∈ acts, a.inEvent = true)
    (hacts : speechIn acts = []) (howner : s'.owner = s.owner)
    (hcalm : ∀ id e, .failRequest id e ∉ acts)
    (hfail : (∃ a ∈ acts, a.beforeFail = true) → act.beforeFail = true)
    (hdecided : ∀ r ∈ speechIn s'.dispatcher, r ∈ s'.decided.filterMap Decision.called? →
      r ∈ s.decided.filterMap Decision.called?)
    (hsilent : SilentAfterTerminal s'.log) : Hush s' := by
  have hspeech : speechIn s'.dispatcher = speechIn rest := by rw [hstack, speechIn_append, hacts, List.nil_append]
  have hsub : ∀ r ∈ speechIn rest, r ∈ speechIn s.dispatcher := by
    intro r hr
    rw [hd, speechIn_cons]
    exact List.mem_append_right _ hr
  refine h.keep hi he ?_ (howner ▸ h.mute) (fun r hr => hsub r (hspeech ▸ hr)) ?_ ?_ hdecided hsilent
  · rw [hstack]
    exact hrest.push hin
  · intro hne id e hm
    rw [hstack] at hm
    rcases List.mem_append.mp hm with hm | hm
    · exact hcalm id e hm
    · refine h.calm (fun hnil => hne ?_) id e (hd ▸ List.mem_cons_of_mem _ hm)
      rw [hspeech]
      refine List.eq_nil_iff_forall_not_mem.mpr fun r hr => ?_
      have := hsub r hr
      rw [hnil] at this
      cases this
  · rintro ⟨a, ha, hb⟩
    refine h.spared ?_
    rw [hstack] at ha
    rcases List.mem_append.mp ha with ha | ha
    · exact ⟨act, hd ▸ List.mem_cons_self, hfail ⟨a, ha, hb⟩⟩
    · exact ⟨a, hd ▸ List.mem_cons_of_mem _ ha, hb⟩

theorem speechIn_invocations {calls : List (Bool × Callback)} (h : ∀ c ∈ calls, c.2.speech? = none) :
    speechIn (invocations calls) = [] := by
  refine List.filterMap_eq_nil_iff.mpr fun a ha => ?_
  obtain ⟨c, hc, rfl⟩ := List.mem_map.mp ha
  exact h c (List.mem_filter.mp hc).1

theorem inEvent_invocations (calls : List (Bool × Callback)) : ∀ a ∈ invocations calls, a.inEvent = true := by
  intro a ha
  obtain ⟨c, -, rfl⟩ := List.mem_map.mp ha
  rfl

/-- What the handler of an event leaves: the stack it found with acts of this event on top. -/
structure Handled (s s' : St) (acts : List Act) : Prop where
  dispatcher : s'.dispatcher = acts ++ s.dispatcher
  inEvent : ∀ a ∈ acts, a.inEvent = true
  owner : s'.owner = s.owner
  log : s'.log = s.log

theorem handled_terminate {kind : Terminal} {calls : TtsCallbacks → List (Bool × Callback)}
    (hcalls : ∀ callbacks, ∀ c ∈ calls callbacks, c.2.speech? = none) :
    ∃ acts, Handled s (terminate s .dispatcher id kind calls) acts ∧ speechIn acts = [] := by
  unfold terminate
  split
  · exact ⟨[], ⟨rfl, fun _ ha => (List.not_mem_nil ha).elim, rfl, rfl⟩, rfl⟩
  · exact ⟨_, ⟨rfl, inEvent_invocations _, rfl, rfl⟩, speechIn_invocations (hcalls _)⟩

theorem handled_complete (m : CompletedMessage) :
    ∃ acts, Handled s (completeRequest s .dispatcher id m) acts ∧ speechIn acts = [] := by
  refine handled_terminate fun callbacks c hc => ?_
  rcases List.mem_pair.mp hc with rfl | rfl <;> rfl

theorem handled_cancel : ∃ acts, Handled s (cancelRequestLocally s .dispatcher id) acts ∧ speechIn acts = [] := by
  refine handled_terminate fun callbacks c hc => ?_
  rw [List.mem_singleton.mp hc]
  rfl

theorem handled_fail (s : St) (id : RequestId) (e : TtsError) :
    ∃ acts, Handled s (failRequest s .dispatcher id e) acts ∧ speechIn acts = [] := by
  refine handled_terminate fun callbacks c hc => ?_
  rw [List.mem_singleton.mp hc]
  rfl

/-- Callbacks become due for one request of the map, and nothing is decided. -/
structure Speaks (s s' : St) (id : RequestId) (acts : List Act) : Prop where
  found : ∃ request, s.find? id = some request
  decided : s'.decided = s.decided
  calls : ∀ a ∈ acts, ∃ c, a = .invoke c
  speech : ∀ r ∈ speechIn acts, r = id

theorem mem_invocations {calls : List (Bool × Callback)} {a : Act} (h : a ∈ invocations calls) :
    ∃ c ∈ calls, a = .invoke c.2 := by
  obtain ⟨c, hc, rfl⟩ := List.mem_map.mp h
  exact ⟨c, (List.mem_filter.mp hc).1, rfl⟩

theorem speaks_invocations {request : ActiveRequest} {calls : List (Bool × Callback)} (hf : s.find? id = some request)
    (hd : s'.decided = s.decided) (hcalls : ∀ c ∈ calls, c.2.speech? = some id) : Speaks s s' id (invocations calls) := by
  refine ⟨⟨request, hf⟩, hd, fun a ha => ?_, fun r hr => ?_⟩
  · obtain ⟨c, -, rfl⟩ := mem_invocations ha
    exact ⟨c.2, rfl⟩
  · obtain ⟨a, ha, he⟩ := List.mem_filterMap.mp hr
    obtain ⟨c, hc, rfl⟩ := mem_invocations ha
    have hid : c.2.speech? = some r := he
    rw [hcalls c hc] at hid
    exact (Option.some.inj hid).symm

theorem handled_control (m : ControlMessage) : ∃ acts, Handled s (handleControlEvent s .dispatcher id m) acts ∧
    (speechIn acts = [] ∨ Speaks s (handleControlEvent s .dispatcher id m) id acts) := by
  have nothing : ∀ {s' : St}, s'.dispatcher = s.dispatcher → s'.owner = s.owner → s'.log = s.log →
      ∃ acts, Handled s s' acts ∧ (speechIn acts = [] ∨ Speaks s s' id acts) := by
    intro s' hd ho hl
    exact ⟨[], ⟨hd, fun _ ha => (List.not_mem_nil ha).elim, ho, hl⟩, .inl rfl⟩
  unfold handleControlEvent
  split
  · unfold handleStarted
    split
    · exact nothing rfl rfl rfl
    rename_i request hf
    split
    · refine ⟨_, ⟨rfl, inEvent_invocations _, rfl, rfl⟩, .inr (speaks_invocations hf rfl fun c hc => ?_)⟩
      rw [List.mem_singleton.mp hc]
      rfl
    · exact nothing rfl rfl rfl
  · obtain ⟨acts, hh, hn⟩ := handled_complete _
    exact ⟨acts, hh, .inl hn⟩
  · obtain ⟨acts, hh, hn⟩ := handled_cancel
    exact ⟨acts, hh, .inl hn⟩
  · exact nothing rfl rfl rfl

theorem handled_audio (audio : List UInt8) : ∃ acts, Handled s (handleAudioEvent s .dispatcher id audio) acts ∧
    (speechIn acts = [] ∨ Speaks s (handleAudioEvent s .dispatcher id audio) id acts) := by
  unfold handleAudioEvent
  split
  · exact ⟨[], ⟨rfl, fun _ ha => (List.not_mem_nil ha).elim, rfl, rfl⟩, .inl rfl⟩
  rename_i request hf
  simp only
  split
  · refine ⟨[.failRequest id _], ⟨rfl, fun a ha => ?_, rfl, rfl⟩, .inl rfl⟩
    rw [List.mem_singleton.mp ha]
    rfl
  · refine ⟨_, ⟨rfl, inEvent_invocations _, rfl, rfl⟩, .inr (speaks_invocations hf rfl fun c hc => ?_)⟩
    simp only [audioCalls, List.mem_append, List.mem_map, List.mem_cons, List.not_mem_nil, or_false] at hc
    rcases hc with ⟨t, -, rfl⟩ | rfl | rfl <;> rfl

theorem handled_event {e : WorkerSessionEvent} (h : runAct s .dispatcher rest order (.handleEvent e) = some s') :
    ∃ acts, Handled s s' acts ∧ (speechIn acts = [] ∨ ∃ id, Speaks s s' id acts) := by
  cases e with
  | control id m =>
    cases h
    obtain ⟨acts, hh, hs⟩ := handled_control m
    exact ⟨acts, hh, hs.imp_right fun hs => ⟨id, hs⟩⟩
  | audio id audio =>
    cases h
    obtain ⟨acts, hh, hs⟩ := handled_audio audio
    exact ⟨acts, hh, hs.imp_right fun hs => ⟨id, hs⟩⟩
  | workerError id e =>
    simp only [runAct] at h
    split at h <;> cases h
    · refine ⟨[.failAllRequests _], ⟨rfl, fun a ha => ?_, rfl, rfl⟩, .inl rfl⟩
      rw [List.mem_singleton.mp ha]
      rfl
    · obtain ⟨acts, hh, hn⟩ := handled_fail s id _
      exact ⟨acts, hh, .inl hn⟩
  | localEvent type message =>
    cases h
    unfold handleLocalError
    split
    · exact ⟨[], ⟨rfl, fun _ ha => (List.not_mem_nil ha).elim, rfl, rfl⟩, .inl rfl⟩
    · refine ⟨[.failAllRequests _], ⟨rfl, fun a ha => ?_, rfl, rfl⟩, .inl rfl⟩
      rw [List.mem_singleton.mp ha]
      rfl

/-- A request in the map has been decided nowhere. -/
theorem Inv.undecided_of_find? {request : ActiveRequest} (h : Inv s.account) (hf : s.find? id = some request) :
    id ∈ s.accepted.map Prod.fst ∧ id ∉ s.decided.filterMap Decision.called? := by
  obtain ⟨p, hp, -⟩ := Option.map_eq_some_iff.mp hf
  have hid : p.1 = id := by simpa using List.find?_some hp
  have hentry : (p.1, p.2.callbacks) ∈ s.entries :=
    List.mem_map_of_mem (f := fun q : RequestId × ActiveRequest => (q.1, q.2.callbacks)) (List.mem_of_find?_eq_some hp)
  have hnodup := (h.ledger.map Prod.fst).nodup_iff.mp h.distinct
  rw [List.map_append, List.map_map] at hnodup
  refine ⟨?_, fun hm => ?_⟩
  · exact hid ▸ List.mem_map_of_mem (h.ledger.mem_iff.mpr (List.mem_append_left _ hentry))
  · obtain ⟨d, hd, he⟩ := List.mem_filterMap.mp hm
    unfold Decision.called? at he
    split at he
    · have hdid : d.id = id := Option.some.inj he
      have hleft : id ∈ s.entries.map Prod.fst := hid ▸ List.mem_map_of_mem hentry
      have hright : id ∈ s.decided.map (Prod.fst ∘ Decision.entry) := hdid ▸ List.mem_map_of_mem (f := Prod.fst ∘ Decision.entry) hd
      exact (List.nodup_append.mp hnodup).2.2 id hleft id hright rfl
    · cases he

/-- The dispatcher handles an event. -/
theorem Hush.event {e : WorkerSessionEvent} (h : Hush s) (hi : Inv s.account) (he : Effect s.account s'.account)
    (hs : runAct { s with dispatcher := [.loop] } .dispatcher [.loop] order (.handleEvent e) = some s') : Hush s' := by
  obtain ⟨acts, hh, hspeech⟩ := handled_event hs
  have hshape : Shape s'.dispatcher := by
    rw [hh.dispatcher]
    exact inner_loop.push hh.inEvent
  have hmute : speechIn s'.owner = [] := hh.owner ▸ h.mute
  have hsilent : SilentAfterTerminal s'.log := by
    rw [hh.log]
    exact h.silent
  have hstack : s'.dispatcher = acts ++ [.loop] := hh.dispatcher
  have hin : speechIn s'.dispatcher = speechIn acts := by
    rw [hstack, speechIn_append]
    exact List.append_nil _
  rcases hspeech with hnone | ⟨id, hspk⟩
  · exact Hush.quiet hshape hmute (hin.trans hnone) hsilent
  · obtain ⟨request, hf⟩ := hspk.found
    obtain ⟨hknown, hopen⟩ := hi.undecided_of_find? hf
    have honly : ∀ r ∈ speechIn s'.dispatcher, r = id := fun r hr => hspk.speech r (hin ▸ hr)
    refine ⟨hshape, hmute, ?_, ?_, ?_, ?_, hsilent⟩
    · intro _ i e hm
      rw [hstack] at hm
      rcases List.mem_append.mp hm with hm | hm
      · obtain ⟨c, hc⟩ := hspk.calls _ hm
        cases hc
      · cases List.mem_singleton.mp hm
    · rintro ⟨a, ha, hb⟩
      rw [hstack] at ha
      rcases List.mem_append.mp ha with ha | ha
      · obtain ⟨c, rfl⟩ := hspk.calls a ha
        cases hb
      · rw [List.mem_singleton.mp ha] at hb
        cases hb
    · intro r hr
      rw [honly r hr]
      exact he.accepted id hknown
    · intro r hr
      rw [honly r hr, hspk.decided]
      exact hopen

theorem finishStop_keeps (s : St) (th : Thread) :
    (finishStop s th).dispatcher = s.dispatcher ∧ (finishStop s th).owner = s.owner ∧
      (finishStop s th).decided = s.decided ∧ (finishStop s th).log = s.log := by
  unfold finishStop
  simp only
  split <;> exact ⟨rfl, rfl, rfl, rfl⟩

/-- A callback is called. -/
theorem silent_invoke {c : Callback} (h : SilentAfterTerminal s.log) (hi : Inv s.account)
    (hc : ∀ r, c.speech? = some r → r ∉ s.decided.filterMap Decision.called?) : SilentAfterTerminal (s.log ++ [c]) := by
  refine h.snoc fun r hspeech x hx => ?_
  by_contra hends
  have hterm : r ∈ s.log.filterMap Callback.terminal? := List.mem_filterMap.mpr ⟨x, hx, by simpa using hends⟩
  have hpos : 0 < terminals r s.log := List.count_pos_iff.mpr hterm
  refine hc r (eq_of_beq hspeech) (List.count_pos_iff.mp ?_)
  exact Nat.lt_of_lt_of_le hpos (terminals_le r hi)

/-- What `fail_all_requests` decides has no callback due. -/
theorem Hush.failAll {e : TtsError} (h : Hush s) (hi : Inv s.account) (he : Effect s.account s'.account)
    (hd : s.dispatcher = .failAllRequests e :: rest) (hrest : Inner rest) (horder : order.Perm s.entries)
    (hs : failAllRequests { s with dispatcher := rest } .dispatcher e order = s') : Hush s' := by
  have hspared := h.spared ⟨_, hd ▸ List.mem_cons_self, rfl⟩
  subst hs
  refine h.go _ hi he hd hrest rfl (inEvent_invocations _) ?_ rfl ?_ (fun _ => rfl) ?_ h.silent
  · refine speechIn_invocations fun c hc => ?_
    obtain ⟨p, -, rfl⟩ := List.mem_map.mp hc
    rfl
  · intro i e' hm
    obtain ⟨c, -, hc⟩ := mem_invocations hm
    cases hc
  · intro r hr hm
    have hr : r ∈ speechIn s.dispatcher := by
      rw [hd, speechIn_cons]
      refine List.mem_append_right _ ?_
      have hcalls : speechIn (invocations (order.map fun p => (p.2.onError, .onError p.1 (errorFor p.1 e)))) = [] :=
        speechIn_invocations fun c hc => by
          obtain ⟨p, -, rfl⟩ := List.mem_map.mp hc
          rfl
      have hr : r ∈ speechIn (invocations _ ++ rest) := hr
      rw [speechIn_append, hcalls] at hr
      exact hr
    have hm : r ∈ (s.decided ++ order.map fun p => (⟨p.1, p.2, .error⟩ : Decision)).filterMap Decision.called? := hm
    rw [List.filterMap_append] at hm
    rcases List.mem_append.mp hm with hm | hm
    · exact hm
    · obtain ⟨d, hdm, hcalled⟩ := List.mem_filterMap.mp hm
      obtain ⟨p, hp, rfl⟩ := List.mem_map.mp hdm
      unfold Decision.called? at hcalled
      split at hcalled
      · rename_i hon
        have hid : p.1 = r := Option.some.inj hcalled
        have hoff := hspared p (horder.mem_iff.mp hp) (hid ▸ hr)
        have hon : p.2.onError = true := hon
        rw [hoff] at hon
        cases hon
      · cases hcalled

theorem Hush.dispatcher (h : Hush s) (hi : Inv s.account) (he : Effect s.account s'.account)
    (hd : s.dispatcher = act :: rest)
    (hs : runAct { s with dispatcher := rest } .dispatcher rest order act = some s') : Hush s' := by
  have hnothing : ∀ {P : Act → Prop}, ∀ a ∈ ([] : List Act), P a := fun a ha => (List.not_mem_nil ha).elim
  have hbare : ∀ id e, Act.failRequest id e ∉ ([] : List Act) := fun _ _ ha => List.not_mem_nil ha
  rcases (hd ▸ h.shape).cons with ⟨rfl, rfl⟩ | ⟨e, rfl, rfl⟩ | ⟨hin, hrest⟩
  · simp only [runAct] at hs
    split at hs <;> cases hs
    exact Hush.quiet (.inl rfl) h.mute rfl h.silent
  · exact h.event hi he hs
  · -- the acts that only go on, with nothing put in their place
    have pop : s'.dispatcher = rest → s'.owner = s.owner → s'.decided = s.decided → s'.log = s.log → Hush s' := by
      intro hstack howner hdec hlog
      refine h.go [] hi he hd hrest hstack hnothing rfl howner hbare ?_ ?_ (hlog ▸ h.silent)
      · rintro ⟨a, ha, -⟩
        exact (List.not_mem_nil ha).elim
      · rw [hdec]
        exact fun r _ hm => hm
    cases act with
    | loop => cases hin
    | handleEvent e => cases hin
    | failRequest id e =>
      cases hs
      have hnone : speechIn s.dispatcher = [] := by
        by_contra hne
        exact h.calm hne id e (hd ▸ List.mem_cons_self)
      rw [hd, speechIn_cons] at hnone
      have hrestNone : speechIn rest = [] := (List.append_eq_nil_iff.mp hnone).2
      obtain ⟨acts, hh, hacts⟩ := handled_fail { s with dispatcher := rest } id e
      refine Hush.quiet ?_ ?_ ?_ ?_
      · rw [hh.dispatcher]
        exact hrest.push hh.inEvent
      · rw [hh.owner]
        exact h.mute
      · rw [hh.dispatcher, speechIn_append, hacts]
        exact hrestNone
      · rw [hh.log]
        exact h.silent
    | failAllRequests e =>
      simp only [runAct] at hs
      split at hs
      · rename_i hperm
        exact h.failAll hi he hd hrest (List.isPerm_iff.mp hperm) (Option.some.inj hs)
      · cases hs
    | invoke c =>
      cases hs
      have hsilent : SilentAfterTerminal (s.log ++ [c]) := by
        refine silent_invoke h.silent hi fun r hr => h.undecided r ?_
        rw [hd, speechIn_cons]
        refine List.mem_append_left _ ?_
        show r ∈ c.speech?.toList
        rw [hr]
        exact List.mem_cons_self
      refine h.go [.user] hi he hd hrest rfl ?_ rfl rfl ?_ ?_ (fun r _ hm => hm) hsilent
      · intro a ha
        rw [List.mem_singleton.mp ha]
        rfl
      · intro id e ha
        cases List.mem_singleton.mp ha
      · rintro ⟨a, ha, hb⟩
        rw [List.mem_singleton.mp ha] at hb
        cases hb
    | user =>
      cases hs
      exact pop rfl rfl rfl rfl
    | stop =>
      cases hs
      refine h.go [.joinWriter, .joinDispatcher, .failAllRequests clientStopped, .finish, .returned] hi he hd
        hrest rfl ?_ rfl rfl ?_ (fun _ => rfl) (fun r _ hm => hm) h.silent
      · intro a ha
        simp only [List.mem_cons, List.not_mem_nil, or_false] at ha
        rcases ha with rfl | rfl | rfl | rfl | rfl <;> rfl
      · intro id e ha
        simp at ha
    | joinWriter =>
      simp only [runAct] at hs
      split at hs <;> cases hs <;> exact pop rfl rfl rfl rfl
    | joinDispatcher =>
      simp only [runAct, bne_self_eq_false, Bool.and_false, Bool.false_eq_true, if_false] at hs
      cases hs
      exact pop rfl rfl rfl rfl
    | finish =>
      cases hs
      obtain ⟨hstack, howner, hdec, hlog⟩ := finishStop_keeps { s with dispatcher := rest } .dispatcher
      exact pop hstack howner hdec hlog
    | returned =>
      cases hs
      exact pop rfl rfl rfl rfl

/-- The owner says nothing of an event, and decides only after the dispatcher has finished. -/
theorem Hush.owner (h : Hush s) (hi : Inv s.account) (he : Effect s.account s'.account) (hstop : StopInv s)
    (ho : s.owner = act :: rest)
    (hs : runAct { s with owner := rest } .owner rest order act = some s') : Hush s' := by
  have hmute := h.mute
  rw [ho, speechIn_cons] at hmute
  obtain ⟨hact, hrest⟩ := List.append_eq_nil_iff.mp hmute
  have go : ∀ acts, speechIn acts = [] → s'.owner = acts ++ rest → s'.dispatcher = s.dispatcher →
      s'.decided = s.decided → SilentAfterTerminal s'.log → Hush s' := by
    intro acts hacts howner hd hdec hsilent
    refine h.keep hi he (hd ▸ h.shape) ?_ (fun r hr => hd ▸ hr) (hd ▸ h.calm) (hd ▸ h.spared) ?_ hsilent
    · rw [howner, speechIn_append, hacts]
      exact hrest
    · rw [hdec]
      exact fun r _ hm => hm
  cases act with
  | loop | handleEvent | failRequest =>
    have hof := hstop.ofStop _ (ho ▸ List.mem_cons_self)
    cases hof
  | failAllRequests e =>
    have hd : s.dispatcher = [] := hstop.finished ho nofun nofun nofun
    simp only [runAct] at hs
    split at hs <;> cases hs
    refine Hush.quiet (.inl hd) ?_ ?_ h.silent
    · show speechIn (invocations _ ++ rest) = []
      rw [speechIn_append, hrest, speechIn_invocations]
      · rfl
      · intro c hc
        obtain ⟨p, -, rfl⟩ := List.mem_map.mp hc
        rfl
    · show speechIn s.dispatcher = []
      rw [hd]
      rfl
  | invoke c =>
    have hsilent : SilentAfterTerminal (s.log ++ [c]) := by
      refine silent_invoke h.silent hi fun r hr => ?_
      have hact : c.speech?.toList = [] := hact
      rw [hr] at hact
      cases hact
    cases hs
    exact go [.user] rfl rfl rfl rfl hsilent
  | user =>
    cases hs
    exact go [] rfl rfl rfl rfl h.silent
  | stop =>
    cases hs
    exact go [.joinWriter, .joinDispatcher, .failAllRequests clientStopped, .finish, .returned] rfl rfl rfl rfl h.silent
  | joinWriter =>
    simp only [runAct] at hs
    split at hs <;> cases hs <;> exact go [] rfl rfl rfl rfl h.silent
  | joinDispatcher =>
    simp only [runAct] at hs
    split at hs
    · split at hs <;> cases hs
      exact go [] rfl rfl rfl rfl h.silent
    · cases hs
      exact go [] rfl rfl rfl rfl h.silent
  | finish =>
    cases hs
    obtain ⟨hd, howner, hdec, hlog⟩ := finishStop_keeps { s with owner := rest } .owner
    refine go [] rfl howner hd hdec ?_
    rw [hlog]
    exact h.silent
  | returned =>
    cases hs
    exact go [] rfl rfl rfl rfl h.silent

theorem Hush.step {e : Ev} (h : Hush s) (hi : Inv s.account) (hstop : StopInv s) (hok : Patient s e)
    (hs : step opts s e = some s') : Hush s' := by
  have he := step_effect hi hs
  rcases step_cases hs with ha | ⟨th, rfl, hcan, rfl⟩ | ⟨ev, rest, -, hd, rfl⟩ | ⟨th, order, act, rest, -, hstack, hrun⟩
  · exact h.apart hi he ha
  · cases th with
    | owner =>
      refine h.keep hi he h.shape ?_ (fun r hr => hr) h.calm h.spared (fun r _ hm => hm) h.silent
      show speechIn ([.stop] ++ s.owner) = []
      rw [speechIn_append, h.mute]
      rfl
    | dispatcher =>
      have hspeech : speechIn ([.stop] ++ s.dispatcher) = speechIn s.dispatcher := speechIn_append _ _
      refine h.keep hi he ?_ h.mute (fun r hr => hspeech ▸ hr) ?_ (fun _ => hok) (fun r _ hm => hm) h.silent
      · -- `stop()` is called in a callback
        cases hd : s.dispatcher with
        | nil =>
          rw [canCallStop, hd] at hcan
          cases hcan
        | cons a rest =>
          show Shape ([.stop] ++ s.dispatcher)
          rcases (hd ▸ h.shape).cons with ⟨rfl, -⟩ | ⟨e, rfl, -⟩ | ⟨ha, hin⟩
          · rw [canCallStop, hd] at hcan
            cases hcan
          · rw [canCallStop, hd] at hcan
            cases hcan
          · obtain ⟨inner, rfl, hinner⟩ := hin
            have hall : Inner (a :: (inner ++ [.loop])) := by
              refine ⟨a :: inner, rfl, fun b hb => ?_⟩
              rcases List.mem_cons.mp hb with rfl | hb
              · exact ha
              · exact hinner b hb
            rw [hd]
            exact hall.push fun b hb => by rw [List.mem_singleton.mp hb]; rfl
      · intro hne id e hm
        rcases List.mem_cons.mp hm with hm | hm
        · cases hm
        · exact h.calm (fun hnil => hne (hspeech.trans hnil)) id e hm
  · have hrest : rest = [] := by
      rcases (hd ▸ h.shape).cons with ⟨-, hrest⟩ | ⟨e, he, -⟩ | ⟨he, -⟩
      · exact hrest
      · cases he
      · cases he
    refine Hush.quiet (.inr (.inl ⟨ev, ?_⟩)) h.mute ?_ h.silent
    · show Act.handleEvent ev :: s.dispatcher = _
      rw [hd, hrest]
    · show speechIn (Act.handleEvent ev :: s.dispatcher) = []
      rw [hd, hrest]
      rfl
  · cases th with
    | owner => exact h.owner hi he hstop hstack hrun
    | dispatcher => exact h.dispatcher hi he hstack hrun

end Step

/-- No callback of a request follows its terminal callback. -/
theorem silent_after_terminal_callback (opts : Options) (s : St) (h : Reach (step opts) Patient init s) :
    SilentAfterTerminal s.log := by
  have hush : Hush s := by
    refine h.inv (I := Hush) ?_ fun _ _ _ hr hi hok hs => hi.step (reach_inv hr) (reach_stopInv hr) hok hs
    exact Hush.quiet (.inr (.inr ⟨[], rfl, fun _ ha => (List.not_mem_nil ha).elim⟩)) rfl rfl silent_nil
  exact hush.silent

instance (s : St) : (e : Ev) → Decidable (Patient s e)
  | .callStop .dispatcher => inferInstanceAs (Decidable (∀ p ∈ s.entries, _ → _))
  | .callStop .owner | .synthesize _ _ _ | .synthesizePrepared _ _ _ | .cancel _ | .event _ | .run _ _ | .writer =>
    .isTrue trivial

/-- Request 1 is accepted, and its first chunk of audio arrives: `on_text_prepared` is
    called. -/
def firstChunk : List Ev :=
  [sampleRequest {}, .event (.audio 1 [0, 0]), .run .dispatcher [], .run .dispatcher []]

/-- `stop()` in a callback on the dispatcher, up to the `on_error` of request 1. -/
def stopInCallback : List Ev :=
  [.callStop .dispatcher, .run .dispatcher [], .writer, .run .dispatcher [], .run .dispatcher [],
    .run .dispatcher [(1, {})], .run .dispatcher []]

/-- Calling `stop()` in `on_text_prepared` fails the request at once; when the callback
    returns, its `on_audio` and `on_timing` are still called. -/
theorem audio_after_on_error : ∃ s, Reachable sampleOptions s ∧ (1, {}) ∈ s.accepted ∧ ¬ SilentAfterTerminal s.log := by
  have hrun : ∃ s, Reachable sampleOptions s ∧ decide ((1, {}) ∈ s.accepted ∧
      s.log.map (fun c => (c.terminal? == some 1, c.speech? == some 1)) =
        [(false, true), (true, false), (false, true)]) = true :=
    exists_reach_of_run (firstChunk ++ stopInCallback ++ List.replicate 5 (.run .dispatcher [])) (by decide +kernel)
  obtain ⟨s, hs, hp⟩ := hrun
  obtain ⟨hmem, hlog⟩ := of_decide_eq_true hp
  refine ⟨s, hs, hmem, fun hsilent => ?_⟩
  have hmap : (s.log.map (fun c => (c.terminal? == some 1, c.speech? == some 1))).Pairwise
      fun a b => a.1 = true → b.2 = false :=
    List.pairwise_map.mpr (hsilent.imp fun hab => hab 1)
  rw [hlog] at hmap
  exact absurd hmap (by decide)

/-- The same `stop()` in `on_timing`, the last callback of the event. -/
theorem silent_after_a_stop_in_on_timing : ∃ s, Reach (step sampleOptions) Patient init s ∧
    s.log.map Callback.terminal? = [none, none, none, some 1] ∧ SilentAfterTerminal s.log := by
  have hrun : ∃ s, Reach (step sampleOptions) Patient init s ∧
      decide (s.log.map Callback.terminal? = [none, none, none, some 1]) = true :=
    exists_reach_of_run (firstChunk ++ List.replicate 4 (.run .dispatcher []) ++ stopInCallback) (by decide +kernel)
  obtain ⟨s, hs, hp⟩ := hrun
  exact ⟨s, hs, of_decide_eq_true hp, silent_after_terminal_callback sampleOptions s hs⟩

end QwenTtsBridge.Client
