/-
  QwenTtsBridge.Client.Terminal — the terminal callbacks of `QwenTtsClient`.

  A request is in `active_requests_` from its acceptance until one region under the mutex
  takes it out and chooses its terminal callback, so the accepted requests are those in the
  map and those decided, each once (`Inv.ledger`), and the terminal callbacks made or due
  are those decided whose callback is not empty (`Inv.answers`). An external `stop()` calls
  `fail_all_requests` only after the dispatcher has finished (`StopInv.waiting`).

  Proved: `one_terminal_callback` — over every interleaving, every event of the session and
  every behaviour of the callbacks, an accepted request gets at most one terminal callback,
  and the one chosen for it (if not empty) once an external `stop()` that was not itself
  called from a callback has returned; errors carry their own request's id, and only
  accepted requests get one. `refusals_empty_callbacks_and_nested_stops` shows why not more
  holds: refused requests get `on_error` at once, empty callbacks are not called, and a
  `stop()` in a callback of another `stop()` returns before the other is done.
-/

import QwenTtsBridge.Client.RequestIds
import Mathlib.Data.List.Perm.Basic
import Mathlib.Data.List.Nodup

namespace QwenTtsBridge.Client

open QwenTtsBridge.Protocol.Control QwenTtsBridge.Session QwenTtsBridge.Lib.Transition

/-! ## Accepted, decided, answered -/

/-- Whose terminal callback a call is, and which of the three. -/
abbrev Ending := RequestId × Terminal

def Callback.ending? : Callback → Option Ending
  | .onCompleted id => some (id, .completed)
  | .onCancelled id => some (id, .cancelled)
  | .onError id _ => some (id, .error)
  | _ => none

def Decision.ending? (d : Decision) : Option Ending := if d.callbacks.has d.kind then some (d.id, d.kind) else none

theorem Callback.terminal?_eq (c : Callback) : c.terminal? = c.ending?.map Prod.fst := by cases c <;> rfl

theorem Decision.called?_eq (d : Decision) : d.called? = d.ending?.map Prod.fst := by
  unfold Decision.called? Decision.ending?
  split <;> rfl

def Act.ending? : Act → Option Ending
  | .invoke c => c.ending?
  | _ => none

/-- The terminal callbacks among some acts. -/
def dueIn (acts : List Act) : List Ending := acts.filterMap Act.ending?

/-- The terminal callbacks of `r` that were called. -/
def terminals (r : RequestId) (log : List Callback) : Nat := (log.filterMap Callback.terminal?).count r

/-- Which they were, in order. -/
def kinds (r : RequestId) (log : List Callback) : List Terminal :=
  ((log.filterMap Callback.ending?).filter (·.1 = r)).map Prod.snd

/-- Those that were called or are due. -/
def answers (s : St) (x : Ending) : Nat :=
  (s.log.filterMap Callback.ending?).count x + (dueIn s.dispatcher).count x + (dueIn s.owner).count x

def Decision.entry (d : Decision) : RequestId × TtsCallbacks := (d.id, d.callbacks)

structure Account where
  entries : List (RequestId × TtsCallbacks)
  accepted : List (RequestId × TtsCallbacks)
  decided : List Decision
  answers : Ending → Nat
  next : RequestId

def St.account (s : St) : Account := ⟨s.entries, s.accepted, s.decided, answers s, s.nextRequestId⟩

def Account.decide (v : Account) (ds : List Decision) (entries : List (RequestId × TtsCallbacks)) : Account :=
  { v with
    entries
    decided := v.decided ++ ds
    answers := fun x => v.answers x + (ds.filterMap Decision.ending?).count x }

/-- What one step can do to the account. -/
inductive Effect (v : Account) : Account → Prop
  | keep : Effect v v
  | spend (id : RequestId) : v.next ≠ 0 → v.next ≤ id → Effect v { v with next := idAfter id }
  | accept (id : RequestId) (callbacks : TtsCallbacks) : v.next ≠ 0 → v.next ≤ id →
      Effect v
        { v with
          entries := v.entries ++ [(id, callbacks)]
          accepted := v.accepted ++ [(id, callbacks)]
          next := idAfter id }
  | decide (ds : List Decision) (entries : List (RequestId × TtsCallbacks)) :
      v.entries.Perm (ds.map Decision.entry ++ entries) → Effect v (v.decide ds entries)

/-- Every accepted request is in the map or was decided, once. -/
structure Inv (v : Account) : Prop where
  ledger : v.accepted.Perm (v.entries ++ v.decided.map Decision.entry)
  distinct : (v.accepted.map Prod.fst).Nodup
  below : v.next ≠ 0 → ∀ p ∈ v.accepted, p.1 < v.next
  answers : ∀ x, v.answers x = (v.decided.filterMap Decision.ending?).count x

theorem lt_idAfter_of {next id i : RequestId} (hle : next ≤ id) (hi : i < next ∨ i = id) (hne : idAfter id ≠ 0) :
    i < idAfter id := by
  have hlt : id < idAfter id := ((idAfter_cases id).resolve_left fun h => hne h.2).2
  rcases hi with hi | rfl
  · exact UInt64.lt_trans (UInt64.lt_of_lt_of_le hi hle) hlt
  · exact hlt

theorem Inv.effect {v v' : Account} (h : Inv v) (e : Effect v v') : Inv v' := by
  cases e with
  | keep => exact h
  | spend id hnext hle =>
    exact ⟨h.ledger, h.distinct, fun hne p hp => lt_idAfter_of hle (.inl (h.below hnext p hp)) hne, h.answers⟩
  | accept id callbacks hnext hle =>
    have hnew : id ∉ v.accepted.map Prod.fst := by
      intro hm
      obtain ⟨p, hp, rfl⟩ := List.mem_map.mp hm
      have hlt := UInt64.lt_of_lt_of_le (h.below hnext p hp) hle
      exact UInt64.lt_irrefl _ hlt
    refine ⟨?_, ?_, ?_, h.answers⟩
    · show (v.accepted ++ [(id, callbacks)]).Perm ((v.entries ++ [(id, callbacks)]) ++ v.decided.map Decision.entry)
      refine (h.ledger.append_right _).trans ?_
      rw [List.append_assoc, List.append_assoc]
      exact List.perm_append_comm.append_left _
    · show ((v.accepted ++ [(id, callbacks)]).map Prod.fst).Nodup
      rw [List.map_append, List.nodup_append]
      refine ⟨h.distinct, List.nodup_singleton _, fun a ha b hb he => ?_⟩
      have hid : a = id := he.trans (List.mem_singleton.mp hb)
      exact hnew (hid ▸ ha)
    · intro hne p hp
      rcases List.mem_append.mp hp with hp | hp
      · exact lt_idAfter_of hle (.inl (h.below hnext p hp)) hne
      · rw [List.mem_singleton.mp hp]
        exact lt_idAfter_of hle (.inr rfl) hne
  | decide ds entries hperm =>
    refine ⟨?_, h.distinct, h.below, fun r => ?_⟩
    · show v.accepted.Perm (entries ++ (v.decided ++ ds).map Decision.entry)
      refine h.ledger.trans ((hperm.append_right _).trans ?_)
      rw [List.map_append, List.append_assoc]
      refine List.perm_append_comm.trans ?_
      rw [List.append_assoc]
    · show v.answers r + _ = ((v.decided ++ ds).filterMap Decision.ending?).count r
      rw [List.filterMap_append, List.count_append, h.answers r]

/-- The keys of the map are distinct. -/
theorem Inv.keys {s : St} (h : Inv s.account) : (s.active.map Prod.fst).Nodup := by
  have hsub : (s.entries.map Prod.fst).Nodup := by
    have hperm := (h.ledger.map Prod.fst).nodup_iff.mp h.distinct
    rw [List.map_append] at hperm
    exact (List.nodup_append.mp hperm).1
  rw [St.entries, List.map_map] at hsub
  exact hsub

/-! ## Each step is one of these effects -/

section Frames

variable {opts : Options} {s s' : St} {th : Thread} {act : Act} {acts rest : List Act} {id : RequestId}

theorem account_eq {v : Account} (he : s.entries = v.entries) (ha : s.accepted = v.accepted)
    (hd : s.decided = v.decided) (hr : ∀ r, answers s r = v.answers r) (hn : s.nextRequestId = v.next) :
    s.account = v := by
  cases v
  simp only at he ha hd hr hn
  subst he ha hd hn
  simp only [St.account, Account.mk.injEq, true_and, and_true]
  exact funext hr

theorem answers_push (r : Ending) : answers (push s th acts) r = answers s r + (dueIn acts).count r := by
  cases th <;>
  · simp only [answers, push, St.setStack, St.stack, dueIn, List.filterMap_append, List.count_append]
    omega

theorem account_push : (push s th acts).account =
    { s.account with answers := fun r => s.account.answers r + (dueIn acts).count r } := by
  refine account_eq ?_ ?_ ?_ answers_push ?_ <;> cases th <;> rfl

theorem account_push_silent (h : dueIn acts = []) : (push s th acts).account = s.account := by
  rw [account_push, h]
  rfl

/-- The top of a stack is popped. -/
theorem answers_pop (hs : s.stack th = act :: rest) (r : Ending) :
    answers s r = answers (s.setStack rest th) r + act.ending?.toList.count r := by
  have hdue : ∀ l, dueIn (act :: l) = act.ending?.toList ++ dueIn l := by
    intro l
    cases h : act.ending? <;> simp [dueIn, h]
  cases th with
  | owner =>
    have hs : s.owner = act :: rest := hs
    simp only [answers, St.setStack, hs, hdue, List.count_append]
    omega
  | dispatcher =>
    have hs : s.dispatcher = act :: rest := hs
    simp only [answers, St.setStack, hs, hdue, List.count_append]
    omega

theorem account_pop (hs : s.stack th = act :: rest) (hd : act.ending? = none) :
    (s.setStack rest th).account = s.account := by
  refine account_eq ?_ ?_ ?_ (fun r => ?_) ?_
  · cases th <;> rfl
  · cases th <;> rfl
  · cases th <;> rfl
  · have hpop := answers_pop hs r
    rw [hd] at hpop
    exact hpop.symm
  · cases th <;> rfl

theorem entries_update {f : ActiveRequest → ActiveRequest} (hf : ∀ r, (f r).callbacks = r.callbacks) :
    (s.update id f).entries = s.entries := by
  simp only [St.entries, St.update, List.map_map]
  refine List.map_congr_left fun p _ => ?_
  simp only [Function.comp_apply]
  split
  · rw [hf]
  · rfl

theorem account_update {f : ActiveRequest → ActiveRequest} (hf : ∀ r, (f r).callbacks = r.callbacks) :
    (s.update id f).account = s.account := account_eq (entries_update hf) rfl rfl (fun _ => rfl) rfl

/-- The entry that is looked up, taken out of the map. -/
theorem find?_perm {request : ActiveRequest} (hkeys : (s.active.map Prod.fst).Nodup) (h : s.find? id = some request) :
    s.entries.Perm ((id, request.callbacks) :: (s.erase id).entries) := by
  have hactive : s.active.Perm ((id, request) :: s.active.filter (·.1 != id)) := by
    simp only [St.find?] at h
    generalize s.active = l at hkeys h ⊢
    induction l with
    | nil => cases h
    | cons p l ih =>
      obtain ⟨hnew, hkeys⟩ := List.nodup_cons.mp hkeys
      by_cases hp : p.1 = id
      · have hrest : ∀ q ∈ l, (q.1 != id) = true := by
          intro q hq
          have hne : q.1 ≠ id := fun he => hnew (hp ▸ he ▸ List.mem_map_of_mem hq)
          simp [hne]
        have hval : p = (id, request) := by
          rw [List.find?_cons_of_pos (by simp [hp])] at h
          have := Option.some.inj h
          exact Prod.ext hp this
        rw [List.filter_cons_of_neg (by simp [hp]), List.filter_eq_self.mpr hrest, hval]
      · rw [List.find?_cons_of_neg (by simp [hp])] at h
        rw [List.filter_cons_of_pos (by simp [hp])]
        exact ((ih hkeys h).cons p).trans (List.Perm.swap _ _ _)
  exact hactive.map fun p => (p.1, p.2.callbacks)

/-- A request is decided, with its terminal callback among the calls that follow. -/
theorem terminate_effect {kind : Terminal} {calls : TtsCallbacks → List (Bool × Callback)}
    (hkeys : (s.active.map Prod.fst).Nodup)
    (hcalls : ∀ callbacks, dueIn (invocations (calls callbacks)) = (Decision.ending? ⟨id, callbacks, kind⟩).toList) :
    Effect s.account (terminate s th id kind calls).account := by
  unfold terminate
  split
  · exact .keep
  · rename_i request hfind
    have hperm := find?_perm hkeys hfind
    have heq : (push { s.erase id with decided := s.decided ++ [⟨id, request.callbacks, kind⟩] } th
          (invocations (calls request.callbacks))).account =
        s.account.decide [⟨id, request.callbacks, kind⟩] (s.erase id).entries := by
      rw [account_push, hcalls]
      refine congrArg (Account.mk _ _ _ · _) (funext fun r => ?_)
      show _ = answers s r + _
      refine congrArg (answers s r + ·) ?_
      cases h : Decision.ending? ⟨id, request.callbacks, kind⟩ <;> simp [h]
    rw [heq]
    exact .decide _ _ hperm

theorem dueIn_ite {b : Bool} {c : Callback} {x : Ending} (hc : c.ending? = some x) :
    dueIn (invocations [(b, c)]) = (if b then some x else none).toList := by
  cases b
  · rfl
  · simp [invocations, dueIn, Act.ending?, hc]

theorem completeRequest_effect (hkeys : (s.active.map Prod.fst).Nodup) (m : CompletedMessage) :
    Effect s.account (completeRequest s th id m).account := by
  refine terminate_effect hkeys fun callbacks => ?_
  -- the metadata callback is no terminal one
  cases hm : callbacks.onCompletionMetadata <;> cases hc : callbacks.onCompleted <;>
    simp only [Decision.ending?, TtsCallbacks.has, hc] <;> rfl

theorem cancelRequestLocally_effect (hkeys : (s.active.map Prod.fst).Nodup) :
    Effect s.account (cancelRequestLocally s th id).account :=
  terminate_effect hkeys fun _ => dueIn_ite rfl

theorem failRequest_effect (hkeys : (s.active.map Prod.fst).Nodup) (e : TtsError) :
    Effect s.account (failRequest s th id e).account :=
  terminate_effect hkeys fun _ => dueIn_ite rfl

theorem failAllRequests_effect {order : List (RequestId × TtsCallbacks)} (e : TtsError) (ho : order.Perm s.entries) :
    Effect s.account (failAllRequests s th e order).account := by
  have hdue : dueIn (invocations (order.map fun p => (p.2.onError, .onError p.1 (errorFor p.1 e)))) =
      (order.map fun p => (⟨p.1, p.2, .error⟩ : Decision)).filterMap Decision.ending? := by
    clear ho
    induction order with
    | nil => rfl
    | cons p order ih =>
      cases hp : p.2.onError <;>
      · simp only [List.map_cons, invocations, List.filter_cons, hp, Decision.ending?, TtsCallbacks.has,
          List.filterMap_cons] at ih ⊢
        simpa [dueIn, Act.ending?, Callback.ending?] using ih
  have heq : (failAllRequests s th e order).account =
      s.account.decide (order.map fun p => ⟨p.1, p.2, .error⟩) [] := by
    rw [failAllRequests, account_push, hdue]
    rfl
  rw [heq]
  refine .decide _ _ ?_
  rw [List.append_nil, List.map_map]
  exact ho.symm.trans (List.Perm.of_eq (List.map_id order).symm)

theorem handleStarted_account (format : AudioFormat) : (handleStarted s th id format).account = s.account := by
  unfold handleStarted
  split
  · rfl
  split
  · rename_i request _ _ _ _ _ _
    rw [account_push_silent]
    · exact account_update fun _ => rfl
    · cases request.callbacks.onTextPrepared <;> rfl
  · exact account_update fun _ => rfl

theorem handleAudioEvent_account (audio : List UInt8) : (handleAudioEvent s th id audio).account = s.account := by
  unfold handleAudioEvent
  split
  · rfl
  simp only
  split
  · exact account_push_silent rfl
  · rw [account_push_silent]
    · exact account_update fun _ => rfl
    -- none of the calls is a terminal one
    have hcalls : ∀ (callbacks : TtsCallbacks) (text : Option PreparedText) (chunk : PcmChunk),
        ∀ c ∈ audioCalls id callbacks text chunk, c.2.ending? = none := by
      intro callbacks text chunk c hc
      simp only [audioCalls, List.mem_append, List.mem_map, List.mem_cons, List.not_mem_nil, or_false] at hc
      rcases hc with ⟨t, -, rfl⟩ | rfl | rfl <;> rfl
    refine List.filterMap_eq_nil_iff.mpr fun a ha => ?_
    obtain ⟨c, hc, rfl⟩ := List.mem_map.mp ha
    exact hcalls _ _ _ c (List.mem_filter.mp hc).1

theorem handleLocalError_account (type : LocalEventType) (message : CppString) :
    (handleLocalError s th type message).account = s.account := by
  unfold handleLocalError
  split
  · rfl
  · exact account_push_silent rfl

theorem finishStop_account : (finishStop s th).account = s.account := by
  unfold finishStop
  simp only
  split <;> rfl

/-- `s` is the state with the act popped, which is not a call. -/
theorem act_effect {order : List (RequestId × TtsCallbacks)} (hkeys : (s.active.map Prod.fst).Nodup)
    (hcall : ∀ c, act ≠ .invoke c) (h : runAct s th rest order act = some s') : Effect s.account s'.account := by
  cases act with
  | loop =>
    simp only [runAct] at h
    split at h <;> cases h
    exact .keep
  | handleEvent e =>
    cases e with
    | control id m =>
      cases h
      unfold handleControlEvent
      split
      · rw [handleStarted_account]; exact .keep
      · exact completeRequest_effect hkeys _
      · exact cancelRequestLocally_effect hkeys
      · exact .keep
    | audio id audio =>
      cases h
      rw [handleAudioEvent_account]; exact .keep
    | workerError id e =>
      simp only [runAct] at h
      split at h <;> cases h
      · rw [account_push_silent rfl]; exact .keep
      · exact failRequest_effect hkeys _
    | localEvent type message =>
      cases h
      rw [handleLocalError_account]; exact .keep
  | failRequest id e =>
    cases h
    exact failRequest_effect hkeys e
  | failAllRequests e =>
    simp only [runAct] at h
    split at h
    · rename_i ho
      cases h
      exact failAllRequests_effect e (List.isPerm_iff.mp ho)
    · cases h
  | invoke c => exact absurd rfl (hcall c)
  | user =>
    cases h
    exact .keep
  | stop =>
    cases h
    rw [account_push_silent rfl]; exact .keep
  | joinWriter =>
    simp only [runAct] at h
    split at h <;> cases h <;> exact .keep
  | joinDispatcher =>
    simp only [runAct] at h
    split at h
    · split at h <;> cases h
      exact .keep
    · cases h
      exact .keep
  | finish =>
    cases h
    rw [finishStop_account]; exact .keep
  | returned =>
    simp only [runAct] at h
    split at h <;> cases h <;> exact .keep

/-- A call moves a callback from what is due to what was called. -/
theorem invoke_account {c : Callback} (hs : s.stack th = .invoke c :: rest) :
    (push { s.setStack rest th with log := s.log ++ [c] } th [.user]).account = s.account := by
  rw [account_push_silent rfl]
  refine account_eq ?_ ?_ ?_ (fun r => ?_) ?_
  · cases th <;> rfl
  · cases th <;> rfl
  · cases th <;> rfl
  · have hpop := answers_pop hs r
    have hlog : List.filterMap Callback.ending? [c] = (Act.ending? (.invoke c)).toList := by
      cases hc : c.ending? <;> simp [Act.ending?, hc]
    have hsame : (s.setStack rest th).log = s.log := by cases th <;> rfl
    show _ = answers s r
    rw [hpop]
    simp only [answers, List.filterMap_append, List.count_append, hlog, hsame]
    omega
  · cases th <;> rfl

theorem run_effect {order : List (RequestId × TtsCallbacks)} (h : Inv s.account) (hs : s.stack th = act :: rest)
    (hr : runAct (s.setStack rest th) th rest order act = some s') : Effect s.account s'.account := by
  by_cases hcall : ∃ c, act = .invoke c
  · obtain ⟨c, rfl⟩ := hcall
    have hs' : push { s.setStack rest th with log := s.log ++ [c] } th [.user] = s' := by
      cases th <;> exact Option.some.inj hr
    rw [← hs', invoke_account hs]
    exact .keep
  · have hd : act.ending? = none := by
      cases act with
      | invoke c => exact absurd ⟨c, rfl⟩ hcall
      | _ => rfl
    have hactive : (s.setStack rest th).active = s.active := by cases th <;> rfl
    have he := act_effect (hactive ▸ h.keys) (fun c hc => hcall ⟨c, hc⟩) hr
    rw [account_pop hs hd] at he
    exact he

/-- A fresh id has no entry. -/
theorem Inv.find?_none (h : Inv s.account) (hnext : s.nextRequestId ≠ 0) (hle : s.nextRequestId ≤ id) :
    ∀ p ∈ s.active, p.1 ≠ id := by
  intro p hp he
  have hmem : (p.1, p.2.callbacks) ∈ s.accepted := by
    refine h.ledger.mem_iff.mpr (List.mem_append_left _ ?_)
    exact List.mem_map_of_mem (f := fun q : RequestId × ActiveRequest => (q.1, q.2.callbacks)) hp
  have hlt := UInt64.lt_of_lt_of_le (h.below hnext _ hmem) hle
  rw [he] at hlt
  exact UInt64.lt_irrefl _ hlt

theorem active_give {request : ActiveRequest} (hfresh : ∀ p ∈ s.active, p.1 ≠ id) :
    s.give id request =
      { s with
        nextRequestId := idAfter id, allocated := s.allocated ++ [id], active := s.active ++ [(id, request)] } := by
  have hnone : s.active.find? (·.1 == id) = none := List.find?_eq_none.mpr fun p hp => by simp [hfresh p hp]
  simp [St.give, St.emplace, St.find?, hnone]

theorem enqueue_account {m : ControlMessage} (h : enqueueOutboundLocked opts s id m = some s') :
    s'.account = s.account ∧ s'.accepted = s.accepted := by
  unfold enqueueOutboundLocked at h
  simp only at h
  split at h
  · cases h
  split at h <;> cases h
  exact ⟨rfl, rfl⟩

theorem synthesize_effect (h : Inv s.account) (callbacks : TtsCallbacks) (sub : Submission) :
    Effect s.account (synthesizeAsync opts s callbacks sub).1.account := by
  rcases synthesize_cases opts s callbacks sub with
    ⟨refusals, heq⟩ | ⟨id, request, hnext, hle, -, -, hcallbacks, heq | ⟨message, s', henq, heq⟩⟩
  · rw [heq]
    exact .keep
  · have hfresh := h.find?_none hnext hle
    have hspend : ((s.give id request).erase id).account = { s.account with next := idAfter id } := by
      rw [active_give hfresh]
      refine account_eq ?_ rfl rfl (fun _ => rfl) rfl
      show (List.filter _ (s.active ++ [(id, request)])).map _ = s.entries
      have hkeep : s.active.filter (·.1 != id) = s.active := List.filter_eq_self.mpr fun p hp => by simp [hfresh p hp]
      rw [List.filter_append, hkeep]
      simp [St.entries]
    rw [heq, hspend]
    exact .spend id hnext hle
  · have hfresh := h.find?_none hnext hle
    obtain ⟨hacc, hold⟩ := enqueue_account henq
    have haccept : ({ s' with accepted := s'.accepted ++ [(id, callbacks)] } : St).account =
        { s.account with
          entries := s.entries ++ [(id, callbacks)]
          accepted := s.accepted ++ [(id, callbacks)]
          next := idAfter id } := by
      rw [active_give hfresh] at hacc hold
      have hentries : s'.entries = s.entries ++ [(id, callbacks)] := by
        have := congrArg Account.entries hacc
        refine this.trans ?_
        simp [St.account, St.entries, hcallbacks]
      refine account_eq hentries ?_ (congrArg Account.decided hacc) (fun r => ?_) (congrArg Account.next hacc)
      · show s'.accepted ++ _ = s.accepted ++ _
        rw [hold]
      · exact congrFun (congrArg Account.answers hacc) r
    rw [heq, haccept]
    exact .accept id callbacks hnext hle

theorem cancel_account : (cancel opts s id).1.account = s.account := by
  unfold cancel
  split
  · rfl
  split
  · rfl
  split
  · rfl
  · rename_i s' h
    exact (enqueue_account h).1

theorem writer_account (h : stepWriter s = some s') : s'.account = s.account := by
  unfold stepWriter at h
  split at h
  · split at h
    · split at h <;> cases h
      rfl
    · simp only at h
      split at h <;> cases h <;> rfl
  · cases h
    rfl
  · cases h

theorem step_effect {e : Ev} (hi : Inv s.account) (h : step opts s e = some s') : Effect s.account s'.account := by
  cases e with
  | synthesize hooks request callbacks =>
    cases h
    exact synthesize_effect hi _ _
  | synthesizePrepared request prepared callbacks =>
    cases h
    exact synthesize_effect hi _ _
  | cancel id =>
    cases h
    rw [cancel_account]; exact .keep
  | callStop th =>
    simp only [step] at h
    split at h <;> cases h
    rw [account_push_silent rfl]; exact .keep
  | event e =>
    simp only [step] at h
    split at h
    · split at h <;> cases h
      rw [account_push_silent rfl]; exact .keep
    · cases h
  | run th order =>
    simp only [step] at h
    split at h
    · rename_i act rest hs
      exact run_effect hi hs h
    · cases h
  | writer => rw [writer_account h]; exact .keep

end Frames

theorem reach_inv {opts : Options} {s : St} {ok : St → Ev → Prop} (h : Reach (step opts) ok init s) : Inv s.account := by
  refine h.inv (I := fun s => Inv s.account) ?_ fun _ _ _ _ hi _ hs => hi.effect (step_effect hi hs)
  exact ⟨List.Perm.refl _, List.nodup_nil, fun _ => nofun, fun _ => rfl⟩

/-! ## Errors carry their request's id -/

def Callback.tagged : Callback → Bool
  | .onError id e => e.requestId == id
  | _ => true

def Act.tagged : Act → Bool
  | .invoke c => c.tagged
  | .failRequest id e => e.requestId == id
  | .failAllRequests e => e.requestId == 0
  | _ => true

structure Tagged (s : St) : Prop where
  stack : ∀ th, ∀ a ∈ s.stack th, a.tagged = true
  log : ∀ c ∈ s.log, c.tagged = true

section Tags

variable {opts : Options} {s s' : St} {th : Thread} {act : Act} {acts rest : List Act} {id : RequestId}

theorem stack_setStack (acts : List Act) (th' : Thread) :
    (s.setStack acts th).stack th' = if th' = th then acts else s.stack th' := by
  cases th <;> cases th' <;> rfl

theorem Tagged.congr (h : Tagged s) (hd : s'.dispatcher = s.dispatcher) (ho : s'.owner = s.owner) (hl : s'.log = s.log) :
    Tagged s' := by
  refine ⟨fun th a ha => ?_, fun c hc => h.log c (hl ▸ hc)⟩
  cases th with
  | owner =>
    replace ha : a ∈ s'.owner := ha
    rw [ho] at ha
    exact h.stack .owner a ha
  | dispatcher =>
    replace ha : a ∈ s'.dispatcher := ha
    rw [hd] at ha
    exact h.stack .dispatcher a ha

theorem Tagged.setStack (h : Tagged s) (hacts : ∀ a ∈ acts, a.tagged = true) : Tagged (s.setStack acts th) := by
  refine ⟨fun th' a ha => ?_, fun c hc => h.log c ?_⟩
  · rw [stack_setStack] at ha
    split at ha
    · exact hacts a ha
    · exact h.stack th' a ha
  · cases th <;> exact hc

theorem Tagged.push (h : Tagged s) (hacts : ∀ a ∈ acts, a.tagged = true) : Tagged (push s th acts) := by
  refine h.setStack fun a ha => ?_
  rcases List.mem_append.mp ha with ha | ha
  · exact hacts a ha
  · exact h.stack th a ha

theorem Tagged.pop (h : Tagged s) (hs : s.stack th = act :: rest) : Tagged (s.setStack rest th) :=
  h.setStack fun a ha => h.stack th a (hs ▸ List.mem_cons_of_mem _ ha)

theorem invocations_tagged {calls : List (Bool × Callback)} (h : ∀ c ∈ calls, c.2.tagged = true) :
    ∀ a ∈ invocations calls, a.tagged = true := by
  intro a ha
  obtain ⟨c, hc, rfl⟩ := List.mem_map.mp ha
  exact h c (List.mem_filter.mp hc).1

theorem Tagged.terminate {kind : Terminal} {calls : TtsCallbacks → List (Bool × Callback)} (h : Tagged s)
    (hcalls : ∀ callbacks, ∀ c ∈ calls callbacks, c.2.tagged = true) : Tagged (terminate s th id kind calls) := by
  unfold Client.terminate
  split
  · exact h.congr rfl rfl rfl
  · refine Tagged.push ?_ (invocations_tagged (hcalls _))
    exact h.congr rfl rfl rfl

theorem errorFor_requestId {e : TtsError} (he : e.requestId = 0) : (errorFor id e).requestId = id := by
  rw [errorFor, if_pos he]

theorem Tagged.control (h : Tagged s) (m : ControlMessage) : Tagged (handleControlEvent s th id m) := by
  unfold handleControlEvent
  split
  · unfold handleStarted
    split
    · exact h
    split
    · refine Tagged.push (h.congr rfl rfl rfl) (invocations_tagged fun c hc => ?_)
      rw [List.mem_singleton.mp hc]
      rfl
    · exact h.congr rfl rfl rfl
  · refine h.terminate fun callbacks c hc => ?_
    rcases List.mem_pair.mp hc with rfl | rfl <;> rfl
  · refine h.terminate fun callbacks c hc => ?_
    rw [List.mem_singleton.mp hc]
    rfl
  · exact h

theorem Tagged.audio (h : Tagged s) (audio : List UInt8) : Tagged (handleAudioEvent s th id audio) := by
  unfold handleAudioEvent
  split
  · exact h.congr rfl rfl rfl
  simp only
  split
  · refine h.push fun a ha => ?_
    rw [List.mem_singleton.mp ha]
    exact beq_self_eq_true id
  · refine Tagged.push (h.congr rfl rfl rfl) (invocations_tagged fun c hc => ?_)
    simp only [audioCalls, List.mem_append, List.mem_map, List.mem_cons, List.not_mem_nil, or_false] at hc
    rcases hc with ⟨t, -, rfl⟩ | rfl | rfl <;> rfl

theorem Tagged.fail (h : Tagged s) {e : TtsError} (he : e.requestId = id) : Tagged (failRequest s th id e) := by
  refine h.terminate fun callbacks c hc => ?_
  rw [List.mem_singleton.mp hc]
  exact beq_iff_eq.mpr he

/-- `s` is the state with the act popped. -/
theorem Tagged.runAct {order : List (RequestId × TtsCallbacks)} (h : Tagged s) (ha : act.tagged = true)
    (hr : Client.runAct s th rest order act = some s') : Tagged s' := by
  cases act with
  | loop =>
    simp only [Client.runAct] at hr
    split at hr <;> cases hr
    exact h
  | handleEvent e =>
    cases e with
    | control id m =>
      cases hr
      exact h.control m
    | audio id audio =>
      cases hr
      exact h.audio audio
    | workerError id e =>
      simp only [Client.runAct] at hr
      split at hr <;> cases hr
      · rename_i hzero
        refine h.push fun a ha => ?_
        rw [List.mem_singleton.mp ha]
        exact beq_iff_eq.mpr hzero
      · exact h.fail rfl
    | localEvent type message =>
      cases hr
      unfold handleLocalError
      split
      · exact h
      · refine Tagged.push (h.congr rfl rfl rfl) fun a ha => ?_
        rw [List.mem_singleton.mp ha]
        rfl
  | failRequest id e =>
    cases hr
    exact h.fail (eq_of_beq ha)
  | failAllRequests e =>
    simp only [Client.runAct] at hr
    split at hr <;> cases hr
    refine Tagged.push (h.congr rfl rfl rfl) (invocations_tagged fun c hc => ?_)
    obtain ⟨p, -, rfl⟩ := List.mem_map.mp hc
    exact beq_iff_eq.mpr (errorFor_requestId (eq_of_beq ha))
  | invoke c =>
    cases hr
    refine Tagged.push ⟨h.stack, fun c' hc' => ?_⟩ fun a ha => ?_
    · rcases List.mem_append.mp hc' with hc' | hc'
      · exact h.log c' hc'
      · rw [List.mem_singleton.mp hc']
        exact ha
    · rw [List.mem_singleton.mp ha]
      rfl
  | user =>
    cases hr
    exact h
  | stop =>
    cases hr
    refine Tagged.push (h.congr rfl rfl rfl) fun a ha => ?_
    simp only [List.mem_cons, List.not_mem_nil, or_false] at ha
    rcases ha with rfl | rfl | rfl | rfl | rfl <;> rfl
  | joinWriter =>
    simp only [Client.runAct] at hr
    split at hr <;> cases hr <;> exact h.congr rfl rfl rfl
  | joinDispatcher =>
    simp only [Client.runAct] at hr
    split at hr
    · split at hr <;> cases hr
      exact h.congr rfl rfl rfl
    · cases hr
      exact h
  | finish =>
    cases hr
    unfold finishStop
    simp only
    split
    · exact h.congr rfl rfl rfl
    · exact h
  | returned =>
    simp only [Client.runAct] at hr
    split at hr <;> cases hr <;> exact h.congr rfl rfl rfl

/-- What a step of the writer, and a call of `synthesize_async` or `cancel`, leave alone. -/
structure Apart (s s' : St) : Prop where
  dispatcher : s'.dispatcher = s.dispatcher
  owner : s'.owner = s.owner
  log : s'.log = s.log
  decided : s'.decided = s.decided
  joinable : s'.dispatcherJoinable = s.dispatcherJoinable
  returned : s'.outermostReturned = s.outermostReturned
  running : s'.running = s.running
  /-- Only a running client takes requests. -/
  active : s.running = false → s'.active = s.active

theorem Apart.refl : Apart s s := ⟨rfl, rfl, rfl, rfl, rfl, rfl, rfl, fun _ => rfl⟩

theorem enqueue_apart {m : ControlMessage} (h : enqueueOutboundLocked opts s id m = some s') : Apart s s' := by
  unfold enqueueOutboundLocked at h
  simp only at h
  split at h
  · cases h
  split at h <;> cases h
  exact ⟨rfl, rfl, rfl, rfl, rfl, rfl, rfl, fun _ => rfl⟩

theorem synthesize_apart (callbacks : TtsCallbacks) (sub : Submission) :
    Apart s (synthesizeAsync opts s callbacks sub).1 := by
  have give : ∀ id request, s.isRunning = true → Apart s (s.give id request) := by
    intro id request hrun
    have hon : s.running = false → False := fun hoff => by simp [St.isRunning, hoff] at hrun
    unfold St.give St.emplace
    split <;> exact ⟨rfl, rfl, rfl, rfl, rfl, rfl, rfl, fun hoff => (hon hoff).elim⟩
  rcases synthesize_cases opts s callbacks sub with
    ⟨refusals, heq⟩ | ⟨id, request, -, -, -, hrun, -, heq | ⟨message, s', henq, heq⟩⟩
  · rw [heq]
    exact ⟨rfl, rfl, rfl, rfl, rfl, rfl, rfl, fun _ => rfl⟩
  · have g := give id request hrun
    have hon : s.running = false → False := fun hoff => by simp [St.isRunning, hoff] at hrun
    rw [heq]
    exact ⟨g.dispatcher, g.owner, g.log, g.decided, g.joinable, g.returned, g.running, fun hoff => (hon hoff).elim⟩
  · have g := give id request hrun
    have hon : s.running = false → False := fun hoff => by simp [St.isRunning, hoff] at hrun
    have q := enqueue_apart henq
    rw [heq]
    exact ⟨q.dispatcher.trans g.dispatcher, q.owner.trans g.owner, q.log.trans g.log, q.decided.trans g.decided,
      q.joinable.trans g.joinable, q.returned.trans g.returned, q.running.trans g.running, fun hoff => (hon hoff).elim⟩

theorem cancel_apart : Apart s (cancel opts s id).1 := by
  unfold cancel
  split
  · exact .refl
  split
  · exact .refl
  split
  · exact .refl
  · rename_i s' h
    exact enqueue_apart h

theorem writer_apart (h : stepWriter s = some s') : Apart s s' := by
  unfold stepWriter at h
  split at h
  · split at h
    · split at h <;> cases h
      exact ⟨rfl, rfl, rfl, rfl, rfl, rfl, rfl, fun _ => rfl⟩
    · simp only at h
      split at h <;> cases h <;> exact ⟨rfl, rfl, rfl, rfl, rfl, rfl, rfl, fun _ => rfl⟩
  · cases h
    exact ⟨rfl, rfl, rfl, rfl, rfl, rfl, rfl, fun _ => rfl⟩
  · cases h

/-- The ways a step can go. -/
theorem step_cases {e : Ev} (h : step opts s e = some s') :
    Apart s s' ∨
    (∃ th, e = .callStop th ∧ canCallStop s th = true ∧ s' = push s th [.stop]) ∨
    (∃ ev rest, e = .event ev ∧ s.dispatcher = .loop :: rest ∧ s' = push s .dispatcher [.handleEvent ev]) ∨
    ∃ th order act rest, e = .run th order ∧ s.stack th = act :: rest ∧
      runAct (s.setStack rest th) th rest order act = some s' := by
  cases e with
  | synthesize hooks request callbacks =>
    cases h
    exact .inl (synthesize_apart _ _)
  | synthesizePrepared request prepared callbacks =>
    cases h
    exact .inl (synthesize_apart _ _)
  | cancel id =>
    cases h
    exact .inl cancel_apart
  | callStop th =>
    simp only [step] at h
    split at h
    · rename_i hcan
      cases h
      exact .inr (.inl ⟨th, rfl, hcan, rfl⟩)
    · cases h
  | event ev =>
    simp only [step] at h
    split at h
    · rename_i rest hd
      split at h <;> cases h
      exact .inr (.inr (.inl ⟨ev, rest, rfl, hd, rfl⟩))
    · cases h
  | run th order =>
    simp only [step] at h
    split at h
    · rename_i act rest hs
      exact .inr (.inr (.inr ⟨th, order, act, rest, rfl, hs, h⟩))
    · cases h
  | writer => exact .inl (writer_apart h)

theorem Tagged.step {e : Ev} (h : Tagged s) (hs : step opts s e = some s') : Tagged s' := by
  rcases step_cases hs with ha | ⟨th, -, -, rfl⟩ | ⟨ev, rest, -, -, rfl⟩ | ⟨th, order, act, rest, -, hstack, hrun⟩
  · exact h.congr ha.dispatcher ha.owner ha.log
  · refine h.push fun a ha => ?_
    rw [List.mem_singleton.mp ha]
    rfl
  · refine h.push fun a ha => ?_
    rw [List.mem_singleton.mp ha]
    rfl
  · exact (h.pop hstack).runAct (h.stack th act (hstack ▸ List.mem_cons_self)) hrun

end Tags

theorem reach_tagged {opts : Options} {s : St} {ok : St → Ev → Prop} (h : Reach (step opts) ok init s) : Tagged s := by
  refine h.inv (I := Tagged) ⟨fun th a ha => ?_, fun c hc => (List.not_mem_nil hc).elim⟩ fun _ _ _ _ hi _ hs => hi.step hs
  cases th with
  | owner => cases ha
  | dispatcher =>
    rw [List.mem_singleton.mp ha]
    rfl

/-! ## An external `stop()` -/

/-- What is left of `stop()` before the dispatcher is joined. -/
def beforeJoin (acts : List Act) : Prop :=
  acts = [] ∨ acts = [.stop] ∨
    acts = [.joinWriter, .joinDispatcher, .failAllRequests clientStopped, .finish, .returned] ∨
    acts = [.joinDispatcher, .failAllRequests clientStopped, .finish, .returned]

/-- The acts of `stop()` after its first region, the call of `fail_all_requests` apart. -/
def Act.afterStop : Act → Bool
  | .joinWriter | .joinDispatcher | .finish | .returned => true
  | _ => false

/-- `stop()` has still to reach `fail_all_requests`. -/
def Act.beforeFail : Act → Bool
  | .stop | .failAllRequests _ => true
  | _ => false

/-- What `stop()` and `fail_all_requests` do. -/
def Act.ofStop : Act → Bool
  | .loop | .handleEvent _ | .failRequest _ _ => false
  | _ => true

structure StopInv (s : St) : Prop where
  joined : s.dispatcherJoinable = false → s.dispatcher = []
  waiting : s.dispatcher ≠ [] → beforeJoin s.owner
  ofStop : ∀ a ∈ s.owner, a.ofStop = true
  halted : ∀ a ∈ s.owner, a.afterStop = true → s.running = false
  /-- Past `fail_all_requests` nothing is left in the map. -/
  drained : (∃ a ∈ s.owner, a.afterStop = true) → (∀ a ∈ s.owner, a.beforeFail = false) → s.active = []
  ended : s.outermostReturned = true →
    s.running = false ∧ s.active = [] ∧ s.dispatcher = [] ∧ dueIn s.owner = []

section Stop

variable {opts : Options} {s s' : St} {act : Act} {rest : List Act} {id : RequestId}
  {order : List (RequestId × TtsCallbacks)}

theorem StopInv.apart (h : StopInv s) (ha : Apart s s') : StopInv s' where
  joined := by rw [ha.joinable, ha.dispatcher]; exact h.joined
  waiting := by rw [ha.dispatcher, ha.owner]; exact h.waiting
  ofStop := by rw [ha.owner]; exact h.ofStop
  halted := by rw [ha.owner, ha.running]; exact h.halted
  drained := by
    rw [ha.owner]
    intro hafter hfail
    obtain ⟨a, hm, ht⟩ := hafter
    rw [ha.active (h.halted a hm ht)]
    exact h.drained ⟨a, hm, ht⟩ hfail
  ended := by
    rw [ha.returned, ha.running, ha.dispatcher, ha.owner]
    intro hret
    obtain ⟨hrun, hactive, hrest⟩ := h.ended hret
    exact ⟨hrun, (ha.active hrun).trans hactive, hrest⟩

/-- What an act of the dispatcher leaves to the owner. -/
structure Behind (s s' : St) : Prop where
  owner : s'.owner = s.owner
  joinable : s'.dispatcherJoinable = s.dispatcherJoinable
  returned : s'.outermostReturned = s.outermostReturned
  running : s.running = false → s'.running = false
  active : s.active = [] → s'.active = []

theorem Behind.refl : Behind s s := ⟨rfl, rfl, rfl, fun h => h, fun h => h⟩

theorem terminate_behind {kind : Terminal} {calls : TtsCallbacks → List (Bool × Callback)} :
    Behind s (terminate s .dispatcher id kind calls) := by
  unfold terminate
  split
  · exact ⟨rfl, rfl, rfl, fun h => h, fun h => h⟩
  · exact ⟨rfl, rfl, rfl, fun h => h, fun h => by simp [push, St.setStack, St.erase, h]⟩

theorem control_behind (m : ControlMessage) : Behind s (handleControlEvent s .dispatcher id m) := by
  unfold handleControlEvent
  split
  · unfold handleStarted
    split
    · exact .refl
    split
    · exact ⟨rfl, rfl, rfl, fun h => h, fun h => by simp [push, St.setStack, St.update, h]⟩
    · exact ⟨rfl, rfl, rfl, fun h => h, fun h => by simp [St.update, h]⟩
  · exact terminate_behind
  · exact terminate_behind
  · exact .refl

theorem audio_behind (audio : List UInt8) : Behind s (handleAudioEvent s .dispatcher id audio) := by
  unfold handleAudioEvent
  split
  · exact ⟨rfl, rfl, rfl, fun h => h, fun h => h⟩
  simp only
  split
  · exact ⟨rfl, rfl, rfl, fun h => h, fun h => h⟩
  · exact ⟨rfl, rfl, rfl, fun h => h, fun h => by simp [push, St.setStack, St.update, h]⟩

theorem act_behind (h : runAct s .dispatcher rest order act = some s') : Behind s s' := by
  cases act with
  | loop =>
    simp only [runAct] at h
    split at h <;> cases h
    exact .refl
  | handleEvent e =>
    cases e with
    | control id m =>
      cases h
      exact control_behind m
    | audio id audio =>
      cases h
      exact audio_behind audio
    | workerError id e =>
      simp only [runAct] at h
      split at h <;> cases h
      · exact ⟨rfl, rfl, rfl, fun h => h, fun h => h⟩
      · exact terminate_behind
    | localEvent type message =>
      cases h
      unfold handleLocalError
      split
      · exact .refl
      · exact ⟨rfl, rfl, rfl, fun _ => rfl, fun h => h⟩
  | failRequest id e =>
    cases h
    exact terminate_behind
  | failAllRequests e =>
    simp only [runAct] at h
    split at h <;> cases h
    exact ⟨rfl, rfl, rfl, fun h => h, fun _ => rfl⟩
  | invoke c =>
    cases h
    exact ⟨rfl, rfl, rfl, fun h => h, fun h => h⟩
  | user =>
    cases h
    exact .refl
  | stop =>
    cases h
    exact ⟨rfl, rfl, rfl, fun _ => rfl, fun h => h⟩
  | joinWriter =>
    simp only [runAct] at h
    split at h <;> cases h <;> exact ⟨rfl, rfl, rfl, fun h => h, fun h => h⟩
  | joinDispatcher =>
    simp only [runAct, bne_self_eq_false, Bool.and_false, Bool.false_eq_true, if_false] at h
    cases h
    exact .refl
  | finish =>
    cases h
    unfold finishStop
    simp only
    split
    · exact ⟨rfl, rfl, rfl, fun _ => rfl, fun h => h⟩
    · exact .refl
  | returned =>
    cases h
    exact .refl

/-- The dispatcher takes a step. -/
theorem StopInv.dispatcher (rest : List Act) (h : StopInv s) (hs : s.dispatcher ≠ []) (hb : Behind { s with dispatcher := rest } s') :
    StopInv s' where
  joined := by
    intro hj
    exact absurd (h.joined (hb.joinable.symm.trans hj)) hs
  waiting := by
    intro _
    rw [hb.owner]
    exact h.waiting hs
  ofStop := by rw [hb.owner]; exact h.ofStop
  halted := by
    rw [hb.owner]
    intro a hm ht
    exact hb.running (h.halted a hm ht)
  drained := by
    rw [hb.owner]
    intro hafter hfail
    exact hb.active (h.drained hafter hfail)
  ended := by
    intro hret
    have hold := h.ended (hb.returned.symm.trans hret)
    exact absurd hold.2.2.1 hs

/-- Past the join the dispatcher has finished. -/
theorem StopInv.finished (h : StopInv s) (ho : s.owner = act :: rest) (hstop : act ≠ .stop) (hw : act ≠ .joinWriter)
    (hd : act ≠ .joinDispatcher) : s.dispatcher = [] := by
  by_contra hne
  rcases h.waiting hne with hb | hb | hb | hb <;> rw [hb] at ho <;> cases ho
  · exact hstop rfl
  · exact hw rfl
  · exact hd rfl

/-- The owner takes a step past the join, with nothing but user code put in its place. -/
theorem StopInv.after (acts : List Act) (h : StopInv s) (ho : s.owner = act :: rest) (hd : s'.dispatcher = [])
    (hfail : act.beforeFail = false) (hacts : ∀ a ∈ acts, a = .user) (hstack : s'.owner = acts ++ rest)
    (hret : s'.outermostReturned = s.outermostReturned) (hrun : s.running = false → s'.running = false)
    (hactive : s'.active = s.active) : StopInv s' := by
  have hold : ∀ a ∈ s'.owner, a.afterStop = true ∨ a.beforeFail = true → a ∈ s.owner := by
    intro a hm ht
    rw [hstack] at hm
    rcases List.mem_append.mp hm with hm | hm
    · rw [hacts a hm] at ht
      rcases ht with ht | ht <;> cases ht
    · rw [ho]
      exact List.mem_cons_of_mem _ hm
  refine ⟨fun _ => hd, fun hne => absurd hd hne, ?_, ?_, ?_, ?_⟩
  · intro a hm
    rw [hstack] at hm
    rcases List.mem_append.mp hm with hm | hm
    · rw [hacts a hm]
      rfl
    · exact h.ofStop a (ho ▸ List.mem_cons_of_mem _ hm)
  · intro a hm ht
    exact hrun (h.halted a (hold a hm (.inl ht)) ht)
  · rintro ⟨a, hm, ht⟩ hnone
    rw [hactive]
    refine h.drained ⟨a, hold a hm (.inl ht), ht⟩ fun b hb => ?_
    rw [ho] at hb
    rcases List.mem_cons.mp hb with rfl | hb
    · exact hfail
    · exact hnone b (hstack ▸ List.mem_append_right _ hb)
  · intro hended
    obtain ⟨hr, ha, -, hdue⟩ := h.ended (hret ▸ hended)
    refine ⟨hrun hr, hactive.trans ha, hd, List.filterMap_eq_nil_iff.mpr fun a hm => ?_⟩
    rw [hstack] at hm
    rcases List.mem_append.mp hm with hm | hm
    · rw [hacts a hm]
      rfl
    · exact List.filterMap_eq_nil_iff.mp hdue a (ho ▸ List.mem_cons_of_mem _ hm)

theorem StopInv.failAll {e : TtsError} (h : StopInv s) (ho : s.owner = .failAllRequests e :: rest)
    (horder : order.Perm s.entries) : StopInv (failAllRequests { s with owner := rest } .owner e order) := by
  have hd : s.dispatcher = [] := h.finished ho nofun nofun nofun
  have hcalls : ∀ a ∈ invocations (order.map fun p => (p.2.onError, .onError p.1 (errorFor p.1 e))),
      a.ofStop = true ∧ a.afterStop = false := by
    intro a ha
    obtain ⟨c, -, rfl⟩ := List.mem_map.mp ha
    exact ⟨rfl, rfl⟩
  refine ⟨fun _ => hd, fun hne => absurd hd hne, ?_, ?_, fun _ _ => rfl, ?_⟩
  · intro a ha
    rcases List.mem_append.mp ha with ha | ha
    · exact (hcalls a ha).1
    · exact h.ofStop a (ho ▸ List.mem_cons_of_mem _ ha)
  · intro a ha ht
    rcases List.mem_append.mp ha with ha | ha
    · rw [(hcalls a ha).2] at ht
      cases ht
    · exact h.halted a (ho ▸ List.mem_cons_of_mem _ ha) ht
  · intro hended
    obtain ⟨hr, ha, -, hdue⟩ := h.ended hended
    have hnil : order = [] := by
      rw [St.entries, ha] at horder
      exact horder.eq_nil
    rw [ho] at hdue
    subst hnil
    exact ⟨hr, rfl, hd, hdue⟩

theorem StopInv.stop (h : StopInv s) (ho : s.owner = .stop :: rest)
    (hs : runAct { s with owner := rest } .owner rest order .stop = some s') : StopInv s' := by
  cases hs
  refine ⟨h.joined, ?_, ?_, fun _ _ _ => rfl, ?_, ?_⟩
  · intro hne
    rcases h.waiting hne with hw | hw | hw | hw
    · rw [hw] at ho
      cases ho
    · rw [hw] at ho
      cases ho
      exact .inr (.inr (.inl rfl))
    · rw [hw] at ho
      cases ho
    · rw [hw] at ho
      cases ho
  · intro a ha
    rcases List.mem_append.mp ha with ha | ha
    · simp only [List.mem_cons, List.not_mem_nil, or_false] at ha
      rcases ha with rfl | rfl | rfl | rfl | rfl <;> rfl
    · exact h.ofStop a (ho ▸ List.mem_cons_of_mem _ ha)
  · intro _ hnone
    -- `fail_all_requests` is still to come
    have hf := hnone (.failAllRequests clientStopped) (List.mem_append_left _ (by simp))
    cases hf
  · intro hended
    obtain ⟨-, ha, hd, hdue⟩ := h.ended hended
    rw [ho] at hdue
    exact ⟨rfl, ha, hd, hdue⟩

theorem StopInv.joinWriter (h : StopInv s) (ho : s.owner = .joinWriter :: rest) (hrest : s'.owner = rest)
    (hd : s'.dispatcher = s.dispatcher) (hj : s'.dispatcherJoinable = s.dispatcherJoinable)
    (hret : s'.outermostReturned = s.outermostReturned) (hrun : s'.running = s.running)
    (hactive : s'.active = s.active) : StopInv s' := by
  by_cases hempty : s.dispatcher = []
  · exact h.after [] ho (hd.trans hempty) rfl (fun a ha => (List.not_mem_nil ha).elim) hrest hret
      (fun hr => hrun.trans hr) hactive
  · have hshape : rest = [.joinDispatcher, .failAllRequests clientStopped, .finish, .returned] := by
      rcases h.waiting hempty with hw | hw | hw | hw <;> rw [hw] at ho <;> cases ho
      rfl
    refine ⟨?_, ?_, ?_, ?_, ?_, ?_⟩
    · rw [hj, hd]
      exact h.joined
    · intro _
      rw [hrest, hshape]
      exact .inr (.inr (.inr rfl))
    · intro a ha
      exact h.ofStop a (ho ▸ List.mem_cons_of_mem _ (hrest ▸ ha))
    · intro a ha ht
      rw [hrun]
      exact h.halted a (ho ▸ List.mem_cons_of_mem _ (hrest ▸ ha)) ht
    · intro _ hnone
      have hf := hnone (.failAllRequests clientStopped) (by rw [hrest, hshape]; simp)
      cases hf
    · intro hended
      exact absurd (h.ended (hret ▸ hended)).2.2.1 hempty

theorem StopInv.returned (h : StopInv s) (ho : s.owner = .returned :: rest)
    (hs : runAct { s with owner := rest } .owner rest order .returned = some s') : StopInv s' := by
  have hd : s.dispatcher = [] := h.finished ho nofun nofun nofun
  cases hs
  refine ⟨fun _ => hd, fun hne => absurd hd hne, ?_, ?_, ?_, ?_⟩
  · exact fun a ha => h.ofStop a (ho ▸ List.mem_cons_of_mem _ ha)
  · exact fun a ha ht => h.halted a (ho ▸ List.mem_cons_of_mem _ ha) ht
  · rintro ⟨a, ha, ht⟩ hnone
    refine h.drained ⟨a, ho ▸ List.mem_cons_of_mem _ ha, ht⟩ fun b hb => ?_
    rw [ho] at hb
    rcases List.mem_cons.mp hb with rfl | hb
    · rfl
    · exact hnone b hb
  · intro hended
    rcases Bool.or_eq_true_iff.mp hended with hended | hlast
    · obtain ⟨hr, ha, -, hdue⟩ := h.ended hended
      rw [ho] at hdue
      exact ⟨hr, ha, hd, hdue⟩
    · -- the outermost `stop()` returns
      have hnil : rest = [] := List.isEmpty_iff.mp hlast
      subst hnil
      refine ⟨h.halted .returned (ho ▸ List.mem_cons_self) rfl, ?_, hd, rfl⟩
      refine h.drained ⟨.returned, ho ▸ List.mem_cons_self, rfl⟩ fun a ha => ?_
      rw [ho] at ha
      rw [List.mem_singleton.mp ha]
      rfl

theorem StopInv.owner (h : StopInv s) (ho : s.owner = act :: rest)
    (hs : runAct { s with owner := rest } .owner rest order act = some s') : StopInv s' := by
  have hnone : ∀ a ∈ ([] : List Act), a = .user := fun a ha => (List.not_mem_nil ha).elim
  cases act with
  | loop | handleEvent | failRequest =>
    have hof := h.ofStop _ (ho ▸ List.mem_cons_self)
    cases hof
  | failAllRequests e =>
    simp only [runAct] at hs
    split at hs
    · rename_i hperm
      cases hs
      exact h.failAll ho (List.isPerm_iff.mp hperm)
    · cases hs
  | invoke c =>
    have hd := h.finished ho (by simp) (by simp) (by simp)
    cases hs
    exact h.after [.user] ho hd rfl (fun a ha => List.mem_singleton.mp ha) rfl rfl (fun hr => hr) rfl
  | user =>
    have hd := h.finished ho (by simp) (by simp) (by simp)
    cases hs
    exact h.after [] ho hd rfl hnone rfl rfl (fun hr => hr) rfl
  | stop => exact h.stop ho hs
  | joinWriter =>
    simp only [runAct] at hs
    split at hs <;> cases hs <;> exact h.joinWriter ho rfl rfl rfl rfl rfl rfl
  | joinDispatcher =>
    simp only [runAct] at hs
    split at hs
    · split at hs
      · rename_i hd
        cases hs
        exact h.after [] ho (List.isEmpty_iff.mp hd) rfl hnone rfl rfl (fun hr => hr) rfl
      · cases hs
    · rename_i hj
      cases hs
      have hd : s.dispatcher = [] := h.joined (by simpa using hj)
      exact h.after [] ho hd rfl hnone rfl rfl (fun hr => hr) rfl
  | finish =>
    have hd := h.finished ho (by simp) (by simp) (by simp)
    cases hs
    unfold finishStop
    simp only
    split
    · exact h.after [] ho hd rfl hnone rfl rfl (fun _ => rfl) rfl
    · exact h.after [] ho hd rfl hnone rfl rfl (fun hr => hr) rfl
  | returned => exact h.returned ho hs

theorem StopInv.callStop (h : StopInv s) (hcan : canCallStop s .owner = true) : StopInv (push s .owner [.stop]) := by
  refine ⟨h.joined, ?_, ?_, ?_, ?_, ?_⟩
  · intro hne
    -- in a callback of `stop()` the dispatcher would have finished
    have hnil : s.owner = [] := by
      rcases h.waiting hne with hb | hb | hb | hb
      · exact hb
      · rw [canCallStop, hb] at hcan
        cases hcan
      · rw [canCallStop, hb] at hcan
        cases hcan
      · rw [canCallStop, hb] at hcan
        cases hcan
    refine .inr (.inl ?_)
    show Act.stop :: s.owner = _
    rw [hnil]
  · intro a ha
    rcases List.mem_cons.mp ha with rfl | ha
    · rfl
    · exact h.ofStop a ha
  · intro a ha ht
    rcases List.mem_cons.mp ha with rfl | ha
    · cases ht
    · exact h.halted a ha ht
  · intro _ hnone
    have hf := hnone .stop List.mem_cons_self
    cases hf
  · exact h.ended

theorem StopInv.step {e : Ev} (h : StopInv s) (hs : step opts s e = some s') : StopInv s' := by
  rcases step_cases hs with ha | ⟨th, -, hcan, rfl⟩ | ⟨ev, rest, -, hd, rfl⟩ | ⟨th, order, act, rest, -, hstack, hrun⟩
  · exact h.apart ha
  · cases th with
    | owner => exact h.callStop hcan
    | dispatcher =>
      have hne : s.dispatcher ≠ [] := fun hnil => by
        rw [canCallStop, hnil] at hcan
        cases hcan
      exact h.dispatcher s.dispatcher hne ⟨rfl, rfl, rfl, fun h => h, fun h => h⟩
  · have hne : s.dispatcher ≠ [] := by
      rw [hd]
      exact List.cons_ne_nil _ _
    exact h.dispatcher s.dispatcher hne ⟨rfl, rfl, rfl, fun h => h, fun h => h⟩
  · cases th with
    | owner => exact h.owner hstack hrun
    | dispatcher =>
      have hne : s.dispatcher ≠ [] := by
        have hstack : s.dispatcher = act :: rest := hstack
        rw [hstack]
        exact List.cons_ne_nil _ _
      exact h.dispatcher rest hne (act_behind hrun)

end Stop

theorem reach_stopInv {opts : Options} {s : St} {ok : St → Ev → Prop} (h : Reach (step opts) ok init s) : StopInv s := by
  refine h.inv (I := StopInv) ⟨fun hj => absurd hj (by decide), fun _ => .inl rfl, ?_, ?_, ?_, ?_⟩ fun _ _ _ _ hi _ hs => hi.step hs
  · exact fun a ha => (List.not_mem_nil ha).elim
  · exact fun a ha => (List.not_mem_nil ha).elim
  · exact fun _ _ => rfl
  · exact fun hr => absurd hr (by decide)

/-! ## The result -/

theorem count_fst (l : List Ending) (r : RequestId) : (l.map Prod.fst).count r = (l.filter (·.1 = r)).length := by
  rw [List.count, List.countP_map, List.countP_eq_length_filter]
  refine congrArg List.length (List.filter_congr fun x _ => ?_)
  by_cases hx : x.1 = r <;> simp [hx]

theorem terminals_eq (r : RequestId) (log : List Callback) : terminals r log = (kinds r log).length := by
  have hmap : log.filterMap Callback.terminal? = (log.filterMap Callback.ending?).map Prod.fst := by
    rw [List.map_filterMap]
    exact List.filterMap_congr fun c _ => c.terminal?_eq
  rw [terminals, hmap, count_fst, kinds, List.length_map]

theorem called_eq (ds : List Decision) : ds.filterMap Decision.called? = (ds.filterMap Decision.ending?).map Prod.fst := by
  rw [List.map_filterMap]
  exact List.filterMap_congr fun d _ => d.called?_eq

/-- What was called was decided, for each request and of each kind. -/
theorem ending_le {s : St} (h : Inv s.account) (x : Ending) :
    (s.log.filterMap Callback.ending?).count x ≤ (s.decided.filterMap Decision.ending?).count x := by
  have hcount : answers s x = (s.decided.filterMap Decision.ending?).count x := h.answers x
  unfold answers at hcount
  omega

theorem terminals_le (r : RequestId) {s : St} (h : Inv s.account) :
    terminals r s.log ≤ (s.decided.filterMap Decision.called?).count r := by
  have hsub : (s.log.filterMap Callback.ending?).Subperm (s.decided.filterMap Decision.ending?) :=
    List.subperm_ext_iff.mpr fun x _ => ending_le h x
  rw [terminals_eq, kinds, List.length_map, called_eq, count_fst]
  exact (hsub.filter _).length_le

/-- A request is decided at most once. -/
theorem Inv.decided_once {s : St} (h : Inv s.account) : (s.decided.map Decision.id).Nodup := by
  have hnodup := (h.ledger.map Prod.fst).nodup_iff.mp h.distinct
  rw [List.map_append, List.map_map] at hnodup
  exact (List.nodup_append.mp hnodup).2.1

/-- The calls that a list of decisions with distinct ids makes for one of them. -/
theorem count_called {ds : List Decision} (hnodup : (ds.map Decision.id).Nodup) {d : Decision} (hd : d ∈ ds) :
    (ds.filterMap Decision.called?).count d.id = (d.callbacks.has d.kind).toNat := by
  have hother : ∀ (l : List Decision), d.id ∉ l.map Decision.id → (l.filterMap Decision.called?).count d.id = 0 := by
    intro l hn
    refine List.count_eq_zero.mpr fun hm => ?_
    obtain ⟨x, hx, he⟩ := List.mem_filterMap.mp hm
    unfold Decision.called? at he
    split at he
    · exact hn (Option.some.inj he ▸ List.mem_map_of_mem hx)
    · cases he
  induction ds with
  | nil => cases hd
  | cons x ds ih =>
    obtain ⟨hnew, hnodup⟩ := List.nodup_cons.mp hnodup
    rcases List.mem_cons.mp hd with rfl | hd
    · cases hc : d.callbacks.has d.kind <;> simp [Decision.called?, hc, hother ds hnew]
    · have hne : x.id ≠ d.id := fun he => hnew (he ▸ List.mem_map_of_mem hd)
      rw [← ih hnodup hd]
      cases hc : x.called? with
      | none => simp [hc]
      | some i =>
        have hi : i = x.id := by
          unfold Decision.called? at hc
          split at hc
          · exact (Option.some.inj hc).symm
          · cases hc
        simp [hc, hi, hne]

/-- One of a list of decisions with distinct ids, as the call that it makes. -/
theorem endings_of_mem {ds : List Decision} (hnodup : (ds.map Decision.id).Nodup) {d : Decision} (hd : d ∈ ds) :
    ((ds.filterMap Decision.ending?).filter (·.1 = d.id)).map Prod.snd =
      List.replicate (d.callbacks.has d.kind).toNat d.kind := by
  have hother : ∀ (l : List Decision), d.id ∉ l.map Decision.id →
      (l.filterMap Decision.ending?).filter (·.1 = d.id) = [] := by
    intro l hn
    refine List.filter_eq_nil_iff.mpr fun x hx => ?_
    obtain ⟨d', hd', he⟩ := List.mem_filterMap.mp hx
    unfold Decision.ending? at he
    split at he
    · cases he
      simpa using fun hid : d'.id = d.id => hn (hid ▸ List.mem_map_of_mem hd')
    · cases he
  obtain ⟨before, after, rfl⟩ := List.append_of_mem hd
  rw [List.map_append, List.map_cons, List.nodup_middle, List.nodup_cons, List.mem_append, not_or] at hnodup
  rw [List.filterMap_append, List.filter_append, hother before hnodup.1.1, List.filterMap_cons]
  cases hhas : d.callbacks.has d.kind with
  | false => simp [Decision.ending?, hhas, hother after hnodup.1.2]
  | true => simp [Decision.ending?, hhas, hother after hnodup.1.2]

/-- When no callback is due, those called are those decided. -/
theorem kinds_of_decided {s : St} (h : Inv s.account) (hdispatcher : s.dispatcher = []) (howner : dueIn s.owner = [])
    {d : Decision} (hd : d ∈ s.decided) : kinds d.id s.log = List.replicate (d.callbacks.has d.kind).toNat d.kind := by
  have hperm : (s.log.filterMap Callback.ending?).Perm (s.decided.filterMap Decision.ending?) := by
    refine List.perm_iff_count.mpr fun x => ?_
    have hcount : answers s x = (s.decided.filterMap Decision.ending?).count x := h.answers x
    unfold answers at hcount
    rw [hdispatcher, howner] at hcount
    exact hcount
  refine List.perm_replicate.mp ?_
  rw [← endings_of_mem h.decided_once hd]
  exact (hperm.filter _).map _

/-- Exactly one terminal callback for each accepted request, of the kind that was decided. -/
theorem one_terminal_callback (opts : Options) (s : St) (hs : Reachable opts s) :
    (∀ p ∈ s.accepted, terminals p.1 s.log ≤ 1) ∧
    (s.outermostReturned = true → ∀ p ∈ s.accepted, ∃ kind, ⟨p.1, p.2, kind⟩ ∈ s.decided ∧
      (∀ d ∈ s.decided, d.id = p.1 → d = ⟨p.1, p.2, kind⟩) ∧
      terminals p.1 s.log = (p.2.has kind).toNat ∧ kinds p.1 s.log = List.replicate (p.2.has kind).toNat kind) ∧
    (∀ id e, .onError id e ∈ s.log → e.requestId = id) ∧
    ∀ c ∈ s.log, ∀ id, c.terminal? = some id → id ∈ s.accepted.map Prod.fst := by
  have hinv := reach_inv hs
  have htag := reach_tagged hs
  have hstop := reach_stopInv hs
  have honce := hinv.decided_once
  have hdecided : ∀ r, r ∈ s.decided.filterMap Decision.called? → ∃ d ∈ s.decided, d.id = r := by
    intro r hr
    obtain ⟨d, hd, he⟩ := List.mem_filterMap.mp hr
    unfold Decision.called? at he
    split at he
    · exact ⟨d, hd, Option.some.inj he⟩
    · cases he
  refine ⟨fun p _ => ?_, fun hret p hp => ?_, fun id e hm => ?_, fun c hc id hid => ?_⟩
  · refine (terminals_le p.1 hinv).trans ?_
    by_cases hm : p.1 ∈ s.decided.filterMap Decision.called?
    · obtain ⟨d, hd, he⟩ := hdecided p.1 hm
      rw [← he, count_called honce hd]
      exact Bool.toNat_le _
    · rw [List.count_eq_zero.mpr hm]
      exact Nat.zero_le _
  · -- nothing is left in the map and nothing is due
    obtain ⟨-, hactive, hd, hdue⟩ := hstop.ended hret
    have hmem : p ∈ s.decided.map Decision.entry := by
      have := hinv.ledger.mem_iff.mp hp
      simpa [St.account, St.entries, hactive] using this
    obtain ⟨d, hdm, rfl⟩ := List.mem_map.mp hmem
    have hkinds := kinds_of_decided hinv hd hdue hdm
    refine ⟨d.kind, hdm, fun d' hd' hid => List.inj_on_of_nodup_map honce hd' hdm hid, ?_, hkinds⟩
    show terminals d.id s.log = _
    rw [terminals_eq, hkinds, List.length_replicate]
    rfl
  · exact eq_of_beq (htag.log _ hm)
  · have hpos : 0 < terminals id s.log := List.count_pos_iff.mpr (List.mem_filterMap.mpr ⟨c, hc, hid⟩)
    have hcalled : id ∈ s.decided.filterMap Decision.called? :=
      List.count_pos_iff.mp (Nat.lt_of_lt_of_le hpos (terminals_le id hinv))
    obtain ⟨d, hd, he⟩ := hdecided id hcalled
    have hmem : d.entry ∈ s.accepted := hinv.ledger.mem_iff.mpr (List.mem_append_right _ (List.mem_map_of_mem hd))
    exact he ▸ List.mem_map_of_mem hmem

/-- The owner calls `stop()`, both threads finish, and `fail_all_requests` finds these
    entries. -/
def stopAndFail (entries : List (RequestId × TtsCallbacks)) : List Ev :=
  [.callStop .owner, .run .owner [], .writer, .run .owner [], .run .dispatcher [], .run .owner [], .run .owner entries]

/-- A `stop()` with nothing left to fail, from its first region on. -/
def stopAgain : List Ev := List.replicate 6 (.run .owner [])

theorem one_terminal_of_a_stopped_request : ∃ s, Reachable sampleOptions s ∧ s.outermostReturned = true ∧
    (1, {}) ∈ s.accepted ∧ terminals 1 s.log = 1 := by
  have hrun : ∃ s, Reachable sampleOptions s ∧ decide (s.outermostReturned = true ∧ (1, {}) ∈ s.accepted) = true :=
    exists_reach_of_run ([sampleRequest {}] ++ stopAndFail [(1, {})] ++
      [.run .owner [], .run .owner [], .run .owner [], .run .owner []]) (by decide +kernel)
  obtain ⟨s, hs, hp⟩ := hrun
  obtain ⟨hret, hmem⟩ := of_decide_eq_true hp
  obtain ⟨kind, -, -, hone, -⟩ := (one_terminal_callback sampleOptions s hs).2.1 hret (1, {}) hmem
  refine ⟨s, hs, hret, hmem, ?_⟩
  rw [hone]
  cases kind <;> rfl

/-- Why not more holds. A request that is refused at once gets its `on_error` though it was
    never accepted; a request without `on_error` gets no callback when the client stops; and a
    `stop()` called in the `on_error` of request 1 returns before the `stop()` around it has
    called that of request 2. -/
theorem refusals_empty_callbacks_and_nested_stops :
    (∃ s, Reachable sampleOptions s ∧ s.refusals.map (·.requestId) = [7] ∧ s.accepted = []) ∧
    (∃ s, Reachable sampleOptions s ∧ s.outermostReturned = true ∧ (1, { onError := false }) ∈ s.accepted ∧
      terminals 1 s.log = 0) ∧
    ∃ s, Reachable sampleOptions s ∧ s.ownerReturned = true ∧ (2, {}) ∈ s.accepted ∧ terminals 2 s.log = 0 := by
  refine ⟨?_, ?_, ?_⟩
  · have hrun : ∃ s, Reachable sampleOptions s ∧
        decide (s.refusals.map (·.requestId) = [7] ∧ s.accepted = []) = true :=
      exists_reach_of_run [.synthesize {} { id := 7 } {}] (by decide +kernel)
    obtain ⟨s, hs, hp⟩ := hrun
    exact ⟨s, hs, of_decide_eq_true hp⟩
  · have hrun : ∃ s, Reachable sampleOptions s ∧ decide (s.outermostReturned = true ∧
        (1, { onError := false }) ∈ s.accepted ∧ terminals 1 s.log = 0) = true :=
      exists_reach_of_run ([sampleRequest { onError := false }] ++ stopAndFail [(1, { onError := false })] ++
        [.run .owner [], .run .owner []]) (by decide +kernel)
    obtain ⟨s, hs, hp⟩ := hrun
    exact ⟨s, hs, of_decide_eq_true hp⟩
  · have hrun : ∃ s, Reachable sampleOptions s ∧ decide (s.ownerReturned = true ∧ (2, {}) ∈ s.accepted ∧
        terminals 2 s.log = 0) = true :=
      exists_reach_of_run ([sampleRequest {}, sampleRequest {}] ++ stopAndFail [(1, {}), (2, {})] ++
        [.run .owner [], .callStop .owner] ++ stopAgain) (by decide +kernel)
    obtain ⟨s, hs, hp⟩ := hrun
    exact ⟨s, hs, of_decide_eq_true hp⟩

end QwenTtsBridge.Client
