/-
  QwenTtsBridge.Worker.PyTerminal — the terminal frames of the Python worker (`PyServer`).

  A request is owed one terminal frame from the moment its slot is marked notified or
  released (`owed`). Six paths on two threads send it. Each step keeps the frames sent,
  due or lost to an exception at what is owed (`effect_owed`), except one: the engine
  thread ends a request as completed or failed without a look at `terminal_notified`, so a
  cancel that the reader handled after the thread's last test of the cancel event has
  answered the request already (`a_late_cancel_sends_two_terminals`).

  The reader also answers frames that it refuses with an `error_json` under the frame's
  id. For a client that keeps each id to one request (`OneUse`) these never carry an
  admitted id (`ReaderInv.unrefused`).

  Proved: `one_terminal` — in every run whose steps avoid that race an admitted request
  has at most one terminal frame; and one once the call that released its slot has
  returned, if moreover the engine thread does not return from a cancelled request before
  the cancel handler has sent its frame.
-/

import QwenTtsBridge.Worker.PyAdmission
import QwenTtsBridge.Lib.EventLog

namespace QwenTtsBridge.Worker.PyServer

open QwenTtsBridge.Python QwenTtsBridge.Lib QwenTtsBridge.Lib.Transition QwenTtsBridge.Lib.EventLog

/-! ## What each admitted request is owed -/

/-- One terminal frame from the moment a slot is marked notified or released. -/
def owed (t : Tables) (r : RequestId) : Nat :=
  if r ∈ t.physical then (if t.notified r = true then 1 else 0) else if r ∈ t.admitted then 1 else 0

section Owed

variable {cfg : Config} {t : Tables} {role : Role} {id r : RequestId}

theorem notified_of_slot {slot : Slot} (h : t.slots id = some slot) : t.notified id = slot.terminalNotified := by
  simp [Tables.notified, h]

theorem Inv.notified_of_active (h : Inv cfg t role) (hid : id ∈ t.active) : t.notified id = false := by
  obtain ⟨slot, hslot, hn⟩ := h.activeOpen id hid
  rw [notified_of_slot hslot, hn]

theorem notified_setSlot {f : Slot → Slot} (hf : ∀ slot, (f slot).terminalNotified = slot.terminalNotified) :
    (t.setSlot id f).notified r = t.notified r := by
  unfold Tables.notified Tables.setSlot
  simp only
  split
  · cases h : t.slots r with
    | none => rfl
    | some slot => exact hf slot
  · rfl

theorem owed_congr {t' : Tables} (hp : r ∈ t'.physical ↔ r ∈ t.physical) (ha : r ∈ t'.admitted ↔ r ∈ t.admitted)
    (hn : t'.notified r = t.notified r) : owed t' r = owed t r := by
  simp only [owed, hp, ha, hn]

theorem owed_open (hp : r ∈ t.physical) (hn : t.notified r = false) : owed t r = 0 := by
  simp [owed, hp, hn]

theorem owed_notified (hp : r ∈ t.physical) (hn : t.notified r = true) : owed t r = 1 := by
  simp [owed, hp, hn]

theorem owed_released (hp : r ∉ t.physical) (ha : r ∈ t.admitted) : owed t r = 1 := by
  simp [owed, hp, ha]

theorem owed_le_one : owed t r ≤ 1 := by
  unfold owed
  split
  · split <;> omega
  · split <;> omega

theorem owed_setSlot {f : Slot → Slot} (hf : ∀ slot, (f slot).terminalNotified = slot.terminalNotified) :
    owed (t.setSlot id f) r = owed t r :=
  owed_congr Iff.rfl Iff.rfl (notified_setSlot hf)

theorem slots_terminalizeLocked : (t.terminalizeLocked id).slots = t.slots := by
  unfold Tables.terminalizeLocked
  simp only
  split <;> rfl

theorem admitted_terminalizeLocked : (t.terminalizeLocked id).admitted = t.admitted := by
  unfold Tables.terminalizeLocked
  simp only
  split <;> rfl

theorem physical_terminalizeLocked : (t.terminalizeLocked id).physical = t.physical.erase id := by
  unfold Tables.terminalizeLocked
  simp only
  split
  · rfl
  · rename_i hid
    exact (List.erase_of_not_mem hid).symm

/-- A release turns whatever was owed into one frame. -/
theorem owed_terminalizeLocked (h : Inv cfg t role) (hid : id ∈ t.physical) :
    owed (t.terminalizeLocked id) r = if r = id then 1 else owed t r := by
  have hmem : r ∈ (t.terminalizeLocked id).physical ↔ r ≠ id ∧ r ∈ t.physical := by
    rw [physical_terminalizeLocked, h.physicalNodup.mem_erase_iff]
  split
  · rename_i hr
    refine owed_released (fun hm => (hmem.mp hm).1 hr) ?_
    rw [admitted_terminalizeLocked, hr]
    exact h.admitted_of_physical hid
  · rename_i hr
    refine owed_congr (by simp [hmem, hr]) (by rw [admitted_terminalizeLocked]) ?_
    rw [Tables.notified, slots_terminalizeLocked, Tables.notified]

theorem owed_release (h : Inv cfg t role) (hid : id ∈ t.physical) (hn : t.notified id = false) :
    owed (t.terminalizeLocked id) r = owed t r + [id].count r := by
  rw [owed_terminalizeLocked h hid]
  by_cases hr : r = id
  · rw [if_pos hr, hr, owed_open hid hn]
    simp
  · simp [hr, Ne.symm hr]

theorem owed_cancelQueued (h : Inv cfg t role) (hid : id ∈ t.pending) :
    owed (t.cancelQueued id) r = owed t r + [id].count r := by
  have hactive := h.pendingActive id hid
  have hphys := h.activePhysical id hactive
  have hrel : owed (t.cancelQueued id) r = owed (t.terminalizeLocked id) r := by
    refine owed_congr ?_ ?_ ?_
    · rw [Tables.cancelQueued, physical_terminalizeLocked, physical_terminalizeLocked]
    · rw [Tables.cancelQueued, admitted_terminalizeLocked, admitted_terminalizeLocked]
    · rw [Tables.cancelQueued, Tables.notified, slots_terminalizeLocked, Tables.notified, slots_terminalizeLocked]
  rw [hrel]
  exact owed_release h hphys (h.notified_of_active hactive)

/-- The notified mark that `_finish_cancelled` sets is on a slot it releases. -/
theorem owed_finish (h : Inv cfg t (.holds id)) : owed (t.finish id) r = owed (t.terminalizeLocked id) r := by
  have hgone := (h.terminalize (.inr rfl)).answers id rfl
  have hadm : id ∈ (t.terminalizeLocked id).admitted := by
    rw [admitted_terminalizeLocked]
    exact (h.current id rfl).2.1
  rw [Tables.finish, terminalizeLocked_setSlot]
  by_cases hr : r = id
  · subst hr
    rw [owed_released hgone hadm]
    exact owed_released (t := (t.terminalizeLocked r).setSlot r _) hgone hadm
  · refine owed_congr Iff.rfl Iff.rfl ?_
    simp [Tables.notified, Tables.setSlot, hr]

theorem owed_accept (h : Inv cfg t role) (request : SynthesisRequest) (hwater : t.acceptedRequestIdHighWater < id) :
    owed (t.accept id request) r = owed t r := by
  have fresh : id ∉ t.admitted := fun hm => Nat.not_lt_of_le (h.admittedBelow id hm).2 hwater
  have hphys : id ∉ t.physical := fun hm => fresh (h.admitted_of_physical hm)
  by_cases hr : r = id
  · subst hr
    have hnew : owed t r = 0 := by simp [owed, hphys, fresh]
    rw [hnew]
    refine owed_open ?_ ?_
    · simp [Tables.accept, Tables.insertKey, hphys]
    · simp [Tables.notified, Tables.accept]
  · refine owed_congr ?_ ?_ ?_
    · simp [Tables.accept, Tables.insertKey, hphys, hr]
    · simp [Tables.accept, hr]
    · simp [Tables.notified, Tables.accept, hr]

theorem owed_cancelRunning (h : Inv cfg t role) (hid : id ∈ t.active) :
    owed (t.cancelRunning id) r = owed t r + [id].count r := by
  have hphys := h.activePhysical id hid
  obtain ⟨slot, hslot, -⟩ := h.activeOpen id hid
  by_cases hr : r = id
  · subst hr
    rw [owed_open hphys (h.notified_of_active hid), owed_notified (t := t.cancelRunning r) hphys]
    · simp
    · simp [Tables.notified, Tables.cancelRunning, Tables.setSlot, hslot]
  · rw [owed_congr (t := t)]
    · simp [Ne.symm hr]
    · exact Iff.rfl
    · exact Iff.rfl
    · simp [Tables.notified, Tables.cancelRunning, Tables.setSlot, hr]

theorem owed_foldl_cancelPending {ids : List RequestId} (h : Inv cfg t role) (hp : t.pending = ids) :
    owed (ids.foldl Tables.cancelPending t) r = owed t r + ids.count r := by
  induction ids generalizing t with
  | nil => rfl
  | cons id rest ih =>
    have hid : id ∈ t.pending := hp ▸ List.mem_cons_self
    have hset : Inv cfg (t.setSlot id ({ · with cancelEvent := true })) role := h.setSlot (fun _ => rfl) fun _ _ => rfl
    have hone : owed (t.cancelPending id) r = owed t r + [id].count r := by
      rw [Tables.cancelPending, owed_cancelQueued hset hid, owed_setSlot]
      exact fun _ => rfl
    rw [List.foldl_cons, ih (h.cancelPending hid) (pending_cancelPending hp), hone, List.count_cons, List.count_cons,
      List.count_nil]
    omega

theorem owed_shutdown (h : Inv cfg t role) : owed t.shutdown.1 r = owed t r + t.shutdown.2.count r := by
  rw [h.shutdown_eq, ← owed_foldl_cancelPending h rfl]
  refine owed_congr Iff.rfl Iff.rfl ?_
  simp only [Tables.notified, Tables.cancelActive]
  split
  · cases (t.pending.foldl Tables.cancelPending t).slots r <;> rfl
  · rfl

end Owed

/-- A step adds the frames that the tables come to owe, and more only where it is not calm. -/
theorem effect_delta {cfg : Config} {calm : Prop} {v v' : View} (e : Effect cfg calm v v') (h : Inv cfg v.tables v.role)
    (r : RequestId) : ∃ d, v'.answers r = v.answers r + d ∧ owed v'.tables r ≤ owed v.tables r + d ∧
      (calm → owed v'.tables r = owed v.tables r + d) := by
  have hexact : ∀ d, v'.answers r = v.answers r + d → owed v'.tables r = owed v.tables r + d →
      ∃ d, v'.answers r = v.answers r + d ∧ owed v'.tables r ≤ owed v.tables r + d ∧
        (calm → owed v'.tables r = owed v.tables r + d) :=
    fun d ha ho => ⟨d, ha, Nat.le_of_eq ho, fun _ => ho⟩
  cases e with
  | none | dies | answered => exact hexact 0 rfl rfl
  | accept id request _ hwater _ => exact hexact 0 rfl (owed_accept h request hwater)
  | take id rest =>
    have hset : owed (v.tables.take id rest) r = owed { v.tables with pending := rest } r := owed_setSlot fun _ => rfl
    exact hexact 0 rfl hset
  | takeMissing => exact hexact 0 rfl rfl
  | cancelQueued id hid => exact hexact _ rfl (owed_cancelQueued h hid)
  | cancelUnlisted id =>
    have hset : owed (v.tables.setSlot id ({ · with state := .running, cancelEvent := true })) r = owed v.tables r :=
      owed_setSlot fun _ => rfl
    exact hexact 0 rfl hset
  | cancelRunning id slot hget =>
    have hactive : id ∈ v.tables.active := by
      by_contra hn
      simp [Tables.get?, hn] at hget
    have hslot : v.tables.slots id = some slot := by simpa [Tables.get?, hactive] using hget
    have hn : slot.terminalNotified = false := (notified_of_slot hslot).symm.trans (h.notified_of_active hactive)
    refine hexact _ ?_ (owed_cancelRunning h hactive)
    simp [hn, owe]
  | shutdown => exact hexact _ rfl (owed_shutdown h)
  | terminalize id hrole hcalm =>
    rw [hrole] at h
    refine ⟨_, rfl, ?_, fun hc => owed_release h (h.holds id rfl) (hcalm hc)⟩
    -- a frame too many when the slot was notified already
    rw [owed_terminalizeLocked h (h.holds id rfl)]
    split
    · rename_i he
      rw [he, List.count_singleton_self]
      omega
    · omega
  | finishNotified id hrole hn =>
    rw [hrole] at h
    refine hexact 0 rfl ?_
    rw [owed_finish h, owed_terminalizeLocked h (h.holds id rfl)]
    split
    · rename_i he
      subst he
      exact (owed_notified (h.holds r rfl) hn).symm
    · rfl
  | finishCancelled id hrole hn =>
    rw [hrole] at h
    refine hexact _ rfl ?_
    rw [owed_finish h, owed_release h (h.holds id rfl) hn]

/-- Every calm step keeps the terminal frames sent, due or lost at what the tables owe. -/
theorem effect_owed {cfg : Config} {v v' : View} (e : Effect cfg True v v') (h : Inv cfg v.tables v.role)
    (ho : ∀ r, v.answers r = owed v.tables r) : ∀ r, v'.answers r = owed v'.tables r := by
  intro r
  obtain ⟨d, ha, -, hd⟩ := effect_delta e h r
  rw [ha, hd trivial, ho r]

/-! ## What the reader still has to do -/

/-- The request id under which the reader refused a frame. -/
def Handed.refuses : Handed → Option RequestId
  | ⟨.reader, .error id _⟩ => some id
  | _ => none

def refused (handed : List Handed) : List RequestId := handed.filterMap Handed.refuses

/-- A `started` or `audio_pcm` frame that carries `r`. -/
def OutFrame.isSpeech (r : RequestId) : OutFrame → Bool
  | .started id _ | .audioPcm id _ => id == r
  | _ => false

/-- The act sends a `started` or `audio_pcm` frame. -/
def Act.speaks : Act → Bool
  | .send (.started _ _) | .send (.audioPcm _ _) => true
  | _ => false

def Act.refuses : Act → Option RequestId
  | .send f => Handed.refuses ⟨.reader, f⟩
  | _ => none

def Act.returns : Act → List RequestId
  | .returned ids => ids
  | _ => []

/-- Each handler that returns has sent the frames of the slots it released; `done` are the
    requests already answered. -/
abbrev ReturnsAnswered (done : List RequestId) (acts : List Act) : Prop := Settles Act.due Act.returns done acts

theorem returns_of_isFinally {a : Act} (h : isFinally a = true) : a.returns = [] := by
  cases a <;> first | rfl | cases h

/-- The client keeps an id for one request: once it is admitted only cancels carry it, and no
    synthesize reuses an id under which an earlier frame was refused. -/
def OneUse (s : St) : Command → Prop
  | .cancel _ => True
  | .raises => True
  | .synthesize id _ => id ∉ s.tables.admitted ∧ (id ≠ 0 → id ∉ refused s.handed)
  | .refused id _ | .hello id | .ping id _ | .shutdown id _ => id ∉ s.tables.admitted

instance (s : St) : (c : Command) → Decidable (OneUse s c)
  | .cancel _ | .raises => .isTrue trivial
  | .synthesize _ _ => inferInstanceAs (Decidable (_ ∧ _))
  | .refused _ _ | .hello _ | .ping _ _ | .shutdown _ _ => inferInstanceAs (Decidable (_ ∉ _))

/-- A handler's answer: the acts it leaves to do, before the read loop goes on. -/
structure Replies (s s' : St) (acts : List Act) : Prop where
  reader : s'.reader = acts ++ s.reader
  handed : s'.handed = s.handed
  settled : s'.settled = s.settled
  ready : s.readySent = true → s'.readySent = true
  plain : ∀ a ∈ acts, a ≠ .readLoop ∧ a.speaks = false
  returns : ∀ done, ReturnsAnswered done acts
  admitted : s'.tables.admitted = s.tables.admitted ∨
    ∃ id, s'.tables.admitted = s.tables.admitted ++ [id] ∧ id ∉ refused s.handed ∧ s.readySent = true
  refuses : ∀ id ∈ acts.filterMap Act.refuses, id ∉ s'.tables.admitted

section Replies

variable {cfg : Config} {s : St} {id : RequestId} {role : Role} {parsed : Parsed}

theorem sendError_replies (h : id ∉ s.tables.admitted) (e : ErrorMessage) :
    Replies s (sendError s id e) [.send (.error id e)] where
  reader := rfl
  handed := rfl
  settled := rfl
  ready := fun h => h
  plain := by simp [Act.speaks]
  returns := fun _ => settles_of_forall (by simp [Act.returns])
  admitted := .inl rfl
  refuses := by
    intro i hi
    cases List.mem_singleton.mp hi
    exact h

/-- A handler that changes neither the admissions nor the log and sends no refusal. -/
theorem push_replies {s' : St} {acts : List Act} (hr : s'.reader = s.reader) (hh : s'.handed = s.handed)
    (hs : s'.settled = s.settled) (hready : s.readySent = true → s'.readySent = true)
    (ha : s'.tables.admitted = s.tables.admitted) (hplain : ∀ a ∈ acts, a ≠ .readLoop ∧ a.speaks = false)
    (hreturns : ∀ done, ReturnsAnswered done acts) (hrefuses : acts.filterMap Act.refuses = []) :
    Replies s (push s' acts) acts where
  reader := congrArg (acts ++ ·) hr
  handed := hh
  settled := hs
  ready := hready
  plain := hplain
  returns := hreturns
  admitted := .inl ha
  refuses := by
    rw [hrefuses]
    intro i hi
    cases hi

theorem quiet_replies {s' : St} (hr : s'.reader = s.reader) (hh : s'.handed = s.handed)
    (hs : s'.settled = s.settled) (hready : s.readySent = true → s'.readySent = true)
    (ha : s'.tables.admitted = s.tables.admitted) : Replies s s' [] :=
  have h : Replies s (push s' []) [] := push_replies hr hh hs hready ha (by simp) (fun _ => trivial) rfl
  h

theorem zero_not_admitted (h : Inv cfg s.tables role) : 0 ∉ s.tables.admitted :=
  fun hm => Nat.lt_irrefl 0 (h.admittedBelow 0 hm).1

theorem admission_replies (hid : id ∉ s.tables.admitted ∧ id ∉ refused s.handed) (hready : s.readySent = true)
    (request : SynthesisRequest) : ∃ acts, Replies s (admission cfg s id request) acts := by
  unfold admission
  split
  · exact ⟨_, sendError_replies hid.1 _⟩
  split
  · exact ⟨_, sendError_replies hid.1 _⟩
  · refine ⟨_, ⟨rfl, rfl, rfl, fun h => h, by simp [Act.speaks],
      fun _ => settles_of_forall (by simp [Act.returns]), .inr ⟨id, rfl, hid.2, hready⟩, ?_⟩⟩
    intro i hi
    cases hi

theorem synthesize_replies (cfg : Config) (hok : OneUse s (.synthesize id parsed)) (hready : s.readySent = true) :
    (∃ acts, Replies s (handleSynthesize cfg s id parsed) acts) ∨ handleSynthesize cfg s id parsed = unwind s := by
  unfold handleSynthesize
  split
  · exact .inl ⟨_, sendError_replies hok.1 _⟩
  split
  · rename_i hzero
    exact .inl ⟨_, sendError_replies (hzero ▸ hok.1) _⟩
  · rename_i hzero
    cases parsed with
    | raises => exact .inr rfl
    | refused e => exact .inl ⟨_, sendError_replies hok.1 _⟩
    | request request => exact .inl (admission_replies ⟨hok.1, hok.2 hzero⟩ hready request)

theorem cancel_replies (hinv : Inv cfg s.tables role) : ∃ acts, Replies s (handleCancel s id) acts := by
  unfold handleCancel
  split
  · exact ⟨_, sendError_replies (zero_not_admitted hinv) _⟩
  split
  · split
    · rename_i hunknown
      have hnot : id ∉ s.tables.admitted := fun hm => Nat.not_lt_of_le (hinv.admittedBelow id hm).2 hunknown
      have hnot' : id ∉ (notifyAll s).tables.admitted := by simpa using hnot
      have h := sendError_replies hnot' (.lit "request_error" "unknown_request_id" "request_id is not active")
      exact ⟨_, by simpa using h.reader, by simpa using h.handed, by simpa using h.settled, by simpa using h.ready,
        h.plain, h.returns, by simpa using h.admitted, h.refuses⟩
    · exact ⟨[], quiet_replies (by simp) (by simp) (by simp) (by simp) (by simp)⟩
  · split
    · split
      · refine ⟨_, push_replies (by simp) (by simp) (by simp) (by simp) ?_ (by simp [Act.speaks]) ?_ rfl⟩
        · simp [admitted_terminalizeLocked]
        · intro done
          exact ⟨by simp [Act.returns], by simp [Act.returns], by simp [Act.returns, Act.due, Handed.answers], trivial⟩
      · exact ⟨[], quiet_replies (by simp) (by simp) (by simp) (by simp) (by simp [Tables.setSlot])⟩
    · simp only
      split
      · exact ⟨[], quiet_replies (by simp) (by simp) (by simp) (by simp) (by simp [Tables.cancelRunning, Tables.setSlot])⟩
      · exact ⟨_, push_replies (by simp) (by simp) (by simp) (by simp) (by simp [Tables.cancelRunning, Tables.setSlot])
          (by simp [Act.speaks])
        (fun _ => settles_of_forall (by simp [Act.returns])) rfl⟩

/-- What `_handle_frame` leaves to do, for a client that keeps each id to one request. -/
theorem frame_replies (hinv : Inv cfg s.tables role) (hready : s.tables.admitted ≠ [] → s.readySent = true)
    (c : Command) (hok : OneUse s c) :
    (∃ acts, Replies s (handleFrame cfg s c) acts) ∨ handleFrame cfg s c = unwind s ∨
      handleFrame cfg s c = { s with reader := .requestShutdown true :: s.reader.tail } := by
  cases c with
  | refused id e => exact .inl ⟨_, sendError_replies hok e⟩
  | raises => exact .inr (.inl rfl)
  | hello id =>
    left
    simp only [handleFrame, handleHello]
    split
    · exact ⟨_, sendError_replies hok _⟩
    · exact ⟨_, push_replies rfl rfl rfl (fun _ => rfl) rfl (by simp [Act.speaks])
        (fun _ => settles_of_forall (by simp [Act.returns])) rfl⟩
  | ping id sequence =>
    left
    simp only [handleFrame, handlePing]
    split
    · exact ⟨_, sendError_replies hok _⟩
    · exact ⟨_, push_replies rfl rfl rfl (fun h => h) rfl (by simp [Act.speaks])
        (fun _ => settles_of_forall (by simp [Act.returns])) rfl⟩
  | synthesize id parsed =>
    simp only [handleFrame]
    split
    · exact .inl ⟨_, sendError_replies hok.1 _⟩
    · rename_i hr
      rcases synthesize_replies cfg hok (by simpa using hr) with h | h
      · exact .inl h
      · exact .inr (.inl h)
  | cancel id =>
    left
    simp only [handleFrame]
    split
    · rename_i hr
      refine ⟨_, sendError_replies (fun hm => ?_) _⟩
      have := hready (List.ne_nil_of_mem hm)
      simp [this] at hr
    · exact cancel_replies hinv
  | shutdown id modeIsCancel =>
    simp only [handleFrame, handleShutdown]
    split
    · exact .inl ⟨_, sendError_replies hok _⟩
    split
    · exact .inl ⟨_, sendError_replies (zero_not_admitted hinv) _⟩
    · exact .inr (.inr rfl)

end Replies

/-- What the engine thread leaves alone, and what it adds to the log. -/
structure EngineFrame (e : EngineEv) (s s' : St) : Prop where
  reader : s'.reader = s.reader
  ready : s'.readySent = s.readySent
  flags : s'.helloSeen = s.helloSeen ∧ s'.fatalError = s.fatalError ∧ s'.shutdownRequested = s.shutdownRequested
  admitted : s'.tables.admitted = s.tables.admitted
  handed : s'.handed = s.handed ∨ ∃ f, s'.handed = s.handed ++ [⟨.engine, f⟩]
  settled : s'.settled = s.settled ∨ ∃ id, s'.settled = s.settled ++ [id] ∧
    (id ∈ answered s'.handed ∨ e = .next ∧ s.engine = .finishCancelled id ∧ s.tables.notified id = true)

section EngineFrame

variable {cfg : Config} {s s' : St} {id : RequestId} {e : EngineEv}

theorem goto_frame (pc : EnginePc) : EngineFrame e s (goto s pc) := ⟨rfl, rfl, ⟨rfl, rfl, rfl⟩, rfl, .inl rfl, .inl rfl⟩

theorem speak_frame (f : OutFrame) (pc : EnginePc) : EngineFrame e s (goto (hand s .engine f) pc) :=
  ⟨rfl, rfl, ⟨rfl, rfl, rfl⟩, rfl, .inr ⟨f, rfl⟩, .inl rfl⟩

theorem die_frame : EngineFrame e s (dieUnanswered s id) := ⟨rfl, rfl, ⟨rfl, rfl, rfl⟩, rfl, .inl rfl, .inl rfl⟩

theorem take_frame : EngineFrame e s (takeNextRequest s) := by
  unfold takeNextRequest
  split
  · split <;> exact goto_frame _
  · simp only
    split <;> exact ⟨rfl, rfl, ⟨rfl, rfl, rfl⟩, rfl, .inl rfl, .inl rfl⟩

theorem finishCancelled_frame (hpc : s.engine = .finishCancelled id) : EngineFrame .next s (finishCancelled s id) := by
  have hadm : ((s.tables.setSlot id ({ · with terminalNotified := true })).terminalizeLocked id).admitted =
      s.tables.admitted := admitted_terminalizeLocked
  unfold finishCancelled
  simp only
  split
  · rename_i hn
    exact ⟨rfl, rfl, ⟨rfl, rfl, rfl⟩, hadm, .inl rfl, .inr ⟨id, rfl, .inr ⟨rfl, hpc, hn⟩⟩⟩
  · exact ⟨rfl, rfl, ⟨rfl, rfl, rfl⟩, hadm, .inl rfl, .inl rfl⟩

theorem next_frame (h : stepEngine cfg s .next = some s') : EngineFrame .next s s' := by
  simp only [stepEngine] at h
  split at h
  · cases h; exact take_frame
  · cases h; exact goto_frame _
  · split at h
    · cases h
    · split at h <;> cases h
      · exact speak_frame _ _
      · exact goto_frame _
  · cases h; exact goto_frame _
  · cases h; exact goto_frame _
  · split at h <;> cases h
    · exact speak_frame _ _
    · exact goto_frame _
  · cases h; exact goto_frame _
  · cases h; exact goto_frame _
  · cases h; exact ⟨rfl, rfl, ⟨rfl, rfl, rfl⟩, admitted_terminalizeLocked, .inl rfl, .inl rfl⟩
  · rename_i id hpc
    cases h
    exact finishCancelled_frame hpc
  · rename_i id answer hpc
    split at h <;> cases h
    · exact die_frame
    · refine ⟨rfl, rfl, ⟨rfl, rfl, rfl⟩, rfl, .inr ⟨_, rfl⟩, .inr ⟨id, rfl, .inl ?_⟩⟩
      have ha : Handed.answers ⟨.engine, answer.frame id⟩ = some id := by cases answer <;> rfl
      exact List.mem_filterMap.mpr ⟨_, List.mem_append_right _ (List.mem_singleton.mpr rfl), ha⟩
  · cases h; exact goto_frame _
  · cases h; exact speak_frame _ _
  · cases h

theorem engine_frame (h : stepEngine cfg s e = some s') : EngineFrame e s s' := by
  cases e with
  | next => exact next_frame h
  | described | yields | ends | raises | trace | traceRaises =>
    simp only [stepEngine] at h
    split at h <;> cases h
    all_goals first | exact goto_frame _ | exact die_frame

end EngineFrame

/-! ## What is admitted -/

/-- The id of the `synthesize` frame that the reader gets. -/
def Ev.synthesizes : Ev → Option RequestId
  | .receive (.synthesize id _) => some id
  | _ => none

section Admitted

variable {cfg : Config} {s s' : St} {id : RequestId}

theorem admitted_synthesize (cfg : Config) (s : St) (id : RequestId) (parsed : Parsed) :
    (handleSynthesize cfg s id parsed).tables.admitted = s.tables.admitted ∨
      (handleSynthesize cfg s id parsed).tables.admitted = s.tables.admitted ++ [id] := by
  unfold handleSynthesize
  split
  · exact .inl rfl
  split
  · exact .inl rfl
  split
  · exact .inl rfl
  · exact .inl rfl
  · unfold admission
    split
    · exact .inl rfl
    split
    · exact .inl rfl
    · exact .inr rfl

theorem admitted_notifyAll : (notifyAll s).tables.admitted = s.tables.admitted :=
  congrArg Tables.admitted (notifyAll_tables s)

theorem admitted_cancel : (handleCancel s id).tables.admitted = s.tables.admitted := by
  unfold handleCancel
  split
  · rfl
  split
  · split
    · exact admitted_notifyAll
    · exact admitted_notifyAll
  split
  · split
    · exact admitted_notifyAll.trans admitted_terminalizeLocked
    · exact admitted_notifyAll
  · simp only
    split
    · exact admitted_notifyAll
    · exact admitted_notifyAll

theorem shutdown_admitted {t : Tables} : t.shutdown.1.admitted = t.admitted := by
  have drain : ∀ (ids : List RequestId) (t : Tables), (t.drainPending ids).1.admitted = t.admitted := by
    intro ids
    induction ids with
    | nil => exact fun t => rfl
    | cons id rest ih =>
      intro t
      simp only [Tables.drainPending]
      split
      · exact ih _
      · exact (ih _).trans admitted_terminalizeLocked
  exact drain _ _

/-- Only a `synthesize` frame is admitted, under its own id. -/
theorem admitted_frame (c : Command) :
    (handleFrame cfg s c).tables.admitted = s.tables.admitted ∨
      ∃ id, Ev.synthesizes (.receive c) = some id ∧
        (handleFrame cfg s c).tables.admitted = s.tables.admitted ++ [id] := by
  cases c with
  | refused id e => exact .inl rfl
  | raises => exact .inl rfl
  | hello id =>
    simp only [handleFrame, handleHello]
    split <;> exact .inl rfl
  | ping id sequence =>
    simp only [handleFrame, handlePing]
    split <;> exact .inl rfl
  | synthesize id parsed =>
    simp only [handleFrame]
    split
    · exact .inl rfl
    · rcases admitted_synthesize cfg s id parsed with h | h
      · exact .inl h
      · exact .inr ⟨id, rfl, h⟩
  | cancel id =>
    simp only [handleFrame]
    split
    · exact .inl rfl
    · exact .inl admitted_cancel
  | shutdown id modeIsCancel =>
    simp only [handleFrame, handleShutdown]
    split
    · exact .inl rfl
    split <;> exact .inl rfl

theorem admitted_act {act : Act} (h : runAct cfg s act = some s') : s'.tables.admitted = s.tables.admitted := by
  cases act with
  | readLoop => cases h
  | send f =>
    simp only [runAct] at h
    split at h <;> cases h <;> rfl
  | emitFinished id =>
    simp only [runAct] at h
    split at h <;> cases h <;> rfl
  | notifyAll =>
    cases h
    exact admitted_notifyAll
  | requestShutdown sendAck =>
    cases h
    unfold requestShutdown
    split
    · exact admitted_notifyAll
    · exact shutdown_admitted
  | shutdownTerminalEventsEnqueued =>
    cases h
    exact admitted_notifyAll
  | returned ids =>
    cases h
    rfl

theorem admitted_step {e : Ev} (h : step cfg s e = some s') :
    s'.tables.admitted = s.tables.admitted ∨
      ∃ id, e.synthesizes = some id ∧ s'.tables.admitted = s.tables.admitted ++ [id] := by
  cases e with
  | receive c =>
    simp only [step] at h
    split at h <;> cases h
    exact admitted_frame c
  | eof =>
    simp only [step] at h
    split at h <;> cases h
    exact .inl rfl
  | reader =>
    simp only [step] at h
    split at h
    · have hact := admitted_act h
      exact .inl hact
    · cases h
  | engine e => exact .inl (engine_frame h).admitted

end Admitted

/-! ## Runs without the race -/

/-- The client keeps each id to one request. -/
def Lawful (s : St) : Ev → Prop
  | .receive c => OneUse s c
  | _ => True

/-- At `_terminalize_locked` of a completed or failed request, no cancel has answered it. -/
def Unanswered (s : St) : EnginePc → Prop
  | .terminalize id _ => s.tables.notified id = false
  | _ => True

/-- Where `_finish_cancelled` leaves the frame to the cancel handler, that handler has sent it. -/
def CancelSent (s : St) : EnginePc → Prop
  | .finishCancelled id => s.tables.notified id = true → id ∈ answered s.handed
  | _ => True

/-- A step of the engine thread's own code. -/
def Ev.isNext : Ev → Bool
  | .engine .next => true
  | _ => false

def Ev.isReader : Ev → Bool
  | .reader => true
  | _ => false

/-- Moreover, the engine thread does not end as completed or failed a request that a cancel
    has answered. -/
def OneAnswer (s : St) (e : Ev) : Prop := Lawful s e ∧ (e.isNext = true → Unanswered s s.engine)

/-- Moreover, the engine thread returns from a cancelled request only after its frame. -/
def OnTime (s : St) (e : Ev) : Prop := OneAnswer s e ∧ (e.isNext = true → CancelSent s s.engine)

structure ReaderInv (s : St) : Prop where
  ready : s.tables.admitted ≠ [] → s.readySent = true
  below : s.reader.Pairwise fun a b => a = .readLoop → b.refuses = none
  returns : ReturnsAnswered (answered s.handed) s.reader
  unrefused : ∀ r ∈ s.tables.admitted, r ∉ refused s.handed ∧ r ∉ s.reader.filterMap Act.refuses
  mute : ∀ a ∈ s.reader, a.speaks = false

section ReaderInv

variable {cfg : Config} {s s' : St} {rest acts : List Act} {act : Act}

theorem ReaderInv.congr (h : ReaderInv s) (ha : s'.tables.admitted = s.tables.admitted)
    (hready : s'.readySent = s.readySent) (hr : s'.reader = s.reader) (hh : s'.handed = s.handed) : ReaderInv s' :=
  ⟨by rw [ha, hready]; exact h.ready, by rw [hr]; exact h.below, by rw [hr, hh]; exact h.returns,
    by rw [ha, hr, hh]; exact h.unrefused, by rw [hr]; exact h.mute⟩

theorem mem_refuses_of_sublist {l l' : List Act} {r : RequestId} (hl : l.Sublist l')
    (h : r ∉ l'.filterMap Act.refuses) : r ∉ l.filterMap Act.refuses :=
  fun hm => h ((hl.filterMap _).subset hm)

/-- The act at the head is done. -/
theorem ReaderInv.pop (h : ReaderInv s) (hr : s.reader = act :: rest) (hd : act.due = none) :
    ReaderInv { s with reader := rest } where
  ready := h.ready
  below := (List.pairwise_cons.mp (hr ▸ h.below)).2
  returns := by
    have := (hr ▸ h.returns : ReturnsAnswered (answered s.handed) (act :: rest)).2
    rwa [hd] at this
  unrefused := fun r hm => ⟨(h.unrefused r hm).1,
    mem_refuses_of_sublist (hr ▸ List.sublist_cons_self _ _) (h.unrefused r hm).2⟩
  mute := fun a ha => h.mute a (hr ▸ List.mem_cons_of_mem _ ha)

theorem ReaderInv.unwind (h : ReaderInv s) : ReaderInv (unwind s) where
  ready := h.ready
  below := h.below.sublist List.filter_sublist
  returns := settles_of_forall fun _ ha => returns_of_isFinally (List.mem_filter.mp ha).2
  unrefused := fun r hm => ⟨(h.unrefused r hm).1, mem_refuses_of_sublist List.filter_sublist (h.unrefused r hm).2⟩
  mute := fun a ha => h.mute a (List.mem_filter.mp ha).1

theorem ReaderInv.replies (h : ReaderInv s) (hr : s.reader = .readLoop :: rest) (hrep : Replies s s' acts) :
    ReaderInv s' where
  ready := by
    intro hne
    rcases hrep.admitted with ha | ⟨id, -, -, hready⟩
    · exact hrep.ready (h.ready (ha ▸ hne))
    · exact hrep.ready hready
  below := by
    rw [hrep.reader]
    refine List.pairwise_append.mpr ⟨?_, h.below, fun a ha _ _ he => absurd he (hrep.plain a ha).1⟩
    exact List.Pairwise.imp_of_mem (fun ha _ _ he => absurd he (hrep.plain _ ha).1) (List.pairwise_of_forall fun _ _ => trivial)
  returns := by
    rw [hrep.reader, hrep.handed]
    exact (hrep.returns _).append h.returns
  unrefused := by
    -- nothing below the read loop refuses a frame
    have hnone : s.reader.filterMap Act.refuses = [] := by
      have hbelow := h.below
      rw [hr] at hbelow ⊢
      refine List.filterMap_eq_nil_iff.mpr fun b hb => ?_
      rcases List.mem_cons.mp hb with rfl | hb
      · rfl
      · exact (List.pairwise_cons.mp hbelow).1 b hb rfl
    intro r hm
    rw [hrep.reader, hrep.handed, List.filterMap_append, hnone, List.append_nil]
    refine ⟨?_, fun hmem => hrep.refuses r hmem hm⟩
    rcases hrep.admitted with ha | ⟨id, ha, hid, -⟩
    · exact (h.unrefused r (ha ▸ hm)).1
    · rw [ha] at hm
      rcases List.mem_append.mp hm with hm | hm
      · exact (h.unrefused r hm).1
      · exact List.mem_singleton.mp hm ▸ hid
  mute := by
    rw [hrep.reader]
    intro a ha
    rcases List.mem_append.mp ha with ha | ha
    · exact (hrep.plain a ha).2
    · exact h.mute a ha

theorem returnsAnswered_shutdown (ids : List RequestId) (done : List RequestId) :
    ReturnsAnswered done (ids.flatMap (fun id => [.emitFinished id, .send (.cancelled id)]) ++
      [.shutdownTerminalEventsEnqueued, .returned ids]) := by
  have h : ∀ (l : List RequestId) (done : List RequestId), (∀ r ∈ ids, r ∈ done ∨ r ∈ l) →
      ReturnsAnswered done (l.flatMap (fun id => [.emitFinished id, .send (.cancelled id)]) ++
        [.shutdownTerminalEventsEnqueued, .returned ids]) := by
    intro l
    induction l with
    | nil =>
      intro done hd
      exact ⟨by simp [Act.returns], fun r hr => (hd r hr).resolve_right (by simp), trivial⟩
    | cons id l ih =>
      intro done hd
      refine ⟨by simp [Act.returns], by simp [Act.returns], ih (id :: done) fun r hr => ?_⟩
      rcases hd r hr with hr | hr
      · exact .inl (List.mem_cons_of_mem _ hr)
      · rcases List.mem_cons.mp hr with rfl | hr
        · exact .inl List.mem_cons_self
        · exact .inr hr
  exact h ids done fun r hr => .inr hr

theorem ReaderInv.requestShutdown (h : ReaderInv s) (sendAck : Bool) : ReaderInv (requestShutdown s sendAck) := by
  unfold PyServer.requestShutdown
  split
  · exact h.congr (by simp) (by simp) (by simp) (by simp)
  · have hplain : ∀ ids : List RequestId, ∀ a ∈ ids.flatMap (fun id => [Act.emitFinished id, .send (.cancelled id)]) ++
        [.shutdownTerminalEventsEnqueued, .returned ids], a ≠ .readLoop ∧ a.refuses = none ∧ a.speaks = false := by
      intro ids a ha
      rcases List.mem_append.mp ha with ha | ha
      · obtain ⟨id, -, ha⟩ := List.mem_flatMap.mp ha
        rcases List.mem_cons.mp ha with rfl | ha
        · exact ⟨by simp, rfl, by simp [Act.speaks]⟩
        · exact List.mem_singleton.mp ha ▸ ⟨by simp, rfl, by simp [Act.speaks]⟩
      · rcases List.mem_cons.mp ha with rfl | ha
        · exact ⟨by simp, rfl, by simp [Act.speaks]⟩
        · exact List.mem_singleton.mp ha ▸ ⟨by simp, rfl, by simp [Act.speaks]⟩
    refine ⟨?_, ?_, ?_, ?_, ?_⟩
    · intro hne
      exact h.ready (shutdown_admitted ▸ hne)
    · refine List.pairwise_append.mpr ⟨?_, h.below, fun a ha _ _ he => absurd he (hplain _ a ha).1⟩
      exact List.Pairwise.imp_of_mem (fun ha _ _ he => absurd he (hplain _ _ ha).1)
        (List.pairwise_of_forall fun _ _ => trivial)
    · exact (returnsAnswered_shutdown _ _).append h.returns
    · intro r hm
      have hold := h.unrefused r (shutdown_admitted ▸ hm)
      refine ⟨hold.1, fun hmem => ?_⟩
      replace hmem : r ∈ List.filterMap Act.refuses (_ ++ s.reader) := hmem
      rw [List.filterMap_append] at hmem
      rcases List.mem_append.mp hmem with hmem | hmem
      · obtain ⟨a, ha, he⟩ := List.mem_filterMap.mp hmem
        rw [(hplain _ a ha).2.1] at he
        cases he
      · exact hold.2 hmem
    · intro a ha
      rcases List.mem_append.mp ha with ha | ha
      · exact (hplain _ a ha).2.2
      · exact h.mute a ha

theorem answered_append (a b : List Handed) : answered (a ++ b) = answered a ++ answered b := by simp [answered]

theorem refused_append (a b : List Handed) : refused (a ++ b) = refused a ++ refused b := by simp [refused]

theorem ReaderInv.send {f : OutFrame} (h : ReaderInv s) (hr : s.reader = .send f :: rest) :
    ReaderInv (hand { s with reader := rest } .reader f) where
  ready := h.ready
  below := (List.pairwise_cons.mp (hr ▸ h.below)).2
  returns := by
    have := (hr ▸ h.returns : ReturnsAnswered (answered s.handed) (.send f :: rest)).2
    refine this.mono fun r hm => ?_
    simp only [hand, answered_append]
    rcases List.mem_append.mp hm with hm | hm
    · refine List.mem_append_right _ (List.mem_filterMap.mpr ⟨_, List.mem_singleton.mpr rfl, ?_⟩)
      exact Option.mem_toList.mp hm
    · exact List.mem_append_left _ hm
  unrefused := by
    intro r hm
    obtain ⟨hlog, hacts⟩ := h.unrefused r hm
    rw [hr, List.filterMap_cons] at hacts
    simp only [hand, refused_append, List.mem_append, not_or]
    refine ⟨⟨hlog, fun hmem => ?_⟩, fun hmem => hacts ?_⟩
    · obtain ⟨x, hx, he⟩ := List.mem_filterMap.mp hmem
      cases List.mem_singleton.mp hx
      refine hacts ?_
      have he' : Act.refuses (.send f) = some r := he
      rw [he']
      exact List.mem_cons_self
    · split
      · exact hmem
      · exact List.mem_cons_of_mem _ hmem
  mute := fun a ha => h.mute a (hr ▸ List.mem_cons_of_mem _ ha)

theorem ReaderInv.runAct (h : ReaderInv s) (hr : s.reader = act :: rest)
    (hs : PyServer.runAct cfg { s with reader := rest } act = some s') : ReaderInv s' := by
  cases act with
  | readLoop => cases hs
  | send f =>
    simp only [PyServer.runAct] at hs
    split at hs
    · cases hs
      exact h.send hr
    · cases hs
      have hback : push { s with reader := rest } [.send f] = s := by
        cases s
        simp only at hr
        rw [hr]
        rfl
      rw [hback]
      exact h.unwind
  | emitFinished id =>
    simp only [PyServer.runAct] at hs
    split at hs
    · cases hs
      exact (h.pop hr rfl).unwind
    · cases hs
      exact h.pop hr rfl
  | notifyAll =>
    cases hs
    exact (h.pop hr rfl).congr (by simp) (by simp) (by simp) (by simp)
  | requestShutdown sendAck =>
    cases hs
    exact (h.pop hr rfl).requestShutdown sendAck
  | shutdownTerminalEventsEnqueued =>
    cases hs
    exact (h.pop hr rfl).congr (by simp) (by simp) (by simp) (by simp)
  | returned ids =>
    cases hs
    exact (h.pop hr rfl).congr rfl rfl rfl rfl

theorem ReaderInv.engine {e : EngineEv} (h : ReaderInv s) (hf : EngineFrame e s s') : ReaderInv s' := by
  have hsub : ∀ r ∈ answered s.handed, r ∈ answered s'.handed := by
    intro r hm
    rcases hf.handed with hh | ⟨f, hh⟩
    · exact hh ▸ hm
    · rw [hh, answered_append]
      exact List.mem_append_left _ hm
  have href : refused s'.handed = refused s.handed := by
    rcases hf.handed with hh | ⟨f, hh⟩
    · rw [hh]
    · rw [hh, refused_append]
      simp [refused, Handed.refuses]
  refine ⟨?_, ?_, ?_, ?_, ?_⟩
  · rw [hf.admitted, hf.ready]; exact h.ready
  · rw [hf.reader]; exact h.below
  · rw [hf.reader]; exact h.returns.mono hsub
  · rw [hf.admitted, hf.reader, href]; exact h.unrefused
  · rw [hf.reader]; exact h.mute

theorem ReaderInv.step {e : Ev} (h : ReaderInv s) (hinv : Inv cfg s.tables s.engine.role)
    (hok : ∀ c, e = .receive c → OneUse s c) (hs : step cfg s e = some s') : ReaderInv s' := by
  cases e with
  | receive c =>
    simp only [PyServer.step] at hs
    split at hs
    · rename_i rest hr
      cases hs
      rcases frame_replies hinv h.ready c (hok c rfl) with ⟨acts, hrep⟩ | hu | hd
      · exact h.replies hr hrep
      · rw [hu]; exact h.unwind
      · rw [hd]
        have hpop := h.pop hr rfl
        refine ⟨hpop.ready, ?_, ?_, ?_, ?_⟩
        · rw [hr]
          exact List.pairwise_cons.mpr ⟨fun _ _ he => (by cases he), hpop.below⟩
        · rw [hr]
          exact ⟨by simp [Act.returns], hpop.returns⟩
        · rw [hr]; exact hpop.unrefused
        · rw [hr]
          intro a ha
          rcases List.mem_cons.mp ha with rfl | ha
          · simp [Act.speaks]
          · exact hpop.mute a ha
    · cases hs
  | eof =>
    simp only [PyServer.step] at hs
    split at hs
    · rename_i rest hr
      cases hs
      exact h.pop hr rfl
    · cases hs
  | reader =>
    simp only [PyServer.step] at hs
    split at hs
    · rename_i act rest hr
      exact h.runAct hr hs
    · cases hs
  | engine e => exact h.engine (engine_frame hs)

end ReaderInv

theorem reach_readerInv {cfg : Config} {ok : St → Ev → Prop} {s : St} (hok : ∀ s e, ok s e → Lawful s e)
    (h : Reach (step cfg) ok init s) : ReaderInv s := by
  refine h.inv (I := ReaderInv) ?_ ?_
  · exact ⟨by simp [init], by simp [init, Act.refuses], settles_of_forall (by simp [init, Act.returns]), by simp [init],
      by simp [init, Act.speaks]⟩
  · intro s e s' hr hi he hs
    refine hi.step (reach_inv hr) (fun c hc => ?_) hs
    subst hc
    exact hok _ _ he

/-- Every admitted request has what it is owed: sent, due, or lost to an exception. -/
theorem reach_owed {cfg : Config} {ok : St → Ev → Prop} {s : St} (hok : ∀ s e, ok s e → OneAnswer s e)
    (h : Reach (step cfg) ok init s) : ∀ r, answers s r = owed s.tables r := by
  refine h.inv (I := fun s => ∀ r, answers s r = owed s.tables r) ?_ ?_
  · intro r
    rfl
  · intro s e s' hr hi he hs
    refine effect_owed (step_effect True (fun _ id outcome hev hpc => ?_) hs) (reach_inv hr) hi
    have hrace := (hok _ _ he).2 (by rw [hev]; rfl)
    rw [hpc] at hrace
    exact hrace

theorem act_settled {cfg : Config} {s s' : St} {act : Act} {rest : List Act}
    (hs : runAct cfg { s with reader := rest } act = some s') :
    (∀ r ∈ answered s.handed, r ∈ answered s'.handed) ∧
      (s'.settled = s.settled ∨ ∃ ids, act = .returned ids ∧ s'.settled = s.settled ++ ids) := by
  cases act with
  | readLoop => cases hs
  | send f =>
    simp only [runAct] at hs
    split at hs <;> cases hs
    · refine ⟨fun r hm => ?_, .inl rfl⟩
      simp only [hand, answered_append]
      exact List.mem_append_left _ hm
    · exact ⟨fun _ hm => hm, .inl rfl⟩
  | emitFinished id =>
    simp only [runAct] at hs
    split at hs <;> cases hs <;> exact ⟨fun _ hm => hm, .inl rfl⟩
  | notifyAll =>
    cases hs
    exact ⟨by simp, .inl (by simp)⟩
  | requestShutdown sendAck =>
    cases hs
    unfold requestShutdown
    split
    · exact ⟨by simp, .inl (by simp)⟩
    · exact ⟨fun _ hm => hm, .inl rfl⟩
  | shutdownTerminalEventsEnqueued =>
    cases hs
    exact ⟨by simp, .inl (by simp)⟩
  | returned ids =>
    cases hs
    exact ⟨fun _ hm => hm, .inr ⟨ids, rfl, rfl⟩⟩

/-- A call that released a slot and returned has sent the slot's terminal frame. -/
theorem reach_settled {cfg : Config} {s : St} (h : Reach (step cfg) OnTime init s) :
    ∀ r ∈ s.settled, r ∈ answered s.handed := by
  refine h.inv (I := fun s => ∀ r ∈ s.settled, r ∈ answered s.handed) (by simp [init]) ?_
  intro s e s' hr hi he hs r hm
  have hreader := reach_readerInv (fun _ _ h => h.1.1) hr
  cases e with
  | receive c =>
    simp only [step] at hs
    split at hs
    · cases hs
      rcases frame_replies (reach_inv hr) hreader.ready c he.1.1 with ⟨acts, hrep⟩ | hu | hd
      · rw [hrep.handed]
        exact hi r (hrep.settled ▸ hm)
      · rw [hu] at hm ⊢
        exact hi r hm
      · rw [hd] at hm ⊢
        exact hi r hm
    · cases hs
  | eof =>
    simp only [step] at hs
    split at hs <;> cases hs
    exact hi r hm
  | reader =>
    simp only [step] at hs
    split at hs
    · rename_i act rest hact
      obtain ⟨hsub, hset⟩ := act_settled hs
      rcases hset with hset | ⟨ids, rfl, hset⟩
      · exact hsub r (hi r (hset ▸ hm))
      · rw [hset] at hm
        rcases List.mem_append.mp hm with hm | hm
        · exact hsub r (hi r hm)
        · exact hsub r ((hact ▸ hreader.returns : ReturnsAnswered _ (.returned ids :: rest)).1 r hm)
    · cases hs
  | engine e =>
    have hf := engine_frame hs
    have hsub : ∀ r ∈ answered s.handed, r ∈ answered s'.handed := by
      intro r hm
      rcases hf.handed with hh | ⟨f, hh⟩
      · exact hh ▸ hm
      · rw [hh, answered_append]
        exact List.mem_append_left _ hm
    rcases hf.settled with hset | ⟨id, hset, hid⟩
    · exact hsub r (hi r (hset ▸ hm))
    · rw [hset] at hm
      rcases List.mem_append.mp hm with hm | hm
      · exact hsub r (hi r hm)
      · rw [List.mem_singleton.mp hm]
        rcases hid with hid | ⟨rfl, hpc, hn⟩
        · exact hid
        · have hsent := he.2 rfl
          rw [hpc] at hsent
          exact hsub id (hsent hn)

/-! ## One terminal frame -/

/-- A terminal frame that carries `r`: `completed`, `cancelled` or an `error_json`. -/
def OutFrame.isTerminal (r : RequestId) : OutFrame → Bool
  | .completed id _ | .cancelled id | .error id _ => id == r
  | _ => false

def terminals (r : RequestId) (handed : List Handed) : Nat := handed.countP (·.frame.isTerminal r)

/-- A terminal frame ends its request or refuses a frame. -/
theorem terminals_eq (r : RequestId) (handed : List Handed) :
    terminals r handed = (answered handed).count r + (refused handed).count r := by
  induction handed with
  | nil => rfl
  | cons h handed ih =>
    have hone : (if h.frame.isTerminal r = true then 1 else 0) =
        (answered [h]).count r + (refused [h]).count r := by
      have single : ∀ id : RequestId, (if (id == r) = true then 1 else 0) = List.count r [id] + List.count r [] := by
        intro id
        rw [List.count_singleton, List.count_nil]
        rfl
      rcases h with ⟨th, f⟩
      cases f with
      | ready | pong | shutdownAck | queued | started | audioPcm => cases th <;> rfl
      | completed id trace => cases th <;> exact single id
      | cancelled id => cases th <;> exact single id
      | error id e =>
        cases th with
        | engine => exact single id
        | reader => exact (single id).trans (Nat.add_comm _ _)
    rw [← List.singleton_append, answered_append, refused_append, List.count_append, List.count_append]
    unfold terminals at ih ⊢
    rw [List.singleton_append, List.countP_cons, ih, hone]
    omega

/-- Exactly one terminal frame for each admitted request: at most one in every state that
    runs without the race reach, and one once the call that released the slot has returned. -/
theorem one_terminal (cfg : Config) :
    (∀ s, Reach (step cfg) OneAnswer init s → ∀ r ∈ s.tables.admitted, terminals r s.handed ≤ 1) ∧
      ∀ s, Reach (step cfg) OnTime init s → ∀ r ∈ s.settled, r ∈ s.tables.admitted ∧ terminals r s.handed = 1 := by
  have most : ∀ s, Reach (step cfg) OneAnswer init s → ∀ r ∈ s.tables.admitted,
      terminals r s.handed = (answered s.handed).count r ∧ (answered s.handed).count r ≤ 1 := by
    intro s hs r hr
    have hrefused := (reach_readerInv (fun _ _ h => h.1) hs).unrefused r hr
    have howed := reach_owed (fun _ _ h => h) hs r
    have hle : owed s.tables r ≤ 1 := owed_le_one
    rw [terminals_eq, List.count_eq_zero.mpr hrefused.1]
    unfold answers at howed
    omega
  refine ⟨fun s hs r hr => ?_, fun s hs r hr => ?_⟩
  · have := most s hs r hr
    omega
  · have hone : Reach (step cfg) OneAnswer init s := hs.mono fun _ _ h => h.1
    have hsent := reach_settled hs r hr
    have hpos := List.count_pos_iff.mpr hsent
    have hadm : r ∈ s.tables.admitted := by
      by_contra hn
      have howed := reach_owed (fun _ _ h => h) hone r
      have hphys : r ∉ s.tables.physical := fun hm => hn ((reach_inv hs).admitted_of_physical hm)
      simp only [owed, if_neg hphys, if_neg hn, answers] at howed
      omega
    have := most s hone r hadm
    exact ⟨hadm, by omega⟩

instance (s : St) : (e : Ev) → Decidable (Lawful s e)
  | .receive c => inferInstanceAs (Decidable (OneUse s c))
  | .eof | .reader | .engine _ => .isTrue trivial

/-- Request 1 is admitted and taken, and its engine call ends normally. -/
def runToEnd : List Ev :=
  [.receive (.hello 0), .reader, .receive (.synthesize 1 (.request { requestId := 1, text := PyStr.lit "a" })),
    .reader, .reader, .engine .next, .engine .next, .engine (.described none), .engine .next, .engine .ends,
    .engine .next]

/-- The engine thread releases the slot and sends its terminal frame. -/
def finishRequest : List Ev := [.engine .next, .engine (.trace none), .engine .next]

/-- The reader handles a cancel of the running request 1 up to the end. -/
def handleRunningCancel : List Ev := [.receive (.cancel 1), .reader, .reader]

/-- A cancel handled between the engine thread's last test of the cancel event and its
    `_terminalize_locked` gives the request two terminal frames. -/
theorem a_late_cancel_sends_two_terminals :
    ∃ s, Reach (step (sampleConfig 1)) Lawful init s ∧ 1 ∈ s.tables.admitted ∧ terminals 1 s.handed = 2 := by
  have hrun : ∃ s, Reach (step (sampleConfig 1)) Lawful init s ∧
      decide (1 ∈ s.tables.admitted ∧ terminals 1 s.handed = 2) = true :=
    exists_reach_of_run (runToEnd ++ handleRunningCancel ++ finishRequest) (by decide +kernel)
  obtain ⟨s, hs, hp⟩ := hrun
  exact ⟨s, hs, of_decide_eq_true hp⟩

instance (s : St) : (pc : EnginePc) → Decidable (Unanswered s pc)
  | .terminalize id _ => inferInstanceAs (Decidable (s.tables.notified id = false))
  | .take | .waiting | .entry _ | .describe _ | .sendStarted _ | .stream _ | .chunkTest _ _ | .chunkRetest _ _
  | .sendAudio _ _ | .raised _ _ | .afterStream _ | .finishCancelled _ | .popTrace _ | .sendTerminal _ _
  | .loopEnded | .sendAck | .exited | .dead _ => .isTrue trivial

instance (s : St) : (pc : EnginePc) → Decidable (CancelSent s pc)
  | .finishCancelled id => inferInstanceAs (Decidable (s.tables.notified id = true → id ∈ answered s.handed))
  | .take | .waiting | .entry _ | .describe _ | .sendStarted _ | .stream _ | .chunkTest _ _ | .chunkRetest _ _
  | .sendAudio _ _ | .raised _ _ | .afterStream _ | .terminalize _ _ | .popTrace _ | .sendTerminal _ _
  | .loopEnded | .sendAck | .exited | .dead _ => .isTrue trivial

instance (s : St) (e : Ev) : Decidable (OneAnswer s e) := inferInstanceAs (Decidable (_ ∧ _))

instance (s : St) (e : Ev) : Decidable (OnTime s e) := inferInstanceAs (Decidable (_ ∧ _))

/-- The same request without the cancel. -/
theorem one_terminal_of_uncancelled :
    ∃ s, Reach (step (sampleConfig 1)) OnTime init s ∧ 1 ∈ s.settled ∧ terminals 1 s.handed = 1 := by
  have hrun : ∃ s, Reach (step (sampleConfig 1)) OnTime init s ∧ decide (1 ∈ s.settled) = true :=
    exists_reach_of_run (runToEnd ++ finishRequest) (by decide +kernel)
  obtain ⟨s, hs, hp⟩ := hrun
  have hsettled := of_decide_eq_true hp
  exact ⟨s, hs, hsettled, ((one_terminal (sampleConfig 1)).2 s hs 1 hsettled).2⟩

end QwenTtsBridge.Worker.PyServer
