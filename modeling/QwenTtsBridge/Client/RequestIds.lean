/-
  QwenTtsBridge.Client.RequestIds — the request ids of one client session, and the order in
  which their `synthesize` commands are sent.

  An id is allocated and its command queued in one region under the mutex, the queue is
  FIFO, and one writer thread sends. So the `synthesize` commands sent, held by the writer
  or queued have, in this order, a sublist of the ids allocated (`IdInv.sent`), and these
  only grow (`IdInv.increasing`): the id `2 ^ 64 - 1` is followed by none
  (`IdInv.exhausted`).
-/

import QwenTtsBridge.Client.Client

namespace QwenTtsBridge.Client

open QwenTtsBridge.Protocol.Control QwenTtsBridge.Session QwenTtsBridge.Lib.Transition

/-! ## What a step does to the ids -/

def WriterPc.held : WriterPc → List OutboundCommand
  | .send command => [command]
  | _ => []

def OutboundCommand.synthesizes : OutboundCommand → Option RequestId
  | ⟨id, .synthesize _, _⟩ => some id
  | _ => none

/-- The ids of the `synthesize` commands, in the order of the commands. -/
def synthesizeIds (commands : List OutboundCommand) : List RequestId :=
  commands.filterMap OutboundCommand.synthesizes

/-- The commands sent, held by the writer, and queued. -/
def St.line (s : St) : List OutboundCommand := s.sent ++ s.writer.held ++ s.outboundQueue

structure IdView where
  line : List RequestId
  allocated : List RequestId
  next : RequestId

def St.ids (s : St) : IdView := ⟨synthesizeIds s.line, s.allocated, s.nextRequestId⟩

/-- The value of `next_request_id_` after `id` is given out. -/
def idAfter (id : RequestId) : RequestId := if id = UInt64.ofNat (2 ^ 64 - 1) then 0 else id + 1

inductive IdEffect (v : IdView) : IdView → Prop
  | keep (line : List RequestId) : line.Sublist v.line → IdEffect v { v with line }
  | allocate (id : RequestId) (line : List RequestId) : v.next ≠ 0 → v.next ≤ id →
      line.Sublist (v.line ++ [id]) → IdEffect v ⟨line, v.allocated ++ [id], idAfter id⟩

theorem allocate_spec {s : St} {requestedId id next : RequestId}
    (h : allocateRequestIdLocked s requestedId = (id, next)) :
    (id = 0 ∧ next = s.nextRequestId) ∨
      (s.nextRequestId ≠ 0 ∧ s.nextRequestId ≤ id ∧ id ≠ 0 ∧ next = idAfter id) := by
  unfold allocateRequestIdLocked at h
  simp only at h
  split at h
  · cases h
    exact .inl ⟨rfl, rfl⟩
  rename_i hnext
  split at h
  · rename_i hreq
    split at h
    · cases h
      exact .inl ⟨rfl, rfl⟩
    · rename_i hlow
      cases h
      exact .inr ⟨hnext, UInt64.not_lt.mp (not_or.mp hlow).1, hreq, rfl⟩
  · cases h
    exact .inr ⟨hnext, UInt64.le_refl _, hnext, rfl⟩

section Frames

variable {opts : Options} {s s' : St} {th : Thread} {acts rest : List Act} {id : RequestId}

theorem synthesizeIds_append (a b : List OutboundCommand) :
    synthesizeIds (a ++ b) = synthesizeIds a ++ synthesizeIds b := List.filterMap_append

theorem ids_setStack (acts : List Act) : (s.setStack acts th).ids = s.ids := by cases th <;> rfl

theorem ids_push (acts : List Act) : (push s th acts).ids = s.ids := ids_setStack _

/-- An emptied queue leaves the commands before it. -/
theorem clear_effect (hs : s'.sent = s.sent) (hw : s'.writer = s.writer) (hq : s'.outboundQueue = [])
    (ha : s'.allocated = s.allocated) (hn : s'.nextRequestId = s.nextRequestId) : IdEffect s.ids s'.ids := by
  have hline : s'.line.Sublist s.line := by
    simp only [St.line, hs, hw, hq, List.append_nil]
    exact List.sublist_append_left _ _
  have hids : s'.ids = { s.ids with line := synthesizeIds s'.line } := by
    simp only [St.ids, ha, hn]
  rw [hids]
  exact .keep _ (hline.filterMap _)

theorem same_effect (h : s'.ids = s.ids) : IdEffect s.ids s'.ids := h ▸ .keep _ (List.Sublist.refl _)

theorem ids_effect {v : IdView} (h : s'.ids = v) (he : IdEffect s.ids v) : IdEffect s.ids s'.ids := h ▸ he

theorem ids_terminate (kind : Terminal) (calls : TtsCallbacks → List (Bool × Callback)) :
    (terminate s th id kind calls).ids = s.ids := by
  unfold terminate
  split
  · rfl
  · rw [ids_push]
    rfl

theorem ids_handleAudioEvent (audio : List UInt8) : (handleAudioEvent s th id audio).ids = s.ids := by
  unfold handleAudioEvent
  split
  · rfl
  · simp only
    split
    · exact ids_push _
    · rw [ids_push]
      rfl

theorem ids_handleControlEvent (m : ControlMessage) : (handleControlEvent s th id m).ids = s.ids := by
  unfold handleControlEvent
  split
  · unfold handleStarted
    split
    · rfl
    · split
      · rw [ids_push]
        rfl
      · rfl
  · exact ids_terminate _ _
  · exact ids_terminate _ _
  · rfl

theorem finishStop_effect : IdEffect s.ids (finishStop s th).ids := by
  unfold finishStop
  simp only
  split
  · exact clear_effect rfl rfl rfl rfl rfl
  · exact same_effect rfl

theorem handleLocalError_effect (type : LocalEventType) (message : CppString) :
    IdEffect s.ids (handleLocalError s th type message).ids := by
  unfold handleLocalError
  split
  · exact same_effect rfl
  · rw [ids_push]
    exact clear_effect rfl rfl rfl rfl rfl

theorem act_ids {act : Act} {order : List (RequestId × TtsCallbacks)} (h : runAct s th rest order act = some s') :
    IdEffect s.ids s'.ids := by
  cases act with
  | loop =>
    simp only [runAct] at h
    split at h <;> cases h
    exact same_effect rfl
  | handleEvent e =>
    cases e with
    | control id m =>
      cases h
      exact same_effect (ids_handleControlEvent m)
    | audio id audio =>
      cases h
      exact same_effect (ids_handleAudioEvent audio)
    | workerError id e =>
      simp only [runAct] at h
      split at h <;> cases h
      · exact same_effect (ids_push _)
      · exact same_effect (ids_terminate _ _)
    | localEvent type message =>
      cases h
      exact handleLocalError_effect type message
  | failRequest id e =>
    cases h
    exact same_effect (ids_terminate _ _)
  | failAllRequests e =>
    simp only [runAct] at h
    split at h <;> cases h
    exact same_effect (ids_push _)
  | invoke c =>
    cases h
    exact same_effect (ids_push _)
  | user =>
    cases h
    exact same_effect rfl
  | stop =>
    cases h
    rw [ids_push]
    exact clear_effect rfl rfl rfl rfl rfl
  | joinWriter =>
    simp only [runAct] at h
    split at h <;> cases h <;> exact same_effect rfl
  | joinDispatcher =>
    simp only [runAct] at h
    split at h
    · split at h <;> cases h
      exact same_effect rfl
    · cases h
      exact same_effect rfl
  | finish =>
    cases h
    exact finishStop_effect
  | returned =>
    simp only [runAct] at h
    split at h <;> cases h <;> exact same_effect rfl

/-- What an accepted command does to the line. -/
theorem enqueue_spec {m : ControlMessage} (h : enqueueOutboundLocked opts s id m = some s') :
    s'.line = s.line ++ [⟨id, m, outboundCommandSize m⟩] ∧ s'.allocated = s.allocated ∧
      s'.nextRequestId = s.nextRequestId := by
  unfold enqueueOutboundLocked at h
  simp only at h
  split at h
  · cases h
  split at h <;> cases h
  exact ⟨(List.append_assoc _ _ _).symm, rfl, rfl⟩

/-- The state after `allocate_request_id_locked` gave out `id` and the entry was made. -/
def St.give (s : St) (id : RequestId) (request : ActiveRequest) : St :=
  { s with nextRequestId := idAfter id, allocated := s.allocated ++ [id] }.emplace id request

/-- What a call of `synthesize_async` can do: be refused, spend an id and find no room for the
    command, or be accepted. -/
theorem synthesize_cases (opts : Options) (s : St) (callbacks : TtsCallbacks) (sub : Submission) :
    (∃ refusals, synthesizeAsync opts s callbacks sub = ({ s with refusals }, 0)) ∨
    ∃ id request, s.nextRequestId ≠ 0 ∧ s.nextRequestId ≤ id ∧ id ≠ 0 ∧ s.isRunning = true ∧
      request.callbacks = callbacks ∧
      (synthesizeAsync opts s callbacks sub = ((s.give id request).erase id, 0) ∨
        ∃ message s', enqueueOutboundLocked opts (s.give id request) id (.synthesize message) = some s' ∧
          synthesizeAsync opts s callbacks sub = ({ s' with accepted := s'.accepted ++ [(id, callbacks)] }, id)) := by
  cases sub with
  | refused e =>
    simp only [synthesizeAsync]
    split
    · exact .inl ⟨_, rfl⟩
    · exact .inl ⟨s.refusals, rfl⟩
  | unencodable => exact .inl ⟨s.refusals, rfl⟩
  | submit requestedId message prepared =>
    simp only [synthesizeAsync, synthesizeLocked]
    split
    · exact .inl ⟨s.refusals, rfl⟩
    rename_i hrun
    cases hal : allocateRequestIdLocked s requestedId with
    | mk id next =>
    simp only
    rcases allocate_spec hal with ⟨rfl, rfl⟩ | ⟨hnext, hle, hne, rfl⟩
    · exact .inl ⟨s.refusals, rfl⟩
    · rw [if_neg hne]
      refine .inr ⟨id, { callbacks, audioFormat := message.output, preparedText := some prepared }, hnext, hle, hne,
        by simpa using hrun, rfl, ?_⟩
      split
      · exact .inl rfl
      · rename_i s' henq
        exact .inr ⟨message, s', henq, rfl⟩

theorem ids_give (s : St) (id : RequestId) (request : ActiveRequest) :
    (s.give id request).ids = ⟨synthesizeIds s.line, s.allocated ++ [id], idAfter id⟩ := by
  unfold St.give St.emplace
  split <;> rfl

theorem synthesize_ids (callbacks : TtsCallbacks) (sub : Submission) :
    IdEffect s.ids (synthesizeAsync opts s callbacks sub).1.ids := by
  rcases synthesize_cases opts s callbacks sub with
    ⟨refusals, heq⟩ | ⟨id, request, hnext, hle, -, -, -, heq | ⟨message, s', henq, heq⟩⟩
  · rw [heq]
    exact same_effect rfl
  · rw [heq]
    exact ids_effect (ids_give s id request) (.allocate id _ hnext hle (List.sublist_append_left _ _))
  · rw [heq]
    obtain ⟨hline, ha, hn⟩ := enqueue_spec henq
    have hgive := ids_give s id request
    have hids : s'.ids = ⟨synthesizeIds s.line ++ [id], s.allocated ++ [id], idAfter id⟩ := by
      simp only [St.ids, IdView.mk.injEq] at hgive ⊢
      rw [hline, ha, hn, synthesizeIds_append, hgive.1]
      exact ⟨rfl, hgive.2⟩
    exact ids_effect hids (.allocate id _ hnext hle (List.Sublist.refl _))

theorem cancel_ids : IdEffect s.ids (cancel opts s id).1.ids := by
  unfold cancel
  split
  · exact same_effect rfl
  split
  · exact same_effect rfl
  split
  · exact same_effect rfl
  · rename_i s' h
    obtain ⟨hline, ha, hn⟩ := enqueue_spec h
    refine same_effect ?_
    simp only [St.ids, hline, ha, hn, synthesizeIds_append]
    rw [show synthesizeIds [⟨id, .cancel, outboundCommandSize .cancel⟩] = [] from rfl, List.append_nil]

theorem writer_ids (h : stepWriter s = some s') : IdEffect s.ids s'.ids := by
  unfold stepWriter at h
  split at h
  · rename_i hpc
    split at h
    · split at h <;> cases h
      refine same_effect ?_
      simp only [St.ids, St.line, hpc]
      rfl
    · rename_i command queue hq
      simp only at h
      split at h <;> cases h
      · refine same_effect ?_
        simp [St.ids, St.line, hpc, hq, WriterPc.held]
      · -- the session is gone: the command is dropped
        have hline : (s.sent ++ s.writer.held ++ queue).Sublist s.line := by
          simp only [St.line, hq]
          exact (List.Sublist.refl _).append (List.sublist_cons_self _ _)
        exact .keep _ (hline.filterMap _)
  · rename_i command hpc
    cases h
    refine same_effect ?_
    simp [St.ids, St.line, hpc, WriterPc.held]
  · cases h

end Frames

theorem step_ids {opts : Options} {s s' : St} {e : Ev} (h : step opts s e = some s') : IdEffect s.ids s'.ids := by
  cases e with
  | synthesize hooks request callbacks =>
    cases h
    exact synthesize_ids _ _
  | synthesizePrepared request prepared callbacks =>
    cases h
    exact synthesize_ids _ _
  | cancel id =>
    cases h
    exact cancel_ids
  | callStop th =>
    simp only [step] at h
    split at h <;> cases h
    exact same_effect (ids_push _)
  | event e =>
    simp only [step] at h
    split at h
    · split at h <;> cases h
      exact same_effect (ids_push _)
    · cases h
  | run th order =>
    simp only [step] at h
    split at h
    · rename_i act rest hstack
      have he := act_ids h
      rw [ids_setStack] at he
      exact he
    · cases h
  | writer => exact writer_ids h

/-! ## The ids of a session -/

structure IdInv (v : IdView) : Prop where
  sent : v.line.Sublist v.allocated
  increasing : v.allocated.Pairwise (· < ·)
  nonzero : ∀ id ∈ v.allocated, id ≠ 0
  below : v.next ≠ 0 → ∀ id ∈ v.allocated, id < v.next
  exhausted : v.next = 0 → UInt64.ofNat (2 ^ 64 - 1) ∈ v.allocated

/-- The largest id has no successor; below it `+ 1` does not wrap. -/
theorem idAfter_cases (id : RequestId) :
    (id = UInt64.ofNat (2 ^ 64 - 1) ∧ idAfter id = 0) ∨ (idAfter id ≠ 0 ∧ id < idAfter id) := by
  unfold idAfter
  split
  · rename_i hmax
    exact .inl ⟨hmax, rfl⟩
  · rename_i hmax
    have hlt : id.toNat < 2 ^ 64 - 1 := by
      have hle := id.toNat_lt
      have hne : id.toNat ≠ 2 ^ 64 - 1 := fun he => hmax (UInt64.toNat_inj.mp he)
      omega
    have hsucc : (id + 1).toNat = id.toNat + 1 := by
      rw [UInt64.toNat_add, show (1 : UInt64).toNat = 1 from rfl, Nat.mod_eq_of_lt (by omega)]
    refine .inr ⟨fun h0 => ?_, ?_⟩
    · rw [h0] at hsucc
      exact absurd hsucc (by simp)
    · rw [UInt64.lt_iff_toNat_lt, hsucc]
      omega

theorem IdInv.effect {v v' : IdView} (h : IdInv v) (e : IdEffect v v') : IdInv v' := by
  cases e with
  | keep line hsub => exact ⟨hsub.trans h.sent, h.increasing, h.nonzero, h.below, h.exhausted⟩
  | allocate id line hnext hle hsub =>
    have habove : ∀ i ∈ v.allocated, i < id := fun i hi => UInt64.lt_of_lt_of_le (h.below hnext i hi) hle
    have hpos : id ≠ 0 := by
      intro h0
      rw [h0, UInt64.le_iff_toNat_le] at hle
      exact hnext (UInt64.toNat_inj.mp (Nat.le_zero.mp hle))
    refine ⟨hsub.trans (h.sent.append (List.Sublist.refl _)), ?_, ?_, ?_, ?_⟩
    · refine List.pairwise_append.mpr ⟨h.increasing, List.pairwise_singleton _ _, fun i hi j hj => ?_⟩
      rw [List.mem_singleton.mp hj]
      exact habove i hi
    · intro i hi
      rcases List.mem_append.mp hi with hi | hi
      · exact h.nonzero i hi
      · rw [List.mem_singleton.mp hi]
        exact hpos
    · intro hne i hi
      have hlt : id < idAfter id := ((idAfter_cases id).resolve_left fun h => hne h.2).2
      rcases List.mem_append.mp hi with hi | hi
      · exact UInt64.lt_trans (habove i hi) hlt
      · rw [List.mem_singleton.mp hi]
        exact hlt
    · intro h0
      have hmax : id = UInt64.ofNat (2 ^ 64 - 1) := ((idAfter_cases id).resolve_right fun h => h.1 h0).1
      rw [← hmax]
      exact List.mem_append_right _ List.mem_cons_self

theorem reach_ids {opts : Options} {s : St} (h : Reachable opts s) : IdInv s.ids := by
  refine h.inv (I := fun s => IdInv s.ids) ?_ fun _ _ _ _ hi _ hs => hi.effect (step_ids hs)
  exact ⟨List.Sublist.refl _, List.Pairwise.nil, nofun, fun _ => nofun, fun h => absurd h (by decide)⟩

end QwenTtsBridge.Client
