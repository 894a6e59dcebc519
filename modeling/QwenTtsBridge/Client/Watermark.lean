/-
  QwenTtsBridge.Client.Watermark — the client's request ids against the workers' rule that
  an id must exceed the highest admitted one.

  Only an admission moves a worker's mark, to the id of the frame at hand (`mark_step`), so
  it is never above the ids of the `synthesize` frames received. A client's frames have
  increasing ids (`RequestIds`), however many of them were refused, lost or never sent.

  Proved: `ids_increase_and_are_no_duplicates`.
-/

import QwenTtsBridge.Client.RequestIds
import QwenTtsBridge.Lib.Watermark
import QwenTtsBridge.Worker.PyTerminal
import QwenTtsBridge.Worker.NativeTerminal

/-! ## The Python worker -/

namespace QwenTtsBridge.Worker.PyServer

open QwenTtsBridge.Lib.Transition QwenTtsBridge.Lib.Watermark

section Mark

variable {cfg : Config} {s s' : St} {id : RequestId}

/-- The mark moves only to the id of the `synthesize` frame at hand. -/
theorem mark_step (s : St) (e : Ev) (s' : St) (h : step cfg s e = some s') :
    s'.tables.acceptedRequestIdHighWater = s.tables.acceptedRequestIdHighWater ∨
      e.synthesizes = some s'.tables.acceptedRequestIdHighWater := by
  have heffect : Effect cfg False (view s) (view s') := step_effect False False.elim h
  rcases effect_highWater heffect with ⟨hsame, -⟩ | ⟨-, hgrow⟩
  · exact .inl hsame
  · rcases admitted_step h with heq | ⟨id, hid, heq⟩
    · have hlen := congrArg List.length (heq.symm.trans hgrow)
      rw [List.length_append] at hlen
      exact absurd hlen (by simp [view])
    · have hone : [id] = [s'.tables.acceptedRequestIdHighWater] := List.append_cancel_left (heq.symm.trans hgrow)
      exact .inr (hid.trans (congrArg some (List.head_eq_of_cons_eq hone)))

/-- The worker refuses the frame because its id was used. -/
def duplicateRequestId : ErrorMessage :=
  .lit "request_error" "duplicate_request_id" "request_id was already used in this session"

theorem synthesize_not_duplicate {request : SynthesisRequest} (hactive : id ∉ s.tables.active)
    (hmark : s.tables.acceptedRequestIdHighWater < id) :
    handleFrame cfg s (.synthesize id (.request request)) ≠ sendError s id duplicateRequestId := by
  have hother : ∀ e i, e ≠ duplicateRequestId → sendError s i e ≠ sendError s id duplicateRequestId := by
    intro e i hne heq
    have hreader := congrArg St.reader heq
    simp only [sendError, push, List.cons_append, List.cons.injEq, Act.send.injEq, OutFrame.error.injEq] at hreader
    exact hne hreader.1.2
  have hdup : ¬ (id ∈ s.tables.active ∨ id ≤ s.tables.acceptedRequestIdHighWater) := by
    rw [not_or]
    exact ⟨hactive, Nat.not_le.mpr hmark⟩
  simp only [handleFrame]
  split
  · exact hother _ _ (by decide)
  unfold handleSynthesize
  split
  · exact hother _ _ (by decide)
  split
  · exact hother _ _ (by decide)
  simp only [admission, if_neg hdup]
  split
  · exact hother _ _ (by decide)
  · intro heq
    have hreader := congrArg St.reader heq
    simp [push, sendError] at hreader

/-- A client whose `synthesize` frames have increasing non-zero ids gets no
    `duplicate_request_id`. -/
theorem not_duplicate_of_increasing {es : List Ev} {request : SynthesisRequest}
    (h : after (step cfg) init es = some s) (hpos : 0 < id)
    (hinc : (es.filterMap Ev.synthesizes ++ [id]).Pairwise (· < ·)) :
    handleFrame cfg s (.synthesize id (.request request)) ≠ sendError s id duplicateRequestId := by
  have hmark : s.tables.acceptedRequestIdHighWater < id := 
    mark_lt_of_increasing (·.tables.acceptedRequestIdHighWater) rfl mark_step h hpos hinc
  have hinv := reach_inv (reach_of_after .init h)
  refine synthesize_not_duplicate (fun hactive => ?_) hmark
  have hadm := hinv.admitted_of_physical (hinv.activePhysical id hactive)
  exact Nat.lt_irrefl _ (Nat.lt_of_le_of_lt (hinv.admittedBelow id hadm).2 hmark)

end Mark

end QwenTtsBridge.Worker.PyServer

/-! ## The native worker -/

namespace QwenTtsBridge.Worker.NativeServer

open QwenTtsBridge.Protocol.Control QwenTtsBridge.Lib.Transition QwenTtsBridge.Lib.Watermark

def Ev.synthesizes : Ev → Option RequestId
  | .receive (.message id (.synthesize _)) _ => some id
  | _ => none

section Mark

variable {cfg : Config} {s s' : St} {t : Tables} {id : RequestId}

/-- No slot enters `active_` and nothing is admitted. -/
structure Shrinks (t t' : Tables) : Prop where
  highWater : t'.acceptedIdHighWater = t.acceptedIdHighWater
  active : t'.active.Sublist t.active

theorem Shrinks.refl : Shrinks t t := ⟨rfl, List.Sublist.refl _⟩

theorem Shrinks.trans {t' t'' : Tables} (h : Shrinks t t') (h' : Shrinks t' t'') : Shrinks t t'' :=
  ⟨h'.highWater.trans h.highWater, h'.active.trans h.active⟩

theorem shrinks_takeTerminal : Shrinks t (t.takeTerminal id) := ⟨rfl, List.erase_sublist⟩

theorem shrinks_drainPending (ids : List RequestId) : Shrinks t (t.drainPending ids).1 := by
  induction ids generalizing t with
  | nil => exact .refl
  | cons id ids ih =>
    simp only [Tables.drainPending]
    have hfirst : Shrinks t ({ t with pending := ids }.cancel id) := ⟨rfl, List.Sublist.refl _⟩
    split
    · exact hfirst.trans ih
    · exact (hfirst.trans shrinks_takeTerminal).trans ih

/-- What one step does to the mark and to `active_`. -/
theorem effect_mark {v v' : View} (e : Effect v v') :
    Shrinks v.tables v'.tables ∨ ∃ id request, v.tables.acceptedIdHighWater < id ∧
      v'.tables = v.tables.accept id request := by
  cases e with
  | accept id request hid => exact .inr ⟨id, request, hid, rfl⟩
  | none | answered | exchanged | take | cancelRunning | cancelAgain | cancelActive | exchange =>
    exact .inl ⟨rfl, List.Sublist.refl _⟩
  | cancelQueued id slot => exact .inl ⟨rfl, List.erase_sublist⟩
  | shutdown => exact .inl ⟨(shrinks_drainPending _).highWater, (shrinks_drainPending _).active⟩
  | release id => exact .inl ⟨rfl, List.erase_sublist⟩

theorem active_below (h : Reachable cfg s) : ∀ r ∈ s.tables.active, r ≤ s.tables.acceptedIdHighWater := by
  refine h.inv (I := fun s => ∀ r ∈ s.tables.active, r ≤ s.tables.acceptedIdHighWater) nofun ?_
  intro s e s' _ hi _ hs
  rcases effect_mark (step_effect hs) with hsh | ⟨id, request, hid, heq⟩
  · intro r hr
    have hle := hi r (hsh.active.subset hr)
    exact hsh.highWater ▸ hle
  · intro r hr
    replace heq : s'.tables = s.tables.accept id request := heq
    rw [heq] at hr ⊢
    show r ≤ id
    simp only [Tables.accept] at hr
    split at hr
    · exact Nat.le_of_lt (Nat.lt_of_le_of_lt (hi r hr) hid)
    · rcases List.mem_append.mp hr with hr | hr
      · exact Nat.le_of_lt (Nat.lt_of_le_of_lt (hi r hr) hid)
      · exact Nat.le_of_eq (List.mem_singleton.mp hr)

theorem mark_synthesize (cfg : Config) (s : St) (id : RequestId) (request : SynthesizeMessage) :
    (handleSynthesize cfg s id request).tables.acceptedIdHighWater = s.tables.acceptedIdHighWater ∨
      (handleSynthesize cfg s id request).tables.acceptedIdHighWater = id := by
  unfold handleSynthesize
  split
  · exact .inl rfl
  split
  · exact .inl rfl
  unfold admission
  split
  · exact .inl rfl
  split
  · exact .inl rfl
  split
  · exact .inl rfl
  · exact .inr rfl

theorem mark_cancel (stale : Bool) :
    (handleCancel s id stale).tables.acceptedIdHighWater = s.tables.acceptedIdHighWater := by
  unfold handleCancel
  split
  · rfl
  split
  · split <;> rfl
  simp only
  split
  · rfl
  split
  · rfl
  split <;> rfl

theorem mark_frame (stale : Bool) (input : Input) :
    (handleFrame cfg s stale input).tables.acceptedIdHighWater = s.tables.acceptedIdHighWater ∨
      Ev.synthesizes (.receive input stale) = some (handleFrame cfg s stale input).tables.acceptedIdHighWater := by
  cases input with
  | wrongType id => exact .inl rfl
  | undecodable id code diagnostic => exact .inl rfl
  | message id m =>
    simp only [handleFrame]
    split
    · exact .inl rfl
    split
    · simp only [handleHello]
      split <;> exact .inl rfl
    · rename_i request _
      rcases mark_synthesize cfg s id request with h | h
      · exact .inl h
      · exact .inr (congrArg some h.symm)
    · exact .inl (mark_cancel stale)
    · simp only [handlePing]
      split <;> exact .inl rfl
    · simp only [handleShutdown]
      split <;> exact .inl rfl
    · exact .inl rfl

theorem mark_act {act : Act} (h : runAct s act = some s') :
    s'.tables.acceptedIdHighWater = s.tables.acceptedIdHighWater := by
  cases act with
  | readLoop => cases h
  | requestShutdown sendAck =>
    cases h
    simp only [requestShutdown]
    split
    · rfl
    · exact (shrinks_drainPending _).highWater
  | send | failFatal | shutdownTerminalsEnqueued | returned =>
    cases h
    rfl

theorem mark_engine {e : EngineEv} (h : stepEngine s e = some s') :
    s'.tables.acceptedIdHighWater = s.tables.acceptedIdHighWater := by
  cases e with
  | chunk pcm | result r =>
    simp only [stepEngine] at h
    split at h <;> cases h
    rfl
  | next seen =>
    simp only [stepEngine] at h
    split at h
    · unfold takeNextRequest at h
      split at h
      · split at h <;> cases h
        rfl
      · cases h
        rfl
    · split at h <;> cases h
      rfl
    · split at h <;> cases h
      rfl
    · split at h
      · cases h
      split at h
      · cases h
        rfl
      · split at h <;> cases h <;> rfl
    · cases h
      rfl
    · cases h
      rfl
    · split at h <;> cases h <;> rfl
    · cases h
      rfl
    · cases h
      rfl
    · cases h
      rfl
    · cases h
      rfl
    · cases h

/-- The mark moves only to the id of the `synthesize` frame at hand. -/
theorem mark_step (s : St) (e : Ev) (s' : St) (h : step cfg s e = some s') :
    s'.tables.acceptedIdHighWater = s.tables.acceptedIdHighWater ∨
      e.synthesizes = some s'.tables.acceptedIdHighWater := by
  cases e with
  | receive input stale =>
    simp only [step] at h
    split at h <;> cases h
    exact mark_frame stale input
  | framingError | eof =>
    simp only [step] at h
    split at h <;> cases h
    exact .inl rfl
  | reader =>
    simp only [step] at h
    split at h
    · have hact := mark_act h
      exact .inl hact
    · cases h
  | engine e => exact .inl (mark_engine h)

def duplicateRequestId : ErrorMessage :=
  .lit "request_error" "duplicate_request_id" "request_id was already used in this session"

theorem synthesize_not_duplicate {stale : Bool} {request : SynthesizeMessage}
    (hvalid : cfg.validateRequest request = none) (hactive : id ∉ s.tables.active)
    (hmark : s.tables.acceptedIdHighWater < id) :
    handleFrame cfg s stale (.message id (.synthesize request)) ≠ sendError s id duplicateRequestId := by
  have hother : ∀ e i, e ≠ duplicateRequestId → sendError s i e ≠ sendError s id duplicateRequestId := by
    intro e i hne heq
    have hreader := congrArg St.reader heq
    simp only [sendError, push, List.cons_append, List.cons.injEq, Act.send.injEq, OutFrame.error.injEq] at hreader
    exact hne hreader.1.2
  have hdup : ¬ (id ∈ s.tables.active ∨ id ≤ s.tables.acceptedIdHighWater) := by
    rw [not_or]
    exact ⟨hactive, Nat.not_le.mpr hmark⟩
  simp only [handleFrame]
  split
  · exact hother _ _ (by decide)
  unfold handleSynthesize
  split
  · exact hother _ _ (by decide)
  simp only [hvalid, admission, if_neg hdup]
  split
  · exact hother _ _ (by decide)
  split
  · exact hother _ _ (by decide)
  · intro heq
    have hreader := congrArg St.reader heq
    simp [push, sendError] at hreader

theorem not_duplicate_of_increasing {es : List Ev} {stale : Bool} {request : SynthesizeMessage}
    (hvalid : cfg.validateRequest request = none) (h : after (step cfg) init es = some s) (hpos : 0 < id)
    (hinc : (es.filterMap Ev.synthesizes ++ [id]).Pairwise (· < ·)) :
    handleFrame cfg s stale (.message id (.synthesize request)) ≠ sendError s id duplicateRequestId := by
  have hmark : s.tables.acceptedIdHighWater < id :=
    mark_lt_of_increasing (·.tables.acceptedIdHighWater) rfl mark_step h hpos hinc
  refine synthesize_not_duplicate hvalid (fun hactive => ?_) hmark
  exact Nat.lt_irrefl _ (Nat.lt_of_le_of_lt (active_below (reach_of_after .init h) id hactive) hmark)

end Mark

end QwenTtsBridge.Worker.NativeServer

/-! ## The client against either worker -/

namespace QwenTtsBridge.Client

open QwenTtsBridge.Worker QwenTtsBridge.Protocol.Control QwenTtsBridge.Lib.Transition QwenTtsBridge.Lib.Watermark

/-- A non-zero id that `synthesize_async` returns is a newly allocated one. -/
theorem returned_id {opts : Options} {s : St} {callbacks : TtsCallbacks} {sub : Submission}
    (h : (synthesizeAsync opts s callbacks sub).2 ≠ 0) :
    s.nextRequestId ≠ 0 ∧
      (synthesizeAsync opts s callbacks sub).1.allocated = s.allocated ++ [(synthesizeAsync opts s callbacks sub).2] := by
  rcases synthesize_cases opts s callbacks sub with
    ⟨refusals, heq⟩ | ⟨id, request, hnext, -, -, -, -, heq | ⟨message, s', henq, heq⟩⟩
  · rw [heq] at h
    exact absurd rfl h
  · rw [heq] at h
    exact absurd rfl h
  · refine ⟨hnext, ?_⟩
    rw [heq]
    exact (enqueue_spec henq).2.1.trans (congrArg IdView.allocated (ids_give s id request))

/-- In one client session ids are allocated in increasing order, none is zero, none is given
    out after the largest, and `synthesize` commands are sent in the order of their ids; so
    neither worker refuses a `synthesize` frame of the client as a duplicate, in whatever state
    its run has brought it. -/
theorem ids_increase_and_are_no_duplicates (opts : Options) (s : St) (hs : Reachable opts s) :
    (s.allocated.Pairwise (· < ·) ∧ (∀ id ∈ s.allocated, id ≠ 0) ∧ (synthesizeIds s.sent).Sublist s.allocated ∧
      (synthesizeIds s.sent).Pairwise (· < ·) ∧
      (s.nextRequestId = 0 → UInt64.ofNat (2 ^ 64 - 1) ∈ s.allocated)) ∧
    (∀ callbacks sub, (synthesizeAsync opts s callbacks sub).2 ≠ 0 →
      s.nextRequestId ≠ 0 ∧ (∀ id ∈ s.allocated, id < (synthesizeAsync opts s callbacks sub).2) ∧
        (synthesizeAsync opts s callbacks sub).1.allocated =
          s.allocated ++ [(synthesizeAsync opts s callbacks sub).2]) ∧
    (∀ (cfg : PyServer.Config) (es : List PyServer.Ev) (w : PyServer.St) (id : Nat) (request : PyServer.SynthesisRequest),
      (es.filterMap PyServer.Ev.synthesizes ++ [id]).Sublist ((synthesizeIds s.sent).map UInt64.toNat) →
      after (PyServer.step cfg) PyServer.init es = some w →
      PyServer.handleFrame cfg w (.synthesize id (.request request)) ≠
        PyServer.sendError w id PyServer.duplicateRequestId) ∧
    ∀ (cfg : NativeServer.Config) (es : List NativeServer.Ev) (w : NativeServer.St) (id : Nat) (stale : Bool)
      (request : SynthesizeMessage), cfg.validateRequest request = none →
      (es.filterMap NativeServer.Ev.synthesizes ++ [id]).Sublist ((synthesizeIds s.sent).map UInt64.toNat) →
      after (NativeServer.step cfg) NativeServer.init es = some w →
      NativeServer.handleFrame cfg w stale (.message id (.synthesize request)) ≠
        NativeServer.sendError w id NativeServer.duplicateRequestId := by
  have hinv := reach_ids hs
  have hsent : (synthesizeIds s.sent).Sublist s.allocated := by
    refine List.Sublist.trans ?_ hinv.sent
    simp only [St.ids, St.line, synthesizeIds_append, List.append_assoc]
    exact List.sublist_append_left _ _
  have hinc : (synthesizeIds s.sent).Pairwise (· < ·) := hinv.increasing.sublist hsent
  -- what either worker has received so far increases, and its last id is not zero
  have hfresh : ∀ {ids : List Nat} {id : Nat}, (ids ++ [id]).Sublist ((synthesizeIds s.sent).map UInt64.toNat) →
      0 < id ∧ (ids ++ [id]).Pairwise (· < ·) := by
    intro ids id hsub
    have hnat : ((synthesizeIds s.sent).map UInt64.toNat).Pairwise (· < ·) :=
      List.pairwise_map.mpr (hinc.imp fun h => UInt64.lt_iff_toNat_lt.mp h)
    refine ⟨?_, hnat.sublist hsub⟩
    obtain ⟨i, hi, rfl⟩ := List.mem_map.mp (hsub.subset (List.mem_append_right _ List.mem_cons_self))
    refine Nat.pos_of_ne_zero fun h0 => hinv.nonzero i (hsent.subset hi) ?_
    exact UInt64.toNat_inj.mp h0
  refine ⟨⟨hinv.increasing, hinv.nonzero, hsent, hinc, hinv.exhausted⟩, ?_, ?_, ?_⟩
  · intro callbacks sub hne
    obtain ⟨hnext, hgrow⟩ := returned_id hne
    have hinv' : IdInv (synthesizeAsync opts s callbacks sub).1.ids := hinv.effect (synthesize_ids callbacks sub)
    have hpair : (s.allocated ++ [(synthesizeAsync opts s callbacks sub).2]).Pairwise (· < ·) := hgrow ▸ hinv'.increasing
    exact ⟨hnext, fun id hid => (List.pairwise_append.mp hpair).2.2 id hid _ List.mem_cons_self, hgrow⟩
  · intro cfg es w id request hsub hrun
    obtain ⟨hpos, hpair⟩ := hfresh hsub
    exact PyServer.not_duplicate_of_increasing hrun hpos hpair
  · intro cfg es w id stale request hvalid hsub hrun
    obtain ⟨hpos, hpair⟩ := hfresh hsub
    exact NativeServer.not_duplicate_of_increasing hvalid hrun hpos hpair

/-- Two requests, whose commands are sent; the worker was given the first. -/
theorem the_second_id_is_no_duplicate : ∃ s w, Reachable sampleOptions s ∧ synthesizeIds s.sent = [1, 2] ∧
    after (PyServer.step (PyServer.sampleConfig 2)) PyServer.init PyServer.cancelWhileRunning = some w ∧
      PyServer.handleFrame (PyServer.sampleConfig 2) w (.synthesize 2 (.request { requestId := 2, text := [] })) ≠
        PyServer.sendError w 2 PyServer.duplicateRequestId := by
  have hrun : ∃ s, Reachable sampleOptions s ∧ decide (synthesizeIds s.sent = [1, 2]) = true :=
    exists_reach_of_run [sampleRequest {}, sampleRequest {}, .writer, .writer, .writer, .writer] (by decide +kernel)
  obtain ⟨s, hs, hp⟩ := hrun
  have hsent : synthesizeIds s.sent = [1, 2] := of_decide_eq_true hp
  have hworker : (after (PyServer.step (PyServer.sampleConfig 2)) PyServer.init
      PyServer.cancelWhileRunning).isSome = true := by decide +kernel
  obtain ⟨w, hw⟩ := Option.isSome_iff_exists.mp hworker
  refine ⟨s, w, hs, hsent, hw, ?_⟩
  refine (ids_increase_and_are_no_duplicates sampleOptions s hs).2.2.1 _ _ w 2 _ ?_ hw
  rw [hsent]
  decide +kernel

end QwenTtsBridge.Client
