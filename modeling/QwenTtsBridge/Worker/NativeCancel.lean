/-
  QwenTtsBridge.Worker.NativeCancel — the accesses of `handle_cancel` to a request slot, one by
  one (`worker/native/qwentts/stdio_server.cpp`).

  `const auto& slot = it->second` is a reference into a node of `active_`, so here it is
  the key of the node: each use looks the entry up again (`use`), and `active_.erase(it)`
  removes the key. The region under the mutex is written with one `use` for each access
  of the source, in its order, and remembers what each of them found.

  `handleCancel` of `NativeServer` leaves open what the last of these reads gives; in every
  reachable state the region is `handleCancel` where that read gives nothing
  (`handleCancel_eq_region`).

  - `cancel_is_well_defined_iff`: every access finds its entry, the reported slot is the
    removed one and the count drops exactly with a `cancelled` frame, if and only if the
    request does not wait in the queue: for one that does, `cancelled_slot = slot` comes
    after `active_.erase(it)`.
-/

import QwenTtsBridge.Worker.NativeAdmission

namespace QwenTtsBridge.Worker.NativeServer

open QwenTtsBridge.Protocol.Control QwenTtsBridge.Lib.Transition

/-- `handle_cancel` inside the mutex. `accesses` are the entries that the uses of `slot` found. -/
structure Cancelling where
  tables : Tables
  accesses : List (Option RequestSlot) := []
  /-- The entry that `active_.erase(it)` removed. -/
  removed : Option RequestSlot := none
  cancelledSlot : Option RequestSlot := none

namespace Cancelling

/-- An access through the reference `slot`. -/
def use (c : Cancelling) (id : RequestId) : Cancelling := { c with accesses := c.accesses ++ [c.tables.get? id] }

/-- The body of `if (!slot->terminal.exchange(true))`. -/
def remove (c : Cancelling) (id : RequestId) : Cancelling :=
  let c := { c with removed := c.tables.get? id, tables := c.tables.takeTerminal id }
  -- `cancelled_slot = slot`
  let c := c.use id
  { c with cancelledSlot := c.tables.get? id }

/-- The body of `if (slot->state == RequestState::Queued)`. -/
def unqueue (c : Cancelling) (id : RequestId) : Cancelling :=
  -- `std::remove(pending_.begin(), pending_.end(), slot)`
  let c := c.use id
  let c := { c with tables := { c.tables with pending := c.tables.pending.filter (· ≠ id) } }
  -- `slot->terminal.exchange(true)`
  let c := c.use id
  if (c.tables.get? id).map (·.terminal) = some false then c.remove id else c

/-- The branch in which `it` points at an entry. -/
def cancel (c : Cancelling) (id : RequestId) : Cancelling :=
  -- `slot->cancelled.store(true)`
  let c := c.use id
  let c := { c with tables := c.tables.cancel id }
  -- `slot->state`
  let c := c.use id
  if (c.tables.get? id).map (·.state) = some .queued then c.unqueue id else c

end Cancelling

/-- `handle_cancel` up to the release of the mutex. -/
def handleCancelRegion (t : Tables) (id : RequestId) : Cancelling :=
  if id ≠ 0 ∧ t.get? id ≠ none then Cancelling.cancel { tables := t } id else { tables := t }

/-- The request waits in the queue. -/
def IsQueued (s : St) (id : RequestId) : Prop :=
  id ≠ 0 ∧ ∃ slot, s.tables.get? id = some slot ∧ slot.state = .queued

/-- The `cancelled` frame is sent if `cancelled_slot` is not empty. -/
structure WellDefinedCancel (s : St) (id : RequestId) : Prop where
  present : ∀ entry ∈ (handleCancelRegion s.tables id).accesses, entry ≠ none
  reported : (handleCancelRegion s.tables id).cancelledSlot = (handleCancelRegion s.tables id).removed
  counted : (handleCancelRegion s.tables id).tables.admittedRequests + 1 = s.tables.admittedRequests ↔
    (handleCancelRegion s.tables id).cancelledSlot ≠ none

section Region

variable {cfg : Config} {t : Tables} {h : Hold} {s : St} {id : RequestId} {slot : RequestSlot}

theorem get?_eq_some : t.get? id = some slot ↔ id ∈ t.active ∧ t.slots id = some slot := by
  unfold Tables.get?
  by_cases hactive : id ∈ t.active
  · simp [hactive]
  · simp [hactive]

theorem get?_setSlot {f : RequestSlot → RequestSlot} (hget : t.get? id = some slot) :
    (t.setSlot id f).get? id = some (f slot) := by
  obtain ⟨hactive, hslot⟩ := get?_eq_some.mp hget
  refine get?_eq_some.mpr ⟨hactive, ?_⟩
  simp [Tables.setSlot, hslot]

theorem get?_takeTerminal (hnodup : t.active.Nodup) : (t.takeTerminal id).get? id = none := by
  have hgone : id ∉ (t.takeTerminal id).active := hnodup.not_mem_erase
  simp [Tables.get?, hgone]

/-- A slot in the queue is open: nobody took its terminal flag. -/
theorem Books.open_of_queued (b : Books cfg t h) (hget : t.get? id = some slot) (hstate : slot.state = .queued) :
    slot.terminal = false := by
  obtain ⟨hactive, hslot⟩ := get?_eq_some.mp hget
  have hpending := b.pending_of_queued hactive (by simp [Tables.state, hslot, hstate])
  simpa [Tables.terminal, hslot] using (b.pendingOpen id hpending).2

theorem region_absent (hget : t.get? id = none) : handleCancelRegion t id = { tables := t } := by
  unfold handleCancelRegion
  rw [if_neg]
  intro hfound
  exact hfound.2 hget

/-- A running slot is only marked. -/
theorem region_running (hid : id ≠ 0) (hget : t.get? id = some slot) (hstate : slot.state = .running) :
    handleCancelRegion t id =
      { tables := t.cancel id, accesses := [some slot, some { slot with cancelled := true }] } := by
  have hmarked : (t.cancel id).get? id = some { slot with cancelled := true } := get?_setSlot hget
  unfold handleCancelRegion Cancelling.cancel Cancelling.use
  rw [if_pos ⟨hid, by simp [hget]⟩]
  simp [hget, hmarked, hstate]

theorem remove_eq {c : Cancelling} (hget : c.tables.get? id = some slot) (hnodup : c.tables.active.Nodup) :
    c.remove id =
      { tables := c.tables.takeTerminal id, accesses := c.accesses ++ [none], removed := some slot } := by
  simp [Cancelling.remove, Cancelling.use, hget, get?_takeTerminal hnodup]

theorem unqueue_eq {c : Cancelling} (hget : c.tables.get? id = some slot) (hopen : slot.terminal = false) :
    c.unqueue id =
      { c with
        tables := { c.tables with pending := c.tables.pending.filter (· ≠ id) }
        accesses := c.accesses ++ [some slot, some slot] }.remove id := by
  have hpending : { c.tables with pending := c.tables.pending.filter (· ≠ id) }.get? id = some slot := hget
  unfold Cancelling.unqueue Cancelling.use
  dsimp only
  rw [hpending, hget, List.append_assoc]
  exact if_pos (by simp [hopen])

/-- A queued slot is used four times before its entry is erased, and once after that. -/
theorem region_queued (hid : id ≠ 0) (hget : t.get? id = some slot) (hstate : slot.state = .queued)
    (hopen : slot.terminal = false) (hnodup : t.active.Nodup) :
    handleCancelRegion t id =
      { tables := (t.unqueue id).takeTerminal id
        accesses := [some slot, some { slot with cancelled := true }, some { slot with cancelled := true },
          some { slot with cancelled := true }, none]
        removed := some { slot with cancelled := true } } := by
  have hmarked : (t.cancel id).get? id = some { slot with cancelled := true } := get?_setSlot hget
  have hmopen : { slot with cancelled := true }.terminal = false := hopen
  unfold handleCancelRegion Cancelling.cancel Cancelling.use
  rw [if_pos ⟨hid, by simp [hget]⟩]
  dsimp only
  rw [hmarked, if_pos (by simp [hstate]), unqueue_eq hmarked hmopen, remove_eq hmarked hnodup, hget]
  rfl

theorem region_of_queued (b : Books cfg s.tables h) (hqueued : IsQueued s id) :
    ∃ slot, slot.state = .queued ∧ slot.terminal = false ∧ s.tables.get? id = some slot ∧
      handleCancelRegion s.tables id =
        { tables := (s.tables.unqueue id).takeTerminal id
          accesses := [some slot, some { slot with cancelled := true }, some { slot with cancelled := true },
            some { slot with cancelled := true }, none]
          removed := some { slot with cancelled := true } } := by
  obtain ⟨hid, slot, hget, hstate⟩ := hqueued
  have hopen := b.open_of_queued hget hstate
  exact ⟨slot, hstate, hopen, hget, region_queued hid hget hstate hopen b.activeNodup⟩

/-- A request that does not wait in the queue keeps its entry, and no frame is sent. -/
theorem region_keeps (hqueued : ¬IsQueued s id) :
    (handleCancelRegion s.tables id).tables.admittedRequests = s.tables.admittedRequests ∧
      (handleCancelRegion s.tables id).removed = none ∧ (handleCancelRegion s.tables id).cancelledSlot = none ∧
      ∀ entry ∈ (handleCancelRegion s.tables id).accesses, entry ≠ none := by
  by_cases hid : id = 0
  · have hzero : handleCancelRegion s.tables id = { tables := s.tables } := by
      unfold handleCancelRegion
      rw [if_neg]
      intro hfound
      exact hfound.1 hid
    rw [hzero]
    exact ⟨rfl, rfl, rfl, fun _ hm => (List.not_mem_nil hm).elim⟩
  cases hget : s.tables.get? id with
  | none =>
    rw [region_absent hget]
    exact ⟨rfl, rfl, rfl, fun _ hm => (List.not_mem_nil hm).elim⟩
  | some slot =>
    cases hstate : slot.state with
    | queued => exact absurd ⟨hid, slot, hget, hstate⟩ hqueued
    | running =>
      rw [region_running hid hget hstate]
      exact ⟨rfl, rfl, rfl, by simp⟩

/-- `handleCancel` where the read of the erased node gives nothing, on the tables and in what is sent. -/
theorem handleCancel_eq_region (hmax : cfg.maxAdmittedRequests ≤ 65536) (hs : Reach (stepFailing cfg) anyStep init s) :
    (handleCancel s id false).tables = (handleCancelRegion s.tables id).tables ∧
      (Act.send (.control id .cancelled) ∈ (handleCancel s id false).reader ↔
        Act.send (.control id .cancelled) ∈ s.reader ∨ (handleCancelRegion s.tables id).cancelledSlot ≠ none) := by
  have hquiet : ∀ e : ErrorMessage, ∀ r, Act.send (.control id .cancelled) ∈ (sendError s r e).reader ↔
      Act.send (.control id .cancelled) ∈ s.reader := by
    intro e r
    simp [sendError, push]
  by_cases hqueued : IsQueued s id
  · obtain ⟨slot, hstate, hopen, hget, hregion⟩ := region_of_queued (reach_books hmax hs) hqueued
    rw [hregion, handleCancel, if_neg hqueued.1, hget]
    simp only [hstate, hopen, push, Bool.false_eq_true, if_false]
    exact ⟨rfl, by simp⟩
  · obtain ⟨_, _, hcancelled, _⟩ := region_keeps hqueued
    rw [hcancelled]
    by_cases hid : id = 0
    · simp [handleCancel, handleCancelRegion, hid, sendError, push]
    cases hget : s.tables.get? id with
    | none =>
      rw [region_absent hget, handleCancel, if_neg hid, hget]
      dsimp only
      split
      · exact ⟨rfl, by simp [hquiet]⟩
      · exact ⟨rfl, by simp⟩
    | some slot =>
      cases hstate : slot.state with
      | queued => exact absurd ⟨hid, slot, hget, hstate⟩ hqueued
      | running =>
        rw [region_running hid hget hstate, handleCancel, if_neg hid, hget]
        simp [hstate]

end Region

/-- Every cancel of the native worker, in every state that its threads can reach. -/
theorem cancel_is_well_defined_iff (cfg : Config) (hmax : cfg.maxAdmittedRequests ≤ 65536) (s : St)
    (hs : Reach (stepFailing cfg) anyStep init s) (id : RequestId) : WellDefinedCancel s id ↔ ¬IsQueued s id := by
  constructor
  · intro hdefined hqueued
    obtain ⟨slot, _, _, _, hregion⟩ := region_of_queued (reach_books hmax hs) hqueued
    have hlast : none ∈ (handleCancelRegion s.tables id).accesses := by simp [hregion]
    exact hdefined.present none hlast rfl
  · intro hqueued
    obtain ⟨hcount, hremoved, hcancelled, hpresent⟩ := region_keeps hqueued
    refine ⟨hpresent, by rw [hremoved, hcancelled], ?_⟩
    rw [hcount, hcancelled]
    simp

/-- Request 1 runs: its cancel only marks the slot. -/
theorem a_running_request_is_cancelled_in_place :
    ∃ s, Reach (stepFailing sampleConfig) anyStep init s ∧ ¬IsQueued s 1 ∧ WellDefinedCancel s 1 := by
  have hrun : ∃ s, Reach (stepFailing sampleConfig) anyStep init s ∧
      decide (s.tables.active = [1] ∧ s.tables.state 1 = some .running) = true :=
    exists_reach_of_run (synthesizeOne.map .server ++ [.server (.engine (.next false))]) (by decide +kernel)
  obtain ⟨s, hs, hp⟩ := hrun
  obtain ⟨_, hstate⟩ := of_decide_eq_true hp
  have hqueued : ¬IsQueued s 1 := by
    rintro ⟨_, slot, hget, hslot⟩
    simp [Tables.state, (get?_eq_some.mp hget).2, hslot] at hstate
  exact ⟨s, hs, hqueued, (cancel_is_well_defined_iff sampleConfig (by decide) s hs 1).mpr hqueued⟩

/-- Request 1 waits in the queue: `slot` is read after its entry was erased, so that the slot goes
    and no `cancelled` frame is sent. -/
theorem a_queued_request_is_read_after_erase :
    ∃ s, Reach (stepFailing sampleConfig) anyStep init s ∧ none ∈ (handleCancelRegion s.tables 1).accesses ∧
      (handleCancelRegion s.tables 1).tables.admittedRequests + 1 = s.tables.admittedRequests ∧
      (handleCancelRegion s.tables 1).cancelledSlot = none ∧ ¬WellDefinedCancel s 1 := by
  have hrun : ∃ s, Reach (stepFailing sampleConfig) anyStep init s ∧
      decide (s.tables.active = [1] ∧ s.tables.state 1 = some .queued ∧ s.tables.admittedRequests = 1) = true :=
    exists_reach_of_run (synthesizeOne.map .server) (by decide +kernel)
  obtain ⟨s, hs, hp⟩ := hrun
  obtain ⟨hactive, hstate, hcount⟩ := of_decide_eq_true hp
  have hqueued : IsQueued s 1 := by
    obtain ⟨slot, hslot, hqueue⟩ := Option.map_eq_some_iff.mp hstate
    exact ⟨by decide, slot, get?_eq_some.mpr ⟨by simp [hactive], hslot⟩, hqueue⟩
  obtain ⟨slot, _, _, _, hregion⟩ := region_of_queued (reach_books (by decide) hs) hqueued
  have hlast : none ∈ (handleCancelRegion s.tables 1).accesses := by simp [hregion]
  refine ⟨s, hs, hlast, ?_, by rw [hregion], fun hdefined => hdefined.present none hlast rfl⟩
  rw [hregion, hcount]
  change Tables.decrement s.tables.admittedRequests + 1 = 1
  rw [hcount]
  decide

end QwenTtsBridge.Worker.NativeServer
