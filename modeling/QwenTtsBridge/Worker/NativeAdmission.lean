/-
  QwenTtsBridge.Worker.NativeAdmission — what the native worker counts (`NativeServer`).

  `admitted_requests_`, `active_` and `pending_` change together in the mutex, apart from
  `terminal`, which the engine thread takes before it gets the mutex. Until then its slot
  is still counted and still active, so the books balance there too (`Books`).

  Proved: `admitted_slots_are_accounted` — over every interleaving, every input, every
  engine and every frame that cannot be encoded or written.
-/

import QwenTtsBridge.Worker.NativeTerminal

namespace QwenTtsBridge.Worker.NativeServer

open QwenTtsBridge.Protocol.Control QwenTtsBridge.Lib.Transition QwenTtsBridge.Lib.EventLog

/-! ## Frames that are not sent -/

inductive FailingEv where
  | server (e : Ev)
  /-- The `fail_fatal` of a frame that could not be encoded or written, by either thread. -/
  | failFatal

def stepFailing (cfg : Config) (s : St) : FailingEv → Option St
  | .server e => step cfg s e
  | .failFatal => some (failFatal s)

/-! ## Regions -/

/-- The engine thread's hold on a slot: it runs it, has taken `terminal` and waits for the
    mutex, or has released it. -/
inductive Hold where
  | idle
  | runs (id : RequestId)
  | releases (id : RequestId)
  | released (id : RequestId)
  deriving DecidableEq, Repr

def EnginePc.hold : EnginePc → Hold
  | .take | .loopEnded | .sendAck | .exited => .idle
  | .entry id | .sendStarted id | .synthesize id | .callback id _ | .sendAudio id _ | .failFatal id
  | .exchange id _ => .runs id
  | .release id _ => .releases id
  | .sendTerminal id _ => .released id

/-- The slot that the engine thread keeps active. -/
def Hold.slot : Hold → Option RequestId
  | .runs id | .releases id => some id
  | .idle | .released _ => none

/-- `handle_cancel` and `request_shutdown` on a queued slot. -/
def Tables.discard (t : Tables) (id : RequestId) : Tables := (t.unqueue id).takeTerminal id

/-- What one step can do to the tables and the hold, guards included. -/
inductive Region (cfg : Config) (t : Tables) (h : Hold) : Tables → Hold → Prop
  | none : Region cfg t h t h
  | accept (id : RequestId) (request : SynthesizeMessage) : id ∉ t.active → t.acceptedIdHighWater < id →
      t.admittedRequests < cfg.maxAdmittedRequests → Region cfg t h (t.accept id request) h
  | cancelRunning (id : RequestId) : Region cfg t h (t.cancel id) h
  | cancelAgain (id : RequestId) (slot : RequestSlot) : id ∈ t.active → t.slots id = some slot →
      slot.state = .queued → slot.terminal = true → Region cfg t h (t.unqueue id) h
  | cancelQueued (id : RequestId) (slot : RequestSlot) : id ∈ t.active → t.slots id = some slot →
      slot.state = .queued → slot.terminal = false → Region cfg t h (t.discard id) h
  | shutdown : Region cfg t h t.shutdown.1 h
  | cancelActive : Region cfg t h t.cancelActive h
  | take (id : RequestId) (rest : List RequestId) : h = .idle → t.pending = id :: rest →
      Region cfg t h (t.take id rest) (.runs id)
  | exchange (id : RequestId) : h = .runs id → Region cfg t h (t.setSlot id ({ · with terminal := true })) (.releases id)
  | exchanged (id : RequestId) : h = .runs id → t.terminal id = true → Region cfg t h t .idle
  | release (id : RequestId) : h = .releases id → Region cfg t h (t.release id) (.released id)
  | answered (id : RequestId) : h = .released id → Region cfg t h t .idle

section Regions

variable {cfg : Config} {s s' : St} {id : RequestId}

theorem synthesize_region (request : SynthesizeMessage) :
    Region cfg s.tables s.engine.hold (handleSynthesize cfg s id request).tables s.engine.hold := by
  unfold handleSynthesize
  split
  · exact .none
  split
  · exact .none
  unfold admission
  split
  · exact .none
  split
  · exact .none
  rename_i hdup
  split
  · exact .none
  · rename_i hroom
    obtain ⟨hactive, hwater⟩ := not_or.mp hdup
    exact .accept id request hactive (Nat.lt_of_not_le hwater) (Nat.lt_of_not_le hroom)

theorem cancel_region (stale : Bool) :
    Region cfg s.tables s.engine.hold (handleCancel s id stale).tables s.engine.hold := by
  unfold handleCancel
  split
  · exact .none
  split
  · split <;> exact .none
  rename_i slot hget
  have hactive : id ∈ s.tables.active := by
    by_contra hn
    simp [Tables.get?, hn] at hget
  have hslot : s.tables.slots id = some slot := by simpa [Tables.get?, hactive] using hget
  simp only
  split
  · exact .cancelRunning id
  · rename_i hstate
    split
    · rename_i hterm
      exact .cancelAgain id slot hactive hslot hstate hterm
    · rename_i hterm
      have hopen : slot.terminal = false := by simpa using hterm
      split <;> exact .cancelQueued id slot hactive hslot hstate hopen

theorem frame_region (stale : Bool) (input : Input) :
    Region cfg s.tables s.engine.hold (handleFrame cfg s stale input).tables s.engine.hold := by
  cases input with
  | wrongType id => exact .none
  | undecodable id code diagnostic => exact .none
  | message id m =>
    simp only [handleFrame]
    split
    · exact .none
    split
    · unfold handleHello
      split <;> exact .none
    · exact synthesize_region _
    · exact cancel_region stale
    · unfold handlePing
      split <;> exact .none
    · unfold handleShutdown
      split <;> exact .none
    · exact .none

theorem frame_keeps (stale : Bool) (input : Input) :
    (handleFrame cfg s stale input).engine = s.engine ∧ (handleFrame cfg s stale input).handed = s.handed ∧
      (handleFrame cfg s stale input).fatalError = s.fatalError := by
  cases input with
  | wrongType id => exact ⟨rfl, rfl, rfl⟩
  | undecodable id code diagnostic => exact ⟨rfl, rfl, rfl⟩
  | message id m =>
    simp only [handleFrame]
    split
    · exact ⟨rfl, rfl, rfl⟩
    split
    · unfold handleHello
      split <;> exact ⟨rfl, rfl, rfl⟩
    · unfold handleSynthesize admission
      repeat' split
      all_goals exact ⟨rfl, rfl, rfl⟩
    · unfold handleCancel
      repeat' split
      all_goals exact ⟨rfl, rfl, rfl⟩
    · unfold handlePing
      split <;> exact ⟨rfl, rfl, rfl⟩
    · unfold handleShutdown
      split <;> exact ⟨rfl, rfl, rfl⟩
    · exact ⟨rfl, rfl, rfl⟩

theorem act_region (cfg : Config) {act : Act} (h : runAct s act = some s') :
    s'.engine = s.engine ∧ Region cfg s.tables s.engine.hold s'.tables s.engine.hold := by
  cases act with
  | readLoop => cases h
  | send f =>
    cases h
    exact ⟨rfl, .none⟩
  | failFatal =>
    cases h
    exact ⟨rfl, .cancelActive⟩
  | requestShutdown sendAck =>
    cases h
    unfold requestShutdown
    simp only
    split
    · exact ⟨rfl, .none⟩
    · exact ⟨rfl, .shutdown⟩
  | shutdownTerminalsEnqueued =>
    cases h
    exact ⟨rfl, .none⟩
  | returned ids =>
    cases h
    exact ⟨rfl, .none⟩

theorem next_region {seen : Bool} (h : stepEngine s (.next seen) = some s') :
    Region cfg s.tables s.engine.hold s'.tables s'.engine.hold := by
  simp only [stepEngine] at h
  split at h
  · rename_i hpc
    unfold takeNextRequest at h
    split at h
    · split at h
      · cases h
        rw [hpc]
        exact .none
      · cases h
    · rename_i id rest hp
      cases h
      exact .take id rest (by rw [hpc]; rfl) hp
  · rename_i id hpc
    split at h
    · cases h
    · cases h
      rw [hpc]
      cases seen <;> exact .none
  · rename_i id hpc
    split at h
    · cases h
    · cases h
      rw [hpc]
      exact .none
  · rename_i id pcm hpc
    split at h
    · cases h
    split at h
    · cases h
      rw [hpc]
      exact .none
    split at h <;> cases h <;> rw [hpc] <;> exact .none
  · rename_i id pcm hpc
    cases h
    rw [hpc]
    exact .none
  · rename_i id hpc
    cases h
    rw [hpc]
    exact .cancelActive
  · rename_i id answer hpc
    split at h
    · rename_i hterm
      cases h
      exact .exchanged id (by rw [hpc]; rfl) hterm
    · cases h
      exact .exchange id (by rw [hpc]; rfl)
  · rename_i id answer hpc
    cases h
    exact .release id (by rw [hpc]; rfl)
  · rename_i id answer hpc
    cases h
    exact .answered id (by rw [hpc]; rfl)
  · rename_i hpc
    cases h
    rw [hpc]
    cases hack : s.shutdownAckNeeded <;> simp only [goto, hack] <;> exact .none
  · rename_i hpc
    cases h
    rw [hpc]
    exact .none
  · cases h

theorem engine_region {e : EngineEv} (h : stepEngine s e = some s') :
    Region cfg s.tables s.engine.hold s'.tables s'.engine.hold := by
  cases e with
  | next seen => exact next_region h
  | chunk pcm =>
    simp only [stepEngine] at h
    split at h
    · rename_i id hpc
      cases h
      rw [hpc]
      exact .none
    · cases h
  | result r =>
    simp only [stepEngine] at h
    split at h
    · rename_i id hpc
      cases h
      rw [hpc]
      exact .none
    · cases h

theorem step_region {e : FailingEv} (h : stepFailing cfg s e = some s') :
    Region cfg s.tables s.engine.hold s'.tables s'.engine.hold := by
  cases e with
  | failFatal =>
    cases h
    exact .cancelActive
  | server e =>
    cases e with
    | receive input stale =>
      simp only [stepFailing, step] at h
      split at h
      · cases h
        rw [(frame_keeps stale input).1]
        exact frame_region stale input
      · cases h
    | framingError =>
      simp only [stepFailing, step] at h
      split at h <;> cases h
      exact .none
    | eof =>
      simp only [stepFailing, step] at h
      split at h <;> cases h
      exact .none
    | reader =>
      simp only [stepFailing, step] at h
      split at h
      · obtain ⟨hengine, hregion⟩ := act_region cfg h
        rw [hengine]
        exact hregion
      · cases h
    | engine e => exact engine_region h

end Regions

/-! ## The books -/

structure Books (cfg : Config) (t : Tables) (h : Hold) : Prop where
  activeNodup : t.active.Nodup
  count : t.admittedRequests = t.active.length
  bound : t.active.length ≤ cfg.maxAdmittedRequests
  pendingNodup : t.pending.Nodup
  pendingActive : ∀ id ∈ t.pending, id ∈ t.active
  pendingOpen : ∀ id ∈ t.pending, t.state id = some .queued ∧ t.terminal id = false
  /-- An active slot waits in the queue or is the engine thread's. -/
  heldBy : ∀ id ∈ t.active, id ∈ t.pending ∨ h.slot = some id
  holds : ∀ id, h.slot = some id → id ∈ t.active ∧ t.state id = some .running
  running : ∀ id, h = .runs id → t.terminal id = false
  releasing : ∀ id, h = .releases id → t.terminal id = true
  releasedTerminal : ∀ id ∈ t.released, t.terminal id = true
  releasedNodup : t.released.Nodup
  releasedGone : ∀ id ∈ t.released, id ∉ t.active
  ledger : ∀ id, id ∈ t.admitted ↔ id ∈ t.active ∨ id ∈ t.released
  balance : t.active.length + t.released.length = t.admitted.length
  below : ∀ id ∈ t.admitted, id ≤ t.acceptedIdHighWater

section Kept

variable {cfg : Config} {t t' : Tables} {h h' : Hold} {id : RequestId}

theorem Books.start : Books cfg {} .idle where
  activeNodup := List.nodup_nil
  count := rfl
  bound := Nat.zero_le _
  pendingNodup := List.nodup_nil
  pendingActive := nofun
  pendingOpen := nofun
  heldBy := nofun
  holds := nofun
  running := nofun
  releasing := nofun
  releasedTerminal := nofun
  releasedNodup := List.nodup_nil
  releasedGone := nofun
  ledger := fun _ => ⟨nofun, by rintro (h | h) <;> cases h⟩
  balance := rfl
  below := nofun

/-- Only flags that the books do not look at change. -/
theorem Books.flags (b : Books cfg t h)
    (hsame : t'.pending = t.pending ∧ t'.active = t.active ∧ t'.admittedRequests = t.admittedRequests ∧
      t'.released = t.released ∧ t'.admitted = t.admitted ∧ t'.acceptedIdHighWater = t.acceptedIdHighWater)
    (hstate : ∀ r, t'.state r = t.state r) (hterm : ∀ r, t'.terminal r = t.terminal r) : Books cfg t' h := by
  obtain ⟨hp, ha, hn, hr, hm, hw⟩ := hsame
  constructor
  · rw [ha]
    exact b.activeNodup
  · rw [hn, ha]
    exact b.count
  · rw [ha]
    exact b.bound
  · rw [hp]
    exact b.pendingNodup
  · rw [hp, ha]
    exact b.pendingActive
  · rw [hp]
    intro id hid
    rw [hstate, hterm]
    exact b.pendingOpen id hid
  · rw [hp, ha]
    exact b.heldBy
  · rw [ha]
    intro id hid
    rw [hstate]
    exact b.holds id hid
  · intro id hid
    rw [hterm]
    exact b.running id hid
  · intro id hid
    rw [hterm]
    exact b.releasing id hid
  · rw [hr]
    intro id hid
    rw [hterm]
    exact b.releasedTerminal id hid
  · rw [hr]
    exact b.releasedNodup
  · rw [hr, ha]
    exact b.releasedGone
  · rw [hm, ha, hr]
    exact b.ledger
  · rw [ha, hr, hm]
    exact b.balance
  · rw [hm, hw]
    exact b.below

/-- A slot that is active, queued and not held waits in the queue. -/
theorem Books.pending_of_queued (b : Books cfg t h) (hactive : id ∈ t.active) (hstate : t.state id = some .queued) :
    id ∈ t.pending := by
  rcases b.heldBy id hactive with hp | hheld
  · exact hp
  · have hrun := (b.holds id hheld).2
    rw [hstate] at hrun
    cases hrun

theorem Books.accept (b : Books cfg t h) (request : SynthesizeMessage) (hactive : id ∉ t.active)
    (hwater : t.acceptedIdHighWater < id) (hroom : t.admittedRequests < cfg.maxAdmittedRequests) :
    Books cfg (t.accept id request) h := by
  have hnew : id ∉ t.admitted := fun hm => Nat.lt_irrefl _ (Nat.lt_of_lt_of_le hwater (b.below id hm))
  have hpending : id ∉ t.pending := fun hm => hactive (b.pendingActive id hm)
  have hreleased : id ∉ t.released := fun hm => hnew ((b.ledger id).mpr (.inr hm))
  have hheld : ∀ r, h.slot = some r → r ≠ id := by
    intro r hr heq
    exact hactive (heq ▸ (b.holds r hr).1)
  have hactive' : (t.accept id request).active = t.active ++ [id] := if_neg hactive
  have hcount := b.count
  constructor
  · rw [hactive']
    exact List.nodup_append.mpr ⟨b.activeNodup, List.nodup_singleton id, by
      intro a ha c hc heq
      rw [heq, List.mem_singleton.mp hc] at ha
      exact hactive ha⟩
  · rw [hactive', List.length_append, List.length_singleton]
    show t.admittedRequests + 1 = _
    omega
  · rw [hactive', List.length_append, List.length_singleton]
    omega
  · exact List.nodup_append.mpr ⟨b.pendingNodup, List.nodup_singleton id, by
      intro a ha c hc heq
      rw [heq, List.mem_singleton.mp hc] at ha
      exact hpending ha⟩
  · intro r hr
    rw [hactive']
    rcases List.mem_append.mp hr with hr | hr
    · exact List.mem_append_left _ (b.pendingActive r hr)
    · exact List.mem_append_right _ hr
  · intro r hr
    rw [Tables.state_accept, Tables.terminal_accept]
    rcases List.mem_append.mp hr with hr | hr
    · have hne : r ≠ id := fun heq => hpending (heq ▸ hr)
      rw [if_neg hne, if_neg hne]
      exact b.pendingOpen r hr
    · rw [if_pos (List.mem_singleton.mp hr), if_pos (List.mem_singleton.mp hr)]
      exact ⟨rfl, rfl⟩
  · intro r hr
    rw [hactive'] at hr
    rcases List.mem_append.mp hr with hr | hr
    · exact (b.heldBy r hr).imp_left (List.mem_append_left _)
    · exact .inl (List.mem_append_right _ hr)
  · intro r hr
    rw [hactive', Tables.state_accept, if_neg (hheld r hr)]
    exact ⟨List.mem_append_left _ (b.holds r hr).1, (b.holds r hr).2⟩
  · intro r hr
    have hne : r ≠ id := hheld r (by rw [hr]; rfl)
    rw [Tables.terminal_accept, if_neg hne]
    exact b.running r hr
  · intro r hr
    have hne : r ≠ id := hheld r (by rw [hr]; rfl)
    rw [Tables.terminal_accept, if_neg hne]
    exact b.releasing r hr
  · intro r hr
    have hne : r ≠ id := fun heq => hreleased (heq ▸ hr)
    rw [Tables.terminal_accept, if_neg hne]
    exact b.releasedTerminal r hr
  · exact b.releasedNodup
  · intro r hr hmem
    rw [hactive'] at hmem
    rcases List.mem_append.mp hmem with hmem | hmem
    · exact b.releasedGone r hr hmem
    · exact hreleased (List.mem_singleton.mp hmem ▸ hr)
  · intro r
    show r ∈ t.admitted ++ [id] ↔ _ ∨ r ∈ t.released
    rw [hactive', List.mem_append, List.mem_append, b.ledger r]
    exact or_right_comm
  · show _ + t.released.length = (t.admitted ++ [id]).length
    rw [hactive', List.length_append, List.length_append, List.length_singleton, ← b.balance]
    omega
  · intro r hr
    show r ≤ id
    rcases List.mem_append.mp hr with hr | hr
    · exact Nat.le_of_lt (Nat.lt_of_le_of_lt (b.below r hr) hwater)
    · exact Nat.le_of_eq (List.mem_singleton.mp hr)

/-- A slot leaves `active_`, the queue if it was there, and the count. -/
theorem Books.remove (b : Books cfg t h) (hid : id ∈ t.active)
    (hlists : t'.active = t.active.erase id ∧ t'.pending = t.pending.filter (· ≠ id) ∧ t'.released = t.released ++ [id])
    (hcount : t'.admittedRequests = t.admittedRequests - 1)
    (hsame : t'.admitted = t.admitted ∧ t'.acceptedIdHighWater = t.acceptedIdHighWater)
    (hstate : ∀ r, t'.state r = t.state r) (hterm : ∀ r, r ≠ id → t'.terminal r = t.terminal r)
    (htaken : t'.terminal id = true) (hslot : ∀ r, h'.slot = some r ↔ h.slot = some r ∧ r ≠ id)
    (hruns : ∀ r, h' = .runs r → h = .runs r) (hreleases : ∀ r, h' = .releases r → h = .releases r) :
    Books cfg t' h' := by
  obtain ⟨hactive, hpending, hreleased⟩ := hlists
  obtain ⟨hadm, hwater⟩ := hsame
  have hmem : ∀ r, r ∈ t'.active ↔ r ≠ id ∧ r ∈ t.active := by
    intro r
    rw [hactive]
    exact b.activeNodup.mem_erase_iff
  have hwaits : ∀ r, r ∈ t'.pending ↔ r ∈ t.pending ∧ r ≠ id := by
    intro r
    rw [hpending, List.mem_filter]
    simp
  have hlen : t'.active.length + 1 = t.active.length := by
    rw [hactive, List.length_erase_of_mem hid]
    have := List.length_pos_of_mem hid
    omega
  have hold := b.count
  have hbound := b.bound
  have hbalance := b.balance
  constructor
  · rw [hactive]
    exact b.activeNodup.erase id
  · omega
  · omega
  · rw [hpending]
    exact b.pendingNodup.filter _
  · intro r hr
    obtain ⟨hp, hne⟩ := (hwaits r).mp hr
    exact (hmem r).mpr ⟨hne, b.pendingActive r hp⟩
  · intro r hr
    obtain ⟨hp, hne⟩ := (hwaits r).mp hr
    rw [hstate, hterm r hne]
    exact b.pendingOpen r hp
  · intro r hr
    obtain ⟨hne, hr⟩ := (hmem r).mp hr
    rcases b.heldBy r hr with hp | hheld
    · exact .inl ((hwaits r).mpr ⟨hp, hne⟩)
    · exact .inr ((hslot r).mpr ⟨hheld, hne⟩)
  · intro r hr
    obtain ⟨hheld, hne⟩ := (hslot r).mp hr
    obtain ⟨hact, hrun⟩ := b.holds r hheld
    rw [hstate]
    exact ⟨(hmem r).mpr ⟨hne, hact⟩, hrun⟩
  · intro r hr
    have hheld : h'.slot = some r := by
      rw [hr]
      rfl
    rw [hterm r ((hslot r).mp hheld).2]
    exact b.running r (hruns r hr)
  · intro r hr
    have hheld : h'.slot = some r := by
      rw [hr]
      rfl
    rw [hterm r ((hslot r).mp hheld).2]
    exact b.releasing r (hreleases r hr)
  · intro r hr
    rw [hreleased] at hr
    by_cases heq : r = id
    · rw [heq]
      exact htaken
    · rw [hterm r heq]
      rcases List.mem_append.mp hr with hr | hr
      · exact b.releasedTerminal r hr
      · exact absurd (List.mem_singleton.mp hr) heq
  · rw [hreleased]
    refine List.nodup_append.mpr ⟨b.releasedNodup, List.nodup_singleton id, ?_⟩
    intro a ha c hc heq
    rw [heq, List.mem_singleton.mp hc] at ha
    exact b.releasedGone id ha hid
  · intro r hr hact
    obtain ⟨hne, hact⟩ := (hmem r).mp hact
    rw [hreleased] at hr
    rcases List.mem_append.mp hr with hr | hr
    · exact b.releasedGone r hr hact
    · exact hne (List.mem_singleton.mp hr)
  · intro r
    rw [hadm, b.ledger r, hmem r, hreleased, List.mem_append, List.mem_singleton]
    by_cases heq : r = id
    · simp [heq, hid]
    · simp [heq]
  · rw [hreleased, hadm, List.length_append, List.length_singleton]
    omega
  · rw [hadm, hwater]
    exact b.below

theorem decrement_eq {n : Nat} (hpos : 0 < n) (hmax : n ≤ 65536) : Tables.decrement n = n - 1 := by
  unfold Tables.decrement
  omega

/-- `--admitted_requests_` for a slot that is active. -/
theorem Books.decrement (b : Books cfg t h) (hmax : cfg.maxAdmittedRequests ≤ 65536) (hid : id ∈ t.active) :
    Tables.decrement t.admittedRequests = t.admittedRequests - 1 := by
  have hpos := List.length_pos_of_mem hid
  have hcount := b.count
  have hbound := b.bound
  exact decrement_eq (by omega) (by omega)

theorem Books.discard (b : Books cfg t h) (hmax : cfg.maxAdmittedRequests ≤ 65536) (hp : id ∈ t.pending) :
    Books cfg (t.discard id) h := by
  have hactive := b.pendingActive id hp
  obtain ⟨hstate, -⟩ := b.pendingOpen id hp
  have hkept : ∀ r, (t.unqueue id).state r = t.state r := fun r => Tables.state_setSlot fun _ => rfl
  have hterm : ∀ r, (t.discard id).terminal r = (t.terminal r || decide (r = id)) := by
    intro r
    have hsame : (t.unqueue id).terminal r = t.terminal r := Tables.terminal_setSlot fun _ => rfl
    rw [Tables.discard, Tables.terminal_takeTerminal ((hkept id).trans hstate), hsame]
  refine b.remove hactive ⟨rfl, rfl, rfl⟩ (b.decrement hmax hactive) ⟨rfl, rfl⟩ ?_ ?_ ?_ ?_ (fun r hr => hr)
    (fun r hr => hr)
  · intro r
    exact Tables.state_takeTerminal.trans (hkept r)
  · intro r hne
    simp [hterm, hne]
  · simp [hterm]
  · intro r
    refine ⟨fun hr => ⟨hr, ?_⟩, And.left⟩
    rintro rfl
    rw [(b.holds r hr).2] at hstate
    cases hstate

theorem Books.drainPending {ids : List RequestId} (b : Books cfg t h) (hmax : cfg.maxAdmittedRequests ≤ 65536)
    (hp : t.pending = ids) : Books cfg (t.drainPending ids).1 h := by
  induction ids generalizing t with
  | nil => exact b
  | cons id ids ih =>
    have hmem : id ∈ t.pending := hp ▸ List.mem_cons_self
    have hterm : ({ t with pending := ids }.cancel id).terminal id = false := by
      rw [← (b.pendingOpen id hmem).2]
      exact Tables.terminal_setSlot fun _ => rfl
    have hrest : t.pending.filter (· ≠ id) = ids := by
      have hnodup := b.pendingNodup
      rw [hp] at hnodup
      have hne := (List.nodup_cons.mp hnodup).1
      rw [hp, List.filter_cons_of_neg (by simp), List.filter_eq_self]
      intro r hr
      simpa using fun heq : r = id => hne (heq ▸ hr)
    have heq : ({ t with pending := ids }.cancel id).takeTerminal id = t.discard id := by
      rw [Tables.discard, Tables.unqueue, hrest]
      rfl
    rw [Tables.drainPending]
    simp only [hterm, Bool.false_eq_true, if_false, heq]
    exact ih (b.discard hmax hmem) hrest

theorem Books.cancelActive (b : Books cfg t h) : Books cfg t.cancelActive h :=
  b.flags ⟨rfl, rfl, rfl, rfl, rfl, rfl⟩ (fun _ => Tables.state_cancelActive) (fun _ => Tables.terminal_cancelActive)

theorem Books.take {rest : List RequestId} (b : Books cfg t .idle) (hp : t.pending = id :: rest) :
    Books cfg (t.take id rest) (.runs id) := by
  have hnodup : (id :: rest).Nodup := hp ▸ b.pendingNodup
  obtain ⟨hnew, hrest⟩ := List.nodup_cons.mp hnodup
  have hmem : ∀ r, r ∈ rest → r ∈ t.pending := fun r hr => hp ▸ List.mem_cons_of_mem _ hr
  obtain ⟨hstate, hterm⟩ := b.pendingOpen id (hp ▸ List.mem_cons_self)
  refine ⟨b.activeNodup, b.count, b.bound, hrest, fun r hr => b.pendingActive r (hmem r hr), ?_, ?_, ?_, ?_,
    nofun, ?_, b.releasedNodup, b.releasedGone, b.ledger, b.balance, b.below⟩
  · intro r hr
    have hne : r ≠ id := fun heq => hnew (heq ▸ hr)
    rw [Tables.state_take, Tables.terminal_take, if_neg hne]
    exact b.pendingOpen r (hmem r hr)
  · intro r hr
    rcases b.heldBy r hr with hr | hr
    · rw [hp] at hr
      rcases List.mem_cons.mp hr with rfl | hr
      · exact .inr rfl
      · exact .inl hr
    · cases hr
  · intro r hr
    cases hr
    rw [Tables.state_take, if_pos rfl, hstate]
    exact ⟨b.pendingActive id (hp ▸ List.mem_cons_self), rfl⟩
  · intro r hr
    cases hr
    rw [Tables.terminal_take]
    exact hterm
  · intro r hr
    rw [Tables.terminal_take]
    exact b.releasedTerminal r hr

/-- The exchange changes a slot that is not in the queue, and the count not yet. -/
theorem Books.exchange (b : Books cfg t (.runs id)) :
    Books cfg (t.setSlot id ({ · with terminal := true })) (.releases id) := by
  have hrun := (b.holds id rfl).2
  have hstate : ∀ r, (t.setSlot id ({ · with terminal := true })).state r = t.state r :=
    fun r => Tables.state_setSlot fun _ => rfl
  refine ⟨b.activeNodup, b.count, b.bound, b.pendingNodup, b.pendingActive, ?_, b.heldBy, ?_, nofun, ?_, ?_,
    b.releasedNodup, b.releasedGone, b.ledger, b.balance, b.below⟩
  · intro r hr
    obtain ⟨hq, hopen⟩ := b.pendingOpen r hr
    have hne : r ≠ id := by
      rintro rfl
      rw [hrun] at hq
      cases hq
    rw [hstate, Tables.terminal_exchange hrun, hopen]
    exact ⟨hq, by simp [hne]⟩
  · intro r hr
    rw [hstate]
    exact b.holds r hr
  · intro r hr
    cases hr
    rw [Tables.terminal_exchange hrun]
    simp
  · intro r hr
    rw [Tables.terminal_exchange hrun, b.releasedTerminal r hr]
    rfl

theorem Books.release (b : Books cfg t (.releases id)) : Books cfg (t.release id) (.released id) := by
  obtain ⟨hactive, hrun⟩ := b.holds id rfl
  have hpos := List.length_pos_of_mem hactive
  have hcount := b.count
  have hwaits : t.pending.filter (· ≠ id) = t.pending := by
    rw [List.filter_eq_self]
    intro r hr
    have hne : r ≠ id := by
      rintro rfl
      rw [(b.pendingOpen r hr).1] at hrun
      cases hrun
    simpa using hne
  refine b.remove hactive ⟨rfl, hwaits.symm, rfl⟩ ?_ ⟨rfl, rfl⟩ (fun _ => rfl) (fun _ _ => rfl) (b.releasing id rfl) ?_ nofun nofun
  · exact if_pos (by omega)
  · intro r
    refine ⟨nofun, ?_⟩
    rintro ⟨hr, hne⟩
    cases hr
    exact absurd rfl hne

/-- The engine thread lets go of a slot that is no longer active. -/
theorem Books.idle (b : Books cfg t (.released id)) : Books cfg t .idle :=
  ⟨b.activeNodup, b.count, b.bound, b.pendingNodup, b.pendingActive, b.pendingOpen, b.heldBy, nofun, nofun, nofun,
    b.releasedTerminal, b.releasedNodup, b.releasedGone, b.ledger, b.balance, b.below⟩

theorem Books.region (b : Books cfg t h) (hmax : cfg.maxAdmittedRequests ≤ 65536) (r : Region cfg t h t' h') :
    Books cfg t' h' := by
  cases r with
  | none => exact b
  | accept id request hactive hwater hroom => exact b.accept request hactive hwater hroom
  | cancelRunning id =>
    exact b.flags ⟨rfl, rfl, rfl, rfl, rfl, rfl⟩ (fun _ => Tables.state_setSlot fun _ => rfl)
      (fun _ => Tables.terminal_setSlot fun _ => rfl)
  | cancelAgain id slot hactive hslot hqueued hterm =>
    -- a queued slot is in the queue, and open
    have hstate : t.state id = some .queued := by simp [Tables.state, hslot, hqueued]
    have hopen := (b.pendingOpen id (b.pending_of_queued hactive hstate)).2
    simp [Tables.terminal, hslot, hterm] at hopen
  | cancelQueued id slot hactive hslot hqueued hterm =>
    have hstate : t.state id = some .queued := by simp [Tables.state, hslot, hqueued]
    exact b.discard hmax (b.pending_of_queued hactive hstate)
  | shutdown => exact (b.drainPending hmax rfl).cancelActive
  | cancelActive => exact b.cancelActive
  | take id rest hidle hp =>
    subst hidle
    exact b.take hp
  | exchange id hruns =>
    subst hruns
    exact b.exchange
  | exchanged id hruns hterm =>
    rw [b.running id hruns] at hterm
    cases hterm
  | release id hreleases =>
    subst hreleases
    exact b.release
  | answered id hreleased =>
    subst hreleased
    exact b.idle

end Kept

/-! ## How the reader ends -/

/-- Acts that hand nothing over and read nothing. -/
def Act.isQuiet : Act → Bool
  | .requestShutdown _ | .returned _ => true
  | _ => false

/-- Acts that only quiet ones follow. -/
def Act.isEnd : Act → Bool
  | .readLoop | .requestShutdown _ | .shutdownTerminalsEnqueued => true
  | _ => false

def OutFrame.isAck : OutFrame → Bool
  | .control _ .shutdownAck => true
  | _ => false

/-- Acts by which the reader answers a frame. -/
def Act.isReply : Act → Bool
  | .send f => !f.isAck
  | .returned _ => true
  | _ => false

def Act.sendsAck : Act → Bool
  | .send f => f.isAck
  | _ => false

structure Closing (s : St) : Prop where
  script : Script Act.isEnd Act.isQuiet s.reader
  /-- `run` calls `request_shutdown(false)` at last. -/
  atLast : s.shutdownRequested = true ∨ Act.requestShutdown false ∈ s.reader
  readNoMore : s.shutdownRequested = true → Act.readLoop ∉ s.reader
  drained : s.shutdownRequested = true → s.tables.pending = []
  draining : Act.shutdownTerminalsEnqueued ∈ s.reader → s.shutdownRequested = true
  enqueued : s.shutdownTerminalsEnqueued = true → s.shutdownRequested = true ∧ ∀ a ∈ s.reader, a.isQuiet = true
  noAck : ∀ a ∈ s.reader, a.sendsAck = false

/-- The flags of the shutdown. -/
def shutdownFlags (s : St) : Bool × Bool × Bool :=
  (s.shutdownRequested, s.shutdownAckNeeded, s.shutdownTerminalsEnqueued)

section Closing

variable {cfg : Config} {s s' : St} {act : Act} {rest : List Act}

/-- A frame is answered with acts on top of the reader's, or `shutdown` ends `read_loop`. -/
theorem frame_script (stale : Bool) (input : Input) :
    shutdownFlags (handleFrame cfg s stale input) = shutdownFlags s ∧
      ((∃ acts, (handleFrame cfg s stale input).reader = acts ++ s.reader ∧ ∀ a ∈ acts, a.isReply = true) ∨
        (input = .message 0 (.shutdown (CppString.lit "cancel")) ∧
          handleFrame cfg s stale input = { s with reader := .requestShutdown true :: s.reader.tail })) := by
  have hkeep : ∃ acts, s.reader = acts ++ s.reader ∧ ∀ a ∈ acts, a.isReply = true :=
    ⟨[], rfl, fun _ ha => (List.not_mem_nil ha).elim⟩
  have hsend : ∀ f, OutFrame.isAck f = false → ∃ acts, Act.send f :: s.reader = acts ++ s.reader ∧ ∀ a ∈ acts, a.isReply = true := by
    intro f hf
    refine ⟨[.send f], rfl, fun a ha => ?_⟩
    rw [List.mem_singleton.mp ha]
    simp [Act.isReply, hf]
  cases input with
  | wrongType id => exact ⟨rfl, .inl (hsend _ rfl)⟩
  | undecodable id code diagnostic => exact ⟨rfl, .inl (hsend _ rfl)⟩
  | message id m =>
    simp only [handleFrame]
    split
    · exact ⟨rfl, .inl (hsend _ rfl)⟩
    split
    · unfold handleHello
      split <;> exact ⟨rfl, .inl (hsend _ rfl)⟩
    · unfold handleSynthesize admission
      repeat' split
      all_goals exact ⟨rfl, .inl (hsend _ rfl)⟩
    · unfold handleCancel
      split
      · exact ⟨rfl, .inl (hsend _ rfl)⟩
      split
      · split
        · exact ⟨rfl, .inl (hsend _ rfl)⟩
        · exact ⟨rfl, .inl hkeep⟩
      simp only
      split
      · exact ⟨rfl, .inl hkeep⟩
      split
      · exact ⟨rfl, .inl hkeep⟩
      split
      · refine ⟨rfl, .inl ⟨[.send (.control id .cancelled), .returned [id]], rfl, fun a ha => ?_⟩⟩
        rcases List.mem_pair.mp ha with rfl | rfl <;> rfl
      · refine ⟨rfl, .inl ⟨[.returned [id]], rfl, fun a ha => ?_⟩⟩
        rw [List.mem_singleton.mp ha]
        rfl
    · unfold handlePing
      split <;> exact ⟨rfl, .inl (hsend _ rfl)⟩
    · unfold handleShutdown
      split
      · exact ⟨rfl, .inl (hsend _ rfl)⟩
      · rename_i mode h
        rw [not_or, not_not, not_not] at h
        exact ⟨rfl, .inr ⟨by rw [h.1, h.2], rfl⟩⟩
    · exact ⟨rfl, .inl (hsend _ rfl)⟩

theorem isReply_spec {a : Act} (h : a.isReply = true) : a.isEnd = false ∧ a.sendsAck = false := by
  cases a with
  | send f => exact ⟨rfl, by simpa [Act.isReply, Act.sendsAck] using h⟩
  | returned ids => exact ⟨rfl, rfl⟩
  | _ => cases h

theorem isQuiet_spec {a : Act} (h : a.isQuiet = true) : a.sendsAck = false := by
  cases a with
  | send f => cases h
  | _ => rfl

/-- The reader drops its first act. -/
theorem Closing.pop (h : Closing s) (hr : s.reader = act :: rest) (hact : act ≠ .requestShutdown false) :
    Closing { s with reader := rest } := by
  have hscript := h.script
  rw [hr] at hscript
  refine ⟨hscript.tail, ?_, ?_, h.drained, ?_, ?_, ?_⟩
  · refine h.atLast.imp_right fun hm => ?_
    rw [hr] at hm
    rcases List.mem_cons.mp hm with heq | hm
    · exact absurd heq.symm hact
    · exact hm
  · intro hs hm
    exact h.readNoMore hs (hr ▸ List.mem_cons_of_mem _ hm)
  · intro hm
    exact h.draining (hr ▸ List.mem_cons_of_mem _ hm)
  · intro he
    obtain ⟨hs, hquiet⟩ := h.enqueued he
    exact ⟨hs, fun a ha => hquiet a (hr ▸ List.mem_cons_of_mem _ ha)⟩
  · intro a ha
    exact h.noAck a (hr ▸ List.mem_cons_of_mem _ ha)

/-- The acts that follow an ending one. -/
theorem Closing.quiet_rest (h : Closing s) (hr : s.reader = act :: rest) (hend : act.isEnd = true) :
    ∀ a ∈ rest, a.isQuiet = true := by
  have hscript := h.script
  rw [hr] at hscript
  exact hscript.rest hend

theorem not_readLoop_of_quiet {acts : List Act} (h : ∀ a ∈ acts, a.isQuiet = true) : Act.readLoop ∉ acts := by
  intro hm
  cases h _ hm

theorem pending_drainPending {t : Tables} {ids : List RequestId} (hp : t.pending = ids) :
    (t.drainPending ids).1.pending = [] := by
  induction ids generalizing t with
  | nil => exact hp
  | cons id ids ih =>
    rw [Tables.drainPending]
    simp only
    split
    · exact ih rfl
    · exact ih rfl

/-- `request_shutdown`: the first call leaves its frames on top of quiet acts. -/
theorem Closing.requestShutdown {sendAck : Bool} (h : Closing s) (hr : s.reader = .requestShutdown sendAck :: rest) :
    Closing (requestShutdown { s with reader := rest } sendAck) := by
  have hrest := h.quiet_rest hr rfl
  unfold NativeServer.requestShutdown
  simp only
  split
  · rename_i hs
    exact ⟨script_of_quiet hrest, .inl hs, fun _ => not_readLoop_of_quiet hrest, h.drained, fun _ => hs,
      fun _ => ⟨hs, hrest⟩, fun a ha => isQuiet_spec (hrest a ha)⟩
  · rename_i hs
    refine ⟨?_, .inl rfl, ?_, fun _ => pending_drainPending rfl, fun _ => rfl, ?_, ?_⟩
    · have hreturned : ∀ a ∈ Act.returned s.tables.shutdown.2 :: rest, a.isQuiet = true := by
        intro a ha
        rcases List.mem_cons.mp ha with rfl | ha
        · rfl
        · exact hrest a ha
      show Script _ _ (_ ++ _ :: _ :: [] ++ rest)
      rw [List.append_assoc]
      refine Script.push (script_cons hreturned) fun a ha => ?_
      obtain ⟨id, -, rfl⟩ := List.mem_map.mp ha
      rfl
    · intro _ hm
      rcases List.mem_append.mp hm with hm | hm
      · rcases List.mem_append.mp hm with hm | hm
        · obtain ⟨id, -, heq⟩ := List.mem_map.mp hm
          cases heq
        · rcases List.mem_pair.mp hm with heq | heq <;> cases heq
      · exact not_readLoop_of_quiet hrest hm
    · intro he
      exact absurd (h.enqueued he).1 hs
    · intro a ha
      rcases List.mem_append.mp ha with ha | ha
      · rcases List.mem_append.mp ha with ha | ha
        · obtain ⟨id, -, rfl⟩ := List.mem_map.mp ha
          rfl
        · rcases List.mem_pair.mp ha with rfl | rfl <;> rfl
      · exact isQuiet_spec (hrest a ha)

theorem Closing.runAct (h : Closing s) (hr : s.reader = act :: rest)
    (hs : runAct { s with reader := rest } act = some s') : Closing s' := by
  cases act with
  | readLoop => cases hs
  | send f =>
    cases hs
    have hp := h.pop hr nofun
    exact ⟨hp.script, hp.atLast, hp.readNoMore, hp.drained, hp.draining, hp.enqueued, hp.noAck⟩
  | failFatal =>
    cases hs
    have hp := h.pop hr nofun
    exact ⟨hp.script, hp.atLast, hp.readNoMore, hp.drained, hp.draining, hp.enqueued, hp.noAck⟩
  | requestShutdown sendAck =>
    cases hs
    exact h.requestShutdown hr
  | shutdownTerminalsEnqueued =>
    cases hs
    have hp := h.pop hr nofun
    have hs : s.shutdownRequested = true := h.draining (hr ▸ List.mem_cons_self)
    exact ⟨hp.script, hp.atLast, hp.readNoMore, hp.drained, hp.draining, fun _ => ⟨hs, h.quiet_rest hr rfl⟩,
      hp.noAck⟩
  | returned ids =>
    cases hs
    have hp := h.pop hr nofun
    exact ⟨hp.script, hp.atLast, hp.readNoMore, hp.drained, hp.draining, hp.enqueued, hp.noAck⟩

/-- Before the shutdown only the script counts. -/
theorem closing_before (hscript : Script Act.isEnd Act.isQuiet s.reader)
    (hlast : Act.requestShutdown false ∈ s.reader) (hreader : Act.shutdownTerminalsEnqueued ∉ s.reader)
    (hs : s.shutdownRequested = false) (he : s.shutdownTerminalsEnqueued = false)
    (hack : ∀ a ∈ s.reader, a.sendsAck = false) : Closing s := by
  refine ⟨hscript, .inr hlast, ?_, ?_, fun hm => absurd hm hreader, ?_, hack⟩
  · intro hs'
    rw [hs] at hs'
    cases hs'
  · intro hs'
    rw [hs] at hs'
    cases hs'
  · intro he'
    rw [he] at he'
    cases he'

theorem Closing.frame (cfg : Config) (h : Closing s) (hr : s.reader = .readLoop :: rest) (stale : Bool) (input : Input) :
    Closing (handleFrame cfg s stale input) := by
  have hopen : s.shutdownRequested = false := by
    by_contra hs
    rw [Bool.not_eq_false] at hs
    exact h.readNoMore hs (hr ▸ List.mem_cons_self)
  have hlate : s.shutdownTerminalsEnqueued = false := by
    by_contra he
    rw [Bool.not_eq_false] at he
    rw [(h.enqueued he).1] at hopen
    cases hopen
  have hlast : Act.requestShutdown false ∈ s.reader := by
    refine h.atLast.resolve_left fun hs => ?_
    rw [hopen] at hs
    cases hs
  have hreader : Act.shutdownTerminalsEnqueued ∉ s.reader := by
    intro hm
    rw [h.draining hm] at hopen
    cases hopen
  obtain ⟨hflags, hscript⟩ := @frame_script cfg s stale input
  simp only [shutdownFlags, Prod.mk.injEq] at hflags
  obtain ⟨hreq, -, henq⟩ := hflags
  refine closing_before ?_ ?_ ?_ (hreq.trans hopen) (henq.trans hlate) ?_
  all_goals rcases hscript with ⟨acts, heq, hacts⟩ | ⟨-, heq⟩
  · rw [heq]
    exact h.script.push fun a ha => (isReply_spec (hacts a ha)).1
  · rw [heq]
    show Script _ _ (Act.requestShutdown true :: s.reader.tail)
    rw [hr, List.tail_cons]
    exact script_cons (h.quiet_rest hr rfl)
  · rw [heq]
    exact List.mem_append_right _ hlast
  · rw [heq]
    show _ ∈ Act.requestShutdown true :: s.reader.tail
    rw [hr] at hlast ⊢
    rcases List.mem_cons.mp hlast with heq | hm
    · cases heq
    · exact List.mem_cons_of_mem _ hm
  · rw [heq]
    intro hm
    rcases List.mem_append.mp hm with hm | hm
    · cases hacts _ hm
    · exact hreader hm
  · rw [heq]
    intro hm
    rcases List.mem_cons.mp hm with heq | hm
    · cases heq
    · exact hreader (List.mem_of_mem_tail hm)
  · rw [heq]
    intro a ha
    rcases List.mem_append.mp ha with ha | ha
    · exact (isReply_spec (hacts a ha)).2
    · exact h.noAck a ha
  · rw [heq]
    intro a ha
    rcases List.mem_cons.mp ha with rfl | ha
    · rfl
    · exact h.noAck a (List.mem_of_mem_tail ha)

/-- What the engine thread leaves alone; it adds nothing to the queue. -/
structure Leaves (s s' : St) : Prop where
  reader : s'.reader = s.reader
  flags : shutdownFlags s' = shutdownFlags s
  pending : s'.tables.pending.Sublist s.tables.pending
  admitted : s'.tables.admitted = s.tables.admitted
  dropped : s'.dropped = s.dropped
  fatal : s.fatalError = true → s'.fatalError = true

theorem engine_leaves {e : EngineEv} (h : stepEngine s e = some s') : Leaves s s' := by
  cases e with
  | next seen =>
    simp only [stepEngine, takeNextRequest] at h
    split at h
    · split at h
      · split at h
        · cases h
          exact ⟨rfl, rfl, .refl _, rfl, rfl, fun h => h⟩
        · cases h
      · rename_i id rest hp
        cases h
        exact ⟨rfl, rfl, hp ▸ List.sublist_cons_self id rest, rfl, rfl, fun h => h⟩
    · split at h
      · cases h
      · cases h
        exact ⟨rfl, rfl, .refl _, rfl, rfl, fun h => h⟩
    · split at h
      · cases h
      · cases h
        exact ⟨rfl, rfl, .refl _, rfl, rfl, fun h => h⟩
    · split at h
      · cases h
      split at h
      · cases h
        exact ⟨rfl, rfl, .refl _, rfl, rfl, fun h => h⟩
      · split at h <;> cases h <;> exact ⟨rfl, rfl, .refl _, rfl, rfl, fun h => h⟩
    · cases h
      exact ⟨rfl, rfl, .refl _, rfl, rfl, fun h => h⟩
    · cases h
      exact ⟨rfl, rfl, .refl _, rfl, rfl, fun _ => rfl⟩
    · split at h <;> cases h <;> exact ⟨rfl, rfl, .refl _, rfl, rfl, fun h => h⟩
    · cases h
      exact ⟨rfl, rfl, .refl _, rfl, rfl, fun h => h⟩
    · cases h
      exact ⟨rfl, rfl, .refl _, rfl, rfl, fun h => h⟩
    · cases h
      exact ⟨rfl, rfl, .refl _, rfl, rfl, fun h => h⟩
    · cases h
      exact ⟨rfl, rfl, .refl _, rfl, rfl, fun h => h⟩
    · cases h
  | chunk pcm =>
    simp only [stepEngine] at h
    split at h
    · cases h
      exact ⟨rfl, rfl, .refl _, rfl, rfl, fun h => h⟩
    · cases h
  | result r =>
    simp only [stepEngine] at h
    split at h
    · cases h
      exact ⟨rfl, rfl, .refl _, rfl, rfl, fun h => h⟩
    · cases h

theorem Closing.step {e : FailingEv} (h : Closing s) (hs : stepFailing cfg s e = some s') : Closing s' := by
  cases e with
  | failFatal =>
    cases hs
    exact ⟨h.script, h.atLast, h.readNoMore, h.drained, h.draining, h.enqueued, h.noAck⟩
  | server e =>
    cases e with
    | receive input stale =>
      simp only [stepFailing, NativeServer.step] at hs
      split at hs
      · rename_i rest hr
        cases hs
        exact h.frame cfg hr stale input
      · cases hs
    | framingError =>
      simp only [stepFailing, NativeServer.step] at hs
      split at hs
      · rename_i rest hr
        cases hs
        have hp := h.pop hr (by simp)
        refine ⟨?_, hp.atLast.imp_right (List.mem_cons_of_mem _), ?_, hp.drained, ?_, ?_, ?_⟩
        · show Script _ _ ([Act.failFatal] ++ rest)
          exact hp.script.push fun a ha => by rw [List.mem_singleton.mp ha]; rfl
        · intro hs hm
          rcases List.mem_cons.mp hm with heq | hm
          · cases heq
          · exact hp.readNoMore hs hm
        · intro hm
          rcases List.mem_cons.mp hm with heq | hm
          · cases heq
          · exact hp.draining hm
        · intro he
          exact absurd (hr ▸ List.mem_cons_self) (h.readNoMore (h.enqueued he).1)
        · intro a ha
          rcases List.mem_cons.mp ha with rfl | ha
          · rfl
          · exact hp.noAck a ha
      · cases hs
    | eof =>
      simp only [stepFailing, NativeServer.step] at hs
      split at hs
      · rename_i rest hr
        cases hs
        exact h.pop hr (by simp)
      · cases hs
    | reader =>
      simp only [stepFailing, NativeServer.step] at hs
      split at hs
      · rename_i act rest hr
        exact h.runAct hr hs
      · cases hs
    | engine e =>
      obtain ⟨hreader, hflags, hpending, -, -, -⟩ := engine_leaves hs
      simp only [shutdownFlags, Prod.mk.injEq] at hflags
      obtain ⟨hreq, -, henq⟩ := hflags
      constructor
      · rw [hreader]
        exact h.script
      · rw [hreq, hreader]
        exact h.atLast
      · rw [hreq, hreader]
        exact h.readNoMore
      · rw [hreq]
        intro hs
        exact List.sublist_nil.mp (h.drained hs ▸ hpending)
      · rw [hreq, hreader]
        exact h.draining
      · rw [henq, hreq, hreader]
        exact h.enqueued
      · rw [hreader]
        exact h.noAck

theorem closing_init : Closing init := by
  refine closing_before ?_ ?_ ?_ rfl rfl ?_
  · exact script_cons fun a ha => by rw [List.mem_singleton.mp ha]; rfl
  · simp [init]
  · simp [init]
  · simp [init, Act.sendsAck]

end Closing

/-! ## The result -/

/-- What holds in every state between two regions, terminalizations in progress included. -/
structure Accounted (cfg : Config) (s : St) : Prop where
  counted : s.tables.active.Nodup ∧ s.tables.admittedRequests = s.tables.active.length
  limited : s.tables.admittedRequests ≤ cfg.maxAdmittedRequests
  /-- The count is never decremented at zero. -/
  noUnderflow : s.tables.admittedRequests + s.tables.released.length = s.tables.admitted.length
  pendingOnce : s.tables.pending.Nodup
  pendingOpen : ∀ id ∈ s.tables.pending, id ∈ s.tables.active ∧
    ∃ slot, s.tables.slots id = some slot ∧ slot.state = .queued ∧ slot.terminal = false
  oneRunning : ∀ i ∈ s.tables.active, ∀ j ∈ s.tables.active, s.tables.state i = some .running →
    s.tables.state j = some .running → i = j
  /-- An admitted slot is active or was released, and released once. -/
  releasedOnce : s.tables.released.Nodup ∧
    ∀ id, id ∈ s.tables.admitted ↔ (id ∈ s.tables.active ∧ id ∉ s.tables.released) ∨
      (id ∈ s.tables.released ∧ id ∉ s.tables.active)
  /-- When both threads are done, every admitted slot was released. -/
  allReleased : s.reader = [] → s.engine = .exited → ∀ id ∈ s.tables.admitted, id ∈ s.tables.released

structure AccountedStep (s s' : St) : Prop where
  highWater : (s'.tables.acceptedIdHighWater = s.tables.acceptedIdHighWater ∧ s'.tables.admitted = s.tables.admitted) ∨
    (s.tables.acceptedIdHighWater < s'.tables.acceptedIdHighWater ∧
      s'.tables.admitted = s.tables.admitted ++ [s'.tables.acceptedIdHighWater])

section Accounting

variable {cfg : Config} {s : St}

/-- The server without failing frames. -/
theorem reach_failing {ok : St → Ev → Prop} (h : Reach (step cfg) ok init s) : Reach (stepFailing cfg) anyStep init s := by
  induction h with
  | init => exact .init
  | step e _ _ hs ih => exact .step (.server e) ih trivial hs

theorem reach_books (hmax : cfg.maxAdmittedRequests ≤ 65536) (h : Reach (stepFailing cfg) anyStep init s) :
    Books cfg s.tables s.engine.hold :=
  h.inv (I := fun s => Books cfg s.tables s.engine.hold) .start
    fun _ _ _ _ hb _ hstep => hb.region hmax (step_region hstep)

theorem reach_closing (h : Reach (stepFailing cfg) anyStep init s) : Closing s :=
  h.inv closing_init fun _ _ _ _ hc _ hstep => hc.step hstep

theorem admitted_drainPending {t : Tables} (ids : List RequestId) :
    (t.drainPending ids).1.admitted = t.admitted ∧
      (t.drainPending ids).1.acceptedIdHighWater = t.acceptedIdHighWater := by
  induction ids generalizing t with
  | nil => exact ⟨rfl, rfl⟩
  | cons id ids ih =>
    rw [Tables.drainPending]
    simp only
    split
    · exact ih
    · exact ih

theorem Region.highWater {t t' : Tables} {h h' : Hold} (r : Region cfg t h t' h') :
    (t'.acceptedIdHighWater = t.acceptedIdHighWater ∧ t'.admitted = t.admitted) ∨
      (t.acceptedIdHighWater < t'.acceptedIdHighWater ∧ t'.admitted = t.admitted ++ [t'.acceptedIdHighWater]) := by
  cases r with
  | accept id request _ hwater => exact .inr ⟨hwater, rfl⟩
  | shutdown =>
    obtain ⟨hadm, hwater⟩ := @admitted_drainPending t t.pending
    exact .inl ⟨hwater, hadm⟩
  | _ => exact .inl ⟨rfl, rfl⟩

theorem Books.accounted (b : Books cfg s.tables s.engine.hold) (hc : Closing s) : Accounted cfg s where
  counted := ⟨b.activeNodup, b.count⟩
  limited := by
    rw [b.count]
    exact b.bound
  noUnderflow := by
    rw [b.count]
    exact b.balance
  pendingOnce := b.pendingNodup
  pendingOpen := by
    intro id hid
    obtain ⟨hstate, hterm⟩ := b.pendingOpen id hid
    obtain ⟨slot, hslot, hqueued⟩ := Option.map_eq_some_iff.mp hstate
    refine ⟨b.pendingActive id hid, slot, hslot, hqueued, ?_⟩
    simpa [Tables.terminal, hslot] using hterm
  oneRunning := by
    -- a running slot is not in the queue, so the engine thread holds it
    have hheld : ∀ id ∈ s.tables.active, s.tables.state id = some .running → s.engine.hold.slot = some id := by
      intro id hid hrun
      rcases b.heldBy id hid with hp | hh
      · rw [(b.pendingOpen id hp).1] at hrun
        cases hrun
      · exact hh
    intro i hi j hj hrun hrun'
    exact Option.some.inj ((hheld i hi hrun).symm.trans (hheld j hj hrun'))
  releasedOnce := by
    refine ⟨b.releasedNodup, fun id => ?_⟩
    rw [b.ledger id]
    have := b.releasedGone id
    tauto
  allReleased := by
    intro hreader hexited id hid
    have hempty : s.tables.pending = [] := by
      refine hc.drained (hc.atLast.resolve_right fun hm => ?_)
      rw [hreader] at hm
      cases hm
    rcases (b.ledger id).mp hid with hactive | hreleased
    · rcases b.heldBy id hactive with hp | hh
      · rw [hempty] at hp
        cases hp
      · rw [hexited] at hh
        cases hh
    · exact hreleased

end Accounting

/-- The native worker's admission accounting, over every interleaving of its threads, every
    input, every engine and every frame that is not sent. The constructor checks the limit. -/
theorem admitted_slots_are_accounted (cfg : Config) (hmax : cfg.maxAdmittedRequests ≤ 65536) :
    (∀ s, Reach (stepFailing cfg) anyStep init s → Accounted cfg s) ∧
      ∀ s e s', Reach (stepFailing cfg) anyStep init s → stepFailing cfg s e = some s' → AccountedStep s s' := by
  refine ⟨fun s hs => ?_, fun s e s' _ he => ⟨(step_region he).highWater⟩⟩
  exact (reach_books hmax hs).accounted (reach_closing hs)

/-- Request 1 waits in the queue when a frame cannot be written; request 2 finds no room. -/
theorem a_full_worker_is_accounted :
    ∃ s, Reach (stepFailing sampleConfig) anyStep init s ∧ s.tables.active = [1] ∧ s.fatalError = true ∧
      Accounted sampleConfig s := by
  have hrun : ∃ s, Reach (stepFailing sampleConfig) anyStep init s ∧
      decide (s.tables.active = [1] ∧ s.fatalError = true) = true :=
    exists_reach_of_run (synthesizeOne.map .server ++ [.failFatal, .server (.receive (.message 2 (.synthesize {})) true)])
      (by decide +kernel)
  obtain ⟨s, hs, hp⟩ := hrun
  obtain ⟨hactive, hfatal⟩ := of_decide_eq_true hp
  exact ⟨s, hs, hactive, hfatal, (admitted_slots_are_accounted sampleConfig (by decide)).1 s hs⟩

end QwenTtsBridge.Worker.NativeServer
