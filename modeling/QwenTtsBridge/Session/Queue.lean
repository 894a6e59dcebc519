/-
  QwenTtsBridge.Session.Queue — the event queue of a session, and what it is charged.

  Proved (`queue_accounts`), over every run: `queued_event_bytes_` is the sum of the sizes
  of the queued events, so the subtraction in `wait_for_event` takes off what was added;
  the regular events in the queue keep within both limits; events come out in the order
  in which they went in, each once, the front first; the overflow diagnostic is enqueued once, and no
  regular event after it.
-/

import QwenTtsBridge.Session.Grammar

namespace QwenTtsBridge.Session

open QwenTtsBridge.Protocol.Control QwenTtsBridge.Lib.EventLog QwenTtsBridge.Lib.Transition

def Entry.event? : Entry → Option (WorkerSessionEvent × Limit)
  | .event e limit => some (e, limit)
  | _ => none

def Entry.isRegular : Entry → Bool
  | .event _ .regular => true
  | _ => false

def Entry.isOverflow : Entry → Bool
  | .event _ .overflow => true
  | _ => false

/-- The events of a log, with their rules. -/
def enqueued (log : List Entry) : List (WorkerSessionEvent × Limit) := log.filterMap Entry.event?

/-- The events still queued, with their rules. -/
def queued (s : St) : List (WorkerSessionEvent × Limit) := (enqueued s.log).drop s.returned.length

/-- The regular ones of them. -/
def regularQueued (s : St) : List (WorkerSessionEvent × Limit) := (queued s).filter (·.2 == .regular)

def totalSize (events : List WorkerSessionEvent) : Nat := (events.map eventPayloadSize).sum

structure QueueAccounts (lib : JsonLibrary) (options : WorkerSessionOptions) (s : St) : Prop where
  bytes : s.queuedEventBytes = totalSize s.events
  noTruncation : ∀ event events, s.events = event :: events → eventPayloadSize event ≤ s.queuedEventBytes
  regularBytes : totalSize ((regularQueued s).map (·.1)) ≤ options.maxEventQueueBytes
  regularEvents : (regularQueued s).length ≤ options.maxEventQueueEvents
  /-- The events given out and then those queued are the events enqueued. -/
  order : (enqueued s.log).map (·.1) = s.returned ++ s.events
  /-- `wait_for_event` gives out the front. -/
  front : ∀ event events, s.events = event :: events → ∃ s', step lib options s .waitForEvent = some s' ∧
    s'.returned = s.returned ++ [event] ∧ s'.events = events ∧
    s'.queuedEventBytes + eventPayloadSize event = s.queuedEventBytes
  overflowOnce : s.log.countP Entry.isOverflow = if s.eventQueueOverflowed then 1 else 0
  overflowLast : ∀ before e after, s.log = before ++ .event e .overflow :: after → ∀ x ∈ after, x.isRegular = false

section Accounts

variable {options : WorkerSessionOptions} {s s' : St}

/-- A regular event follows no overflow. -/
def BeforeOverflow (log : List Entry) (e : Entry) : Prop := e.isRegular = true → ∀ x ∈ log, x.isOverflow = false

theorem totalSize_append (a b : List WorkerSessionEvent) : totalSize (a ++ b) = totalSize a + totalSize b := by
  simp [totalSize]

theorem totalSize_sublist {a b : List WorkerSessionEvent} (h : a.Sublist b) : totalSize a ≤ totalSize b := by
  induction h with
  | slnil => exact Nat.le_refl _
  | cons c _ ih =>
    simp only [totalSize, List.map_cons, List.sum_cons] at ih ⊢
    omega
  | cons_cons c _ ih =>
    simp only [totalSize, List.map_cons, List.sum_cons] at ih ⊢
    omega

structure Charged (options : WorkerSessionOptions) (s : St) : Prop where
  fresh : s.startAttempted = false → s.log = [] ∧ s.events = [] ∧ s.eventQueueOverflowed = false
  bytes : s.queuedEventBytes = totalSize s.events
  order : (enqueued s.log).map (·.1) = s.returned ++ s.events
  regularBytes : totalSize ((regularQueued s).map (·.1)) ≤ options.maxEventQueueBytes
  regularEvents : (regularQueued s).length ≤ options.maxEventQueueEvents
  overflow : s.log.countP Entry.isOverflow = if s.eventQueueOverflowed then 1 else 0
  legal : Legal BeforeOverflow s.log

theorem enqueued_snoc_none (log : List Entry) {e : Entry} (he : e.event? = none) : enqueued (log ++ [e]) = enqueued log := by
  simp [enqueued, List.filterMap_append, he]

theorem enqueued_snoc_event (log : List Entry) (e : WorkerSessionEvent) (limit : Limit) :
    enqueued (log ++ [.event e limit]) = enqueued log ++ [(e, limit)] := by
  simp [enqueued, List.filterMap_append, Entry.event?]

theorem queued_map (h : (enqueued s.log).map (·.1) = s.returned ++ s.events) : (queued s).map (·.1) = s.events := by
  rw [queued, List.map_drop, h, List.drop_left]

theorem regularQueued_sublist (h : (enqueued s.log).map (·.1) = s.returned ++ s.events) :
    ((regularQueued s).map (·.1)).Sublist s.events := by
  rw [← queued_map h]
  exact List.filter_sublist.map _

theorem returned_length_le (h : (enqueued s.log).map (·.1) = s.returned ++ s.events) :
    s.returned.length ≤ (enqueued s.log).length := by
  have hlen := congrArg List.length h
  rw [List.length_map, List.length_append] at hlen
  omega

/-- An entry that is no event. -/
theorem Charged.note {e : Entry} (h : Charged options s) (ha : s'.startAttempted = true) (he : e.event? = none)
    (hsame : s'.log = s.log ++ [e] ∧ s'.events = s.events ∧ s'.queuedEventBytes = s.queuedEventBytes ∧
      s'.returned = s.returned ∧ s'.eventQueueOverflowed = s.eventQueueOverflowed) : Charged options s' := by
  obtain ⟨hlog, hevents, hbytes, hreturned, hoverflowed⟩ := hsame
  have hno : e.isOverflow = false ∧ e.isRegular = false := by
    cases e with
    | event e limit => cases he
    | _ => exact ⟨rfl, rfl⟩
  have hregular : regularQueued s' = regularQueued s := by
    rw [regularQueued, queued, hlog, enqueued_snoc_none _ he, hreturned, regularQueued, queued]
  constructor
  · intro hfalse
    rw [ha] at hfalse
    cases hfalse
  · rw [hbytes, hevents]
    exact h.bytes
  · rw [hlog, enqueued_snoc_none _ he, hreturned, hevents]
    exact h.order
  · rw [hregular]
    exact h.regularBytes
  · rw [hregular]
    exact h.regularEvents
  · rw [hlog, hoverflowed, List.countP_append, h.overflow]
    simp [hno.1]
  · rw [hlog]
    refine h.legal.snoc fun hr => ?_
    rw [hno.2] at hr
    cases hr

/-- An event is enqueued; the first that finds no room leaves the diagnostic in its place. -/
theorem Charged.push {e : WorkerSessionEvent} {limit : Limit} (h : Charged options s) (ha : s'.startAttempted = true)
    (hregular : limit = .regular → s.events.length < options.maxEventQueueEvents ∧
      s.queuedEventBytes + eventPayloadSize e ≤ options.maxEventQueueBytes)
    (hopen : limit ≠ .exempt → s.eventQueueOverflowed = false)
    (hsame : s'.log = s.log ++ [.event e limit] ∧ s'.events = s.events ++ [e] ∧
      s'.queuedEventBytes = s.queuedEventBytes + eventPayloadSize e ∧ s'.returned = s.returned ∧
      s'.eventQueueOverflowed = (limit == .overflow || s.eventQueueOverflowed)) : Charged options s' := by
  obtain ⟨hlog, hevents, hbytes, hreturned, hoverflowed⟩ := hsame
  have hqueued : queued s' = queued s ++ [(e, limit)] := by
    rw [queued, hlog, hreturned, enqueued_snoc_event, List.drop_append_of_le_length (returned_length_le h.order), queued]
  have hsub := regularQueued_sublist h.order
  constructor
  · intro hfalse
    rw [ha] at hfalse
    cases hfalse
  · rw [hbytes, hevents, totalSize_append, h.bytes]
    simp [totalSize]
  · rw [hlog, hreturned, hevents, enqueued_snoc_event, List.map_append, h.order]
    simp
  · have hle := totalSize_sublist hsub
    have hbound := h.regularBytes
    rw [← h.bytes] at hle
    rw [regularQueued] at hle hbound ⊢
    rw [hqueued, List.filter_append, List.map_append, totalSize_append]
    by_cases hl : limit = .regular
    · have hroom := (hregular hl).2
      rw [hl]
      show _ + totalSize [e] ≤ _
      simp only [totalSize, List.map_cons, List.map_nil, List.sum_cons, List.sum_nil] at hle ⊢
      omega
    · simpa [totalSize, hl] using hbound
  · have hle := hsub.length_le
    have hbound := h.regularEvents
    rw [List.length_map] at hle
    rw [regularQueued] at hle hbound ⊢
    rw [hqueued, List.filter_append, List.length_append]
    by_cases hl : limit = .regular
    · have hroom := (hregular hl).1
      rw [hl]
      show _ + 1 ≤ _
      omega
    · simpa [hl] using hbound
  · rw [hlog, hoverflowed, List.countP_append, h.overflow]
    cases limit with
    | overflow =>
      rw [hopen nofun]
      rfl
    | _ => rfl
  · rw [hlog]
    refine h.legal.snoc fun hr x hx => ?_
    have hopen : s.eventQueueOverflowed = false := by
      refine hopen ?_
      rintro rfl
      cases hr
    have hcount := h.overflow
    rw [hopen] at hcount
    by_contra hover
    exact List.countP_eq_zero.mp hcount x hx (by simpa using hover)

theorem not_isFull {e : WorkerSessionEvent} (h : isFull options s e = false) :
    s.events.length < options.maxEventQueueEvents ∧
      s.queuedEventBytes + eventPayloadSize e ≤ options.maxEventQueueBytes := by
  simp only [isFull, Bool.or_eq_false_iff, decide_eq_false_iff_not] at h
  omega

theorem Charged.fail (h : Charged options s) (ha : s.startAttempted = true) : Charged options (fail s) := by
  unfold Session.fail
  split
  · exact h.note (e := .state .failed) ha rfl ⟨rfl, rfl, rfl, rfl, rfl⟩
  · exact h

theorem fail_eventQueueOverflowed (s : St) : (fail s).eventQueueOverflowed = s.eventQueueOverflowed := by
  unfold Session.fail
  split <;> rfl

theorem fail_overflowed (s : St) :
    fail { s with eventQueueOverflowed := true } = { fail s with eventQueueOverflowed := true } := by
  unfold Session.fail
  split <;> rfl

theorem charged_move (h : Charged options s) (hm : Move options s s') : Charged options s' := by
  cases hm with
  | parser parser => exact ⟨h.fresh, h.bytes, h.order, h.regularBytes, h.regularEvents, h.overflow, h.legal⟩
  | calls calls => exact ⟨h.fresh, h.bytes, h.order, h.regularBytes, h.regularEvents, h.overflow, h.legal⟩
  | begin hrefused =>
    -- nothing is cleared that was not empty
    have hfresh : s.startAttempted = false := by
      simp only [startRefused, Bool.or_eq_false_iff] at hrefused
      exact hrefused.1.1.1
    obtain ⟨-, hevents, hoverflowed⟩ := h.fresh hfresh
    have hbytes : s.queuedEventBytes = 0 := by
      rw [h.bytes, hevents]
      rfl
    exact h.note (e := .state .starting) rfl rfl ⟨rfl, hevents.symm, hbytes.symm, rfl, hoverflowed.symm⟩
  | state hst ha => exact h.note (e := .state _) ha rfl ⟨rfl, rfl, rfl, rfl, rfl⟩
  | exempt he ha =>
    refine h.push ha ?_ ?_ ⟨rfl, rfl, rfl, rfl, rfl⟩
    · simp
    · exact fun hne => absurd rfl hne
  | regular ho hf he ha => exact h.push ha (fun _ => not_isFull hf) (fun _ => ho) ⟨rfl, rfl, rfl, rfl, rfl⟩
  | ready message ho hf hstarting ha =>
    have hpushed : Charged options (pushBack s (.control 0 (.ready message)) .regular) :=
      h.push ha (fun _ => not_isFull hf) (fun _ => ho) ⟨rfl, rfl, rfl, rfl, rfl⟩
    exact hpushed.note (e := .state .ready) ha rfl ⟨rfl, rfl, rfl, rfl, rfl⟩
  | overflow ho hf ha =>
    rw [fail_overflowed]
    refine (h.fail ha).push ?_ ?_ ?_ ⟨rfl, rfl, rfl, rfl, rfl⟩
    · exact (fail_startAttempted s).trans ha
    · simp
    · exact fun _ => (fail_eventQueueOverflowed s).trans ho
  | handed id message ha => exact h.note (e := .handed id message) ha rfl ⟨rfl, rfl, rfl, rfl, rfl⟩
  | shutdown hmem ha => exact ⟨h.fresh, h.bytes, h.order, h.regularBytes, h.regularEvents, h.overflow, h.legal⟩
  | @wait event events hevents =>
    have horder : (enqueued s.log).map (·.1) = (s.returned ++ [event]) ++ events := by
      rw [h.order, hevents, List.append_assoc, List.singleton_append]
    have htail : regularQueued { s with
        events
        queuedEventBytes := s.queuedEventBytes - min s.queuedEventBytes (eventPayloadSize event)
        returned := s.returned ++ [event] } <:+ regularQueued s := by
      show ((enqueued s.log).drop (s.returned ++ [event]).length).filter _ <:+ ((enqueued s.log).drop _).filter _
      refine List.IsSuffix.filter _ ?_
      rw [List.length_append, List.length_singleton, ← List.drop_drop]
      exact List.drop_suffix _ _
    constructor
    · intro hfalse
      rw [(h.fresh hfalse).2.1] at hevents
      cases hevents
    · show s.queuedEventBytes - min s.queuedEventBytes (eventPayloadSize event) = totalSize events
      have hbytes := h.bytes
      rw [hevents] at hbytes
      simp only [totalSize, List.map_cons, List.sum_cons] at hbytes ⊢
      omega
    · exact horder
    · exact (totalSize_sublist (htail.sublist.map _)).trans h.regularBytes
    · exact htail.length_le.trans h.regularEvents
    · exact h.overflow
    · exact h.legal

theorem reach_charged {lib : JsonLibrary} {ok : St → Ev → Prop} (h : Reach (step lib options) ok init s) :
    Charged options s := by
  refine moves_inv (I := Charged options) ?_ (fun _ _ => charged_move) (reach_moves h)
  exact ⟨fun _ => ⟨rfl, rfl, rfl⟩, rfl, rfl, Nat.zero_le _, Nat.zero_le _, rfl, legal_nil⟩

end Accounts

/-- The queue of every reachable session is charged for what it holds. -/
theorem queue_accounts (lib : JsonLibrary) (options : WorkerSessionOptions) {s : St} (h : Reachable lib options s) :
    QueueAccounts lib options s := by
  have hc := reach_charged h
  have hfits (event : WorkerSessionEvent) (events : List WorkerSessionEvent) (hevents : s.events = event :: events) :
      eventPayloadSize event ≤ s.queuedEventBytes := by
    rw [hc.bytes, hevents]
    exact Nat.le_add_right _ _
  refine ⟨hc.bytes, hfits, hc.regularBytes, hc.regularEvents, hc.order, fun event events hevents => ?_, hc.overflow, ?_⟩
  · have hle := hfits event events hevents
    simp only [step, hevents]
    refine ⟨_, rfl, rfl, rfl, ?_⟩
    show s.queuedEventBytes - min s.queuedEventBytes (eventPayloadSize event) + eventPayloadSize event = _
    omega
  · intro before e after heq x hx
    by_contra hregular
    rw [Bool.not_eq_false] at hregular
    obtain ⟨mid, rest, rfl⟩ := List.append_of_mem hx
    have hno := hc.legal (before ++ .event e .overflow :: mid) x rest (by simp [heq]) hregular
      (.event e .overflow) (List.mem_append_right _ List.mem_cons_self)
    cases hno

/-- A `ready` that does not fit is replaced by the diagnostic. -/
theorem overflow_is_enqueued_once : ∃ s, Reachable sampleLibrary { maxEventQueueBytes := 1 } s ∧
    s.events = [overflowEvent] ∧ QueueAccounts sampleLibrary { maxEventQueueBytes := 1 } s := by
  have hrun : ∃ s, Reachable sampleLibrary { maxEventQueueBytes := 1 } s ∧ decide (s.events = [overflowEvent]) = true :=
    exists_reach_of_run startRun (by decide +kernel)
  obtain ⟨s, hreach, hevents⟩ := hrun
  exact ⟨s, hreach, of_decide_eq_true hevents, queue_accounts sampleLibrary _ hreach⟩

end QwenTtsBridge.Session
