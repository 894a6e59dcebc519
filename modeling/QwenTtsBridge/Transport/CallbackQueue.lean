/-
  QwenTtsBridge.Transport.CallbackQueue — what becomes of the events of `StdIoTransport`
  (`StdIo`).

  Three orders of steps stop the callback thread for good (`Deadlocked`): a `send()` that
  finds the transport closed under `state_mutex_` when the queue is full, a `start()` or
  `stop()` that joins the callback thread while a handler waits for `lifecycle_mutex_`, and
  a refused `start()` whose error handler calls back. In every run without them (`Sound`):
  - an accepted event is dispatched exactly once, in the order of acceptance
    (`Inv.inHand`, `Queue.Ok.order`), and before the next `start()` all are (`Session.Complete`);
  - the queue counts its bytes, and holds at most two events more than it may;
  - one overflow error is queued, and only an exit event after it;
  - a started process has one exit event, after all that was received from it;
  - whatever the threads do next, without further calls and data they come to a state in
    which everything accepted has been dispatched (`settles`).
-/

import QwenTtsBridge.Transport.StdIo
import QwenTtsBridge.Lib.Inevitable

namespace QwenTtsBridge.Transport

open QwenTtsBridge.Lib.Transition

/-! ## The queue -/

def exits (events : List CallbackEvent) : Nat := events.countP CallbackEvent.isExit

@[simp] theorem exits_append (a b : List CallbackEvent) : exits (a ++ b) = exits a + exits b := List.countP_append

@[simp] theorem exits_singleton (event : CallbackEvent) : exits [event] = event.isExit.toNat := by
  cases h : event.isExit <;> simp [exits, h]

/-- Nothing is received after an exit. -/
def ReceivesFirst (events : List CallbackEvent) : Prop :=
  events.Pairwise fun a b => a.isExit = true → b.type ≠ .receive

theorem ReceivesFirst.snoc {events : List CallbackEvent} {event : CallbackEvent} (h : ReceivesFirst events)
    (hnew : event.type = .receive → exits events = 0) : ReceivesFirst (events ++ [event]) := by
  refine List.pairwise_append.mpr ⟨h, List.pairwise_singleton _ _, fun a ha b hb hexit hreceive => ?_⟩
  rw [List.mem_singleton.mp hb] at hreceive
  exact List.countP_eq_zero.mp (hnew hreceive) a ha hexit

namespace Queue

variable {opts : Options} {q : Queue} {event : CallbackEvent}

structure Ok (opts : Options) (q : Queue) : Prop where
  order : q.accepted = q.taken ++ q.events
  bytes : q.queuedBytes = q.payload
  payload_lt : q.payload < 2 ^ 64
  room : q.events.length ≤ opts.maxCallbackQueueEvents + q.overflowed.toNat + exits q.accepted
  counted : q.overflows = q.overflowed.toNat
  last : q.overflowed = true → ∃ before after, q.accepted = before ++ makeCallbackQueueOverflowError :: after ∧
    ∀ e ∈ after, e.isExit = true
  stopped : q.stopRequested = true → q.accepting = false

/-- Refused, taken in, or refused with an overflow error in its place. -/
theorem enqueue_cases (opts : Options) (q : Queue) (event : CallbackEvent) :
    q.enqueue opts event = (q, false) ∨
    (q.enqueue opts event = (q.push event, false) ∧ q.accepting = true ∧
      (event.isExit = true ∨ (q.overflowed = false ∧ q.wouldOverflow opts event = false))) ∨
    (q.enqueue opts event =
        ({ q with overflowed := true, overflows := q.overflows + 1 }.push makeCallbackQueueOverflowError, true) ∧
      q.accepting = true ∧ event.isExit = false ∧ q.overflowed = false) := by
  unfold enqueue
  cases q.accepting with
  | false => exact .inl rfl
  | true =>
    cases event.isExit with
    | true =>
      refine .inr (.inl ⟨?_, rfl, .inl rfl⟩)
      cases q.overflowed <;> rfl
    | false =>
      cases q.overflowed with
      | true => exact .inl rfl
      | false =>
        cases q.wouldOverflow opts event with
        | false => exact .inr (.inl ⟨rfl, rfl, .inr ⟨rfl, rfl⟩⟩)
        | true => exact .inr (.inr ⟨rfl, rfl, rfl, rfl⟩)

theorem payload_push : (q.push event).payload = q.payload + event.payloadSize := by
  simp [payload, push]

theorem Ok.push (h : q.Ok opts) (hlt : q.payload + event.payloadSize < 2 ^ 64)
    (hroom : q.events.length < opts.maxCallbackQueueEvents + q.overflowed.toNat + exits q.accepted + event.isExit.toNat)
    (hlast : q.overflowed = true → event.isExit = true) : (q.push event).Ok opts where
  order := by
    show q.accepted ++ [event] = q.taken ++ (q.events ++ [event])
    rw [h.order, List.append_assoc]
  bytes := by
    rw [payload_push]
    show sizeAdd q.queuedBytes event.payloadSize = _
    rw [h.bytes, sizeAdd, Nat.mod_eq_of_lt hlt]
  payload_lt := by
    rw [payload_push]
    exact hlt
  room := by
    show (q.events ++ [event]).length ≤ _ + q.overflowed.toNat + exits (q.accepted ++ [event])
    simp only [List.length_append, List.length_singleton, exits_append, exits_singleton]
    omega
  counted := h.counted
  last := by
    intro hover
    obtain ⟨before, after, haccepted, hafter⟩ := h.last hover
    refine ⟨before, after ++ [event], ?_, ?_⟩
    · show q.accepted ++ [event] = _
      rw [haccepted, List.append_assoc, List.cons_append]
    · intro e he
      rcases List.mem_append.mp he with he | he
      · exact hafter e he
      · rw [List.mem_singleton.mp he]
        exact hlast hover
  stopped := h.stopped

theorem Ok.enqueue (h : q.Ok opts) (hfits : q.payload + event.payloadSize < 2 ^ 64)
    (herror : event.isExit = false → q.fits event) : (q.enqueue opts event).1.Ok opts := by
  rcases enqueue_cases opts q event with heq | ⟨heq, -, hin⟩ | ⟨heq, -, hnot, hover⟩
  · rw [heq]
    exact h
  · rw [heq]
    have hroom := h.room
    refine h.push hfits ?_ ?_
    · rcases hin with hexit | ⟨-, hwould⟩
      · rw [hexit, Bool.toNat_true]
        omega
      · simp only [wouldOverflow, Bool.or_eq_false_iff, decide_eq_false_iff_not] at hwould
        omega
    · intro hover
      rcases hin with hexit | ⟨hover', -⟩
      · exact hexit
      · rw [hover'] at hover
        cases hover
  · rw [heq]
    have hroom := h.room
    have hcounted := h.counted
    have hlt := herror hnot
    rw [hover, Bool.toNat_false] at hroom hcounted
    simp only [fits] at hlt
    exact {
      order := by
        show q.accepted ++ [_] = q.taken ++ (q.events ++ [_])
        rw [h.order, List.append_assoc]
      bytes := by
        rw [payload_push]
        show sizeAdd q.queuedBytes _ = q.payload + _
        rw [h.bytes, sizeAdd, Nat.mod_eq_of_lt (by omega)]
      payload_lt := by
        rw [payload_push]
        show q.payload + _ < _
        omega
      room := by
        show (q.events ++ [_]).length ≤ _ + 1 + exits (q.accepted ++ [_])
        simp only [List.length_append, List.length_singleton, exits_append]
        omega
      counted := by
        show q.overflows + 1 = 1
        omega
      last := fun _ => ⟨q.accepted, [], rfl, nofun⟩
      stopped := h.stopped }

theorem Ok.pop {event : CallbackEvent} {q' : Queue} (h : q.Ok opts) (hpop : q.pop = some (event, q')) :
    q'.Ok opts ∧ q'.taken = q.taken ++ [event] ∧ q'.accepted = q.accepted ∧ q'.accepting = q.accepting ∧
      q'.events.length < q.events.length := by
  unfold Queue.pop at hpop
  split at hpop
  · cases hpop
  · rename_i e rest hevents
    cases hpop
    have hpayload : q.payload = event.payloadSize + (rest.map CallbackEvent.payloadSize).sum := by
      rw [payload, hevents, List.map_cons, List.sum_cons]
    have hroom := h.room
    have hlt := h.payload_lt
    rw [hevents, List.length_cons] at hroom
    refine ⟨{
      order := by
        show q.accepted = (q.taken ++ [event]) ++ rest
        rw [h.order, hevents, List.append_assoc]
        rfl
      bytes := by
        -- no underflow: what is taken away is part of the sum
        show sizeSub q.queuedBytes event.payloadSize = (rest.map CallbackEvent.payloadSize).sum
        rw [h.bytes, sizeSub]
        omega
      payload_lt := by
        show (rest.map CallbackEvent.payloadSize).sum < _
        omega
      room := by
        show rest.length ≤ _ + q.overflowed.toNat + exits q.accepted
        omega
      counted := h.counted
      last := h.last
      stopped := h.stopped }, rfl, rfl, rfl, ?_⟩
    rw [hevents]
    exact Nat.lt_succ_self _

theorem Ok.requestStop (h : q.Ok opts) : q.requestStop.Ok opts := { h with stopped := fun _ => rfl }

theorem ok_fresh (opts : Options) : Queue.fresh.Ok opts where
  order := rfl
  bytes := rfl
  payload_lt := by decide
  room := Nat.zero_le _
  counted := rfl
  last := nofun
  stopped := nofun

/-- What an event that is no exit does to the log of accepted events. -/
theorem enqueue_log (opts : Options) (hexit : event.isExit = false) (hfirst : ReceivesFirst q.accepted)
    (hreceive : event.type = .receive → exits q.accepted = 0) :
    exits (q.enqueue opts event).1.accepted = exits q.accepted ∧
      ReceivesFirst (q.enqueue opts event).1.accepted := by
  rcases enqueue_cases opts q event with heq | ⟨heq, -, -⟩ | ⟨heq, -, -, -⟩
  · rw [heq]
    exact ⟨rfl, hfirst⟩
  · rw [heq]
    refine ⟨?_, hfirst.snoc hreceive⟩
    show exits (q.accepted ++ [event]) = _
    rw [exits_append, exits_singleton, hexit]
    rfl
  · rw [heq]
    refine ⟨?_, hfirst.snoc nofun⟩
    show exits (q.accepted ++ [_]) = _
    rw [exits_append, exits_singleton]
    rfl

theorem enqueue_frame (opts : Options) (q : Queue) (event : CallbackEvent) :
    (q.enqueue opts event).1.taken = q.taken ∧ (q.enqueue opts event).1.accepting = q.accepting ∧
      (q.accepting = false → (q.enqueue opts event).1 = q) ∧
      ∀ e ∈ (q.enqueue opts event).1.accepted, e ∈ q.accepted ∨ e = event ∨ e = makeCallbackQueueOverflowError := by
  rcases enqueue_cases opts q event with heq | ⟨heq, hacc, -⟩ | ⟨heq, hacc, -, -⟩
  · rw [heq]
    exact ⟨rfl, rfl, fun _ => rfl, fun e he => .inl he⟩
  · rw [heq]
    refine ⟨rfl, rfl, fun hno => ?_, fun e he => ?_⟩
    · rw [hacc] at hno
      cases hno
    · rcases List.mem_append.mp he with he | he
      · exact .inl he
      · exact .inr (.inl (List.mem_singleton.mp he))
  · rw [heq]
    refine ⟨rfl, rfl, fun hno => ?_, fun e he => ?_⟩
    · rw [hacc] at hno
      cases hno
    · rcases List.mem_append.mp he with he | he
      · exact .inl he
      · exact .inr (.inr (List.mem_singleton.mp he))

end Queue

/-! ## Runs without a deadlock -/

/-- The condition on a step: it does not bring the callback thread to wait for itself. -/
def Sound (opts : Options) (s : St) : Ev → Prop
  | .handlerCalls _ => s.lifecycle.joins = false
  | .stops | .launchFails => s.callbackThread.isWanting = false
  | .starts => s.refusesStart opts = true ∨ s.callbackThread.isWanting = false
  | .refusalReenters .outside => opts.refused = true ∧ s.callbackThread.ended = true
  | .refusalReenters .callback => False
  | .sendRechecks process => s.closedTo process = true → (s.queue.enqueue opts notRunningError).2 = false
  | _ => True

instance (opts : Options) (s : St) (e : Ev) : Decidable (Sound opts s e) := by
  unfold Sound
  split <;> infer_instance

theorem CallbackThread.not_wanting_of_ended {thread : CallbackThread} (h : thread.ended = true) :
    thread.isWanting = false := by
  cases thread with
  | wanting call => cases h
  | none | idle | holding _ | inHandler | stopping | finished => rfl

def CallbackThread.inHand : CallbackThread → List CallbackEvent
  | .holding event => [event]
  | _ => []

/-- What is known where a `start()` or `stop()` stands. -/
def Phase (s : St) : Prop :=
  match s.lifecycle with
  | .free | .stopWaiting _ | .stopJoiningExit _ => True
  | .stopResetting _ | .stuck => s.exitThread.ended = true
  | .stopRequesting _ | .stopJoining | .startRequesting | .startJoining =>
    s.exitThread.ended = true ∧ s.process = none
  | .startSpawning =>
    s.exitThread.ended = true ∧ s.process = none ∧ s.callbackThread.ended = true ∧ s.handlers = true
  | .startLaunching => s.exitThread = .none ∧ s.process = none ∧ s.started = false ∧ s.queue.accepting = true
  | .startPublishing => s.exitThread = .none ∧ s.started = false ∧ s.queue.accepting = true
  | .startWatching => s.exitThread = .none ∧ s.process.isSome = true ∧ s.queue.accepting = true
  | .failRequesting | .failJoining => s.exitThread = .none ∧ s.started = false

/-- While the exit thread runs, `start()` and `stop()` are not past joining it. -/
theorem Phase.of_live {s s' : St} (h : Phase s) (hlive : s.exitThread.ended = false)
    (hsame : s'.lifecycle = s.lifecycle) : Phase s' := by
  unfold Phase at h ⊢
  rw [hsame]
  cases hl : s.lifecycle with
  | free | stopWaiting _ | stopJoiningExit _ => simp only
  | stopResetting _ | stuck =>
    simp only [hl] at h
    rw [hlive] at h
    cases h
  | stopRequesting _ | stopJoining | startRequesting | startJoining | startSpawning =>
    simp only [hl] at h
    rw [hlive] at h
    cases h.1
  | startLaunching | startPublishing | startWatching | failRequesting | failJoining =>
    simp only [hl] at h
    rw [h.1] at hlive
    cases hlive

/-- While the callback thread runs, no `start()` is past joining it. -/
theorem Phase.of_thread {s : St} (h : Phase s) (hlive : s.callbackThread.ended = false) (thread : CallbackThread) :
    Phase { s with callbackThread := thread } := by
  unfold Phase at h ⊢
  cases hl : s.lifecycle with
  | startSpawning =>
    simp only [hl, hlive] at h
    cases h.2.2.1
  | free | stopWaiting _ | stopJoiningExit _ => simp only
  | stopResetting _ | stopRequesting _ | stopJoining | startRequesting | startJoining | startLaunching
  | startPublishing | startWatching | failRequesting | failJoining | stuck => simpa only [hl] using h

/-- What is left when a session is over. -/
structure Session.Complete (opts : Options) (x : Session) : Prop where
  queue : x.queue.Ok opts
  all : x.dispatched = x.queue.accepted
  exit : x.started = true → exits x.dispatched = 1
  once : exits x.dispatched ≤ 1
  receives : ReceivesFirst x.dispatched

structure Inv (opts : Options) (s : St) : Prop where
  queue : s.queue.Ok opts
  inHand : s.queue.taken = s.dispatched ++ s.callbackThread.inHand
  stderr : ∀ e ∈ s.queue.accepted, e.type = .stderr → opts.hasStderrHandler = true
  unstuck : s.stateMutexStuck = false
  noWait : s.callbackThread.isWanting = true → s.lifecycle.joins = false
  stopping : s.callbackThread = .stopping ↔ s.lifecycle.isCallbackStop = true
  handlers : s.callbackThread.ended = false → s.handlers = true
  ended : s.callbackThread.ended = true → s.queue.events = [] ∧ s.queue.accepting = false
  exitCount : exits s.queue.accepted = if s.exitThread = .done then 1 else 0
  receives : ReceivesFirst s.queue.accepted
  reading : s.readers = true → s.exitThread = .none ∨ ∃ process, s.exitThread = .watching process
  watched : s.exitThread.ended = false → s.process.isSome = true ∧ s.queue.accepting = true
  started : s.started = true → s.exitThread ≠ .none
  phase : Phase s
  past : ∀ x ∈ s.past, x.Complete opts

theorem inv_init (opts : Options) : Inv opts {} where
  queue := { Queue.ok_fresh opts with stopped := nofun }
  inHand := rfl
  stderr := nofun
  unstuck := rfl
  noWait := nofun
  stopping := ⟨nofun, nofun⟩
  handlers := nofun
  ended := fun _ => ⟨rfl, rfl⟩
  exitCount := rfl
  receives := List.Pairwise.nil
  reading := nofun
  watched := nofun
  started := nofun
  phase := trivial
  past := nofun

namespace Inv

variable {opts : Options} {s : St}

/-- Without a process there is no exit to come. -/
theorem exit_ended (h : Inv opts s) (hprocess : s.process = none) : s.exitThread.ended = true := by
  by_contra hlive
  have hsome := (h.watched (Bool.not_eq_true _ ▸ hlive)).1
  rw [hprocess] at hsome
  cases hsome

theorem not_callbackStop (h : Inv opts s) (hthread : s.callbackThread ≠ .stopping) :
    ¬ s.lifecycle.isCallbackStop = true := fun hl => hthread (h.stopping.mpr hl)

theorem not_stopping (h : Inv opts s) (hfree : s.lifecycle = .free) : s.callbackThread ≠ .stopping := by
  intro hthread
  have hstop := h.stopping.mp hthread
  rw [hfree] at hstop
  cases hstop

/-- A thread other than the exit thread puts an event into the queue. -/
theorem enqueue (h : Inv opts s) {event : CallbackEvent} (hexit : event.isExit = false) (hfits : s.queue.fits event)
    (hreceive : event.type = .receive → s.readers = true)
    (hstderr : event.type = .stderr → opts.hasStderrHandler = true) :
    Inv opts { s with queue := (s.queue.enqueue opts event).1 } := by
  obtain ⟨htaken, hacc, hrefused, hmem⟩ := Queue.enqueue_frame opts s.queue event
  have hnone : event.type = .receive → exits s.queue.accepted = 0 := by
    intro hr
    rw [h.exitCount]
    rcases h.reading (hreceive hr) with hx | ⟨process, hx⟩ <;> rw [hx] <;> rfl
  obtain ⟨hexits, hfirst⟩ := Queue.enqueue_log opts hexit h.receives hnone
  have hlt : s.queue.payload + event.payloadSize < 2 ^ 64 := Nat.lt_of_le_of_lt (Nat.le_add_right _ _) hfits
  exact { h with
    queue := h.queue.enqueue hlt fun _ => hfits
    inHand := htaken.trans h.inHand
    stderr := by
      intro e he htype
      rcases hmem e he with he | rfl | rfl
      · exact h.stderr e he htype
      · exact hstderr htype
      · cases htype
    ended := by
      intro hended
      show (s.queue.enqueue opts event).1.events = [] ∧ (s.queue.enqueue opts event).1.accepting = false
      rw [hrefused (h.ended hended).2]
      exact h.ended hended
    exitCount := hexits.trans h.exitCount
    receives := hfirst
    watched := fun hlive => ⟨(h.watched hlive).1, hacc.trans (h.watched hlive).2⟩
    phase := by
      have hphase := h.phase
      simp only [Phase] at hphase ⊢
      rw [hacc]
      exact hphase }

/-- `stop()` begins, called by a handler or by another thread. -/
theorem beginStop (h : Inv opts s) {owner : Owner} {thread : CallbackThread}
    (hinHand : thread.inHand = s.callbackThread.inHand) (hended : thread.ended = s.callbackThread.ended)
    (hwait : thread.isWanting = true → owner = .callback)
    (howner : thread = .stopping ↔ owner = .callback) : Inv opts { s.beginStop owner with callbackThread := thread } := by
  have hlife : (s.beginStop owner).lifecycle = .stopWaiting owner ∨
      ((s.beginStop owner).lifecycle = .stopResetting owner ∧ s.process = none) := by
    unfold St.beginStop
    cases hp : s.process with
    | none => exact .inr ⟨rfl, rfl⟩
    | some process => exact .inl rfl
  exact { h with
    inHand := by
      show s.queue.taken = s.dispatched ++ thread.inHand
      rw [hinHand]
      exact h.inHand
    noWait := by
      intro hw
      show (s.beginStop owner).lifecycle.joins = false
      rw [hwait hw] at hlife ⊢
      rcases hlife with hl | ⟨hl, -⟩ <;> rw [hl] <;> rfl
    stopping := by
      show thread = .stopping ↔ (s.beginStop owner).lifecycle.isCallbackStop = true
      rw [howner]
      rcases hlife with hl | ⟨hl, -⟩ <;> rw [hl] <;> cases owner <;> simp [Lifecycle.isCallbackStop]
    handlers := fun he => h.handlers (hended ▸ he)
    ended := fun he => h.ended (hended ▸ he)
    phase := by
      show Phase { s.beginStop owner with callbackThread := thread }
      unfold Phase
      rcases hlife with hl | ⟨hl, hnone⟩
      · simp only [hl]
      · simp only [hl]
        exact h.exit_ended hnone }

theorem exit_done (h : Inv opts s) (hstarted : s.started = true) (hended : s.exitThread.ended = true) :
    s.exitThread = .done := by
  cases hthread : s.exitThread with
  | none => exact absurd hthread (h.started hstarted)
  | done => rfl
  | watching _ | noting _ _ | reporting _ =>
    rw [hthread] at hended
    cases hended

/-- The session is over when the callback thread has been joined and a new one is due. -/
theorem complete (h : Inv opts s) (hended : s.callbackThread.ended = true) (hexit : s.exitThread.ended = true) :
    s.session.Complete opts := by
  have hall : s.dispatched = s.queue.accepted := by
    have hnone : s.callbackThread.inHand = [] := by
      cases hthread : s.callbackThread with
      | none | finished => rfl
      | idle | holding _ | inHandler | wanting _ | stopping =>
        rw [hthread] at hended
        cases hended
    rw [h.queue.order, (h.ended hended).1, List.append_nil, h.inHand, hnone, List.append_nil]
  have hcount := h.exitCount
  rw [← hall] at hcount
  refine ⟨h.queue, hall, fun hstarted => ?_, ?_, ?_⟩
  · rw [if_pos (h.exit_done hstarted hexit)] at hcount
    exact hcount
  · show exits s.dispatched ≤ 1
    rw [hcount]
    split <;> omega
  · show ReceivesFirst s.dispatched
    rw [hall]
    exact h.receives

/-- The callback thread goes on to another place in its loop, where it is neither in `stop()` nor
    waiting for a mutex. -/
theorem moves (h : Inv opts s) {thread : CallbackThread} (hinHand : thread.inHand = s.callbackThread.inHand)
    (hended : thread.ended = false) (hlive : s.callbackThread.ended = false)
    (hwait : thread.isWanting = true → s.lifecycle.joins = false)
    (hstop : thread ≠ .stopping) (hnot : s.callbackThread ≠ .stopping) :
    Inv opts { s with callbackThread := thread } := by
  exact { h with
    inHand := by
      show s.queue.taken = s.dispatched ++ thread.inHand
      rw [hinHand]
      exact h.inHand
    noWait := hwait
    stopping := iff_of_false hstop (h.not_callbackStop hnot)
    handlers := fun _ => h.handlers hlive
    ended := fun he => by
      have hcontra : thread.ended = true := he
      rw [hended] at hcontra
      cases hcontra
    phase := h.phase.of_thread hlive thread }

/-- The next region of `start()` or `stop()`. -/
theorem advance {s' : St} (h : Inv opts s) (hs : s.advance = some s') : Inv opts s' := by
  have hphase := h.phase
  have hstopping := h.stopping
  have hwait := h.noWait
  have hfree : ¬ s.stateMutexStuck = true := by
    rw [h.unstuck]
    decide
  unfold St.advance at hs
  unfold Phase at hphase
  cases hl : s.lifecycle with
  | free | stuck =>
    simp only [hl] at hs
    cases hs
  | stopWaiting owner =>
    simp only [hl] at hs hwait hstopping
    rw [if_neg hfree] at hs
    cases hs
    exact { h with noWait := hwait, stopping := hstopping, phase := trivial }
  | stopJoiningExit owner =>
    simp only [hl] at hs hwait hstopping
    split at hs
    · rename_i hexit
      cases hs
      exact { h with noWait := hwait, stopping := hstopping, phase := hexit }
    · cases hs
  | stopResetting owner =>
    simp only [hl] at hs hwait hstopping hphase
    rw [if_neg hfree] at hs
    cases hs
    exact { h with
      noWait := hwait
      stopping := hstopping
      watched := fun hlive => absurd hphase (by rw [hlive]; decide)
      phase := ⟨hphase, rfl⟩ }
  | stopRequesting owner =>
    simp only [hl] at hs hwait hstopping hphase
    have hrequest := h.queue.requestStop
    cases owner with
    | callback =>
      cases hs
      have hthread : s.callbackThread = .stopping := hstopping.mpr rfl
      exact { h with
        queue := hrequest
        inHand := by
          have hinHand := h.inHand
          rw [hthread] at hinHand
          exact hinHand
        noWait := nofun
        stopping := ⟨nofun, nofun⟩
        handlers := fun _ => h.handlers (by rw [hthread]; rfl)
        ended := nofun
        watched := fun hlive => absurd hphase.1 (by rw [hlive]; decide)
        phase := trivial }
    | outside =>
      cases hs
      exact { h with
        queue := hrequest
        noWait := hwait
        stopping := hstopping
        ended := fun hended => ⟨(h.ended hended).1, rfl⟩
        watched := fun hlive => absurd hphase.1 (by rw [hlive]; decide)
        phase := hphase }
  | stopJoining =>
    simp only [hl] at hs hwait hstopping hphase
    split at hs
    · rename_i hjoined
      cases hs
      simp only [Bool.and_eq_true] at hjoined
      exact { h with
        noWait := fun _ => rfl
        stopping := hstopping
        handlers := fun hlive => absurd hjoined.1 (by rw [hlive]; decide)
        phase := trivial }
    · cases hs
  | startRequesting =>
    simp only [hl] at hs hwait hstopping hphase
    rw [if_pos hphase.1] at hs
    cases hs
    exact { h with
      queue := h.queue.requestStop
      noWait := hwait
      stopping := hstopping
      ended := fun hended => ⟨(h.ended hended).1, rfl⟩
      watched := fun hlive => absurd hphase.1 (by rw [hlive]; decide)
      phase := hphase }
  | startJoining =>
    simp only [hl] at hs hwait hstopping hphase
    split at hs
    · rename_i hjoined
      cases hs
      simp only [Bool.and_eq_true] at hjoined
      exact { h with
        noWait := fun _ => rfl
        stopping := hstopping
        handlers := fun _ => rfl
        phase := ⟨hphase.1, hphase.2, hjoined.1, rfl⟩ }
    · cases hs
  | startSpawning =>
    simp only [hl] at hs hphase
    obtain ⟨hexit, hprocess, hended, hhandlers⟩ := hphase
    cases hs
    exact { h with
      queue := Queue.ok_fresh opts
      inHand := rfl
      stderr := nofun
      noWait := nofun
      stopping := ⟨nofun, nofun⟩
      handlers := fun _ => hhandlers
      ended := nofun
      exitCount := rfl
      receives := List.Pairwise.nil
      reading := fun _ => .inl rfl
      watched := nofun
      started := nofun
      phase := ⟨rfl, hprocess, rfl, rfl⟩
      past := by
        intro x hx
        rcases List.mem_append.mp hx with hx | hx
        · exact h.past x hx
        · rw [List.mem_singleton.mp hx]
          exact h.complete hended hexit }
  | startLaunching =>
    simp only [hl] at hs hwait hstopping hphase
    obtain ⟨hexit, -, hstarted, hacc⟩ := hphase
    cases hs
    exact { h with
      noWait := fun _ => rfl
      stopping := hstopping
      reading := fun _ => .inl hexit
      phase := ⟨hexit, hstarted, hacc⟩ }
  | startPublishing =>
    simp only [hl] at hs hwait hstopping hphase
    rw [if_neg hfree] at hs
    obtain ⟨hexit, hstarted, hacc⟩ := hphase
    cases hs
    exact { h with
      noWait := fun _ => rfl
      stopping := hstopping
      watched := fun hlive => absurd hlive (by show ¬ s.exitThread.ended = false; rw [hexit]; decide)
      phase := ⟨hexit, rfl, hacc⟩ }
  | startWatching =>
    simp only [hl] at hs hwait hstopping hphase
    obtain ⟨hexit, hsome, hacc⟩ := hphase
    obtain ⟨process, hprocess⟩ := Option.isSome_iff_exists.mp hsome
    rw [hprocess] at hs
    cases hs
    have hcount := h.exitCount
    rw [hexit] at hcount
    exact { h with
      noWait := fun _ => rfl
      stopping := hstopping
      exitCount := hcount
      reading := fun _ => .inr ⟨process, rfl⟩
      watched := fun _ => ⟨rfl, hacc⟩
      started := nofun
      phase := trivial }
  | failRequesting =>
    simp only [hl] at hs hwait hstopping hphase
    cases hs
    exact { h with
      queue := h.queue.requestStop
      noWait := hwait
      stopping := hstopping
      ended := fun hended => ⟨(h.ended hended).1, rfl⟩
      watched := fun hlive => absurd hlive (by show ¬ s.exitThread.ended = false; rw [hphase.1]; decide)
      phase := hphase }
  | failJoining =>
    simp only [hl] at hs hwait hstopping hphase
    split at hs
    · rename_i hjoined
      cases hs
      simp only [Bool.and_eq_true] at hjoined
      exact { h with
        noWait := fun _ => rfl
        stopping := hstopping
        handlers := fun hlive => absurd hjoined.1 (by rw [hlive]; decide)
        watched := fun hlive => absurd hlive (by show ¬ s.exitThread.ended = false; rw [hphase.1]; decide)
        phase := trivial }
    · cases hs

/-- The exit thread puts in the one exit event. -/
theorem exitReported (h : Inv opts s) {status : Int} (hthread : s.exitThread = .reporting status) :
    Inv opts { s with
      queue := (s.queue.enqueue opts { type := .exit, exitStatus := status }).1, exitThread := .done } := by
  obtain ⟨-, hacc⟩ := h.watched (by rw [hthread]; rfl)
  have heq : (s.queue.enqueue opts { type := .exit, exitStatus := status }).1 =
      s.queue.push { type := .exit, exitStatus := status } := by
    rcases Queue.enqueue_cases opts s.queue { type := .exit, exitStatus := status } with hr | ⟨hr, -⟩ | ⟨-, -, hno, -⟩
    · unfold Queue.enqueue at hr ⊢
      rw [hacc]
      cases s.queue.overflowed <;> rfl
    · rw [hr]
    · cases hno
  have hcount := h.exitCount
  rw [hthread] at hcount
  have hqueue : ((s.queue.enqueue opts { type := .exit, exitStatus := status }).1).Ok opts :=
    h.queue.enqueue (by simpa [CallbackEvent.payloadSize] using h.queue.payload_lt) nofun
  rw [heq] at hqueue ⊢
  exact { h with
    queue := hqueue
    stderr := by
      intro e he htype
      rcases List.mem_append.mp he with he | he
      · exact h.stderr e he htype
      · rw [List.mem_singleton.mp he] at htype
        cases htype
    ended := fun hended => absurd hacc (by rw [(h.ended hended).2]; decide)
    exitCount := by
      show exits (s.queue.accepted ++ [_]) = 1
      rw [exits_append, exits_singleton, hcount]
      rfl
    receives := h.receives.snoc nofun
    reading := by
      intro hr
      rcases h.reading hr with hx | ⟨process, hx⟩ <;> rw [hthread] at hx <;> cases hx
    watched := nofun
    started := nofun
    phase := h.phase.of_live (by rw [hthread]; rfl) rfl }

/-- Another place of the exit thread on its way to the report. -/
theorem watches (h : Inv opts s) {thread : ExitThread} {readers : Bool} (hlive : s.exitThread.ended = false)
    (hthread : thread.ended = false)
    (hreading : readers = true → thread = .none ∨ ∃ process, thread = .watching process) :
    Inv opts { s with exitThread := thread, readers } := by
  have hnone : thread ≠ .done := by
    rintro rfl
    cases hthread
  have hcount := h.exitCount
  rw [if_neg (by rintro hdone; rw [hdone] at hlive; cases hlive)] at hcount
  exact { h with
    exitCount := hcount.trans (if_neg hnone).symm
    reading := hreading
    watched := fun _ => h.watched hlive
    started := fun _ => by
      rintro rfl
      cases hthread
    phase := h.phase.of_live hlive rfl }

/-- The callback thread takes an event out of the queue. -/
theorem takes (h : Inv opts s) {event : CallbackEvent} {queue : Queue} (hthread : s.callbackThread = .idle)
    (hpop : s.queue.pop = some (event, queue)) : Inv opts { s with queue, callbackThread := .holding event } := by
  obtain ⟨hok, htaken, haccepted, hacc, -⟩ := h.queue.pop hpop
  have hlive : s.callbackThread.ended = false := by
    rw [hthread]
    rfl
  have hinHand := h.inHand
  rw [hthread] at hinHand
  have hphase := h.phase.of_thread hlive (.holding event)
  exact { h with
    queue := hok
    inHand := by
      show queue.taken = s.dispatched ++ [event]
      rw [htaken, hinHand]
      exact congrArg (· ++ [event]) (List.append_nil _)
    stderr := fun e he => h.stderr e (haccepted ▸ he)
    noWait := nofun
    stopping := iff_of_false nofun (h.not_callbackStop (by rw [hthread]; nofun))
    handlers := fun _ => h.handlers hlive
    ended := nofun
    exitCount := haccepted ▸ h.exitCount
    receives := haccepted ▸ h.receives
    watched := fun hl => ⟨(h.watched hl).1, hacc.trans (h.watched hl).2⟩
    phase := by
      simp only [Phase] at hphase ⊢
      rw [hacc]
      exact hphase }

/-- The callback thread finds nothing left after it was asked to stop. -/
theorem finishes (h : Inv opts s) (hthread : s.callbackThread = .idle) (hempty : s.queue.events = [])
    (hstop : s.queue.stopRequested = true) : Inv opts { s with callbackThread := .finished } := by
  have hinHand := h.inHand
  rw [hthread] at hinHand
  exact { h with
    inHand := hinHand
    noWait := nofun
    stopping := iff_of_false nofun (h.not_callbackStop (by rw [hthread]; nofun))
    handlers := nofun
    ended := fun _ => ⟨hempty, h.queue.stopped hstop⟩
    phase := h.phase.of_thread (by rw [hthread]; rfl) .finished }

/-- The event that the callback thread holds goes to its handler, which is there: `stop()` clears
    the handlers only after this thread has ended. -/
theorem delivers (h : Inv opts s) {event : CallbackEvent} (hthread : s.callbackThread = .holding event) :
    Inv opts (s.deliver opts event) := by
  have hlive : s.callbackThread.ended = false := by
    rw [hthread]
    rfl
  have hinHand := h.inHand
  rw [hthread] at hinHand
  have hmem : event ∈ s.queue.accepted := by
    rw [h.queue.order, hinHand]
    exact List.mem_append_left _ (List.mem_append_right _ List.mem_cons_self)
  have hhandler : (if event.type = .stderr then opts.hasStderrHandler else s.handlers) = true := by
    split
    · rename_i htype
      exact h.stderr event hmem htype
    · exact h.handlers hlive
  have hphase := h.phase.of_thread hlive .inHandler
  rw [St.deliver, if_pos hhandler]
  exact { h with
    inHand := hinHand.trans (List.append_nil _).symm
    noWait := nofun
    stopping := iff_of_false nofun (h.not_callbackStop (by rw [hthread]; nofun))
    handlers := fun _ => h.handlers hlive
    ended := nofun
    phase := by
      unfold Phase at hphase ⊢
      exact hphase }

/-- A `start()` that is not refused. -/
theorem starts (h : Inv opts s) (hfree : s.lifecycle = .free) (hprocess : s.process = none)
    (hwait : s.callbackThread.isWanting = false) : Inv opts { s with lifecycle := .startRequesting } :=
  { h with
    noWait := fun hw => absurd hw (by rw [hwait]; decide)
    stopping := iff_of_false (h.not_stopping hfree) nofun
    phase := ⟨h.exit_ended hprocess, hprocess⟩ }

/-- The error handler of a `start()` that is refused for its options calls back when there is no
    callback thread. -/
theorem refusalReenters (h : Inv opts s) (hfree : s.lifecycle = .free) (hrefused : opts.refused = true)
    (hended : s.callbackThread.ended = true) :
    Inv opts { s with lifecycle := .stuck, stateMutexStuck := !opts.refused } := by
  -- a callback thread that has ended takes no exit
  have hexit : s.exitThread.ended = true := by
    by_contra hlive
    have hacc := (h.watched (Bool.not_eq_true _ ▸ hlive)).2
    rw [(h.ended hended).2] at hacc
    cases hacc
  exact { h with
    unstuck := by simp [hrefused]
    noWait := fun hw => absurd hw (by rw [CallbackThread.not_wanting_of_ended hended]; decide)
    stopping := iff_of_false (h.not_stopping hfree) nofun
    phase := hexit }

/-- The error handler of a `start()` that fails calls back. -/
theorem failureReenters (h : Inv opts s) (hl : s.lifecycle = .failJoining) (hended : s.callbackThread.ended = true) :
    Inv opts { s with process := none, state := .stopped, exited := false, handlers := false, lifecycle := .stuck } := by
  have hphase := h.phase
  have hstopping := h.stopping
  simp only [Phase, hl] at hphase hstopping
  exact { h with
    noWait := fun hw => absurd hw (by rw [CallbackThread.not_wanting_of_ended hended]; decide)
    stopping := hstopping
    handlers := fun hlive => absurd hended (by rw [hlive]; decide)
    watched := fun hlive => absurd hlive (by show ¬ s.exitThread.ended = false; rw [hphase.1]; decide)
    phase := by
      show s.exitThread.ended = true
      rw [hphase.1]
      rfl }

theorem step {s' : St} {e : Ev} (h : Inv opts s) (hsound : Sound opts s e) (hs : step opts s e = some s') :
    Inv opts s' := by
  cases e with
  | take =>
    simp only [Transport.step] at hs
    split at hs
    · rename_i event queue hthread hpop
      cases hs
      exact h.takes hthread hpop
    · cases hs
  | finish =>
    simp only [Transport.step] at hs
    split at hs
    · rename_i hidle
      cases hs
      exact h.finishes hidle.1 hidle.2.1 hidle.2.2
    · cases hs
  | dispatch =>
    simp only [Transport.step] at hs
    split at hs
    · rename_i event hthread
      split at hs
      · cases hs
      · cases hs
        exact h.delivers hthread
    · cases hs
  | handlerReturns =>
    simp only [Transport.step] at hs
    split at hs
    · rename_i hthread
      cases hs
      exact h.moves (by rw [hthread]; rfl) rfl (by rw [hthread]; rfl) nofun nofun (by rw [hthread]; nofun)
    · cases hs
  | handlerCalls call =>
    simp only [Transport.step] at hs
    split at hs
    · rename_i hthread
      cases hs
      exact h.moves (by rw [hthread]; rfl) rfl (by rw [hthread]; rfl) (fun _ => hsound) nofun (by rw [hthread]; nofun)
    · cases hs
  | locks =>
    simp only [Transport.step] at hs
    split at hs
    · rename_i hthread hfree
      cases hs
      exact h.moves (by rw [hthread]; rfl) rfl (by rw [hthread]; rfl) nofun nofun (by rw [hthread]; nofun)
    · rename_i hthread hfree
      split at hs
      · cases hs
      · cases hs
        exact h.beginStop (by rw [hthread]; rfl) (by rw [hthread]; rfl) nofun (iff_of_true rfl rfl)
    · cases hs
  | stops =>
    simp only [Transport.step] at hs
    split at hs
    · rename_i hfree
      cases hs
      have hwait : s.callbackThread.isWanting = false := hsound
      refine h.beginStop rfl rfl (fun hw => ?_) (iff_of_false (h.not_stopping hfree.1) nofun)
      rw [hwait] at hw
      cases hw
    · cases hs
  | starts =>
    simp only [Transport.step] at hs
    split at hs
    · rename_i hfree
      cases hs
      split
      · exact h
      · rename_i hstart
        have hwait : s.callbackThread.isWanting = false := hsound.resolve_left hstart
        simp only [St.refusesStart, Bool.or_eq_true, not_or] at hstart
        exact h.starts hfree.1 (Option.not_isSome_iff_eq_none.mp hstart.2) hwait
    · cases hs
  | advance => exact h.advance hs
  | launchFails =>
    simp only [Transport.step] at hs
    split at hs
    · rename_i hl
      cases hs
      have hwait : s.callbackThread.isWanting = false := hsound
      have hphase := h.phase
      have hstopping := h.stopping
      simp only [Phase, hl] at hphase hstopping
      exact { h with
        noWait := fun hw => absurd hw (by rw [hwait]; decide)
        stopping := hstopping
        phase := ⟨hphase.1, hphase.2.2.1⟩ }
    · cases hs
  | refusalReenters owner =>
    cases owner with
    | callback => cases hsound
    | outside =>
      simp only [Transport.step] at hs
      split at hs
      · rename_i hfree
        cases hs
        exact h.refusalReenters hfree.1 hsound.1 hsound.2
      · cases hs
  | failureReenters =>
    simp only [Transport.step] at hs
    split at hs
    · rename_i hjoined
      cases hs
      exact h.failureReenters hjoined.1 hjoined.2.1
    · cases hs
  | processExits status =>
    simp only [Transport.step] at hs
    split at hs
    · rename_i process hthread
      split at hs
      · cases hs
      · cases hs
        exact h.watches (by rw [hthread]; rfl) rfl nofun
    · cases hs
  | exitNoted =>
    simp only [Transport.step] at hs
    split at hs
    · rename_i process status hthread
      split at hs
      · cases hs
      · cases hs
        have hreaders : s.readers = false := by
          by_contra hr
          rcases h.reading (Bool.not_eq_false _ ▸ hr) with hx | ⟨p, hx⟩ <;> rw [hthread] at hx <;> cases hx
        have hnoted : Inv opts { s with exitThread := .reporting status, readers := s.readers } :=
          h.watches (by rw [hthread]; rfl) rfl fun hr => absurd hr (by rw [hreaders]; decide)
        exact { hnoted with phase := hnoted.phase.of_live rfl rfl }
    · cases hs
  | exitReported =>
    simp only [Transport.step] at hs
    split at hs
    · rename_i status hthread
      cases hs
      exact h.exitReported hthread
    · cases hs
  | stdout bytes =>
    simp only [Transport.step] at hs
    split at hs
    · rename_i hread
      cases hs
      have hnext := h.enqueue rfl hread.2.2 (fun _ => hread.1) nofun
      exact { hnext with phase := hnext.phase }
    · cases hs
  | stderr text =>
    simp only [Transport.step] at hs
    split at hs
    · rename_i hread
      cases hs
      split
      · rename_i hhandler
        have hnext := h.enqueue rfl hread.2.2 nofun fun _ => hhandler
        exact { hnext with phase := hnext.phase }
      · exact h
    · cases hs
  | readerStops =>
    simp only [Transport.step] at hs
    split at hs
    · cases hs
      exact { h with phase := h.phase }
    · cases hs
  | sendFails message =>
    simp only [Transport.step] at hs
    split at hs
    · rename_i hfits
      cases hs
      have hnext := h.enqueue rfl hfits nofun nofun
      exact { hnext with phase := hnext.phase }
    · cases hs
  | sendBegins =>
    simp only [Transport.step] at hs
    split at hs
    · obtain ⟨process, -, rfl⟩ := Option.map_eq_some_iff.mp hs
      exact { h with phase := h.phase }
    · cases hs
  | sendRechecks process =>
    simp only [Transport.step] at hs
    split at hs
    · rename_i hsend
      cases hs
      split
      · rename_i hclosed
        have hnext : Inv opts { s with queue := (s.queue.enqueue opts notRunningError).1 } :=
          h.enqueue rfl hsend.2.2 nofun nofun
        exact { hnext with unstuck := hsound hclosed, phase := hnext.phase }
      · exact { h with phase := h.phase }
    · cases hs
  | senderStops =>
    simp only [Transport.step] at hs
    split at hs
    · cases hs
      exact { h with phase := h.phase }
    · cases hs

end Inv

/-! ## What the threads come to -/

def CallbackThread.work : CallbackThread → Nat
  | .none | .finished => 0
  | .idle => 1
  | .inHandler | .stopping => 2
  | .holding _ => 3
  | .wanting _ => 10

def ExitThread.work : ExitThread → Nat
  | .none | .done => 0
  | .reporting _ => 5
  | .noting _ _ => 6
  | .watching _ => 7

def Lifecycle.work : Lifecycle → Nat
  | .free | .stuck => 0
  | .stopJoining | .failJoining => 1
  | .stopRequesting _ | .failRequesting => 2
  | .stopResetting _ => 3
  | .stopJoiningExit _ => 4
  | .stopWaiting _ => 5
  | .startWatching => 8
  | .startPublishing => 9
  | .startLaunching => 10
  | .startSpawning => 12
  | .startJoining => 13
  | .startRequesting => 14

/-- What the threads have left to do. -/
def St.work (s : St) : Nat :=
  4 * s.queue.events.length + s.callbackThread.work + s.exitThread.work + s.lifecycle.work +
    s.readerStopping.toNat + s.senderStopping

def ownStep (_ : St) (e : Ev) : Prop := e.own = true

/-- Everything accepted has been dispatched, and of a started process the exit. -/
def Settled (s : St) : Prop := s.dispatched = s.queue.accepted ∧ (s.started = true → exits s.dispatched = 1)

namespace Inv

variable {opts : Options} {s s' : St}

theorem advance_work (h : Inv opts s) (hs : s.advance = some s') : s'.work < s.work := by
  unfold St.advance at hs
  cases hl : s.lifecycle with
  | free | stuck =>
    simp only [hl] at hs
    cases hs
  | stopRequesting owner =>
    simp only [hl] at hs
    cases owner with
    | callback =>
      cases hs
      have hthread : s.callbackThread = .stopping := h.stopping.mpr (by rw [hl]; rfl)
      simp only [St.work, hl, hthread, Queue.requestStop, CallbackThread.work, Lifecycle.work]
      omega
    | outside =>
      cases hs
      simp only [St.work, hl, Queue.requestStop, Lifecycle.work]
      omega
  | startSpawning =>
    simp only [hl] at hs
    cases hs
    simp only [St.work, hl, Queue.fresh, CallbackThread.work, ExitThread.work, Lifecycle.work, List.length_nil]
    omega
  | startLaunching =>
    simp only [hl] at hs
    cases hs
    simp only [St.work, hl, Lifecycle.work]
    omega
  | failRequesting =>
    simp only [hl] at hs
    cases hs
    simp only [St.work, hl, Queue.requestStop, Lifecycle.work]
    omega
  | startWatching =>
    simp only [hl] at hs
    obtain ⟨process, -, rfl⟩ := Option.map_eq_some_iff.mp hs
    simp only [St.work, hl, ExitThread.work, Lifecycle.work]
    omega
  | startRequesting =>
    simp only [hl] at hs
    split at hs
    · cases hs
      simp only [St.work, hl, Queue.requestStop, Lifecycle.work]
      omega
    · cases hs
  | stopWaiting _ | stopResetting _ | startPublishing =>
    simp only [hl] at hs
    split at hs
    · cases hs
    · cases hs
      simp only [St.work, hl, Lifecycle.work]
      omega
  | stopJoiningExit _ | stopJoining | startJoining | failJoining =>
    simp only [hl] at hs
    split at hs
    · cases hs
      simp only [St.work, hl, Lifecycle.work]
      omega
    · cases hs

theorem step_work {e : Ev} (h : Inv opts s) (hown : e.own = true) (hs : Transport.step opts s e = some s') :
    s'.work < s.work := by
  cases e with
  | handlerCalls | stops | starts | launchFails | refusalReenters | failureReenters | stdout | stderr | sendFails | sendBegins | sendRechecks => cases hown
  | advance => exact h.advance_work hs
  | take =>
    simp only [Transport.step] at hs
    split at hs
    · rename_i event queue hthread hpop
      cases hs
      obtain ⟨-, -, -, -, hlength⟩ := h.queue.pop hpop
      simp only [St.work, hthread, CallbackThread.work]
      omega
    · cases hs
  | finish =>
    simp only [Transport.step] at hs
    split at hs
    · rename_i hidle
      cases hs
      simp only [St.work, hidle.1, CallbackThread.work]
      omega
    · cases hs
  | dispatch =>
    simp only [Transport.step] at hs
    split at hs
    · rename_i event hthread
      split at hs
      · cases hs
      · cases hs
        unfold St.deliver
        by_cases hhandler : (if event.type = .stderr then opts.hasStderrHandler else s.handlers) = true
        · rw [if_pos hhandler]
          simp only [St.work, hthread, CallbackThread.work]
          omega
        · rw [if_neg hhandler]
          simp only [St.work, hthread, CallbackThread.work]
          omega
    · cases hs
  | handlerReturns =>
    simp only [Transport.step] at hs
    split at hs
    · rename_i hthread
      cases hs
      simp only [St.work, hthread, CallbackThread.work]
      omega
    · cases hs
  | locks =>
    simp only [Transport.step] at hs
    split at hs
    · rename_i hthread hfree
      cases hs
      simp only [St.work, hthread, CallbackThread.work]
      omega
    · rename_i hthread hfree
      split at hs
      · cases hs
      · cases hs
        simp only [St.work, St.beginStop, hthread, hfree, CallbackThread.work]
        split <;> simp only [Lifecycle.work] <;> omega
    · cases hs
  | processExits status =>
    simp only [Transport.step] at hs
    split at hs
    · rename_i process hthread
      split at hs
      · cases hs
      · cases hs
        simp only [St.work, hthread, ExitThread.work]
        omega
    · cases hs
  | exitNoted =>
    simp only [Transport.step] at hs
    split at hs
    · rename_i process status hthread
      split at hs
      · cases hs
      · cases hs
        simp only [St.work, hthread, ExitThread.work]
        omega
    · cases hs
  | exitReported =>
    simp only [Transport.step] at hs
    split at hs
    · rename_i status hthread
      cases hs
      have hlength : (s.queue.enqueue opts { type := .exit, exitStatus := status }).1.events.length ≤
          s.queue.events.length + 1 := by
        rcases Queue.enqueue_cases opts s.queue { type := .exit, exitStatus := status } with hr | ⟨hr, -⟩ | ⟨hr, -⟩ <;>
          rw [hr] <;> simp [Queue.push]
      simp only [St.work, hthread, ExitThread.work]
      omega
    · cases hs
  | readerStops =>
    simp only [Transport.step] at hs
    split at hs
    · rename_i hstop
      cases hs
      simp only [St.work, hstop.1, St.stopAfterCallbackQueueOverflow, Bool.toNat_true, Bool.toNat_false]
      omega
    · cases hs
  | senderStops =>
    simp only [Transport.step] at hs
    split at hs
    · rename_i hstop
      cases hs
      simp only [St.work, St.stopAfterCallbackQueueOverflow]
      omega
    · cases hs

/-- The process exits, the readers are done, and the exit event is put in. -/
theorem exit_ended_of_stuck (h : Inv opts s) (hstuck : Stuck (Transport.step opts) ownStep s) :
    s.exitThread.ended = true := by
  cases hthread : s.exitThread with
  | none | done => rfl
  | watching process =>
    cases hreader : s.readerStopping with
    | true =>
      have hnone := hstuck .readerStops rfl
      simp [Transport.step, hreader, h.unstuck] at hnone
    | false =>
      have hnone := hstuck (.processExits 0) rfl
      simp [Transport.step, hthread, hreader] at hnone
  | noting process status =>
    have hnone := hstuck .exitNoted rfl
    simp [Transport.step, hthread, h.unstuck] at hnone
  | reporting status =>
    have hnone := hstuck .exitReported rfl
    simp [Transport.step, hthread] at hnone

theorem settled_of_stuck (h : Inv opts s) (hstuck : Stuck (Transport.step opts) ownStep s) : Settled s := by
  have hexit := h.exit_ended_of_stuck hstuck
  have hadvance : s.advance = none := hstuck .advance rfl
  have hphase := h.phase
  have hidle : s.callbackThread.inHand = [] ∧ s.queue.events = [] := by
    cases hthread : s.callbackThread with
    | none | finished => exact ⟨rfl, (h.ended (by rw [hthread]; rfl)).1⟩
    | idle =>
      refine ⟨rfl, ?_⟩
      cases hevents : s.queue.events with
      | nil => rfl
      | cons event rest =>
        have hnone := hstuck .take rfl
        simp [Transport.step, hthread, Queue.pop, hevents] at hnone
    | holding event =>
      have hnone := hstuck .dispatch rfl
      simp [Transport.step, hthread, h.unstuck] at hnone
    | inHandler =>
      have hnone := hstuck .handlerReturns rfl
      simp [Transport.step, hthread] at hnone
    | wanting call =>
      -- nobody who holds the mutex is going to join this thread, so the mutex becomes free
      have hjoins := h.noWait (by rw [hthread]; rfl)
      have hlocks := hstuck .locks rfl
      have hnot : ¬ s.lifecycle.isCallbackStop = true := by
        rw [← h.stopping, hthread]
        nofun
      unfold Phase at hphase
      unfold St.advance at hadvance
      cases hl : s.lifecycle with
      | free => cases call <;> simp [Transport.step, hthread, hl, h.unstuck] at hlocks
      | startSpawning | startLaunching =>
        simp only [hl] at hadvance
        cases hadvance
      | startPublishing => simp [hl, h.unstuck] at hadvance
      | startWatching =>
        simp only [hl] at hadvance hphase
        rw [Option.map_eq_none_iff.mp hadvance] at hphase
        cases hphase.2.1
      | stopWaiting owner | stopJoiningExit owner | stopResetting owner | stopRequesting owner =>
        rw [hl] at hjoins hnot
        cases owner with
        | callback => exact absurd rfl hnot
        | outside => cases hjoins
      | stopJoining | startRequesting | startJoining | failRequesting | failJoining | stuck =>
        rw [hl] at hjoins
        cases hjoins
    | stopping =>
      have hstop := h.stopping.mp hthread
      unfold St.advance at hadvance
      cases hl : s.lifecycle with
      | stopWaiting owner => simp [hl, h.unstuck] at hadvance
      | stopJoiningExit owner => simp [hl, hexit] at hadvance
      | stopResetting owner => simp [hl, h.unstuck] at hadvance
      | stopRequesting owner =>
        simp only [hl] at hadvance
        cases owner <;> cases hadvance
      | free | stopJoining | startRequesting | startJoining | startSpawning | startLaunching | startPublishing
      | startWatching | failRequesting | failJoining | stuck =>
        rw [hl] at hstop
        cases hstop
  have hall : s.dispatched = s.queue.accepted := by
    rw [h.queue.order, hidle.2, List.append_nil, h.inHand, hidle.1, List.append_nil]
  refine ⟨hall, fun hstarted => ?_⟩
  rw [hall, h.exitCount, if_pos (h.exit_done hstarted hexit)]

end Inv

theorem own_sound {opts : Options} {s : St} {e : Ev} (h : e.own = true) : Sound opts s e := by
  cases e with
  | handlerCalls | stops | starts | launchFails | refusalReenters | failureReenters | stdout | stderr | sendFails | sendBegins | sendRechecks => cases h
  | take | finish | dispatch | handlerReturns | locks | advance | processExits | exitNoted | exitReported | readerStops
  | senderStops => trivial

theorem Inv.settles {opts : Options} {s : St} (h : Inv opts s) : Inevitable (Transport.step opts) ownStep Settled s :=
  inevitable_of_measure St.work (fun _ hs hstuck => hs.settled_of_stuck hstuck)
    (fun _ _ _ hs hown hstep => ⟨hs.step (own_sound hown) hstep, hs.step_work hown hstep⟩) h

theorem reach_inv {opts : Options} {s : St} (h : Reach (step opts) (Sound opts) {} s) : Inv opts s :=
  h.inv (inv_init opts) fun _ _ _ _ hi hsound hs => hi.step hsound hs

/-! ## What is promised of the queue -/

structure Delivers (opts : Options) (s : St) : Prop where
  /-- Exactly once and in order: dispatched, in the hand of the callback thread, or queued. -/
  order : s.queue.accepted = s.dispatched ++ s.callbackThread.inHand ++ s.queue.events
  bytes : s.queue.queuedBytes = (s.queue.events.map CallbackEvent.payloadSize).sum
  /-- The subtraction for the front does not wrap. -/
  noUnderflow : ∀ event rest, s.queue.events = event :: rest → event.payloadSize ≤ s.queue.queuedBytes
  room : s.queue.events.length ≤ opts.maxCallbackQueueEvents + 2
  overflowOnce : s.queue.overflows = s.queue.overflowed.toNat
  /-- Only an exit is accepted after the overflow error. -/
  overflowLast : s.queue.overflowed = true → ∃ before after,
    s.queue.accepted = before ++ makeCallbackQueueOverflowError :: after ∧ ∀ e ∈ after, e.isExit = true
  exitOnce : exits s.queue.accepted ≤ 1
  receivesFirst : ReceivesFirst s.queue.accepted
  /-- Of the sessions before, all that was accepted has been dispatched. -/
  past : ∀ x ∈ s.past, x.Complete opts
  /-- Whatever the threads do next, all that is accepted gets dispatched. -/
  settles : Inevitable (step opts) ownStep Settled s

theorem callback_queue_delivers (opts : Options) (s : St) (h : Reach (step opts) (Sound opts) {} s) :
    Delivers opts s := by
  have hinv := reach_inv h
  have hcount := hinv.exitCount
  have honce : exits s.queue.accepted ≤ 1 := by
    rw [hcount]
    split <;> omega
  refine ⟨?_, hinv.queue.bytes, fun event rest hevents => ?_, ?_, hinv.queue.counted, hinv.queue.last, honce, hinv.receives,
    hinv.past, hinv.settles⟩
  · rw [hinv.queue.order, hinv.inHand]
  · rw [hinv.queue.bytes, Queue.payload, hevents, List.map_cons, List.sum_cons]
    exact Nat.le_add_right _ _
  · have hroom := hinv.queue.room
    have hover := Bool.toNat_le s.queue.overflowed
    omega

def sampleOptions : Options := { maxCallbackQueueEvents := 1 }

/-- `start()` with its process, its threads and its queue. -/
def startSteps : List Ev := [.starts, .advance, .advance, .advance, .advance, .advance, .advance]

theorem a_session_delivers : ∃ s, Reach (step sampleOptions) (Sound sampleOptions) {} s ∧
    s.dispatched.map (·.type) = [.receive, .exit] ∧ Delivers sampleOptions s := by
  have hrun : ∃ s, Reach (step sampleOptions) (Sound sampleOptions) {} s ∧
      decide (s.dispatched.map (·.type) = [.receive, .exit]) = true :=
    exists_reach_of_run (startSteps ++ [.stdout [1], .take, .processExits 0, .exitNoted, .exitReported, .dispatch,
      .handlerReturns, .take, .dispatch]) (by decide)
  obtain ⟨s, hs, hdispatched⟩ := hrun
  exact ⟨s, hs, of_decide_eq_true hdispatched, callback_queue_delivers sampleOptions s hs⟩

/-! ## The deadlocks -/

/-- The callback thread waits for `state_mutex_`, whose holder waits for itself; or for
    `lifecycle_mutex_`, whose holder joins the callback thread or is the callback thread. -/
def Deadlocked (s : St) : Prop :=
  (s.stateMutexStuck = true ∧ (∃ event, s.callbackThread = .holding event ∧ event.type ≠ .stderr) ∧
    s.lifecycle.isCallbackStop = false ∧ s.lifecycle ≠ .startSpawning) ∨
  (s.lifecycle.joins = true ∧ s.callbackThread.isWanting = true)

namespace Deadlocked

variable {opts : Options} {s s' : St}

theorem live (h : Deadlocked s) : s.callbackThread.ended = false := by
  rcases h with ⟨-, ⟨event, hthread, -⟩, -⟩ | ⟨-, hwait⟩
  · rw [hthread]
    rfl
  · by_contra hended
    rw [CallbackThread.not_wanting_of_ended (Bool.not_eq_false _ ▸ hended)] at hwait
    cases hwait

theorem advance (h : Deadlocked s) (hs : s.advance = some s') : Deadlocked s' ∧ s'.dispatched = s.dispatched := by
  have hlive := h.live
  unfold St.advance at hs
  unfold Deadlocked at h ⊢
  cases hl : s.lifecycle with
  | free | stuck =>
    simp only [hl] at hs
    cases hs
  | stopWaiting owner | stopResetting owner =>
    simp only [hl] at hs h
    split at hs
    · cases hs
    · rename_i hfree
      cases hs
      refine ⟨.inr (h.resolve_left fun hstuck => hfree hstuck.1), rfl⟩
  | stopJoiningExit owner =>
    simp only [hl] at hs h
    split at hs
    · cases hs
      exact ⟨h.imp (fun hstuck => ⟨hstuck.1, hstuck.2.1, hstuck.2.2.1, nofun⟩) id, rfl⟩
    · cases hs
  | stopRequesting owner =>
    simp only [hl] at hs h
    cases owner with
    | callback =>
      rcases h with ⟨-, -, hnot, -⟩ | ⟨hjoins, -⟩
      · cases hnot
      · cases hjoins
    | outside =>
      cases hs
      exact ⟨h.imp (fun hstuck => ⟨hstuck.1, hstuck.2.1, rfl, nofun⟩) id, rfl⟩
  | startRequesting =>
    simp only [hl] at hs h
    split at hs
    · cases hs
      exact ⟨h.imp (fun hstuck => ⟨hstuck.1, hstuck.2.1, rfl, nofun⟩) id, rfl⟩
    · cases hs
  | stopJoining | startJoining | failJoining =>
    simp only [hl, hlive] at hs
    cases hs
  | startSpawning =>
    simp only [hl] at h
    rcases h with ⟨-, -, -, hnot⟩ | ⟨hjoins, -⟩
    · exact absurd rfl hnot
    · cases hjoins
  | startLaunching =>
    simp only [hl] at hs h
    cases hs
    exact ⟨h.imp (fun hstuck => ⟨hstuck.1, hstuck.2.1, rfl, nofun⟩) (fun hwait => absurd hwait.1 nofun), rfl⟩
  | startPublishing =>
    simp only [hl] at hs h
    split at hs
    · cases hs
    · rename_i hfree
      exact absurd (h.resolve_left fun hstuck => hfree hstuck.1).1 nofun
  | startWatching =>
    simp only [hl] at hs h
    obtain ⟨process, -, rfl⟩ := Option.map_eq_some_iff.mp hs
    exact ⟨h.imp (fun hstuck => ⟨hstuck.1, hstuck.2.1, rfl, nofun⟩) (fun hwait => absurd hwait.1 nofun), rfl⟩
  | failRequesting =>
    simp only [hl] at hs h
    cases hs
    exact ⟨h.imp (fun hstuck => ⟨hstuck.1, hstuck.2.1, rfl, nofun⟩) id, rfl⟩

/-- A step of another thread leaves what the deadlock is made of. -/
theorem of_same (h : Deadlocked s) (hstuck : s'.stateMutexStuck = s.stateMutexStuck)
    (hlife : s'.lifecycle = s.lifecycle) (hthread : s'.callbackThread = s.callbackThread) : Deadlocked s' := by
  unfold Deadlocked at h ⊢
  rw [hstuck, hlife, hthread]
  exact h

theorem step {e : Ev} (h : Deadlocked s) (hs : Transport.step opts s e = some s') :
    Deadlocked s' ∧ s'.dispatched = s.dispatched := by
  have hbusy : s.callbackThread ≠ .idle ∧ s.callbackThread ≠ .inHandler := by
    rcases h with ⟨-, ⟨event, hthread, -⟩, -⟩ | ⟨-, hwait⟩
    · rw [hthread]
      exact ⟨nofun, nofun⟩
    · constructor <;>
      · intro hthread
        rw [hthread] at hwait
        cases hwait
  have hlocked : ¬ (s.lifecycle = .free ∧ ¬ s.stateMutexStuck = true) := by
    rintro ⟨hfree, hmutex⟩
    rcases h with ⟨hstuck, -⟩ | ⟨hjoins, -⟩
    · exact hmutex hstuck
    · rw [hfree] at hjoins
      cases hjoins
  have hno : ∀ call, s.callbackThread = .wanting call → s.lifecycle ≠ .free := by
    intro call hthread hfree
    rcases h with ⟨-, ⟨event, hthread', -⟩, -⟩ | ⟨hjoins, -⟩
    · rw [hthread] at hthread'
      cases hthread'
    · rw [hfree] at hjoins
      cases hjoins
  cases e with
  | advance => exact h.advance hs
  | take =>
    simp only [Transport.step] at hs
    split at hs
    · rename_i hthread _
      exact absurd hthread hbusy.1
    · cases hs
  | finish =>
    simp only [Transport.step] at hs
    rw [if_neg fun hidle => hbusy.1 hidle.1] at hs
    cases hs
  | dispatch =>
    simp only [Transport.step] at hs
    split at hs
    · rename_i event hthread
      rcases h with ⟨hstuck, ⟨event', hthread', htype⟩, -⟩ | ⟨-, hwait⟩
      · rw [hthread] at hthread'
        cases hthread'
        rw [if_pos ⟨htype, hstuck⟩] at hs
        cases hs
      · rw [hthread] at hwait
        cases hwait
    · cases hs
  | handlerReturns =>
    simp only [Transport.step] at hs
    rw [if_neg hbusy.2] at hs
    cases hs
  | handlerCalls call =>
    simp only [Transport.step] at hs
    rw [if_neg hbusy.2] at hs
    cases hs
  | locks =>
    simp only [Transport.step] at hs
    split at hs
    · rename_i hthread hfree
      exact absurd hfree (hno _ hthread)
    · rename_i hthread hfree
      exact absurd hfree (hno _ hthread)
    · cases hs
  | stops | starts =>
    simp only [Transport.step] at hs
    rw [if_neg hlocked] at hs
    cases hs
  | refusalReenters owner =>
    cases owner with
    | outside =>
      simp only [Transport.step] at hs
      rw [if_neg fun hrefused => hlocked ⟨hrefused.1, hrefused.2.1⟩] at hs
      cases hs
    | callback =>
      simp only [Transport.step] at hs
      rw [if_neg fun hrefused => hno _ hrefused.1 hrefused.2] at hs
      cases hs
  | failureReenters =>
    simp only [Transport.step, h.live] at hs
    rw [if_neg fun hjoined => Bool.false_ne_true hjoined.2.1] at hs
    cases hs
  | launchFails =>
    simp only [Transport.step] at hs
    split at hs
    · rename_i hl
      cases hs
      rcases h with hstuck | ⟨hjoins, -⟩
      · exact ⟨.inl ⟨hstuck.1, hstuck.2.1, rfl, nofun⟩, rfl⟩
      · rw [hl] at hjoins
        cases hjoins
    · cases hs
  | processExits status =>
    simp only [Transport.step] at hs
    split at hs
    · split at hs
      · cases hs
      · cases hs
        exact ⟨h.of_same rfl rfl rfl, rfl⟩
    · cases hs
  | exitNoted =>
    simp only [Transport.step] at hs
    split at hs
    · split at hs
      · cases hs
      · cases hs
        exact ⟨h.of_same rfl rfl rfl, rfl⟩
    · cases hs
  | exitReported =>
    simp only [Transport.step] at hs
    split at hs
    · cases hs
      exact ⟨h.of_same rfl rfl rfl, rfl⟩
    · cases hs
  | stdout | readerStops | sendFails | senderStops =>
    simp only [Transport.step] at hs
    split at hs
    · cases hs
      exact ⟨h.of_same rfl rfl rfl, rfl⟩
    · cases hs
  | stderr text =>
    simp only [Transport.step] at hs
    split at hs
    · cases hs
      split
      · exact ⟨h.of_same rfl rfl rfl, rfl⟩
      · exact ⟨h, rfl⟩
    · cases hs
  | sendBegins =>
    simp only [Transport.step] at hs
    split at hs
    · obtain ⟨process, -, rfl⟩ := Option.map_eq_some_iff.mp hs
      exact ⟨h.of_same rfl rfl rfl, rfl⟩
    · cases hs
  | sendRechecks process =>
    simp only [Transport.step] at hs
    split at hs
    · rename_i hsend
      cases hs
      -- the mutex is free, so this is the other deadlock
      have hwait := h.resolve_left fun hstuck => hsend.2.1 hstuck.1
      split
      · exact ⟨.inr hwait, rfl⟩
      · exact ⟨.inr hwait, rfl⟩
    · cases hs

theorem forever (h : Deadlocked s) (hr : Reach (Transport.step opts) anyStep s s') :
    s'.dispatched = s.dispatched := by
  have hkeep : Deadlocked s' ∧ s'.dispatched = s.dispatched := by
    refine hr.inv (I := fun t => Deadlocked t ∧ t.dispatched = s.dispatched) ⟨h, rfl⟩ fun t e t' _ ht _ hstep => ?_
    obtain ⟨hdead, hsame⟩ := ht.1.step hstep
    exact ⟨hdead, hsame.trans ht.2⟩
  exact hkeep.2

end Deadlocked

instance (s : St) : Decidable (Deadlocked s) := by
  unfold Deadlocked
  have hholding : Decidable (∃ event, s.callbackThread = .holding event ∧ event.type ≠ .stderr) :=
    match hthread : s.callbackThread with
    | .holding event => decidable_of_iff (event.type ≠ .stderr) (by simp)
    | .none | .idle | .inHandler | .wanting _ | .stopping | .finished => .isFalse (by simp)
  infer_instance

/-- An event that was accepted and is dispatched in no run from here. -/
def Lost (opts : Options) (s : St) (event : CallbackEvent) : Prop :=
  event ∈ s.queue.accepted ∧ ∀ t, Reach (step opts) anyStep s t → event ∉ t.dispatched

theorem lost_of_deadlocked {opts : Options} {s : St} {event : CallbackEvent} (h : Deadlocked s)
    (hmem : event ∈ s.queue.accepted) (hnot : event ∉ s.dispatched) : Lost opts s event :=
  ⟨hmem, fun _ ht => by rw [h.forever ht]; exact hnot⟩

theorem lost_of_run (events : List Ev) {event : CallbackEvent}
    (h : (run (step sampleOptions) anyStep {} events).map (fun s => decide (Deadlocked s ∧
      event ∈ s.queue.accepted ∧ event ∉ s.dispatched)) = some true) :
    ∃ s, Reach (step sampleOptions) anyStep {} s ∧ Lost sampleOptions s event := by
  obtain ⟨s, hs, hdead⟩ := exists_reach_of_run events h
  obtain ⟨hdead, hmem, hnot⟩ := of_decide_eq_true hdead
  exact ⟨s, hs, lost_of_deadlocked hdead hmem hnot⟩

/-- A `send()` that finds the transport closed and the queue full; a handler that calls
    `stop()` while another thread is in it; a second `start()` whose error handler calls
    `stop()`, from another thread and from a handler. -/
theorem accepted_events_are_lost :
    (∃ s, Reach (step sampleOptions) anyStep {} s ∧ Lost sampleOptions s { type := .receive, bytes := [1] }) ∧
    (∃ s, Reach (step sampleOptions) anyStep {} s ∧ Lost sampleOptions s { type := .receive, bytes := [2] }) ∧
    (∃ s, Reach (step sampleOptions) anyStep {} s ∧ Lost sampleOptions s { type := .receive, bytes := [3] }) ∧
    ∃ s, Reach (step sampleOptions) anyStep {} s ∧ Lost sampleOptions s { type := .receive, bytes := [4] } := by
  refine ⟨?_, ?_, ?_, ?_⟩
  · exact lost_of_run (startSteps ++ [.sendBegins, .stdout [1], .take, .stdout [2], .processExits 0, .exitNoted,
      .sendRechecks 0]) (by decide)
  · exact lost_of_run (startSteps ++ [.stdout [1], .take, .dispatch, .stdout [2], .stops, .handlerCalls .stop]) (by decide)
  · exact lost_of_run (startSteps ++ [.stdout [3], .take, .refusalReenters .outside]) (by decide)
  · exact lost_of_run (startSteps ++ [.stdout [1], .take, .dispatch, .stdout [4], .handlerCalls .start,
      .refusalReenters .callback]) (by decide)

end QwenTtsBridge.Transport
