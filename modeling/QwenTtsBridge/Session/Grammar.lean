/-
  QwenTtsBridge.Session.Grammar — the order of the events of a session.

  Proved (`session_grammar`), over every byte stream, every chunking and every interleaving
  of the callbacks with the client's calls: at most one `ready` is enqueued, with id 0 and
  before any other control or audio event; those are enqueued only while the session is
  Ready, and a session that has left Ready does not come back and enqueues no more of them;
  a `shutdown_ack` is enqueued only after a shutdown with id 0 was given to
  `send_control_frame`.
-/

import QwenTtsBridge.Session.Moves
import QwenTtsBridge.Lib.EventLog
import Mathlib.Data.List.Induction

namespace QwenTtsBridge.Session

open QwenTtsBridge.Protocol.Control QwenTtsBridge.Protocol.Framing QwenTtsBridge.Lib.EventLog QwenTtsBridge.Lib.Transition

/-! ## The grammar -/

/-- The assignment to `state_`, if the entry is one. -/
def Entry.state? : Entry → Option WorkerSessionState
  | .state st => some st
  | _ => none

/-- A control or audio event was enqueued. -/
def Entry.speaks : Entry → Bool
  | .event (.control _ _) _ | .event (.audio _ _) _ => true
  | _ => false

def Entry.isReady : Entry → Bool
  | .event (.control _ (.ready _)) _ => true
  | _ => false

/-- What `state_` was last assigned. -/
def lastState (log : List Entry) : Option WorkerSessionState := (log.filterMap Entry.state?).getLast?

structure EventGrammar (log : List Entry) : Prop where
  /-- `ready` has id 0, nothing speaks before it, and it does not come again. -/
  ready : ∀ before id message limit after, log = before ++ .event (.control id (.ready message)) limit :: after →
    id = 0 ∧ (∀ e ∈ before, e.speaks = false) ∧ ∀ e ∈ after, e.isReady = false
  /-- Every other control or audio event comes after `ready`, while the session is Ready. -/
  whileReady : ∀ before e after, log = before ++ e :: after → e.speaks = true → e.isReady = false →
    lastState before = some .ready ∧ ∃ r ∈ before, r.isReady = true
  /-- A session that has left Ready stays out of it, and silent. -/
  left : ∀ before after, log = before ++ after → .state .ready ∈ before → lastState before ≠ some .ready →
    ∀ e ∈ after, e ≠ .state .starting ∧ e ≠ .state .ready ∧ e.speaks = false
  shutdownAck : ∀ before id limit after, log = before ++ .event (.control id .shutdownAck) limit :: after →
    ∃ mode, .handed 0 (.shutdown mode) ∈ before

/-- What may follow a log. -/
def Allowed (log : List Entry) : Entry → Prop
  | .state .starting => log.filterMap Entry.state? = []
  | .state .ready => lastState log = some .starting ∧ ∃ r ∈ log, r.isReady = true
  | .event (.control id (.ready _)) _ => id = 0 ∧ lastState log = some .starting ∧ ∀ e ∈ log, e.speaks = false
  | .event (.control _ message) _ =>
    lastState log = some .ready ∧ (message = .shutdownAck → ∃ mode, .handed 0 (.shutdown mode) ∈ log)
  | .event (.audio _ _) _ => lastState log = some .ready
  | _ => True

/-! ## Legal logs have the grammar -/

section Legal

variable {log after : List Entry} {e : Entry}

theorem lastState_snoc (log : List Entry) (e : Entry) : lastState (log ++ [e]) = e.state?.or (lastState log) := by
  unfold lastState
  rw [List.filterMap_append]
  cases h : e.state? with
  | none => simp [h]
  | some st => simp [h]

/-- The session is not Starting once it was Ready. -/
theorem lastState_ne_starting (h : Legal Allowed log) (hr : .state .ready ∈ log) : lastState log ≠ some .starting := by
  induction log using List.reverseRecOn with
  | nil => exact (List.not_mem_nil hr).elim
  | append_singleton log e ih =>
    obtain ⟨hlegal, hallowed⟩ := Legal.snoc_iff.mp h
    rw [lastState_snoc]
    rcases List.mem_append.mp hr with hr | hr
    · have hne := ih hlegal hr
      cases hs : e.state? with
      | none => exact hne
      | some st =>
        rintro ⟨⟩
        -- `Starting` is assigned first of all
        have he : e = .state .starting := by
          cases e <;> simp [Entry.state?] at hs
          rw [hs]
        rw [he] at hallowed
        have hmem : WorkerSessionState.ready ∈ log.filterMap Entry.state? :=
          List.mem_filterMap.mpr ⟨.state .ready, hr, rfl⟩
        have hnil : log.filterMap Entry.state? = [] := hallowed
        rw [hnil] at hmem
        exact List.not_mem_nil hmem
    · rw [← List.mem_singleton.mp hr]
      simp [Entry.state?]

theorem lastState_ready_mem (h : lastState log = some .ready) : .state .ready ∈ log := by
  obtain ⟨e, he, hs⟩ := List.mem_filterMap.mp (List.mem_of_getLast? h)
  cases e <;> simp [Entry.state?] at hs
  rw [← hs]
  exact he

/-- A Ready session has enqueued its `ready`. -/
theorem ready_of_state (h : Legal Allowed log) (hr : .state .ready ∈ log) : ∃ r ∈ log, r.isReady = true := by
  obtain ⟨before, after, heq⟩ := List.append_of_mem hr
  obtain ⟨-, r, hmem, hready⟩ := h before _ after heq
  exact ⟨r, heq ▸ List.mem_append_left _ hmem, hready⟩

/-- What an event that speaks was allowed by. -/
theorem allowed_speaks (h : Allowed log e) (hs : e.speaks = true) (hr : e.isReady = false) : lastState log = some .ready := by
  cases e with
  | state st => cases hs
  | handed id m => cases hs
  | event event limit =>
    cases event with
    | control id message =>
      cases message with
      | ready m => cases hr
      | _ => exact h.1
    | audio id audio => exact h
    | workerError id error => cases hs
    | localEvent type message => cases hs

theorem left_of_legal {before : List Entry} (h : Legal Allowed (before ++ after)) (hr : .state .ready ∈ before)
    (hne : lastState before ≠ some .ready) :
    lastState (before ++ after) ≠ some .ready ∧
      ∀ e ∈ after, e ≠ .state .starting ∧ e ≠ .state .ready ∧ e.speaks = false := by
  induction after using List.reverseRecOn with
  | nil => exact ⟨by simpa using hne, fun _ he => (List.not_mem_nil he).elim⟩
  | append_singleton after e ih =>
    rw [← List.append_assoc] at h ⊢
    obtain ⟨hlegal, hallowed⟩ := Legal.snoc_iff.mp h
    obtain ⟨hlast, hall⟩ := ih hlegal
    have hmem : .state .ready ∈ before ++ after := List.mem_append_left _ hr
    have hstarting : e ≠ .state .starting := by
      rintro rfl
      have hnil : (before ++ after).filterMap Entry.state? = [] := hallowed
      have : WorkerSessionState.ready ∈ (before ++ after).filterMap Entry.state? :=
        List.mem_filterMap.mpr ⟨_, hmem, rfl⟩
      rw [hnil] at this
      exact List.not_mem_nil this
    have hready : e ≠ .state .ready := by
      rintro rfl
      exact lastState_ne_starting hlegal hmem hallowed.1
    have hsilent : e.speaks = false := by
      by_contra hspeaks
      rw [Bool.not_eq_false] at hspeaks
      cases hr' : e.isReady with
      | false => exact hlast (allowed_speaks hallowed hspeaks hr')
      | true =>
        cases e with
        | event event limit =>
          cases event with
          | control id message =>
            cases message with
            | ready m => exact lastState_ne_starting hlegal hmem hallowed.2.1
            | _ => cases hr'
          | _ => cases hr'
        | _ => cases hr'
    refine ⟨?_, fun e' he' => ?_⟩
    · rw [lastState_snoc]
      cases hs : e.state? with
      | none => exact hlast
      | some st =>
        rintro ⟨⟩
        cases e <;> simp [Entry.state?] at hs
        exact hready (by rw [hs])
    · rcases List.mem_append.mp he' with he' | he'
      · exact hall e' he'
      · rw [List.mem_singleton.mp he']
        exact ⟨hstarting, hready, hsilent⟩

theorem grammar_of_legal (h : Legal Allowed log) : EventGrammar log where
  ready := by
    intro before id message limit after heq
    obtain ⟨hid, -, hsilent⟩ := h before _ after heq
    refine ⟨hid, hsilent, fun e he => ?_⟩
    by_contra hready
    rw [Bool.not_eq_false] at hready
    obtain ⟨mid, rest, rfl⟩ := List.append_of_mem he
    -- the second `ready` would have this one before it
    have hallowed := h (before ++ .event (.control id (.ready message)) limit :: mid) e rest (by simp [heq])
    cases e with
    | event event limit' =>
      cases event with
      | control id' message' =>
        cases message' with
        | ready m =>
          have := hallowed.2.2 (.event (.control id (.ready message)) limit)
            (List.mem_append_right _ List.mem_cons_self)
          cases this
        | _ => cases hready
      | _ => cases hready
    | _ => cases hready
  whileReady := by
    intro before e after heq hspeaks hready
    have hlast := allowed_speaks (h before e after heq) hspeaks hready
    refine ⟨hlast, ready_of_state ?_ (lastState_ready_mem hlast)⟩
    rw [heq] at h
    exact h.of_append
  left := by
    rintro before after rfl hr hne
    exact (left_of_legal h hr hne).2
  shutdownAck := by
    intro before id limit after heq
    exact (h before _ after heq).2 rfl

end Legal

/-! ## The log of a session is legal -/

structure Lawful (s : St) : Prop where
  legal : Legal Allowed s.log
  fresh : s.startAttempted = false → s.log = []
  state : s.startAttempted = true → lastState s.log = some s.state
  silent : s.state = .starting → ∀ e ∈ s.log, e.speaks = false
  shutdown : s.shutdownRequested = true → ∃ mode, .handed 0 (.shutdown mode) ∈ s.log

section Lawful

variable {options : WorkerSessionOptions} {s s' : St}

/-- An entry that leaves the state as it is. -/
theorem Lawful.snoc {e : Entry} (h : Lawful s) (ha : s.startAttempted = true) (hallowed : Allowed s.log e)
    (he : e.state? = none) (hsilent : s.state = .starting → e.speaks = false)
    (hsame : s'.startAttempted = true ∧ s'.state = s.state ∧ s'.log = s.log ++ [e] ∧
      s'.shutdownRequested = s.shutdownRequested) : Lawful s' := by
  obtain ⟨ha', hstate, hlog, hshutdown⟩ := hsame
  constructor
  · rw [hlog]
    exact h.legal.snoc hallowed
  · intro hfalse
    rw [ha'] at hfalse
    cases hfalse
  · intro _
    rw [hlog, lastState_snoc, he, hstate]
    exact h.state ha
  · intro hs e' he'
    rw [hstate] at hs
    rw [hlog] at he'
    rcases List.mem_append.mp he' with he' | he'
    · exact h.silent hs e' he'
    · rw [List.mem_singleton.mp he']
      exact hsilent hs
  · intro hs
    rw [hshutdown] at hs
    obtain ⟨mode, hmem⟩ := h.shutdown hs
    exact ⟨mode, hlog ▸ List.mem_append_left _ hmem⟩

/-- An assignment to the state. -/
theorem Lawful.assign {st : WorkerSessionState} (h : Lawful s) (hallowed : Allowed s.log (.state st)) (hst : st ≠ .starting)
    (hsame : s'.startAttempted = true ∧ s'.state = st ∧ s'.log = s.log ++ [.state st] ∧
      s'.shutdownRequested = s.shutdownRequested) : Lawful s' := by
  obtain ⟨ha', hstate, hlog, hshutdown⟩ := hsame
  constructor
  · rw [hlog]
    exact h.legal.snoc hallowed
  · intro hfalse
    rw [ha'] at hfalse
    cases hfalse
  · intro _
    rw [hlog, lastState_snoc, hstate]
    rfl
  · intro hs
    exact absurd (hstate.symm.trans hs) hst
  · intro hs
    rw [hshutdown] at hs
    obtain ⟨mode, hmem⟩ := h.shutdown hs
    exact ⟨mode, hlog ▸ List.mem_append_left _ hmem⟩

theorem allowed_ended {log : List Entry} {st : WorkerSessionState} (h : st.live = false) : Allowed log (.state st) := by
  cases st with
  | starting => cases h
  | ready => cases h
  | _ => trivial

theorem allowed_diagnostic {log : List Entry} {event : WorkerSessionEvent} {limit : Limit} (h : event.isDiagnostic = true) :
    Allowed log (.event event limit) := by
  cases event with
  | control id message => cases h
  | audio id audio => cases h
  | _ => trivial

theorem speaks_diagnostic {event : WorkerSessionEvent} {limit : Limit} (h : event.isDiagnostic = true) :
    (Entry.event event limit).speaks = false := by
  cases event with
  | control id message => cases h
  | audio id audio => cases h
  | _ => rfl

/-- An admissible event other than a worker error is enqueued in a Ready session. -/
theorem admissible_cases {event : WorkerSessionEvent} (h : Admissible s event) :
    event.isDiagnostic = true ∨ s.state = .ready := by
  cases event with
  | control id message =>
    right
    obtain ⟨hready, hallowed⟩ := h
    unfold isControlMessageAllowed at hallowed
    rw [if_neg hready] at hallowed
    by_contra hne
    rw [if_pos hne] at hallowed
    cases hallowed
  | audio id audio => exact .inr h.1
  | workerError id error => exact .inl rfl
  | localEvent type message => exact h.elim

theorem allowed_admissible {event : WorkerSessionEvent} {limit : Limit} (hs : Lawful s) (ha : s.startAttempted = true)
    (h : Admissible s event) : Allowed s.log (.event event limit) := by
  have hcases := admissible_cases h
  cases event with
  | control id message =>
    have hlast : lastState s.log = some .ready := by
      rw [hs.state ha]
      rcases hcases with hd | hready
      · cases hd
      · rw [hready]
    obtain ⟨hready, hallowed⟩ := h
    have hack : message = .shutdownAck → ∃ mode, .handed 0 (.shutdown mode) ∈ s.log := by
      rintro rfl
      refine hs.shutdown ?_
      simp only [isControlMessageAllowed, controlMessageType] at hallowed
      split at hallowed
      · rename_i hc
        cases hc
      split at hallowed
      · cases hallowed
      · simp only [if_true, Bool.and_eq_true] at hallowed
        exact hallowed.2
    cases message with
    | ready m => exact absurd rfl hready
    | _ => exact ⟨hlast, hack⟩
  | audio id audio =>
    show lastState s.log = some .ready
    rw [hs.state ha, h.1]
  | workerError id error => trivial
  | localEvent type message => trivial

theorem Lawful.fail (h : Lawful s) (ha : s.startAttempted = true) : Lawful (fail s) := by
  unfold Session.fail
  split
  · have hallowed : Allowed s.log (.state .failed) := allowed_ended rfl
    exact h.assign hallowed nofun ⟨ha, rfl, rfl, rfl⟩
  · exact h

theorem lawful_move (h : Lawful s) (hm : Move options s s') : Lawful s' := by
  cases hm with
  | parser parser => exact ⟨h.legal, h.fresh, h.state, h.silent, h.shutdown⟩
  | calls calls => exact ⟨h.legal, h.fresh, h.state, h.silent, h.shutdown⟩
  | begin hrefused =>
    have hfresh : s.startAttempted = false := by
      simp only [startRefused, Bool.or_eq_false_iff] at hrefused
      exact hrefused.1.1.1
    have hlog : (startBegin s).log = [.state .starting] := by
      show s.log ++ _ = _
      rw [h.fresh hfresh, List.nil_append]
    constructor
    · rw [hlog]
      exact legal_nil.snoc rfl
    · intro hfalse
      cases hfalse
    · intro _
      rw [hlog]
      rfl
    · intro _ e he
      rw [hlog] at he
      rw [List.mem_singleton.mp he]
      rfl
    · intro hfalse
      cases hfalse
  | state hst ha =>
    refine h.assign (allowed_ended hst) ?_ ⟨ha, rfl, rfl, rfl⟩
    rintro rfl
    cases hst
  | exempt he ha =>
    exact h.snoc ha (allowed_diagnostic he) rfl (fun _ => speaks_diagnostic he) ⟨ha, rfl, rfl, rfl⟩
  | regular ho hf he ha =>
    refine h.snoc ha (allowed_admissible h ha he) rfl (fun hstarting => ?_) ⟨ha, rfl, rfl, rfl⟩
    rcases admissible_cases he with hd | hready
    · exact speaks_diagnostic hd
    · rw [hstarting] at hready
      cases hready
  | ready message ho hf hstarting ha =>
    -- the event and the assignment are two entries
    have hevent : Allowed s.log (.event (.control 0 (.ready message)) .regular) :=
      ⟨rfl, (h.state ha).trans (congrArg some hstarting), h.silent hstarting⟩
    have hstate : Allowed (s.log ++ [.event (.control 0 (.ready message)) .regular]) (.state .ready) := by
      refine ⟨?_, _, List.mem_append_right _ List.mem_cons_self, rfl⟩
      rw [lastState_snoc]
      exact (h.state ha).trans (congrArg some hstarting)
    constructor
    · exact (h.legal.snoc hevent).snoc hstate
    · intro hfalse
      exact absurd (ha.symm.trans hfalse) (by decide)
    · intro _
      show lastState ((s.log ++ _) ++ _) = _
      rw [lastState_snoc]
      rfl
    · intro hfalse
      cases hfalse
    · intro hs
      obtain ⟨mode, hmem⟩ := h.shutdown hs
      exact ⟨mode, List.mem_append_left _ (List.mem_append_left _ hmem)⟩
  | overflow ho hf ha =>
    have hmarked : Lawful { s with eventQueueOverflowed := true } := ⟨h.legal, h.fresh, h.state, h.silent, h.shutdown⟩
    have ha' : (fail { s with eventQueueOverflowed := true }).startAttempted = true := by
      rw [fail_startAttempted]
      exact ha
    have hallowed : Allowed (fail { s with eventQueueOverflowed := true }).log (.event overflowEvent .overflow) :=
      allowed_diagnostic rfl
    exact (hmarked.fail ha).snoc ha' hallowed rfl (fun _ => rfl) ⟨ha', rfl, rfl, rfl⟩
  | handed id message ha =>
    have hallowed : Allowed s.log (.handed id message) := trivial
    exact h.snoc ha hallowed rfl (fun _ => rfl) ⟨ha, rfl, rfl, rfl⟩
  | shutdown hmem ha => exact ⟨h.legal, h.fresh, h.state, h.silent, fun _ => ⟨_, hmem⟩⟩
  | wait hevents => exact ⟨h.legal, h.fresh, h.state, h.silent, h.shutdown⟩

end Lawful

/-- The log of every reachable session has the grammar, and its last assignment is the state
    the session is in. -/
theorem session_grammar (lib : JsonLibrary) (options : WorkerSessionOptions) {s : St} (h : Reachable lib options s) :
    EventGrammar s.log ∧ (s.startAttempted = true → lastState s.log = some s.state) := by
  have hlawful : Lawful s := by
    refine moves_inv (I := Lawful) ?_ (fun _ _ => lawful_move) (reach_moves h)
    exact ⟨legal_nil, fun _ => rfl, nofun, nofun, nofun⟩
  exact ⟨grammar_of_legal hlawful.legal, hlawful.state⟩

/-! ## A session that gets ready -/

def sampleReady : ControlMessage :=
  .ready { workerVersion := CppString.lit "0.2.0", sessionId := CppString.lit "scripted" }

/-- Reads the control messages that the samples send. -/
def sampleLibrary : JsonLibrary :=
  .reading ([sampleReady, .cancelled, .shutdownAck].map fun m => .object (controlMessageToJson m))

/-- The bytes of a control frame of the worker. -/
def controlFrameBytes (id : RequestId) (m : ControlMessage) : Bytes :=
  match encodeControlMessage sampleLibrary m with
  | .ok payload => (encodeFrame FrameType.controlJson.value id payload).toOption.getD []
  | .error _ => []

/-- `start`, up to the end of the handshake. -/
def startRun : List Ev := [.start, .run 0 {}, .run 0 {}, .run 0 {}, .receive (controlFrameBytes 0 sampleReady), .run 0 {}]

theorem ready_is_enqueued_once : ∃ s, Reachable sampleLibrary {} s ∧
    s.log.countP Entry.isReady = 1 ∧ EventGrammar s.log := by
  have hrun : ∃ s, Reachable sampleLibrary {} s ∧ decide (s.log.countP Entry.isReady = 1) = true :=
    exists_reach_of_run startRun (by decide +kernel)
  obtain ⟨s, hreach, hcount⟩ := hrun
  exact ⟨s, hreach, of_decide_eq_true hcount, (session_grammar sampleLibrary {} hreach).1⟩

end QwenTtsBridge.Session
