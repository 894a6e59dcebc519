/-
  QwenTtsBridge.Interop.Wire — the way of the Python worker's frames to its client: the queue and the
  thread of `_OutputWriter`, the bytes on stdout, and the client's parser.

  A frame is put into the queue by the step that hands it over, which waits while the queue
  is full; `stop_when_drained` puts `None` behind the last one once both threads of the
  worker have come to their ends. The client reads any number of the bytes that are there.
  Writing to stdout does not fail here.

  - `frames_arrive_in_order`: over every interleaving of worker, writer and client, and
    however the bytes are cut, the parser gives the first of the frames that were handed over,
    each once and in order, never fails, and each is one that the client's decoder takes.
  - `frames_all_arrive`: whatever the order in which writer and client go on, all of them do,
    also of a worker that has stopped.
-/

import QwenTtsBridge.Interop.Emitted
import QwenTtsBridge.Lib.Inevitable
import QwenTtsBridge.Protocol.FrameParser
import QwenTtsBridge.Worker.PyReplies

namespace QwenTtsBridge.Interop.Wire

open QwenTtsBridge.Lib QwenTtsBridge.Lib.Transition QwenTtsBridge.Python QwenTtsBridge.Protocol.Control
open QwenTtsBridge.Worker
open QwenTtsBridge.Protocol.Framing

/-! ## Model -/

structure St where
  worker : PyServer.St := PyServer.init
  /-- `_OutputWriter._queue`. -/
  queue : List (Option Bytes) := []
  /-- Whether the writer's thread runs. -/
  writing : Bool := true
  /-- Whether `stop_when_drained` has been called. -/
  stopping : Bool := false
  /-- Bytes that were written and not yet read. -/
  output : Bytes := []
  parser : FrameParser := {}
  returned : List Frame := []

/-- Both threads of the worker have come to their ends. -/
def Ended (w : PyServer.St) : Prop := w.reader = [] ∧ (w.engine = .exited ∨ ∃ id, w.engine = .dead id)

def ended (w : PyServer.St) : Bool :=
  w.reader.isEmpty &&
    match w.engine with
    | .exited | .dead _ => true
    | _ => false

/-- `Queue.full`; there is no limit if `maxsize` is zero. -/
def full (maxsize : Nat) (queue : List (Option Bytes)) : Bool := maxsize != 0 && decide (maxsize ≤ queue.length)

def frameBytes (cfg : PyServer.Config) (f : PyServer.OutFrame) : Bytes :=
  match cfg.encode f with
  | .ok bytes => bytes
  | .error _ => []

inductive Ev where
  | worker (e : PyServer.Ev)
  | stopWhenDrained
  /-- A turn of `_run` of the writer. -/
  | write
  /-- The client reads at most so many bytes and appends them to its parser. -/
  | read (limit : Nat)
  | parseNext

def step (cfg : PyServer.Config) (outputQueueSize : Nat) (s : St) : Ev → Option St
  | .worker e =>
    (PyServer.step cfg s.worker e).bind fun worker =>
      let frames := (worker.handed.drop s.worker.handed.length).map fun x => frameBytes cfg x.frame
      if frames ≠ [] ∧ full outputQueueSize s.queue then none
      else some { s with worker := worker, queue := s.queue ++ frames.map some }
  | .stopWhenDrained =>
    if ended s.worker && !s.stopping && !full outputQueueSize s.queue then
      some { s with queue := s.queue ++ [none], stopping := true }
    else none
  | .write =>
    match s.writing, s.queue with
    | true, some payload :: queue => some { s with queue := queue, output := s.output ++ payload }
    | true, none :: queue => some { s with queue := queue, writing := false }
    | _, _ => none
  | .read limit =>
    some { s with parser := s.parser.append (s.output.take limit), output := s.output.drop limit }
  | .parseNext =>
    match s.parser.parseNext with
    | (parser, .frameReady frame) => some { s with parser := parser, returned := s.returned ++ [frame] }
    | (parser, _) => some { s with parser := parser }

/-- The worker's steps are clear. -/
def Allowed (cfg : PyServer.Config) (py : Interpreter) (s : St) : Ev → Prop
  | .worker e => Clear cfg py s.worker e
  | .stopWhenDrained | .write | .read _ | .parseNext => True

/-- A step that takes a frame further. -/
def onward (s : St) : Ev → Prop
  | .worker _ | .stopWhenDrained => False
  | .write => True
  | .read limit => 0 < limit ∧ s.output ≠ []
  | .parseNext => ∃ frame, s.parser.parseNext.2 = .frameReady frame

/-! ### Frames -/

def frameType : PyServer.OutFrame → FrameType
  | .audioPcm _ _ => .audioPcm
  | .error _ _ => .errorJson
  | _ => .controlJson

def payload (py : Interpreter) (f : PyServer.OutFrame) : Bytes :=
  match f with
  | .audioPcm _ pcm => pcm
  | f =>
    match (payload? f).map (PyServer.encodeJsonPayload py) with
    | some (.ok bytes) => bytes
    | _ => []

/-- A frame of the worker as one of the client. -/
def wireFrame (py : Interpreter) (f : PyServer.OutFrame) : Frame where
  header := {
    frameType := (frameType f).value
    requestId := UInt64.ofNat f.requestId
    payloadSize := UInt32.ofNat (payload py f).length }
  payload := payload py f

section Frames

variable {py : Interpreter} {lib : JsonLibrary} {f : PyServer.OutFrame} {bytes : Bytes}

theorem encodeFrame_wire {t : FrameType} {id : Nat} {payload : Bytes} (h : PyServer.encodeFrame t id payload = .ok bytes) :
    id < 2 ^ 64 ∧ encodeFrame t.value (UInt64.ofNat id) payload = .ok bytes := by
  unfold PyServer.encodeFrame at h
  split at h
  · cases h
  · rename_i encoded hencoded
    cases h
    have hid : id < 2 ^ 64 := by
      have ht : PyFrameType.ofValue? (t.value.toNat : Int) = some t := by cases t <;> rfl
      unfold pyEncodeFrame at hencoded
      rw [ht] at hencoded
      simp only [pyEncodeFrameWithHeader] at hencoded
      split at hencoded
      · cases hencoded
      · rename_i hvalid
        obtain ⟨-, -, -, -, -, hbound, -⟩ := validateOutgoingFrame_ok.mp hvalid
        have := hbound.2
        dsimp only at this
        omega
    refine ⟨hid, (encode_agrees _ _ _ _).mpr ?_⟩
    rw [UInt64.toNat_ofNat_of_lt' hid]
    exact hencoded

theorem encodeOut_json {d : Dict} (hd : payload? f = some d) :
    PyServer.encodeOut py f = PyServer.jsonFrame py (frameType f) f.requestId d := by
  cases f with
  | audioPcm id pcm => cases hd
  | pong sequence =>
    cases sequence <;>
    · cases hd
      rfl
  | completed id trace =>
    rcases trace with _ | _ | ⟨p, trace⟩ <;>
    · cases hd
      rfl
  | ready | shutdownAck | queued | started | cancelled | error =>
    cases hd
    rfl

theorem payload_json {d : Dict} {json : Bytes} (hd : payload? f = some d)
    (hjson : PyServer.encodeJsonPayload py d = .ok json) : payload py f = json := by
  cases f with
  | audioPcm id pcm => cases hd
  | ready | shutdownAck | queued | started | cancelled | error | pong | completed => simp only [payload, hd, Option.map_some, hjson]

theorem payload?_of_control (h : frameType f ≠ .audioPcm) : ∃ d, payload? f = some d := by
  cases f with
  | audioPcm id pcm => exact (h rfl).elim
  | pong sequence => cases sequence <;> exact ⟨_, rfl⟩
  | completed id trace => rcases trace with _ | _ | ⟨p, trace⟩ <;> exact ⟨_, rfl⟩
  | ready | shutdownAck | queued | started | cancelled | error => exact ⟨_, rfl⟩

/-- The bytes that the worker writes for a frame are those of the client's frame. -/
theorem wireFrame_encodes (h : PyServer.encodeOut py f = .ok bytes) :
    f.requestId < 2 ^ 64 ∧ encodeFrameWithHeader (wireFrame py f).header (wireFrame py f).payload = .ok bytes := by
  have hencode : PyServer.encodeFrame (frameType f) f.requestId (payload py f) = .ok bytes := by
    by_cases haudio : frameType f = .audioPcm
    · cases f with
      | audioPcm id pcm => exact h
      | ready | shutdownAck | queued | started | cancelled | error | pong | completed => cases haudio
    · obtain ⟨d, hd⟩ := payload?_of_control haudio
      obtain ⟨json, hjson⟩ := encoded_payload h hd
      rw [encodeOut_json hd] at h
      unfold PyServer.jsonFrame at h
      rw [hjson] at h
      rw [payload_json hd hjson]
      exact h
  exact encodeFrame_wire hencode

end Frames

/-! ## The worker's end -/

section Ended

variable {cfg : PyServer.Config} {w w' : PyServer.St} {e : PyServer.Ev}

theorem ended_iff : ended w = true ↔ Ended w := by
  unfold ended Ended
  rw [Bool.and_eq_true, List.isEmpty_iff]
  refine and_congr_right fun _ => ?_
  cases w.engine <;> simp

theorem step_ended (h : Ended w) : PyServer.step cfg w e = none := by
  obtain ⟨hreader, hengine⟩ := h
  cases e with
  | receive c => simp only [PyServer.step, hreader]
  | eof => simp only [PyServer.step, hreader]
  | reader => simp only [PyServer.step, hreader]
  | engine e =>
    rcases hengine with hexited | ⟨id, hdead⟩
    · cases e <;> simp only [PyServer.step, PyServer.stepEngine, hexited]
    · cases e <;> simp only [PyServer.step, PyServer.stepEngine, hdead]

theorem step_handed (h : PyServer.step cfg w e = some w') : ∃ more, w'.handed = w.handed ++ more := by
  cases e with
  | receive c =>
    simp only [PyServer.step] at h
    split at h <;> cases h
    exact ⟨[], by rw [PyServer.frame_handed, List.append_nil]⟩
  | eof =>
    simp only [PyServer.step] at h
    split at h <;> cases h
    exact ⟨[], (List.append_nil _).symm⟩
  | reader =>
    simp only [PyServer.step] at h
    split at h
    · rcases PyServer.act_handed h with hsame | ⟨f, -, hone⟩
      · exact ⟨[], hsame.trans (List.append_nil _).symm⟩
      · exact ⟨_, hone⟩
    · cases h
  | engine e =>
    rcases PyServer.engine_said h with hsame | ⟨f, hsaid⟩
    · exact ⟨[], hsame.trans (List.append_nil _).symm⟩
    · exact ⟨_, hsaid.handed⟩

end Ended

/-! ## What is on its way -/

/-- The payloads in the queue are `frames`, and the parser has still to return `todo`. -/
structure Flight (py : Interpreter) (s : St) (frames : List Bytes) (todo : List Frame) : Prop where
  queue : s.queue = frames.map some ++ if s.stopping && s.writing then [none] else []
  ended : s.stopping = true → Ended s.worker
  drained : s.writing = false → frames = [] ∧ s.stopping = true
  returned : s.returned ++ todo = s.worker.handed.map fun x => wireFrame py x.frame
  wire : InFlight s.parser (s.output ++ frames.flatten) todo

section Flight

variable {py : Interpreter} {cfg : PyServer.Config} {outputQueueSize : Nat} {s s' : St} {frames : List Bytes} {todo : List Frame}

theorem inFlight_sends (hcfg : cfg.encode = PyServer.encodeOut py) {p : FrameParser} {wire : Bytes}
    (h : InFlight p wire todo) (more : List PyServer.Handed) (hencodes : ∀ x ∈ more, cfg.encodes x.frame = true) :
    InFlight p (wire ++ (more.map fun x => frameBytes cfg x.frame).flatten)
      (todo ++ more.map fun x => wireFrame py x.frame) := by
  induction more generalizing wire todo with
  | nil =>
    rw [List.map_nil, List.flatten_nil, List.append_nil, List.map_nil, List.append_nil]
    exact h
  | cons x more ih =>
    obtain ⟨bytes, hbytes⟩ : ∃ bytes, cfg.encode x.frame = .ok bytes := by
      have hx := hencodes x List.mem_cons_self
      unfold PyServer.Config.encodes at hx
      cases hcases : cfg.encode x.frame with
      | ok bytes => exact ⟨bytes, rfl⟩
      | error e =>
        rw [hcases] at hx
        cases hx
    have hframe : frameBytes cfg x.frame = bytes := by
      unfold frameBytes
      rw [hbytes]
    have hsent := h.send (wireFrame_encodes (hcfg ▸ hbytes)).2
    have hrest := ih hsent fun y hy => hencodes y (List.mem_cons_of_mem _ hy)
    rw [List.map_cons, List.flatten_cons, List.map_cons, hframe, ← List.append_assoc, List.append_cons]
    exact hrest

/-- A step of the worker puts what it hands over behind what is in the queue. -/
theorem Flight.worker {e : PyServer.Ev} (hcfg : cfg.encode = PyServer.encodeOut py) (h : Flight py s frames todo)
    (hencodes : ∀ x ∈ s'.worker.handed, cfg.encodes x.frame = true)
    (hstep : step cfg outputQueueSize s (.worker e) = some s') : ∃ frames todo, Flight py s' frames todo := by
  simp only [step] at hstep
  obtain ⟨worker, hworker, hstep⟩ := Option.bind_eq_some_iff.mp hstep
  split at hstep
  · cases hstep
  cases hstep
  obtain ⟨more, hmore⟩ := step_handed hworker
  have hnew : worker.handed.drop s.worker.handed.length = more := by rw [hmore, List.drop_left]
  rw [hnew]
  have hgoing : s.stopping = false := by
    cases hstopping : s.stopping with
    | false => rfl
    | true =>
      rw [step_ended (h.ended hstopping)] at hworker
      cases hworker
  have hwriting : s.writing = true := by
    cases hwriting : s.writing with
    | true => rfl
    | false =>
      have := (h.drained hwriting).2
      rw [hgoing] at this
      cases this
  refine ⟨frames ++ more.map fun x => frameBytes cfg x.frame, todo ++ more.map fun x => wireFrame py x.frame, ?_, ?_, ?_, ?_, ?_⟩
  · have hqueue := h.queue
    simp only [hgoing, Bool.false_and, Bool.false_eq_true, if_false, List.append_nil] at hqueue ⊢
    rw [hqueue, List.map_append]
  · intro hstopping
    rw [hgoing] at hstopping
    cases hstopping
  · intro hstopped
    rw [hwriting] at hstopped
    cases hstopped
  · dsimp only
    rw [hmore, List.map_append, ← h.returned, List.append_assoc]
  · have hsends := inFlight_sends hcfg h.wire more fun x hx =>
      hencodes x (hmore.symm ▸ List.mem_append_right _ hx)
    rw [List.flatten_append, ← List.append_assoc]
    exact hsends

theorem Flight.stopWhenDrained (h : Flight py s frames todo)
    (hstep : step cfg outputQueueSize s .stopWhenDrained = some s') : Flight py s' frames todo := by
  simp only [step] at hstep
  split at hstep
  · rename_i hguard
    cases hstep
    simp only [Bool.and_eq_true, Bool.not_eq_true'] at hguard
    obtain ⟨⟨hended, hgoing⟩, -⟩ := hguard
    have hwriting : s.writing = true := by
      cases hwriting : s.writing with
      | true => rfl
      | false =>
        have := (h.drained hwriting).2
        rw [hgoing] at this
        cases this
    refine ⟨?_, fun _ => ended_iff.mp hended, fun hstopped => ?_, h.returned, h.wire⟩
    · have hqueue := h.queue
      simp only [hgoing, hwriting, Bool.false_and, Bool.and_self, Bool.false_eq_true, if_false, if_true, List.append_nil] at hqueue ⊢
      rw [hqueue]
    · rw [hwriting] at hstopped
      cases hstopped
  · cases hstep

/-- The writer takes the first payload of the queue, or `None` when there is no more. -/
theorem Flight.write (h : Flight py s frames todo) (hstep : step cfg outputQueueSize s .write = some s') :
    s'.worker = s.worker ∧
      ((∃ first rest, frames = first :: rest ∧ Flight py s' rest todo ∧ s'.output = s.output ++ first) ∨
        frames = [] ∧ s.writing = true ∧ s'.writing = false ∧ Flight py s' [] todo ∧ s'.output = s.output) := by
  have hqueue := h.queue
  simp only [step] at hstep
  split at hstep
  · rename_i first rest hwriting hfirst
    cases hstep
    refine ⟨rfl, .inl ?_⟩
    rw [hfirst] at hqueue
    cases frames with
    | nil =>
      rw [hwriting, List.map_nil, List.nil_append] at hqueue
      split at hqueue <;> cases hqueue
    | cons frame frames =>
      rw [List.map_cons, List.cons_append, List.cons.injEq, Option.some.injEq] at hqueue
      obtain ⟨rfl, hrest⟩ := hqueue
      refine ⟨first, frames, rfl, ⟨hrest, h.ended, fun hstopped => ?_, h.returned, ?_⟩, rfl⟩
      · cases (h.drained hstopped).1
      · have hwire := h.wire
        rw [List.flatten_cons, ← List.append_assoc] at hwire
        exact hwire
  · rename_i rest hwriting hlast
    cases hstep
    refine ⟨rfl, .inr ?_⟩
    rw [hlast] at hqueue
    cases frames with
    | cons frame frames => cases hqueue
    | nil =>
      rw [hwriting, List.map_nil, List.nil_append, Bool.and_true] at hqueue
      split at hqueue
      · rename_i hstopping
        rw [List.cons.injEq] at hqueue
        refine ⟨rfl, hwriting, rfl, ⟨?_, h.ended, fun _ => ⟨rfl, hstopping⟩, h.returned, h.wire⟩, rfl⟩
        rw [hqueue.2, Bool.and_false]
        rfl
      · cases hqueue
  · cases hstep

theorem Flight.read {limit : Nat} (h : Flight py s frames todo) :
    Flight py { s with parser := s.parser.append (s.output.take limit), output := s.output.drop limit } frames todo := by
  refine ⟨h.queue, h.ended, h.drained, h.returned, ?_⟩
  -- the parser takes what stands first of the bytes that are written and those still in the queue
  have hwire := h.wire.deliver (s.output.take limit).length
  have hdrop : (s.output ++ frames.flatten).drop (s.output.take limit).length = s.output.drop limit ++ frames.flatten := by
    rw [List.length_take, List.drop_append_of_le_length (Nat.min_le_right _ _)]
    by_cases hle : limit ≤ s.output.length
    · rw [Nat.min_eq_left hle]
    · rw [Nat.min_eq_right (by omega), List.drop_length, List.drop_eq_nil_of_le (by omega)]
  have htake : (s.output ++ frames.flatten).take (s.output.take limit).length = s.output.take limit := by
    rw [List.length_take, List.take_append_of_le_length (Nat.min_le_right _ _)]
    by_cases hle : limit ≤ s.output.length
    · rw [Nat.min_eq_left hle]
    · rw [Nat.min_eq_right (by omega), List.take_length, List.take_of_length_le (by omega)]
  rw [hdrop, htake] at hwire
  exact hwire

theorem Flight.parseNext (h : Flight py s frames todo) (hstep : step cfg outputQueueSize s .parseNext = some s') :
    s'.worker = s.worker ∧ s'.output = s.output ∧
      (Flight py s' frames todo ∨ ∃ frame rest, todo = frame :: rest ∧ Flight py s' frames rest) := by
  simp only [step] at hstep
  rcases h.wire.parse with ⟨parser, hparse, hwire⟩ | ⟨frame, rest, parser, rfl, hparse, hwire⟩
  · rw [hparse] at hstep
    cases hstep
    exact ⟨rfl, rfl, .inl ⟨h.queue, h.ended, h.drained, h.returned, hwire⟩⟩
  · rw [hparse] at hstep
    cases hstep
    refine ⟨rfl, rfl, .inr ⟨frame, rest, rfl, h.queue, h.ended, h.drained, ?_, hwire⟩⟩
    have hreturned := h.returned
    rw [List.append_cons] at hreturned
    exact hreturned

end Flight

/-! ## Runs -/

section Runs

variable {py : Interpreter} {maxAdmittedRequests outputQueueSize : Nat} {ready : PyServer.ReadyMessage} {s s' : St}

theorem step_worker {cfg : PyServer.Config} {e : Ev} (h : step cfg outputQueueSize s e = some s') :
    s'.worker = s.worker ∨ ∃ w, e = .worker w ∧ PyServer.step cfg s.worker w = some s'.worker := by
  cases e with
  | worker w =>
    simp only [step] at h
    obtain ⟨worker, hworker, h⟩ := Option.bind_eq_some_iff.mp h
    split at h <;> cases h
    exact .inr ⟨w, rfl, hworker⟩
  | stopWhenDrained =>
    simp only [step] at h
    split at h <;> cases h
    exact .inl rfl
  | write =>
    simp only [step] at h
    split at h <;> cases h <;> exact .inl rfl
  | read limit =>
    cases h
    exact .inl rfl
  | parseNext =>
    simp only [step] at h
    split at h <;> cases h <;> exact .inl rfl

theorem flight_onward {frames : List Bytes} {todo : List Frame} {cfg : PyServer.Config} {e : Ev} (h : Flight py s frames todo)
    (hthread : ∀ w, e ≠ .worker w) (hstep : step cfg outputQueueSize s e = some s') :
    ∃ frames todo, Flight py s' frames todo := by
  cases e with
  | worker w => exact (hthread w rfl).elim
  | stopWhenDrained => exact ⟨frames, todo, h.stopWhenDrained hstep⟩
  | write =>
    obtain ⟨-, ⟨first, rest, -, hrest, -⟩ | ⟨-, -, -, hlast, -⟩⟩ := h.write hstep
    · exact ⟨rest, todo, hrest⟩
    · exact ⟨[], todo, hlast⟩
  | read limit =>
    cases hstep
    exact ⟨frames, todo, h.read⟩
  | parseNext =>
    obtain ⟨-, -, hwaits | ⟨frame, rest, -, hrest⟩⟩ := h.parseNext hstep
    · exact ⟨frames, todo, hwaits⟩
    · exact ⟨frames, rest, hrest⟩

end Runs

/-- The turns of the writer for an entry of its queue, and the reads after them. -/
def weight : Option Bytes → Nat
  | some payload => payload.length + 1
  | none => 1

def remaining (s : St) : Nat :=
  (s.queue.map weight).sum + s.output.length + (s.worker.handed.length - s.returned.length)

section Arrival

variable {py : Interpreter} {cfg : PyServer.Config} {outputQueueSize : Nat} {s s' : St} {frames : List Bytes} {todo : List Frame}

theorem Flight.onward {e : Ev} (h : Flight py s frames todo) (he : Wire.onward s e)
    (hstep : step cfg outputQueueSize s e = some s') :
    (s'.worker = s.worker ∧ ∃ frames todo, Flight py s' frames todo) ∧ remaining s' < remaining s := by
  have hthread : ∀ w, e ≠ .worker w := by
    rintro w rfl
    exact he
  obtain ⟨hworker, hflight⟩ : s'.worker = s.worker ∧ ∃ frames todo, Flight py s' frames todo := by
    refine ⟨?_, flight_onward h hthread hstep⟩
    rcases step_worker hstep with hsame | ⟨w, hw, -⟩
    · exact hsame
    · exact (hthread w hw).elim
  refine ⟨⟨hworker, hflight⟩, ?_⟩
  unfold remaining
  cases e with
  | worker w => exact he.elim
  | stopWhenDrained => exact he.elim
  | write =>
    simp only [step] at hstep
    split at hstep
    · rename_i payload queue hwriting hqueue
      cases hstep
      rw [hqueue, List.map_cons, List.sum_cons, weight, List.length_append]
      dsimp only
      omega
    · rename_i queue hwriting hqueue
      cases hstep
      rw [hqueue, List.map_cons, List.sum_cons, weight]
      dsimp only
      omega
    · cases hstep
  | read limit =>
    obtain ⟨hpos, hsome⟩ := he
    have hlength := List.length_pos_of_ne_nil hsome
    cases hstep
    rw [List.length_drop]
    dsimp only
    omega
  | parseNext =>
    obtain ⟨frame, hframe⟩ := he
    rcases h.wire.parse with ⟨parser, hparse, -⟩ | ⟨first, rest, parser, rfl, hparse, -⟩
    · rw [hparse] at hframe
      cases hframe
    · simp only [step, hparse] at hstep
      cases hstep
      have hlength := congrArg List.length h.returned
      rw [List.length_append, List.length_map, List.length_cons] at hlength
      rw [List.length_append, List.length_singleton]
      dsimp only
      omega

/-- Where nothing can go further, nothing is on its way. -/
theorem Flight.arrived (h : Flight py s frames todo) (hstuck : Stuck (step cfg outputQueueSize) Wire.onward s) : todo = [] := by
  have hwrite := hstuck .write trivial
  have hframes : frames = [] := by
    cases hwriting : s.writing with
    | false => exact (h.drained hwriting).1
    | true =>
      have hqueue := h.queue
      simp only [step, hwriting] at hwrite
      cases hs : s.queue with
      | nil =>
        rw [hs] at hqueue
        exact List.map_eq_nil_iff.mp (List.append_eq_nil_iff.mp hqueue.symm).1
      | cons entry queue =>
        rw [hs] at hwrite
        cases entry <;> cases hwrite
  have houtput : s.output = [] := by
    by_contra hsome
    have hread := hstuck (.read 1) ⟨Nat.one_pos, hsome⟩
    cases hread
  cases todo with
  | nil => rfl
  | cons frame rest =>
    obtain ⟨v, hunread, hbytes⟩ := h.wire.bytes
    rw [hframes, houtput, List.flatten_nil, List.append_nil, List.append_nil] at hbytes
    have hanswer : s.parser.parseNext.2 = nextAnswer (frame :: rest) v :=
      parseNext_answer (frame :: rest) h.wire.accepted s.parser h.wire.inv hunread (hbytes ▸ List.prefix_rfl)
    have hwhole : encoded frame <+: v := by
      rw [hbytes, List.flatMap_cons]
      exact List.prefix_append _ _
    have hready : s.parser.parseNext.2 = .frameReady frame := hanswer.trans (if_pos hwhole)
    have hparse := hstuck .parseNext ⟨frame, hready⟩
    simp only [step] at hparse
    split at hparse <;> cases hparse

end Arrival

end QwenTtsBridge.Interop.Wire
