/-
  QwenTtsBridge.Worker.Queued — `queued` is the first frame of a request, in both workers
  (`PyServer`, `NativeServer`).

  Proved (`queued_precedes_everything`): in every run whose engine thread takes a request
  only after its `queued` frame was handed over, that frame precedes the `started` and
  `audio_pcm` frames and the terminal frame of the request. The lock does not order the
  two: an idle engine thread may take the request from the queue before the reader gets to
  `send`, and `started` then comes first (`an_idle_engine_starts_before_queued`).
-/

import QwenTtsBridge.Worker.PyQueued
import QwenTtsBridge.Worker.NativeQueued

namespace QwenTtsBridge.Worker

open QwenTtsBridge.Protocol.Control QwenTtsBridge.Python QwenTtsBridge.Lib.Transition QwenTtsBridge.Lib.EventLog

theorem queued_precedes_everything (py : Interpreter) (maxAdmittedRequests : Nat) (ready : PyServer.ReadyMessage)
    (cfg : NativeServer.Config) :
    (∀ s : PyServer.St, Reach (PyServer.step (PyServer.config py maxAdmittedRequests ready))
        (fun s e => PyServer.FromFrames py s e ∧ PyServer.TakesQueued s e) PyServer.init s →
      PyServer.QueuedFirst s.handed) ∧
    ∀ s : NativeServer.St,
      Reach (NativeServer.step cfg) NativeServer.TakesQueued NativeServer.init s → NativeServer.QueuedFirst s.handed :=
  ⟨fun _ h => PyServer.reach_queuedFirst h, fun _ h => NativeServer.reach_queuedFirst h⟩

/-! ## One request -/

namespace PyServer

/-- A `synthesize` of id 1. -/
def synthesizeFrame : Protocol.Framing.PyFrame :=
  let frame := controlFrame "\x7b\"message_type\":\"synthesize\",\"text\":\"a\"\x7d"
  { frame with header := { frame.header with requestId := 1 } }

/-- The reader has admitted request 1, and its `queued` frame is still to be sent. -/
def admittedOne : St := handleFrame sampleServer greeted (command sampleInterpreter (fun _ => none) synthesizeFrame)

theorem admittedOne_reach :
    Reach (step sampleServer) (fun s e => FromFrames sampleInterpreter s e ∧ TakesQueued s e) init admittedOne := by
  have hready : sampleServer.encodes (.ready (sampleConfig 4).ready) = true := by decide +kernel
  have hgreeted : Reach (step sampleServer) (fun s e => FromFrames sampleInterpreter s e ∧ TakesQueued s e) init greeted := by
    refine .step .reader (.step (.receive (.hello 0)) .init
      ⟨⟨_, _, helloFrame_delivered, command_helloFrame.symm⟩, rfl⟩ rfl) ⟨trivial, rfl⟩ ?_
    show runAct sampleServer { greeted with handed := [] } (.send (.ready (sampleConfig 4).ready)) = _
    simp only [runAct, hready, if_true]
    rfl
  exact .step (.receive _) hgreeted
    ⟨⟨synthesizeFrame, fun _ => none, ⟨parserHolding synthesizeFrame, by decide +kernel⟩, rfl⟩, rfl⟩ rfl

/-- The engine thread takes request 1 and starts it. -/
def startOne : List Ev := [.engine .next, .engine .next, .engine (.described none), .engine .next]

/-- What follows once request 1 is admitted. -/
theorem reach_of_threads (ok : St → Ev → Prop) [∀ s e, Decidable (ok s e)] (es : List Ev) {p : St → Bool}
    (h : (run (step sampleServer) (fun s e => e.isThread = true ∧ ok s e) admittedOne es).map p = some true) :
    ∃ s, Reach (step sampleServer) (fun s e => FromFrames sampleInterpreter s e ∧ ok s e) admittedOne s ∧ p s = true := by
  obtain ⟨s, hs, hp⟩ := exists_reach_of_run es h
  refine ⟨s, hs.mono ?_, hp⟩
  rintro s e ⟨hthread, hok⟩
  cases e with
  | receive c => cases hthread
  | eof => exact ⟨trivial, hok⟩
  | reader => exact ⟨trivial, hok⟩
  | engine e => exact ⟨trivial, hok⟩

end PyServer

def NativeServer.startOne : List NativeServer.Ev := [.engine (.next false), .engine (.next false), .engine (.next false)]

/-- Request 1 is announced, then started. -/
theorem an_announced_request_starts_after_queued :
    (∃ s, Reach (PyServer.step PyServer.sampleServer)
        (fun s e => PyServer.FromFrames PyServer.sampleInterpreter s e ∧ PyServer.TakesQueued s e) PyServer.init s ∧
      s.handed.any (·.frame.isSpeech 1) = true ∧ PyServer.QueuedFirst s.handed) ∧
    ∃ s, Reach (NativeServer.step NativeServer.sampleConfig) NativeServer.TakesQueued NativeServer.init s ∧
      s.handed.any (·.frame.isSpeech 1) = true ∧ NativeServer.QueuedFirst s.handed := by
  obtain ⟨hpy, hnative⟩ := queued_precedes_everything PyServer.sampleInterpreter 4 (PyServer.sampleConfig 4).ready
    NativeServer.sampleConfig
  constructor
  · obtain ⟨s, hs, hstarted⟩ := PyServer.reach_of_threads PyServer.TakesQueued
      (p := fun s => s.handed.any (·.frame.isSpeech 1)) (.reader :: PyServer.startOne) (by decide +kernel)
    have hreach := PyServer.admittedOne_reach.trans hs
    exact ⟨s, hreach, hstarted, hpy s hreach⟩
  · have hrun : ∃ s, Reach (NativeServer.step NativeServer.sampleConfig) NativeServer.TakesQueued NativeServer.init s ∧
        s.handed.any (·.frame.isSpeech 1) = true :=
      exists_reach_of_run (NativeServer.synthesizeOne ++ NativeServer.startOne) (by decide +kernel)
    obtain ⟨s, hs, hstarted⟩ := hrun
    exact ⟨s, hs, hstarted, hnative s hs⟩

/-- The engine thread waits for work when request 1 is admitted, and has it started before the
    reader sends `queued`. -/
theorem an_idle_engine_starts_before_queued :
    (∃ s, Reach (PyServer.step PyServer.sampleServer) (PyServer.FromFrames PyServer.sampleInterpreter) PyServer.init s ∧
      ¬ PyServer.QueuedFirst s.handed) ∧
    ∃ s, NativeServer.Reachable NativeServer.sampleConfig s ∧ ¬ NativeServer.QueuedFirst s.handed := by
  constructor
  · obtain ⟨s, hs, hp⟩ := PyServer.reach_of_threads anyStep
      (p := fun s => decide (PyServer.queuedIn s.handed = [] ∧ s.handed.any (·.frame.isSpeech 1) = true))
      PyServer.startOne (by decide +kernel)
    obtain ⟨hnone, hstarted⟩ := of_decide_eq_true hp
    have hreach : Reach (PyServer.step PyServer.sampleServer) (PyServer.FromFrames PyServer.sampleInterpreter)
        PyServer.init s := (PyServer.admittedOne_reach.mono fun _ _ h => h.1).trans (hs.mono fun _ _ h => h.1)
    refine ⟨s, hreach, fun hfirst => ?_⟩
    obtain ⟨x, hx, hspeech⟩ := List.any_eq_true.mp hstarted
    obtain ⟨before, after, heq⟩ := List.append_of_mem hx
    have hqueued := hfirst before x after heq 1 (.inl hspeech)
    rw [heq, PyServer.queuedIn_append] at hnone
    rw [(List.append_eq_nil_iff.mp hnone).1] at hqueued
    cases hqueued
  · have hrun : ∃ s, NativeServer.Reachable NativeServer.sampleConfig s ∧
        decide (NativeServer.queuedIn s.handed = [] ∧ s.handed.any (·.frame.isSpeech 1) = true) = true :=
      exists_reach_of_run (NativeServer.synthesizeOne.dropLast ++ NativeServer.startOne) (by decide +kernel)
    obtain ⟨s, hs, hp⟩ := hrun
    obtain ⟨hnone, hstarted⟩ := of_decide_eq_true hp
    refine ⟨s, hs, fun hfirst => ?_⟩
    obtain ⟨x, hx, hspeech⟩ := List.any_eq_true.mp hstarted
    obtain ⟨before, after, heq⟩ := List.append_of_mem hx
    have hqueued := hfirst before x after heq 1 (.inl hspeech)
    rw [heq, NativeServer.queuedIn_append] at hnone
    rw [(List.append_eq_nil_iff.mp hnone).1] at hqueued
    cases hqueued

end QwenTtsBridge.Worker
