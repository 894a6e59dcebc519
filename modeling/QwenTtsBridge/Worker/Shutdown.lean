/-
  QwenTtsBridge.Worker.Shutdown — `shutdown_ack` in both workers (`PyServer`,
  `NativeServer`).

  Proved (`shutdown_ack_is_last`), over every interleaving of the two threads and every
  engine, absent a fatal error: the ack is handed over at most once, nothing follows it,
  every admitted request had its terminal frame before it, and a run that accepted no
  `shutdown` hands none over. In the native worker this takes that `handle_cancel` gets the
  slot from the map entry it has erased; where it does not, the ack comes without the
  `cancelled` frame of that request (`an_erased_slot_goes_unanswered`).
-/

import QwenTtsBridge.Worker.PyShutdown
import QwenTtsBridge.Worker.NativeShutdown

namespace QwenTtsBridge.Worker

open QwenTtsBridge.Protocol.Control QwenTtsBridge.Python QwenTtsBridge.Lib.Transition QwenTtsBridge.Lib.EventLog

theorem shutdown_ack_is_last (pyCfg : PyServer.Config) (cfg : NativeServer.Config) :
    (∀ s : PyServer.St, PyServer.Reachable pyCfg s → s.fatalError = false → PyServer.AckLast s) ∧
    (∀ s : PyServer.St, Reach (PyServer.step pyCfg) (fun _ e => e.shutsDown = false) PyServer.init s →
      ∀ x ∈ s.handed, x.frame.isAck = false) ∧
    (∀ s : NativeServer.St, cfg.maxAdmittedRequests ≤ 65536 →
      Reach (NativeServer.step cfg) NativeServer.ReadsSlot NativeServer.init s → s.fatalError = false →
      NativeServer.AckLast s) ∧
    ∀ s : NativeServer.St, Reach (NativeServer.step cfg) (fun _ e => e.shutsDown = false) NativeServer.init s →
      ∀ x ∈ s.handed, x.frame.isAck = false :=
  ⟨fun _ h hf => PyServer.reach_ackLast h hf, fun _ h => PyServer.reach_unasked h,
    fun _ hmax h hf => NativeServer.reach_ackLast hmax h hf, fun _ h => NativeServer.reach_unasked h⟩

/-! ## Runs that end -/

/-- Request 1 waits in the queue when the shutdown arrives. -/
def pyShutdownRun : List PyServer.Ev :=
  [.receive (.hello 0), .reader, .receive (.synthesize 1 (.request { requestId := 1, text := PyStr.lit "a" })), .reader,
    .reader, .receive (.shutdown 0 true), .reader, .reader, .reader, .reader, .engine .next, .engine .next, .engine .next]

def nativeShutdown : List NativeServer.Ev :=
  [.receive (.message 0 (.shutdown (CppString.lit "cancel"))) true, .reader, .reader, .reader, .engine (.next false),
    .engine (.next false), .engine (.next false)]

theorem a_queued_request_is_answered_before_the_ack :
    (∃ s, PyServer.Reachable (PyServer.sampleConfig 1) s ∧ s.handed.any (·.frame.isAck) = true ∧ PyServer.AckLast s) ∧
    ∃ s, Reach (NativeServer.step NativeServer.sampleConfig) NativeServer.ReadsSlot NativeServer.init s ∧
      s.handed.any (·.frame.isAck) = true ∧ NativeServer.AckLast s := by
  obtain ⟨hpy, -, hnative, -⟩ := shutdown_ack_is_last (PyServer.sampleConfig 1) NativeServer.sampleConfig
  constructor
  · have hrun : ∃ s, PyServer.Reachable (PyServer.sampleConfig 1) s ∧
        decide (s.handed.any (·.frame.isAck) = true ∧ s.fatalError = false) = true :=
      exists_reach_of_run pyShutdownRun (by decide +kernel)
    obtain ⟨s, hs, hp⟩ := hrun
    obtain ⟨hack, hf⟩ := of_decide_eq_true hp
    exact ⟨s, hs, hack, hpy s hs hf⟩
  · have hrun : ∃ s, Reach (NativeServer.step NativeServer.sampleConfig) NativeServer.ReadsSlot NativeServer.init s ∧
        decide (s.handed.any (·.frame.isAck) = true ∧ s.fatalError = false) = true :=
      exists_reach_of_run (NativeServer.synthesizeOne ++ nativeShutdown) (by decide +kernel)
    obtain ⟨s, hs, hp⟩ := hrun
    obtain ⟨hack, hf⟩ := of_decide_eq_true hp
    exact ⟨s, hs, hack, hnative s (by decide) hs hf⟩

/-- Request 1 is cancelled while it waits in the queue of the native worker, and what
    `handle_cancel` reads from the erased entry is no slot. -/
theorem an_erased_slot_goes_unanswered :
    ∃ s, NativeServer.Reachable NativeServer.sampleConfig s ∧ s.fatalError = false ∧ ¬ NativeServer.AckLast s := by
  have hrun : ∃ s, NativeServer.Reachable NativeServer.sampleConfig s ∧
      decide (s.fatalError = false ∧ 1 ∈ s.tables.admitted ∧ NativeServer.answered s.handed = [] ∧
        s.handed.any (·.frame.isAck) = true) = true :=
    exists_reach_of_run
      (NativeServer.synthesizeOne ++ [.receive (.message 1 .cancel) false, .reader] ++ nativeShutdown) (by decide +kernel)
  obtain ⟨s, hs, hp⟩ := hrun
  obtain ⟨hf, hadmitted, hnone, hack⟩ := of_decide_eq_true hp
  refine ⟨s, hs, hf, fun hlast => ?_⟩
  obtain ⟨x, hx, hisAck⟩ := List.any_eq_true.mp hack
  obtain ⟨before, after, heq⟩ := List.append_of_mem hx
  have hanswered := (hlast before x after heq hisAck).2 1 hadmitted
  have hmem : 1 ∈ NativeServer.answered s.handed := by
    rw [heq, NativeServer.answered_append]
    exact List.mem_append_left _ hanswered
  rw [hnone] at hmem
  cases hmem

end QwenTtsBridge.Worker
