/-
  QwenTtsBridge.Worker.PyReplies — the frames with which `_handle_frame` of the Python worker
  answers a frame.

  Proved (`handleFrame_keepsId_iff`): a frame with an id that is not zero is answered under
  that id only, exactly when `decode_control_payload` does not refuse it. Its refusals are
  sent under id zero.
-/

import QwenTtsBridge.Worker.PyHandleFrame

namespace QwenTtsBridge.Worker.PyServer

open QwenTtsBridge.Protocol.Framing QwenTtsBridge.Python

def OutFrame.requestId : OutFrame → RequestId
  | .ready _ | .pong _ | .shutdownAck => 0
  | .queued id _ | .started id _ | .audioPcm id _ | .completed id _ | .cancelled id | .error id _ => id

def Act.frame? : Act → Option OutFrame
  | .send f => some f
  | _ => none

/-- The frames among the acts that a handler put on top of the reader's stack; an exception
    leaves none. -/
def replies (s s' : St) : List OutFrame := (s'.reader.take (s'.reader.length - s.reader.length)).filterMap Act.frame?

theorem replies_of_reader {s s' : St} {acts : List Act} (h : s'.reader = acts ++ s.reader) :
    replies s s' = acts.filterMap Act.frame? := by
  have hlength : (acts ++ s.reader).length - s.reader.length = acts.length := by
    rw [List.length_append, Nat.add_sub_cancel]
  rw [replies, h, hlength, List.take_left]

theorem replies_unwind (s : St) : replies s (unwind s) = [] := by
  have hle : (s.reader.filter isFinally).length ≤ s.reader.length := List.length_filter_le ..
  have hzero : (s.reader.filter isFinally).length - s.reader.length = 0 := by omega
  show ((s.reader.filter isFinally).take ((s.reader.filter isFinally).length - s.reader.length)).filterMap _ = _
  rw [hzero]
  rfl

/-- Every frame that the handler sends has this id. -/
def KeepsId (id : RequestId) (s s' : St) : Prop := ∀ f ∈ replies s s', f.requestId = id

section KeepsId

variable {cfg : Config} {s : St} {id : RequestId}

theorem push_keepsId {s' : St} {acts : List Act} (h : s'.reader = s.reader)
    (hacts : ∀ f ∈ acts.filterMap Act.frame?, f.requestId = id) : KeepsId id s (push s' acts) := by
  have hreader : (push s' acts).reader = acts ++ s.reader := by rw [push, h]
  rw [KeepsId, replies_of_reader hreader]
  exact hacts

theorem sendError_keepsId {s' : St} (h : s'.reader = s.reader) (e : ErrorMessage) : KeepsId id s (sendError s' id e) := by
  refine push_keepsId h fun f hf => ?_
  rw [List.mem_singleton.mp hf]
  rfl

theorem quiet_keepsId {s' : St} (h : s'.reader = s.reader) : KeepsId id s s' := by
  have hreader : s'.reader = [] ++ s.reader := h
  rw [KeepsId, replies_of_reader hreader]
  exact fun _ hf => (List.not_mem_nil hf).elim

theorem unwind_keepsId : KeepsId id s (unwind s) := by
  rw [KeepsId, replies_unwind]
  exact fun _ hf => (List.not_mem_nil hf).elim

theorem admission_keepsId (request : SynthesisRequest) : KeepsId id s (admission cfg s id request) := by
  unfold admission
  split
  · exact sendError_keepsId rfl _
  split
  · exact sendError_keepsId rfl _
  · refine push_keepsId rfl fun f hf => ?_
    rw [List.mem_singleton.mp hf]
    rfl

theorem handleSynthesize_keepsId (hid : id ≠ 0) (parsed : Parsed) : KeepsId id s (handleSynthesize cfg s id parsed) := by
  unfold handleSynthesize
  split
  · exact sendError_keepsId rfl _
  cases parsed with
  | raises => exact unwind_keepsId
  | refused e => exact sendError_keepsId rfl _
  | request request => exact admission_keepsId request

theorem handleCancel_keepsId (hid : id ≠ 0) : KeepsId id s (handleCancel s id) := by
  have hcancelled : ∀ f ∈ [Act.emitFinished id, .send (.cancelled id), .returned [id]].filterMap Act.frame?,
      f.requestId = id := by
    intro f hf
    rw [List.mem_singleton.mp hf]
    rfl
  unfold handleCancel
  rw [if_neg hid]
  split
  · split
    · exact sendError_keepsId (notifyAll_reader s) _
    · exact quiet_keepsId (notifyAll_reader s)
  · split
    · split
      · exact push_keepsId (notifyAll_reader _) hcancelled
      · exact quiet_keepsId (notifyAll_reader _)
    · simp only
      split
      · exact quiet_keepsId (notifyAll_reader _)
      · exact push_keepsId (notifyAll_reader _) hcancelled

/-- The id under which `_handle_frame` replies. -/
def Command.requestId : Command → Option RequestId
  | .refused id _ | .hello id | .ping id _ | .synthesize id _ | .cancel id | .shutdown id _ => some id
  | .raises => none

theorem handleFrame_keepsId {c : Command} (hid : id ≠ 0) (hc : c.requestId = some id ∨ c.requestId = none) :
    KeepsId id s (handleFrame cfg s c) := by
  have hready : ∀ s' : St, KeepsId id s s' → KeepsId id s (if !s.readySent then sendError s id notReady else s') := by
    intro s' h
    split
    · exact sendError_keepsId rfl _
    · exact h
  cases c with
  | refused i e =>
    obtain rfl : i = id := by simpa [Command.requestId] using hc
    exact sendError_keepsId rfl e
  | raises => exact unwind_keepsId
  | hello i =>
    obtain rfl : i = id := by simpa [Command.requestId] using hc
    show KeepsId i s (handleHello cfg s i)
    rw [handleHello, if_pos (.inl hid)]
    exact sendError_keepsId rfl _
  | ping i sequence =>
    obtain rfl : i = id := by simpa [Command.requestId] using hc
    show KeepsId i s (handlePing s i sequence)
    rw [handlePing, if_pos hid]
    exact sendError_keepsId rfl _
  | synthesize i parsed =>
    obtain rfl : i = id := by simpa [Command.requestId] using hc
    exact hready _ (handleSynthesize_keepsId hid parsed)
  | cancel i =>
    obtain rfl : i = id := by simpa [Command.requestId] using hc
    exact hready _ (handleCancel_keepsId hid)
  | shutdown i mode =>
    obtain rfl : i = id := by simpa [Command.requestId] using hc
    show KeepsId i s (handleShutdown s i mode)
    rw [handleShutdown, if_pos hid]
    exact sendError_keepsId rfl _

/-- `decode_control_payload` refuses nothing that it is given. -/
def Readable (py : Interpreter) (f : PyFrame) : Prop :=
  isControl f = true → ∀ code text, decodeControlPayload py f.payload ≠ .error (.controlMessageError code text)

theorem command_requestId {py : Interpreter} {validate : Validate} {f : PyFrame} (h : Readable py f) :
    (command py validate f).requestId = some (frameId f) ∨ (command py validate f).requestId = none := by
  unfold command
  split
  · exact .inl rfl
  · rename_i hcontrol
    split
    · rename_i code text hdecode
      exact absurd hdecode (h (by simpa using hcontrol) code text)
    · exact .inr rfl
    · refine .inl ?_
      unfold dispatch
      repeat' split
      all_goals rfl

/-- An answer under the frame's id, exactly to a frame that is readable. -/
theorem handleFrame_keepsId_iff (py : Interpreter) (validate : Validate) (cfg : Config) (s : St) {f : PyFrame}
    (hid : frameId f ≠ 0) : KeepsId (frameId f) s (handleFrame cfg s (command py validate f)) ↔ Readable py f := by
  constructor
  · intro h hcontrol code text hdecode
    have hcommand : command py validate f = .refused 0 (.lit "protocol_error" code text) := by
      simp [command, hcontrol, hdecode]
    rw [hcommand] at h
    have hreplies : replies s (push s [.send (.error 0 (.lit "protocol_error" code text))]) =
        [Act.send (.error 0 (.lit "protocol_error" code text))].filterMap Act.frame? := replies_of_reader rfl
    have hreply := h (.error 0 (.lit "protocol_error" code text)) (by
      show _ ∈ replies s (push s [.send (.error 0 (.lit "protocol_error" code text))])
      rw [hreplies]
      exact List.mem_singleton_self _)
    exact hid hreply.symm
  · exact fun h => handleFrame_keepsId hid (command_requestId h)

end KeepsId

end QwenTtsBridge.Worker.PyServer
