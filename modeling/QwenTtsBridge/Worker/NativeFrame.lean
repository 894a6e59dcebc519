/-
  QwenTtsBridge.Worker.NativeFrame — `handle_frame` of the native worker, from the frame that
  its parser delivers.

  `inputOf` is what the handler decodes, and `replies` the frames that it leaves to be
  handed to the writer, in order, before it reads on.

  Proved: a frame with an id that is not zero is answered under that id only
  (`replies_keep_id`).
-/

import QwenTtsBridge.Protocol.ControlCodec
import QwenTtsBridge.Protocol.Frame
import QwenTtsBridge.Worker.NativeServer

namespace QwenTtsBridge.Worker.NativeServer

open QwenTtsBridge.Protocol.Control QwenTtsBridge.Protocol.Framing

def frameId (frame : Frame) : RequestId := frame.header.requestId.toNat

/-- The checks of `handle_frame` before it looks at the session's state. -/
def inputOf (lib : JsonLibrary) (frame : Frame) : Input :=
  if frame.header.frameType ≠ FrameType.controlJson.value then .wrongType (frameId frame)
  else match decodeControlMessage lib frame.payload .clientToWorker with
    | .error e => .undecodable (frameId frame) (controlCodecErrorCode e.1) e.2
    | .ok m => .message (frameId frame) m

def Input.requestId : Input → RequestId
  | .wrongType id | .undecodable id _ _ | .message id _ => id

theorem inputOf_requestId (lib : JsonLibrary) (frame : Frame) : (inputOf lib frame).requestId = frameId frame := by
  unfold inputOf
  split
  · rfl
  · split <;> rfl

def OutFrame.requestId : OutFrame → RequestId
  | .control id _ | .audioPcm id _ | .error id _ => id

def Act.frame? : Act → Option OutFrame
  | .send f => some f
  | _ => none

/-- The frames among the acts that a handler put on top of the reader's stack. -/
def replies (s s' : St) : List OutFrame := (s'.reader.take (s'.reader.length - s.reader.length)).filterMap Act.frame?

/-- The handler put these acts on top of the stack, and the frames among them have this id. -/
def KeepsId (id : RequestId) (s s' : St) : Prop :=
  ∃ acts, s'.reader = acts ++ s.reader ∧ ∀ f ∈ acts.filterMap Act.frame?, f.requestId = id

theorem replies_of_reader {s s' : St} {acts : List Act} (h : s'.reader = acts ++ s.reader) :
    replies s s' = acts.filterMap Act.frame? := by
  have hlength : (acts ++ s.reader).length - s.reader.length = acts.length := by
    rw [List.length_append, Nat.add_sub_cancel]
  rw [replies, h, hlength, List.take_left]

section KeepsId

variable {cfg : Config} {s : St} {id : RequestId}

theorem sendError_keepsId (s : St) (id : RequestId) (e : ErrorMessage) : KeepsId id s (sendError s id e) := by
  refine ⟨[.send (.error id e)], rfl, fun f hf => ?_⟩
  rw [List.mem_singleton.mp hf]
  rfl

/-- Nothing is sent. -/
theorem quiet_keepsId {s' : St} (h : s'.reader = s.reader) : KeepsId id s s' :=
  ⟨[], h, fun _ hf => (List.not_mem_nil hf).elim⟩

theorem admission_keepsId (request : SynthesizeMessage) : KeepsId id s (admission cfg s id request) := by
  unfold admission
  split
  · exact sendError_keepsId ..
  split
  · exact sendError_keepsId ..
  split
  · exact sendError_keepsId ..
  · refine ⟨_, rfl, fun f hf => ?_⟩
    rw [List.mem_singleton.mp hf]
    rfl

theorem handleSynthesize_keepsId (hid : id ≠ 0) (request : SynthesizeMessage) :
    KeepsId id s (handleSynthesize cfg s id request) := by
  unfold handleSynthesize
  rw [if_neg hid]
  split
  · exact sendError_keepsId ..
  · exact admission_keepsId request

theorem handleCancel_keepsId (hid : id ≠ 0) (stale : Bool) : KeepsId id s (handleCancel s id stale) := by
  unfold handleCancel
  rw [if_neg hid]
  split
  · split
    · exact sendError_keepsId ..
    · exact quiet_keepsId rfl
  · simp only
    split
    · exact quiet_keepsId rfl
    · split
      · exact quiet_keepsId rfl
      · split
        · refine ⟨[.send (.control id .cancelled), .returned [id]], rfl, fun f hf => ?_⟩
          rw [List.mem_singleton.mp hf]
          rfl
        · exact ⟨[.returned [id]], rfl, fun _ hf => (List.not_mem_nil hf).elim⟩

/-- Before `ready` a message is refused, or is one that may come then. -/
theorem unless_keepsId {s' : St} (h : KeepsId id s s') (refused : Bool) (e : ErrorMessage) :
    KeepsId id s (if refused then sendError s id e else s') := by
  cases refused with
  | true => exact sendError_keepsId ..
  | false => exact h

theorem handleFrame_keepsId (stale : Bool) {input : Input} (hid : input.requestId ≠ 0) :
    KeepsId input.requestId s (handleFrame cfg s stale input) := by
  cases input with
  | wrongType id => exact sendError_keepsId ..
  | undecodable id code diagnostic => exact sendError_keepsId ..
  | message id m =>
    have hne : id ≠ 0 := hid
    cases m with
    | hello clientName clientVersion =>
      have hhello : KeepsId id s (handleHello cfg s id) := by
        rw [handleHello, if_pos (.inl hne)]
        exact sendError_keepsId ..
      exact unless_keepsId hhello _ _
    | synthesize request => exact unless_keepsId (handleSynthesize_keepsId hne request) _ _
    | cancel => exact unless_keepsId (handleCancel_keepsId hne stale) _ _
    | ping hasSequence sequence =>
      have hping : KeepsId id s (handlePing s id hasSequence sequence) := by
        rw [handlePing, if_pos hne]
        exact sendError_keepsId ..
      exact unless_keepsId hping _ _
    | shutdown mode =>
      have hshutdown : KeepsId id s (handleShutdown s id mode) := by
        rw [handleShutdown, if_pos (.inl hne)]
        exact sendError_keepsId ..
      exact unless_keepsId hshutdown _ _
    | ready | queued | started | completed | cancelled | pong | shutdownAck =>
      exact unless_keepsId (sendError_keepsId ..) _ _

end KeepsId

theorem replies_keep_id (lib : JsonLibrary) (cfg : Config) (s : St) (stale : Bool) {frame : Frame}
    (hid : frameId frame ≠ 0) :
    ∀ out ∈ replies s (handleFrame cfg s stale (inputOf lib frame)), out.requestId = frameId frame := by
  have hsame := inputOf_requestId lib frame
  have hne : (inputOf lib frame).requestId ≠ 0 := by
    rw [hsame]
    exact hid
  have hkeeps : KeepsId _ s (handleFrame cfg s stale (inputOf lib frame)) := handleFrame_keepsId stale hne
  obtain ⟨acts, hreader, hacts⟩ := hkeeps
  rw [replies_of_reader hreader, ← hsame]
  exact hacts

end QwenTtsBridge.Worker.NativeServer
