/-
  QwenTtsBridge.Interop.ErrorScope — the id under which a worker answers a frame, and what the
  client does with an error of that id.

  The client fails every request on an error of id zero, and the one request on any other
  (`spares_iff`). The native worker answers a frame under the frame's id, always. The
  Python worker does so unless `decode_control_payload` refuses the payload: that answer
  goes out under id zero, whichever request the frame was for.
-/

import QwenTtsBridge.Client.Client
import QwenTtsBridge.Worker.NativeFrame
import QwenTtsBridge.Worker.PyReplies

namespace QwenTtsBridge.Interop

open QwenTtsBridge.Lib QwenTtsBridge.Python QwenTtsBridge.Worker
open QwenTtsBridge.Protocol.Framing (Frame PyFrame)

/-! ## The client -/

section Client

open QwenTtsBridge.Client QwenTtsBridge.Session QwenTtsBridge.Protocol.Control

/-- A call of `on_error` of this request. -/
def isErrorOf (id : RequestId) : Client.Act → Bool
  | .invoke (.onError i _) => i == id
  | _ => false

/-- From `c` to `c'` the client has done nothing to other requests than `id`: they are active
    as before, and nothing is left to do but to call `on_error` of `id`. -/
structure Spares (id : RequestId) (th : Client.Thread) (c c' : Client.St) : Prop where
  active : ∀ i, i ≠ id → c'.find? i = c.find? i
  acts : ∃ acts, c'.stack th = acts ++ c.stack th ∧ ∀ a ∈ acts, isErrorOf id a = true

theorem find?_erase {c : Client.St} {id i : RequestId} (h : i ≠ id) : (c.erase id).find? i = c.find? i := by
  have hfilter : (c.active.filter (·.1 != id)).find? (·.1 == i) = c.active.find? (·.1 == i) := by
    rw [List.find?_filter]
    congr 1
    funext p
    by_cases hp : p.1 = i
    · simp [hp, h]
    · simp [hp]
  show ((c.active.filter (·.1 != id)).find? (·.1 == i)).map (·.2) = _
  rw [hfilter]
  rfl

theorem stack_push (c : Client.St) (th : Client.Thread) (acts : List Client.Act) :
    (Client.push c th acts).stack th = acts ++ c.stack th := by
  cases th <;> rfl

theorem find?_push (c : Client.St) (th : Client.Thread) (acts : List Client.Act) (i : RequestId) :
    (Client.push c th acts).find? i = c.find? i := by
  cases th <;> rfl

theorem failRequest_spares (c : Client.St) (th : Client.Thread) (id : RequestId) (error : TtsError) :
    Spares id th c (failRequest c th id error) := by
  unfold failRequest terminate
  split
  · exact ⟨fun _ _ => rfl, [], by cases th <;> rfl, fun _ ha => (List.not_mem_nil ha).elim⟩
  · rename_i request _
    refine ⟨fun i hi => ?_, invocations [(request.callbacks.onError, .onError id error)], ?_, fun a ha => ?_⟩
    · rw [find?_push]
      exact find?_erase hi
    · rw [stack_push]
      cases th <;> rfl
    · obtain ⟨call, hcall, rfl⟩ := List.mem_map.mp ha
      rw [List.mem_singleton.mp (List.mem_of_mem_filter hcall)]
      exact beq_self_eq_true id

/-- An error of the worker spares every other request exactly when it names one. -/
theorem spares_iff {c c' : Client.St} {th : Client.Thread} {rest : List Client.Act}
    {order : List (RequestId × TtsCallbacks)} {id : RequestId} {e : ErrorMessage}
    (h : Client.runAct c th rest order (.handleEvent (.workerError id e)) = some c') :
    Spares id th c c' ↔ id ≠ 0 := by
  simp only [Client.runAct] at h
  by_cases hid : id = 0
  · rw [if_pos hid] at h
    refine iff_of_false (fun hspares => ?_) (not_not.mpr hid)
    obtain ⟨acts, hstack, hacts⟩ := hspares.acts
    rw [← Option.some.inj h, stack_push] at hstack
    have hmem : Client.Act.failAllRequests ⟨id, e.category, e.code, e.message⟩ ∈ acts := by
      rw [← List.append_cancel_right hstack]
      exact List.mem_singleton_self _
    have hcall := hacts _ hmem
    cases hcall
  · rw [if_neg hid] at h
    rw [← Option.some.inj h]
    exact iff_of_true (failRequest_spares ..) hid

end Client

/-! ## The workers -/

/-- What the client sees of a frame: its id, and whether it is an `error_json`. -/
structure Reply where
  requestId : Nat
  isError : Bool

def nativeReply : NativeServer.OutFrame → Reply
  | .error id _ => ⟨id, true⟩
  | f => ⟨f.requestId, false⟩

def pyReply : PyServer.OutFrame → Reply
  | .error id _ => ⟨id, true⟩
  | f => ⟨f.requestId, false⟩

/-- The replies stay with the request: each has its id, and no error among them has an effect
    on another request of the client. -/
structure Stays (id : Nat) (replies : List Reply) : Prop where
  ids : ∀ r ∈ replies, r.requestId = id
  errors : ∀ r ∈ replies, r.isError = true → ∀ e c th rest order c',
    Client.runAct c th rest order (.handleEvent (.workerError (UInt64.ofNat r.requestId) e)) = some c' →
      Spares (UInt64.ofNat id) th c c'

theorem stays_of_ids {id : Nat} {replies : List Reply} (hid : id ≠ 0) (hlt : id < 2 ^ 64)
    (h : ∀ r ∈ replies, r.requestId = id) : Stays id replies := by
  refine ⟨h, fun r hr _ e c th rest order c' hrun => ?_⟩
  rw [h r hr] at hrun
  refine (spares_iff hrun).mpr fun hzero => hid ?_
  have hnat := congrArg UInt64.toNat hzero
  rwa [UInt64.toNat_ofNat_of_lt' hlt] at hnat

theorem nativeReply_requestId (f : NativeServer.OutFrame) : (nativeReply f).requestId = f.requestId := by
  cases f <;> rfl

theorem pyReply_requestId (f : PyServer.OutFrame) : (pyReply f).requestId = f.requestId := by
  cases f <;> rfl

/-- The native worker's answers to a frame of a request stay with it; the Python worker's do
    exactly when its decoder does not refuse the payload. -/
theorem replies_stay_with_their_request_iff (lib : Protocol.Control.JsonLibrary) (nativeCfg : NativeServer.Config)
    (py : Interpreter) (validate : PyServer.Validate) (cfg : PyServer.Config) :
    (∀ s stale (frame : Frame), NativeServer.frameId frame ≠ 0 →
      Stays (NativeServer.frameId frame)
        ((NativeServer.replies s (NativeServer.handleFrame nativeCfg s stale (NativeServer.inputOf lib frame))).map
          nativeReply)) ∧
    ∀ s (f : PyFrame), PyServer.Delivered f → PyServer.frameId f ≠ 0 →
      (Stays (PyServer.frameId f)
        ((PyServer.replies s (PyServer.handleFrame cfg s (PyServer.command py validate f))).map pyReply) ↔
          PyServer.Readable py f) := by
  constructor
  · intro s stale frame hid
    refine stays_of_ids hid frame.header.requestId.toNat_lt fun r hr => ?_
    obtain ⟨out, hout, rfl⟩ := List.mem_map.mp hr
    rw [nativeReply_requestId]
    exact NativeServer.replies_keep_id lib nativeCfg s stale hid out hout
  · intro s f hdelivered hid
    rw [← PyServer.handleFrame_keepsId_iff py validate cfg s hid]
    constructor
    · intro h out hout
      rw [← pyReply_requestId]
      exact h.ids _ (List.mem_map_of_mem hout)
    · intro h
      refine stays_of_ids hid (PyServer.delivered_id hdelivered) fun r hr => ?_
      obtain ⟨out, hout, rfl⟩ := List.mem_map.mp hr
      rw [pyReply_requestId]
      exact h out hout

/-- A frame of request 7 whose payload breaks off. -/
def brokenRequest : PyFrame where
  header := { frameType := 1, requestId := 7, payloadSize := 1 }
  payload := [123]

def brokenReplies : List Reply :=
  (PyServer.replies PyServer.init (PyServer.handleFrame (PyServer.sampleConfig 4) PyServer.init
    (PyServer.command PyServer.sampleInterpreter (fun _ => none) brokenRequest))).map pyReply

theorem a_broken_request_is_answered_under_id_zero :
    PyServer.Delivered brokenRequest ∧ PyServer.frameId brokenRequest = 7 ∧ ¬ Stays 7 brokenReplies := by
  refine ⟨⟨{ buffer := Protocol.Framing.headerStructPack brokenRequest.header 1 ++ [123] }, by decide +kernel⟩, rfl, ?_⟩
  intro h
  have hids : brokenReplies.map (·.requestId) = [0] := by decide +kernel
  have hmem : 0 ∈ brokenReplies.map (·.requestId) := by
    rw [hids]
    exact List.mem_singleton_self 0
  obtain ⟨r, hr, hzero⟩ := List.mem_map.mp hmem
  rw [h.ids r hr] at hzero
  cases hzero

end QwenTtsBridge.Interop
