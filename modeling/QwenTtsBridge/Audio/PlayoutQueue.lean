/-
  QwenTtsBridge.Audio.PlayoutQueue — `make_playout_cursor_fade` on a well-formed queue
  (`audio/playout_cursor.cpp`).

  Of a stream without empty buffers, smaller than the largest vector (`Accepted`), the
  function gives the tail that begins in the upcoming buffer: `makePlayoutCursorFade_eq` is
  its result for every cursor.
-/

import QwenTtsBridge.Audio.PlayoutCursor

namespace QwenTtsBridge.Audio.PlayoutCursor

open QwenTtsBridge.Protocol.Control QwenTtsBridge.Lib

structure Accepted (format : AudioFormat) (buffers : List PlayoutBuffer) : Prop extends Stream format buffers where
  nonempty : ∀ buffer ∈ buffers, 0 < buffer.count (format.channels.toNat * 2)
  sized : (buffers.map (·.chunk.bytes.length)).sum < 2 ^ 63

variable {buffers : List PlayoutBuffer} {format : AudioFormat} {cursorFrame : UInt64} {fadeMs : UInt32}

theorem available_ne_nil (h : Accepted format buffers) {cursor : Nat} {buffer : PlayoutBuffer}
    (hupcoming : upcoming (format.channels.toNat * 2) cursor buffers = some buffer) :
    available (format.channels.toNat * 2) cursor buffers ≠ [] := by
  obtain ⟨rest, hahead⟩ := ahead_eq hupcoming
  have hcount := h.nonempty buffer (List.mem_of_find?_eq_some hupcoming)
  have hpassed : cursor < buffer.startFrame.toNat + buffer.count (format.channels.toNat * 2) := by
    simpa [PlayoutBuffer.isAhead] using List.find?_some hupcoming
  rw [available_ahead h.ordered, hupcoming, Option.map_some, Option.getD_some, hahead, remainingFrames]
  apply List.append_ne_nil_of_left_ne_nil
  apply List.ne_nil_of_length_pos
  rw [List.length_drop, PlayoutBuffer.frames, framesFrom_length]
  omega

/-- Something is selected, in whole frames. -/
theorem selected_ne_nil (h : Accepted format buffers) (hms : fadeMs ≠ 0) {buffer : PlayoutBuffer}
    (hupcoming : upcoming (format.channels.toNat * 2) cursorFrame.toNat buffers = some buffer) :
    selected buffers format cursorFrame fadeMs ≠ [] := by
  rw [Ne, selected_eq_nil_iff h.rate hms]
  exact available_ne_nil h hupcoming

/-- The first frame of the tail: that of the upcoming buffer at the cursor, or its first one. -/
theorem selected_head (h : Accepted format buffers) (hms : fadeMs ≠ 0) {buffer : PlayoutBuffer}
    (hupcoming : upcoming (format.channels.toNat * 2) cursorFrame.toNat buffers = some buffer) :
    (selected buffers format cursorFrame fadeMs).head? =
      some (buffer.startFrame.toNat + (cursorFrame.toNat - buffer.startFrame.toNat),
        (buffer.chunk.bytes.drop ((cursorFrame.toNat - buffer.startFrame.toNat) * (format.channels.toNat * 2))).take
          (format.channels.toNat * 2)) := by
  obtain ⟨rest, hahead⟩ := ahead_eq hupcoming
  have hcount := h.nonempty buffer (List.mem_of_find?_eq_some hupcoming)
  have hpassed : cursorFrame.toNat < buffer.startFrame.toNat + buffer.count (format.channels.toNat * 2) := by
    simpa [PlayoutBuffer.isAhead] using List.find?_some hupcoming
  obtain ⟨left, hleft⟩ : ∃ left, buffer.count (format.channels.toNat * 2) -
      (cursorFrame.toNat - buffer.startFrame.toNat) = left + 1 := ⟨_, (Nat.succ_pred_eq_of_pos (by omega)).symm⟩
  obtain ⟨more, hmore⟩ := Nat.exists_eq_add_one_of_ne_zero (fadeFrames_pos h.rate hms)
  rw [selected, available_ahead h.ordered, hupcoming, Option.map_some, Option.getD_some, hahead, remainingFrames,
    PlayoutBuffer.frames, framesFrom_drop, hleft, framesFrom, List.cons_append, hmore, List.take_succ_cons, List.head?_cons]

theorem frames_sized (n : Nat) (buffers : List PlayoutBuffer) :
    (buffers.flatMap (·.frames n)).length * n ≤ (buffers.map (·.chunk.bytes.length)).sum := by
  induction buffers with
  | nil => simp
  | cons buffer buffers ih =>
    have hcount := count_mul_le n buffer
    rw [List.flatMap_cons, List.length_append, PlayoutBuffer.frames, framesFrom_length, Nat.add_mul, List.map_cons,
      List.sum_cons]
    omega

theorem selected_sized (buffers : List PlayoutBuffer) (format : AudioFormat) (cursorFrame : UInt64) (fadeMs : UInt32) :
    (bytesOf (selected buffers format cursorFrame fadeMs)).length ≤ (buffers.map (·.chunk.bytes.length)).sum := by
  have hsub : (selected buffers format cursorFrame fadeMs).Sublist
      (buffers.flatMap (·.frames (format.channels.toNat * 2))) := (List.take_sublist _ _).trans List.filter_sublist
  calc (bytesOf (selected buffers format cursorFrame fadeMs)).length
      = (selected buffers format cursorFrame fadeMs).length * (format.channels.toNat * 2) := selected_length _ _ _ _
    _ ≤ (buffers.flatMap (·.frames (format.channels.toNat * 2))).length * (format.channels.toNat * 2) :=
      Nat.mul_le_mul_right _ hsub.length_le
    _ ≤ (buffers.map (·.chunk.bytes.length)).sum := frames_sized _ _

/-- The result for every cursor: the faded tail that begins in the upcoming buffer. -/
theorem makePlayoutCursorFade_eq (h : Accepted (formatOf buffers) buffers) (hms : fadeMs ≠ 0) :
    makePlayoutCursorFade buffers cursorFrame fadeMs =
      .ok ((upcoming ((formatOf buffers).channels.toNat * 2) cursorFrame.toNat buffers).map
        (fadedTail buffers cursorFrame fadeMs)) := by
  have hsized := selected_sized buffers (formatOf buffers) cursorFrame fadeMs
  have hfits := hsized.trans_lt h.sized
  rw [makePlayoutCursorFade_ok h.toStream hms hfits]
  cases hupcoming : upcoming ((formatOf buffers).channels.toNat * 2) cursorFrame.toNat buffers with
  | none => rw [Option.map_none, ite_self]
  | some first => rw [if_neg (selected_ne_nil h hms hupcoming)]

/-- The tail ends in silence. -/
theorem fadeOf_fadedTail (h : Accepted (formatOf buffers) buffers) (hms : fadeMs ≠ 0) {first : PlayoutBuffer}
    (hupcoming : upcoming ((formatOf buffers).channels.toNat * 2) cursorFrame.toNat buffers = some first) :
    FadeOf buffers cursorFrame fadeMs (fadedTail buffers cursorFrame fadeMs first) := by
  have hresult : makePlayoutCursorFade buffers cursorFrame fadeMs = .ok _ := makePlayoutCursorFade_eq h hms
  rw [hupcoming] at hresult
  exact ((makePlayoutCursorFade_ends buffers cursorFrame fadeMs).value hresult).2 _ rfl

end QwenTtsBridge.Audio.PlayoutCursor
