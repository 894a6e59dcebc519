/-
  QwenTtsBridge.Lib.OutputStream — a file that is written through a stream.

  What each operation on the file does is up to `faults`: the operation with that number goes
  through, or only some of its bytes arrive and the stream has failed. A stream that has
  failed does nothing more, so one look at the end tells of every operation before it:
  `At contents position` says what a stream holds unless it has failed, and each operation
  has one rule for it.
-/

import Mathlib.Data.List.Basic

namespace QwenTtsBridge.Lib

structure OutputStream where
  contents : List UInt8 := []
  position : Nat := 0
  failed : Bool := false
  operations : Nat := 0
  deriving DecidableEq, Repr

/-- The bytes put over what stands at a position. -/
def overwrite (contents : List UInt8) (position : Nat) (bytes : List UInt8) : List UInt8 :=
  contents.take position ++ bytes ++ contents.drop (position + bytes.length)

theorem overwrite_end (contents bytes : List UInt8) : overwrite contents contents.length bytes = contents ++ bytes := by
  unfold overwrite
  rw [List.take_length, List.drop_eq_nil_of_le (Nat.le_add_right _ _), List.append_nil]

theorem overwrite_middle {before old bytes after : List UInt8} {position : Nat} (hbefore : before.length = position)
    (hsize : old.length = bytes.length) :
    overwrite (before ++ (old ++ after)) position bytes = before ++ (bytes ++ after) := by
  unfold overwrite
  rw [List.take_left' hbefore, ← hsize, ← List.drop_drop, List.drop_left' hbefore, List.drop_left, List.append_assoc]

namespace OutputStream

variable (faults : Nat → Option Nat) (s : OutputStream)

def write (bytes : List UInt8) : OutputStream :=
  if s.failed then s
  else
    match faults s.operations with
    | none => { s with
        contents := overwrite s.contents s.position bytes
        position := s.position + bytes.length
        operations := s.operations + 1 }
    | some arrived => { s with
        contents := overwrite s.contents s.position (bytes.take arrived)
        failed := true
        operations := s.operations + 1 }

/-- An operation that writes nothing. -/
def move (position : Nat) : OutputStream :=
  if s.failed then s
  else
    match faults s.operations with
    | none => { s with position := position, operations := s.operations + 1 }
    | some _ => { s with failed := true, operations := s.operations + 1 }

def seekp (position : Nat) : OutputStream := s.move faults position

def seekEnd : OutputStream := s.move faults s.contents.length

def flush : OutputStream := s.move faults s.position

def writeAll (pieces : List (List UInt8)) : OutputStream := pieces.foldl (fun s piece => s.write faults piece) s

/-! ## Rules -/

variable {faults s} {contents : List UInt8} {position : Nat}

/-- What the stream holds unless it has failed. -/
def At (contents : List UInt8) (position : Nat) (s : OutputStream) : Prop :=
  s.failed = false → s.contents = contents ∧ s.position = position

theorem At.write (h : s.At contents position) (bytes : List UInt8) :
    (s.write faults bytes).At (overwrite contents position bytes) (position + bytes.length) := by
  unfold OutputStream.write
  by_cases hfailed : s.failed = true
  · rw [if_pos hfailed]
    intro hnot
    rw [hfailed] at hnot
    cases hnot
  · rw [if_neg hfailed]
    obtain ⟨hcontents, hposition⟩ := h (Bool.not_eq_true _ ▸ hfailed)
    cases faults s.operations with
    | none => exact fun _ => ⟨by rw [hcontents, hposition], by rw [hposition]⟩
    | some arrived => exact nofun

theorem At.move (h : s.At contents position) (next : Nat) : (s.move faults next).At contents next := by
  unfold OutputStream.move
  by_cases hfailed : s.failed = true
  · rw [if_pos hfailed]
    intro hnot
    rw [hfailed] at hnot
    cases hnot
  · rw [if_neg hfailed]
    obtain ⟨hcontents, -⟩ := h (Bool.not_eq_true _ ▸ hfailed)
    cases faults s.operations with
    | none => exact fun _ => ⟨hcontents, rfl⟩
    | some _ => exact nofun

theorem At.seekp (h : s.At contents position) (next : Nat) : (s.seekp faults next).At contents next := h.move next

theorem good_of_move {next : Nat} : (s.move faults next).failed = false → s.failed = false := by
  unfold OutputStream.move
  by_cases hfailed : s.failed = true
  · rw [if_pos hfailed]
    exact id
  · exact fun _ => Bool.not_eq_true _ ▸ hfailed

theorem At.seekEnd (h : s.At contents position) : (s.seekEnd faults).At contents contents.length := by
  intro hgood
  have hbefore := h (good_of_move hgood)
  have hafter : (s.move faults s.contents.length).contents = contents ∧ _ := h.move _ hgood
  exact ⟨hafter.1, hafter.2.trans (congrArg List.length hbefore.1)⟩

theorem At.flush (h : s.At contents position) : (s.flush faults).At contents position := by
  intro hgood
  have hbefore := h (good_of_move hgood)
  have hafter : (s.move faults s.position).contents = contents ∧ _ := h.move _ hgood
  exact ⟨hafter.1, hafter.2.trans hbefore.2⟩

/-- Writes at the end add to it. -/
theorem At.append (h : s.At contents contents.length) (bytes : List UInt8) :
    (s.write faults bytes).At (contents ++ bytes) (contents ++ bytes).length := by
  have hafter : (s.write faults bytes).At _ _ := h.write bytes
  rwa [overwrite_end, ← List.length_append] at hafter

theorem At.writeAll (h : s.At contents contents.length) (pieces : List (List UInt8)) :
    (s.writeAll faults pieces).At (contents ++ pieces.flatten) (contents ++ pieces.flatten).length := by
  induction pieces generalizing s contents with
  | nil =>
    rw [List.flatten_nil, List.append_nil]
    exact h
  | cons piece pieces ih =>
    have hrest : ((s.write faults piece).writeAll faults pieces).At _ _ := ih (h.append piece)
    rwa [List.append_assoc] at hrest

/-! ### Without faults -/

theorem write_good (hfaults : ∀ n, faults n = none) (h : s.failed = false) (bytes : List UInt8) :
    (s.write faults bytes).failed = false := by
  unfold write
  rw [if_neg (by simp [h]), hfaults]
  exact h

theorem move_good (hfaults : ∀ n, faults n = none) (h : s.failed = false) (next : Nat) :
    (s.move faults next).failed = false := by
  unfold move
  rw [if_neg (by simp [h]), hfaults]
  exact h

end OutputStream

end QwenTtsBridge.Lib
