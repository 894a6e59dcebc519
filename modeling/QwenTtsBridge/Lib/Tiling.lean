/-
  QwenTtsBridge.Lib.Tiling — ranges that lie end to end.

  `Tiles first count lo l hi`: the ranges of `l`, each from `first` on and `count` long, lie
  end to end from `lo` to `hi`. One more range is added at the end (`tiles_snoc`). Ranges end
  to end are disjoint in order (`Tiles.pairwise`) and cover no position twice (`Tiles.unique`).
-/

import Mathlib.Algebra.Ring.Nat
import Mathlib.Data.List.Basic

namespace QwenTtsBridge.Lib

variable {α : Type*} {first count : α → Nat} {lo hi n : Nat} {l : List α}

def Tiles (first count : α → Nat) : Nat → List α → Nat → Prop
  | lo, [], hi => lo = hi
  | lo, x :: rest, hi => first x = lo ∧ Tiles first count (lo + count x) rest hi

theorem tiles_append {l' : List α} :
    Tiles first count lo (l ++ l') hi ↔ ∃ mid, Tiles first count lo l mid ∧ Tiles first count mid l' hi := by
  induction l generalizing lo with
  | nil => simp [Tiles]
  | cons x l ih => simp only [List.cons_append, Tiles, ih, exists_and_left, and_assoc]

theorem tiles_snoc {x : α} :
    Tiles first count lo (l ++ [x]) hi ↔ Tiles first count lo l (first x) ∧ hi = first x + count x := by
  rw [tiles_append]
  constructor
  · rintro ⟨mid, hl, rfl, rfl⟩
    exact ⟨hl, rfl⟩
  · rintro ⟨hl, rfl⟩
    exact ⟨first x, hl, rfl, rfl⟩

namespace Tiles

theorem sum (h : Tiles first count lo l hi) : hi = lo + (l.map count).sum := by
  induction l generalizing lo with
  | nil => exact h.symm
  | cons x l ih =>
    rw [ih h.2, List.map_cons, List.sum_cons]
    omega

theorem le (h : Tiles first count lo l hi) : lo ≤ hi := by
  rw [h.sum]
  omega

theorem bounds (h : Tiles first count lo l hi) {x : α} (hx : x ∈ l) : lo ≤ first x ∧ first x + count x ≤ hi := by
  induction l generalizing lo with
  | nil => cases hx
  | cons y l ih =>
    rcases List.mem_cons.mp hx with rfl | hx
    · have hle := h.2.le
      have hfirst := h.1
      omega
    · have := ih h.2 hx
      omega

theorem pairwise (h : Tiles first count lo l hi) : l.Pairwise fun x y => first x + count x ≤ first y := by
  induction l generalizing lo with
  | nil => exact .nil
  | cons x l ih =>
    refine .cons (fun y hy => ?_) (ih h.2)
    have hfirst := h.1
    have := (h.2.bounds hy).1
    omega

/-- No two ranges have a position in common. -/
theorem unique (h : Tiles first count lo l hi) {x y : α} (hx : x ∈ l) (hy : y ∈ l)
    (hnx : first x ≤ n ∧ n < first x + count x) (hny : first y ≤ n ∧ n < first y + count y) : x = y := by
  have hpairs := h.pairwise
  clear h
  induction l with
  | nil => cases hx
  | cons z l ih =>
    obtain ⟨hz, hpairs⟩ := List.pairwise_cons.mp hpairs
    rcases List.mem_cons.mp hx with rfl | hx'
    · rcases List.mem_cons.mp hy with rfl | hy'
      · rfl
      · have := hz y hy'
        omega
    · rcases List.mem_cons.mp hy with rfl | hy'
      · have := hz x hx'
        omega
      · exact ih hx' hy' hpairs

end Tiles

end QwenTtsBridge.Lib
