/-
  QwenTtsBridge.Lib.LittleEndian — fixed-width little-endian naturals in byte lists.

  `writeLe n v` is the `n` low bytes of `v`, least significant first; `readLe n bs` is
  the number the first `n` bytes of `bs` denote. Reading what was written gives the
  value back modulo the width (`readLe_writeLe`), and a read looks at no byte past its
  width (`readLe_append`).
-/

import Mathlib.Algebra.Ring.Nat
import Mathlib.Data.List.Basic

namespace QwenTtsBridge.Lib.LittleEndian

def writeLe : Nat → Nat → List UInt8
  | 0, _ => []
  | n + 1, v => UInt8.ofNat v :: writeLe n (v / 256)

def readLe : Nat → List UInt8 → Nat
  | 0, _ => 0
  | _ + 1, [] => 0
  | n + 1, b :: bs => b.toNat + 256 * readLe n bs

@[simp] theorem writeLe_length (n v : Nat) : (writeLe n v).length = n := by
  induction n generalizing v with
  | zero => rfl
  | succ n ih => simp [writeLe, ih]

theorem readLe_lt (n : Nat) (bs : List UInt8) : readLe n bs < 256 ^ n := by
  induction n generalizing bs with
  | zero => simp [readLe]
  | succ n ih =>
    cases bs with
    | nil => exact Nat.pow_pos (by decide)
    | cons b bs =>
      have hb := b.toNat_lt
      have := ih bs
      simp only [readLe, Nat.pow_succ]
      omega

/-- Reading back what was written, whatever follows it. -/
theorem readLe_writeLe (n v : Nat) (rest : List UInt8) : readLe n (writeLe n v ++ rest) = v % 256 ^ n := by
  induction n generalizing v with
  | zero => simp [readLe, Nat.mod_one]
  | succ n ih =>
    simp only [writeLe, List.cons_append, readLe, ih]
    rw [Nat.pow_succ, Nat.mul_comm (256 ^ n) 256, Nat.mod_mul]
    simp

theorem readLe_writeLe_of_lt {n v : Nat} (h : v < 256 ^ n) (rest : List UInt8) :
    readLe n (writeLe n v ++ rest) = v := by
  rw [readLe_writeLe, Nat.mod_eq_of_lt h]

theorem readLe_append {n : Nat} {bs : List UInt8} (h : n ≤ bs.length) (rest : List UInt8) :
    readLe n (bs ++ rest) = readLe n bs := by
  induction n generalizing bs with
  | zero => rfl
  | succ n ih =>
    cases bs with
    | nil => simp at h
    | cons b bs => simp [readLe, ih (Nat.le_of_succ_le_succ h)]

end QwenTtsBridge.Lib.LittleEndian
