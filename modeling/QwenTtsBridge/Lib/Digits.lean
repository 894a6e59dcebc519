/-
  QwenTtsBridge.Lib.Digits — streams of digits of `k` bits as numbers.

  A list of digits, the least significant first, is the number `Nat.ofDigits (2 ^ k)` of it.
  Cutting the stream into digits of another width does not change that number, and the bits
  of the stream are the bits of the number (`testBit_ofDigits`).
-/

import Mathlib.Data.Nat.Digits.Defs

namespace QwenTtsBridge.Lib.Digits

/-- What is put above the low `k` bits is added. -/
theorem or_shiftLeft {a k : Nat} (h : a < 2 ^ k) (b : Nat) : a ||| b <<< k = a + 2 ^ k * b := by
  rw [Nat.or_comm, ← Nat.shiftLeft_add_eq_or_of_lt h, Nat.shiftLeft_eq, Nat.mul_comm, Nat.add_comm]

theorem testBit_ofDigits {k : Nat} {digits : List Nat} (hk : 0 < k) (h : ∀ d ∈ digits, d < 2 ^ k) (i : Nat) :
    (Nat.ofDigits (2 ^ k) digits).testBit i = (digits.getD (i / k) 0).testBit (i % k) := by
  induction digits generalizing i with
  | nil => simp [Nat.ofDigits]
  | cons d digits ih =>
    have hd : d < 2 ^ k := h d (List.mem_cons_self ..)
    have hrest := ih (fun x hx => h x (List.mem_cons_of_mem _ hx)) (i - k)
    rw [Nat.ofDigits_cons, Nat.add_comm, Nat.testBit_two_pow_mul_add _ hd]
    by_cases hi : i < k
    · rw [if_pos hi, Nat.div_eq_of_lt hi, Nat.mod_eq_of_lt hi]
      rfl
    · have hle : k ≤ i := Nat.not_lt.mp hi
      rw [if_neg hi, hrest, Nat.div_eq_sub_div hk hle, List.getD_cons_succ, Nat.mod_eq_sub_mod hle]

end QwenTtsBridge.Lib.Digits
