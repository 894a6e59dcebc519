/-
  QwenTtsBridge.Lib.Binary64Bounds — products, quotients and their magnitudes.

  `AtMost c`: the magnitude is at most `c`. A rounded ratio is at most twice the ratio and,
  from one on, at least half of it; that is enough to see that a product or a quotient of
  bounded values is finite, and to bound what `lround` makes of it.
-/

import QwenTtsBridge.Lib.Binary64

namespace QwenTtsBridge.Lib.Binary64

/-! ## Operations -/

/-- The quotient of two values, rounded once, for a divisor that is not zero. -/
def Finite.div (x y : Finite) : Binary64 :=
  ofRatio (x.negative != y.negative) (x.numerator * y.denominator) (x.denominator * y.numerator)

def div : Binary64 → Binary64 → Binary64
  | .finite x, .finite y =>
    if y.mantissa = 0 then if x.mantissa = 0 then .nan else .infinity (x.negative != y.negative) else x.div y
  | .finite x, .infinity negative => ofRatio (x.negative != negative) 0 1
  | .infinity negative, .finite y => .infinity (negative != y.negative)
  | _, _ => .nan

def mul : Binary64 → Binary64 → Binary64
  | .finite x, y => x.times y
  | .infinity negative, .finite y => if y.mantissa = 0 then .nan else .infinity (negative != y.negative)
  | .infinity negative, .infinity negative' => .infinity (negative != negative')
  | _, _ => .nan

/-- To the nearest integer, halves away from zero. -/
def Finite.lround (x : Finite) : Int :=
  let n : Int := (2 * x.numerator + x.denominator) / (2 * x.denominator)
  if x.negative then -n else n

/-! ## Bounds -/

def Finite.AtMost (c : Nat) (x : Finite) : Prop := x.numerator ≤ c * x.denominator

instance (c : Nat) (x : Finite) : Decidable (x.AtMost c) := inferInstanceAs (Decidable (_ ≤ _))

theorem Finite.denominator_pos (x : Finite) : 0 < x.denominator := Nat.two_pow_pos _

theorem mul_roundDiv_le {n d : Nat} (hd : 0 < d) : roundDiv n d * d ≤ 2 * n := by
  have hsplit := Nat.div_add_mod n d
  have hmod := Nat.mod_lt n hd
  unfold roundDiv
  split
  · rw [Nat.mul_comm]
    omega
  · rename_i hup
    rw [Nat.add_mul, Nat.mul_comm (n / d), Nat.one_mul]
    -- Rounded up: the remainder is at least half.
    have hhalf : d ≤ 2 * (n % d) := by omega
    omega

theorem le_mul_roundDiv {n d : Nat} (hd : 0 < d) (h : d ≤ n) : n ≤ 2 * (roundDiv n d * d) := by
  have hsplit := Nat.div_add_mod n d
  have hmod := Nat.mod_lt n hd
  have hone : 1 ≤ n / d := (Nat.one_le_div_iff hd).mpr h
  have hdown : n / d * d ≤ roundDiv n d * d := Nat.mul_le_mul_right d (roundDiv_bounds n d).1
  have hlarge : d ≤ n / d * d := Nat.le_mul_of_pos_left d hone
  rw [Nat.mul_comm d] at hsplit
  omega

/-- In units of the least subnormal. -/
theorem pack_magnitude {negative : Bool} {m k : Nat} {h : m ≤ 2 ^ 53 ∧ (k = 0 ∨ 2 ^ 52 ≤ m)} {x : Finite}
    (hx : pack negative m k h = .finite x) : x.numerator * 2 ^ 1074 = m * 2 ^ k * x.denominator := by
  have hshift (k : Nat) : 2 ^ ((k : Int) - 1074).toNat * 2 ^ 1074 = 2 ^ k * 2 ^ (-((k : Int) - 1074)).toNat := by
    rw [← Nat.pow_add, ← Nat.pow_add]
    congr 1
    omega
  unfold pack at hx
  split at hx
  · split at hx
    · cases hx
      unfold Finite.numerator Finite.denominator
      rw [Nat.mul_assoc, hshift, Nat.mul_assoc]
    · cases hx
  · split at hx
    · cases hx
      unfold Finite.numerator Finite.denominator
      rw [Nat.mul_assoc, hshift, ← Nat.mul_assoc, Nat.pow_succ 2 k]
      have hm : m = 2 ^ 53 := by omega
      rw [hm]
      congr 1
      rw [Nat.mul_comm (2 ^ k) 2, ← Nat.mul_assoc, ← Nat.pow_succ]
    · cases hx

section Ratio

variable {negative : Bool} {n d c : Nat} {x : Finite}

theorem ofRatio_le (hd : 0 < d) (hx : ofRatio negative n d = .finite x) :
    x.numerator * d ≤ 2 * n * x.denominator := by
  have hmagnitude := pack_magnitude (h := round_bounds (n * 2 ^ 1074) d) hx
  have hunit : 0 < 2 ^ 1074 := Nat.two_pow_pos 1074
  generalize excessBits (n * 2 ^ 1074) d = k at hmagnitude
  generalize 2 ^ 1074 = unit at hmagnitude hunit
  have hround := mul_roundDiv_le (n := n * unit) (Nat.mul_pos hd (Nat.two_pow_pos k))
  refine Nat.le_of_mul_le_mul_right ?_ hunit
  calc x.numerator * d * unit
      = roundDiv (n * unit) (d * 2 ^ k) * (d * 2 ^ k) * x.denominator := by
        rw [Nat.mul_right_comm, hmagnitude]
        ac_rfl
    _ ≤ 2 * (n * unit) * x.denominator := Nat.mul_le_mul_right _ hround
    _ = 2 * n * x.denominator * unit := by ac_rfl

theorem le_ofRatio (hd : 0 < d) (hn : d ≤ n) (hx : ofRatio negative n d = .finite x) :
    n * x.denominator ≤ 2 * (x.numerator * d) := by
  have hmagnitude := pack_magnitude (h := round_bounds (n * 2 ^ 1074) d) hx
  have hexcess : d * 2 ^ excessBits (n * 2 ^ 1074) d ≤ n * 2 ^ 1074 := by
    have hne : n * 2 ^ 1074 / d ≠ 0 :=
      (Nat.div_pos (hn.trans (Nat.le_mul_of_pos_right n (Nat.two_pow_pos 1074))) hd).ne'
    calc d * 2 ^ excessBits (n * 2 ^ 1074) d
        ≤ d * 2 ^ Nat.log2 (n * 2 ^ 1074 / d) :=
          Nat.mul_le_mul_left d (Nat.pow_le_pow_right (by decide) (Nat.sub_le _ _))
      _ ≤ d * (n * 2 ^ 1074 / d) := Nat.mul_le_mul_left d (Nat.log2_self_le hne)
      _ ≤ n * 2 ^ 1074 := Nat.mul_div_le _ d
  have hunit : 0 < 2 ^ 1074 := Nat.two_pow_pos 1074
  generalize excessBits (n * 2 ^ 1074) d = k at hmagnitude hexcess
  generalize 2 ^ 1074 = unit at hmagnitude hexcess hunit
  have hround := le_mul_roundDiv (Nat.mul_pos hd (Nat.two_pow_pos k)) hexcess
  refine Nat.le_of_mul_le_mul_right ?_ hunit
  calc n * x.denominator * unit
      = n * unit * x.denominator := Nat.mul_right_comm _ _ _
    _ ≤ 2 * (roundDiv (n * unit) (d * 2 ^ k) * (d * 2 ^ k)) * x.denominator := Nat.mul_le_mul_right _ hround
    _ = 2 * ((roundDiv (n * unit) (d * 2 ^ k) * 2 ^ k * x.denominator) * d) := by ac_rfl
    _ = 2 * (x.numerator * d) * unit := by
        rw [← hmagnitude]
        ac_rfl

/-- A ratio below `2 ^ 64` is far from the overflow. -/
theorem ofRatio_finite (h : n < d * 2 ^ 64) : ∃ x, ofRatio negative n d = .finite x := by
  have hlog : n * 2 ^ 1074 / d < 2 ^ (64 + 1074) := by
    refine Nat.div_lt_of_lt_mul ?_
    calc n * 2 ^ 1074 < d * 2 ^ 64 * 2 ^ 1074 := Nat.mul_lt_mul_of_pos_right h (Nat.two_pow_pos 1074)
      _ = d * 2 ^ (64 + 1074) := by rw [Nat.mul_assoc, ← Nat.pow_add]
  have hexcess : excessBits (n * 2 ^ 1074) d ≤ 1138 := by
    unfold excessBits
    by_cases hzero : n * 2 ^ 1074 / d = 0
    · rw [hzero]
      decide
    · have := (Nat.log2_lt hzero).mpr hlog
      omega
  unfold ofRatio pack
  split
  · rw [dif_pos (by omega)]
    exact ⟨_, rfl⟩
  · rw [dif_pos (by omega)]
    exact ⟨_, rfl⟩

theorem ofRatio_atMost (hd : 0 < d) (h : n ≤ c * d) (hc : c < 2 ^ 64) :
    ∃ x, ofRatio negative n d = .finite x ∧ x.AtMost (2 * c) := by
  have hsmall : n < d * 2 ^ 64 := by
    calc n ≤ c * d := h
      _ < 2 ^ 64 * d := Nat.mul_lt_mul_of_pos_right hc hd
      _ = d * 2 ^ 64 := Nat.mul_comm _ _
  obtain ⟨x, hx⟩ : ∃ x, ofRatio negative n d = .finite x := ofRatio_finite hsmall
  refine ⟨x, hx, ?_⟩
  unfold Finite.AtMost
  refine Nat.le_of_mul_le_mul_right ?_ hd
  calc x.numerator * d ≤ 2 * n * x.denominator := ofRatio_le hd hx
    _ ≤ 2 * (c * d) * x.denominator := Nat.mul_le_mul_right _ (Nat.mul_le_mul_left 2 h)
    _ = 2 * c * x.denominator * d := by ac_rfl

end Ratio

theorem ofInt_atMost {n : Int} (h : n.natAbs < 2 ^ 64) : ∃ x, ofInt n = .finite x ∧ x.AtMost (2 * n.natAbs) :=
  ofRatio_atMost Nat.one_pos (Nat.mul_one _).ge h

namespace Finite

variable {x y : Finite} {a b c : Nat}

theorem mul_atMost (hx : x.AtMost a) (hy : y.AtMost b) (h : a * b < 2 ^ 64) :
    ∃ z, x.mul y = .finite z ∧ z.AtMost (2 * (a * b)) := by
  refine ofRatio_atMost (Nat.mul_pos x.denominator_pos y.denominator_pos) ?_ h
  calc x.numerator * y.numerator ≤ a * x.denominator * (b * y.denominator) := Nat.mul_le_mul hx hy
    _ = a * b * (x.denominator * y.denominator) := by ac_rfl

theorem div_atMost (hy : 0 < y.numerator) (hle : x.numerator * y.denominator ≤ c * (x.denominator * y.numerator))
    (hc : c < 2 ^ 64) : ∃ z, x.div y = .finite z ∧ z.AtMost (2 * c) :=
  ofRatio_atMost (Nat.mul_pos x.denominator_pos hy) hle hc

theorem AtMost.mono (h : x.AtMost a) (hle : a ≤ b) : x.AtMost b := h.trans (Nat.mul_le_mul_right _ hle)

theorem natAbs_lround (h : x.AtMost c) : x.lround.natAbs ≤ c := by
  have hbound : (2 * x.numerator + x.denominator) / (2 * x.denominator) ≤ c := by
    refine Nat.le_of_lt_succ (Nat.div_lt_of_lt_mul ?_)
    have hpositive := x.denominator_pos
    calc 2 * x.numerator + x.denominator ≤ 2 * (c * x.denominator) + x.denominator :=
          Nat.add_le_add_right (Nat.mul_le_mul_left 2 h) _
      _ < 2 * (c * x.denominator) + 2 * x.denominator := by omega
      _ = 2 * x.denominator * (c + 1) := by
        rw [Nat.mul_succ, Nat.mul_assoc, Nat.mul_comm c]
  have hcast : ((2 * x.numerator + x.denominator : Int) / (2 * x.denominator)) =
      (((2 * x.numerator + x.denominator) / (2 * x.denominator) : Nat) : Int) := by push_cast; rfl
  unfold lround
  dsimp only
  rw [hcast]
  split
  · rw [Int.natAbs_neg, Int.natAbs_natCast]
    exact hbound
  · rw [Int.natAbs_natCast]
    exact hbound

end Finite

end QwenTtsBridge.Lib.Binary64
