/-
  QwenTtsBridge.Lib.Binary64 — IEEE 754 binary64 values, exactly.

  A finite value is a sign and a magnitude `mantissa * 2 ^ exponent`, in the one form
  that a 64-bit word stores it in (`Canonical`).
  - `ofRatio` and `ofDecimal` round to nearest, ties to even, with overflow to infinity.
    The magnitude is counted in units of the least subnormal, so the rounding is on
    natural numbers (`round_bounds`).
  - `shortestDecimal` is the decimal that shortest round-trip printing writes.
-/

import Mathlib.Data.Nat.Log
import Mathlib.Data.Nat.Digits.Defs

namespace QwenTtsBridge.Lib

namespace Binary64

/-- Normal values have the top mantissa bit set; below that the exponent is the least one. -/
def Canonical (mantissa : Nat) (exponent : Int) : Prop :=
  mantissa < 2 ^ 53 ∧ -1074 ≤ exponent ∧ exponent ≤ 971 ∧ (2 ^ 52 ≤ mantissa ∨ exponent = -1074)

instance (m : Nat) (e : Int) : Decidable (Canonical m e) := by unfold Canonical; infer_instance

structure Finite where
  negative : Bool
  mantissa : Nat
  exponent : Int
  canonical : Canonical mantissa exponent
  deriving DecidableEq, Repr

end Binary64

inductive Binary64 where
  | nan
  | infinity (negative : Bool)
  | finite (x : Binary64.Finite)
  deriving DecidableEq, Repr

namespace Binary64

/-! ## Rounding -/

/-- `n / d`, to the nearest integer, ties to even. -/
def roundDiv (n d : Nat) : Nat :=
  if 2 * (n % d) < d ∨ (2 * (n % d) = d ∧ n / d % 2 = 0) then n / d else n / d + 1

theorem roundDiv_bounds (n d : Nat) : n / d ≤ roundDiv n d ∧ roundDiv n d ≤ n / d + 1 := by
  unfold roundDiv
  split_ifs <;> omega

/-- The bits to drop from `n / d` units to leave a mantissa. -/
def excessBits (n d : Nat) : Nat := Nat.log2 (n / d) - 52

theorem round_bounds (n d : Nat) :
    roundDiv n (d * 2 ^ excessBits n d) ≤ 2 ^ 53 ∧
      (excessBits n d = 0 ∨ 2 ^ 52 ≤ roundDiv n (d * 2 ^ excessBits n d)) := by
  have hr := roundDiv_bounds n (d * 2 ^ excessBits n d)
  rw [← Nat.div_div_eq_div_mul] at hr
  have hbits : Nat.log2 (n / d) ≤ 52 + excessBits n d := by unfold excessBits; omega
  have hlt : n / d / 2 ^ excessBits n d < 2 ^ 53 := by
    rw [Nat.div_lt_iff_lt_mul (Nat.two_pow_pos _), ← Nat.pow_add]
    calc n / d < 2 ^ (Nat.log2 (n / d) + 1) := Nat.lt_log2_self
      _ ≤ 2 ^ (53 + excessBits n d) := Nat.pow_le_pow_right (by decide) (by omega)
  refine ⟨by omega, ?_⟩
  by_cases hz : excessBits n d = 0
  · exact .inl hz
  · have hlog : Nat.log2 (n / d) = 52 + excessBits n d := by unfold excessBits at hz ⊢; omega
    have hne : n / d ≠ 0 := by
      intro h0
      have hzero : Nat.log2 0 = 0 := by decide
      rw [h0] at hlog
      omega
    have hge : 2 ^ 52 ≤ n / d / 2 ^ excessBits n d := by
      rw [Nat.le_div_iff_mul_le (Nat.two_pow_pos _), ← Nat.pow_add, ← hlog]
      exact Nat.log2_self_le hne
    exact .inr (by omega)

/-- A rounded magnitude of `m * 2 ^ k` units of `2 ^ -1074`; a carry out of the mantissa moves
    the exponent. -/
def pack (negative : Bool) (m k : Nat) (h : m ≤ 2 ^ 53 ∧ (k = 0 ∨ 2 ^ 52 ≤ m)) : Binary64 :=
  if hm : m < 2 ^ 53 then
    if hk : k ≤ 2045 then
      .finite ⟨negative, m, k - 1074, hm, by omega, by omega, by omega⟩
    else .infinity negative
  else if hk : k + 1 ≤ 2045 then
    .finite ⟨negative, 2 ^ 52, (k + 1 : Nat) - 1074, by decide, by omega, by omega, .inl (Nat.le_refl _)⟩
  else .infinity negative

/-- The value nearest to `n / d`, for `0 < d`. -/
def ofRatio (negative : Bool) (n d : Nat) : Binary64 :=
  pack negative (roundDiv (n * 2 ^ 1074) (d * 2 ^ excessBits (n * 2 ^ 1074) d)) (excessBits (n * 2 ^ 1074) d)
    (round_bounds _ d)

def ofInt (n : Int) : Binary64 := ofRatio (n < 0) n.natAbs 1

/-- The value nearest to `digits * 10 ^ exponent`. The two bounds keep the powers of ten small:
    past them the value is an infinity, or rounds to zero. -/
def ofDecimal (negative : Bool) (digits : Nat) (exponent : Int) : Binary64 :=
  let magnitude := (Nat.log 10 digits + 1 : Int) + exponent
  if digits = 0 ∨ magnitude ≤ -325 then ofRatio negative 0 1
  else if 310 ≤ magnitude then .infinity negative
  else ofRatio negative (digits * 10 ^ exponent.toNat) (10 ^ (-exponent).toNat)

/-! ## Exact values -/

namespace Finite

/-- The magnitude is `numerator / denominator`. -/
def numerator (x : Finite) : Nat := x.mantissa * 2 ^ x.exponent.toNat

def denominator (x : Finite) : Nat := 2 ^ (-x.exponent).toNat

/-- Rounded toward zero. -/
def toInt (x : Finite) : Int :=
  let n : Int := x.numerator / x.denominator
  if x.negative then -n else n

/-- `x < n` and `x ≤ n`, for an integer `n`. -/
def ltInt (x : Finite) (n : Int) : Bool := (if x.negative then -(x.numerator : Int) else x.numerator) < n * x.denominator

def leInt (x : Finite) (n : Int) : Bool := (if x.negative then -(x.numerator : Int) else x.numerator) ≤ n * x.denominator

end Finite

/-- The product of two values, rounded once. -/
def Finite.mul (x y : Finite) : Binary64 :=
  ofRatio (x.negative != y.negative) (x.numerator * y.numerator) (x.denominator * y.denominator)

def Finite.times (x : Finite) : Binary64 → Binary64
  | .finite y => x.mul y
  | .infinity negative => if x.mantissa = 0 then .nan else .infinity (x.negative != negative)
  | .nan => .nan

/-- The product with a natural number, which is made a value first. -/
def Finite.timesNat (x : Finite) (n : Nat) : Binary64 := x.times (ofInt n)

theorem pack_finite {negative : Bool} {m k : Nat} {h : m ≤ 2 ^ 53 ∧ (k = 0 ∨ 2 ^ 52 ≤ m)} {x : Finite}
    (hx : pack negative m k h = .finite x) :
    x.negative = negative ∧ (k : Int) - 1074 ≤ x.exponent ∧ (0 < k → 2 ^ 52 ≤ x.mantissa) := by
  unfold pack at hx
  split at hx
  · split at hx
    · cases hx
      exact ⟨rfl, Int.le_refl _, fun hk => h.2.resolve_left (by omega)⟩
    · cases hx
  · split at hx
    · cases hx
      refine ⟨rfl, ?_, fun _ => Nat.le_refl _⟩
      show (k : Int) - 1074 ≤ ((k + 1 : Nat) : Int) - 1074
      omega
    · cases hx

theorem negative_of_ofRatio {negative : Bool} {n d : Nat} {x : Finite} (h : ofRatio negative n d = .finite x) :
    x.negative = negative :=
  (pack_finite (h := round_bounds _ d) h).1

theorem Finite.toInt_nonneg {x : Finite} (h : x.negative = false) : 0 ≤ x.toInt := by
  unfold toInt
  rw [h]
  exact Int.natCast_nonneg (x.numerator / x.denominator)

theorem Finite.mul_nonneg {x y z : Finite} (hx : x.negative = false) (hy : y.negative = false)
    (h : x.mul y = .finite z) : z.negative = false := by
  unfold mul at h
  rw [negative_of_ofRatio h, hx, hy]
  rfl

theorem ofNat_nonneg {n : Nat} {x : Finite} (h : ofInt n = .finite x) : x.negative = false := by
  unfold ofInt at h
  rw [negative_of_ofRatio h, decide_eq_false_iff_not, Int.not_lt]
  exact Int.natCast_nonneg n

theorem Finite.times_nonneg {x y : Finite} {factor : Binary64} (hx : x.negative = false)
    (hfactor : ∀ z, factor = .finite z → z.negative = false) (h : x.times factor = .finite y) : 0 ≤ y.toInt := by
  cases factor with
  | finite z => exact toInt_nonneg (mul_nonneg hx (hfactor z rfl) h)
  | nan => cases h
  | infinity negative =>
    dsimp only [times] at h
    split at h <;> cases h

theorem Finite.timesNat_nonneg {x y : Finite} {n : Nat} (hx : x.negative = false) (h : x.timesNat n = .finite y) :
    0 ≤ y.toInt :=
  times_nonneg hx (fun _ hz => ofNat_nonneg hz) h

/-- The bits that go with an integer of at least 65 bits. -/
theorem excessBits_large {n : Nat} (hn : 2 ^ 64 ≤ n) (k : Nat) : 12 + k ≤ excessBits (n * 2 ^ k) 1 := by
  have hne : n * 2 ^ k ≠ 0 := Nat.mul_ne_zero (by omega) (Nat.two_pow_pos k).ne'
  have hle : 2 ^ (64 + k) ≤ n * 2 ^ k := by
    rw [Nat.pow_add]
    exact Nat.mul_le_mul_right _ hn
  have hlog : 64 + k ≤ Nat.log2 (n * 2 ^ k / 1) := by
    rw [Nat.div_one, Nat.le_log2 hne]
    exact hle
  unfold excessBits
  omega

/-- An integer that is negative, or past any bound of a few units, is so when rounded. -/
theorem ofInt_outside {n : Int} {x : Finite} (hn : n < 0 ∨ 2 ^ 64 ≤ n) (hx : ofInt n = .finite x) :
    (x.leInt 0 = true ∧ x.ltInt 1 = true) ∨ (x.leInt 1 = false ∧ x.leInt 2 = false) := by
  obtain ⟨hsign, hexponent, hmantissa⟩ := pack_finite (h := round_bounds _ 1) hx
  have hdenominator : 0 < x.denominator := Nat.two_pow_pos _
  rcases hn with hn | hn
  · have hnegative : x.negative = true := hsign.trans (decide_eq_true hn)
    refine .inl ⟨?_, ?_⟩
    · simp only [Finite.leInt, hnegative, if_true, decide_eq_true_eq]
      omega
    · simp only [Finite.ltInt, hnegative, if_true, decide_eq_true_eq]
      omega
  · have hpositive : x.negative = false := hsign.trans (decide_eq_false (by omega))
    have hexcess := excessBits_large (n := n.natAbs) (by omega) 1074
    have hone : x.denominator = 1 := by
      have hzero : (-x.exponent).toNat = 0 := by omega
      rw [Finite.denominator, hzero, Nat.pow_zero]
    have hmagnitude : 2 ^ 52 ≤ x.numerator :=
      (hmantissa (by omega)).trans (Nat.le_mul_of_pos_right _ (Nat.two_pow_pos _))
    refine .inr ⟨?_, ?_⟩
    · simp only [Finite.leInt, hpositive, hone, Bool.false_eq_true, if_false, decide_eq_false_iff_not]
      omega
    · simp only [Finite.leInt, hpositive, hone, Bool.false_eq_true, if_false, decide_eq_false_iff_not]
      omega

/-! ## Shortest round trip -/

/-- The `p` with `10 ^ (p - 1) ≤ n / d < 10 ^ p`, for a positive ratio. -/
def decimalPoint (n d : Nat) : Int :=
  if d ≤ n then Nat.log 10 (n / d) + 1 else -(Nat.log 10 ((d - 1) / n))

/-- Of the two decimals of `count` digits around a positive `x`, the nearest one that reads
    back as `x`, as digits and exponent. -/
def roundTripWith (x : Finite) (count : Nat) : Option (Nat × Int) :=
  let exponent := decimalPoint x.numerator x.denominator - count
  let n := x.numerator * 10 ^ (-exponent).toNat
  let d := x.denominator * 10 ^ exponent.toNat
  let reads := fun digits => ofDecimal x.negative digits exponent = .finite x
  let nearest := roundDiv n d
  let other := if nearest = n / d then nearest + 1 else n / d
  if reads nearest then some (nearest, exponent)
  else if reads other then some (other, exponent)
  else none

/-- Drop the trailing zeros of positive digits; `fuel` bounds their number. -/
def stripZeros : Nat → Nat × Int → Nat × Int
  | 0, x => x
  | fuel + 1, (digits, exponent) =>
    if digits % 10 = 0 then stripZeros fuel (digits / 10, exponent + 1) else (digits, exponent)

/-- The least number of digits that reads back as `x`; seventeen always do. -/
def shortestDecimal (x : Finite) : Nat × Int :=
  if x.mantissa = 0 then (0, 0)
  else
    match (List.range 17).findSome? fun i => roundTripWith x (i + 1) with
    | some decimal => stripZeros 17 decimal
    | none => (0, 0)

end Binary64

end QwenTtsBridge.Lib
