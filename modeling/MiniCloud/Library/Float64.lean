import Mathlib.Data.Rat.Floor

/-!
# Rounding to binary64

The result of a floating-point operation is the exact result rounded to the
nearest number with a significand of 53 bits, ties to the even one.  The function
covers results whose exponent is in range, as those of conversions, sums and
quotients of 64-bit integers are.
-/

namespace MiniCloud.Library

/-- The greatest `k` with `2 ^ k ≤ num / den`, for a positive quotient. -/
def floorLog2 (num den : Nat) : Int :=
  let guess : Int := (Nat.log2 num : Int) - Nat.log2 den
  let reached : Bool :=
    if 0 ≤ guess then 2 ^ guess.toNat * den ≤ num else den ≤ 2 ^ (-guess).toNat * num
  if reached then guess else guess - 1

/-- The nearest integer, ties to even. -/
def roundHalfEven (x : ℚ) : ℤ :=
  let low := ⌊x⌋
  let rest := x - low
  if rest < 1 / 2 then low
  else if 1 / 2 < rest then low + 1
  else if low % 2 = 0 then low
  else low + 1

/-- The nearest number with a significand of 53 bits. -/
def roundFloat64 (x : ℚ) : ℚ :=
  if x = 0 then 0
  else
    let unit := floorLog2 x.num.natAbs x.den - 52
    if 0 ≤ unit then (roundHalfEven (x / 2 ^ unit.toNat) : ℚ) * 2 ^ unit.toNat
    else (roundHalfEven (x * 2 ^ (-unit).toNat) : ℚ) / 2 ^ (-unit).toNat

-- the first integer that is no binary64 number is a tie, and goes to the even side
example : roundFloat64 (2 ^ 53 + 1) = 2 ^ 53 := by decide +kernel

example : roundFloat64 (1 / 3) = 6004799503160661 / 2 ^ 54 := by decide +kernel

/-- The conversion to a 64-bit integer: cut off towards zero, with the least integer for a
number that is out of range, as amd64 has it. -/
def truncInt64 (x : ℚ) : Int64 :=
  if -(2 ^ 63) ≤ x ∧ x < 2 ^ 63 then Int64.ofInt (if 0 ≤ x then ⌊x⌋ else ⌈x⌉)
  else Int64.minValue

theorem toInt_truncInt64 (n : ℤ) :
    (truncInt64 n).toInt = if -(2 ^ 63) ≤ n ∧ n < 2 ^ 63 then n else -(2 ^ 63) := by
  have inRange : (-(2 ^ 63) ≤ (n : ℚ) ∧ (n : ℚ) < 2 ^ 63) ↔ -(2 ^ 63) ≤ n ∧ n < 2 ^ 63 := by
    norm_cast
  unfold truncInt64
  by_cases fits : -(2 ^ 63) ≤ n ∧ n < 2 ^ 63
  · rw [if_pos (inRange.mpr fits), if_pos fits, Int.floor_intCast, Int.ceil_intCast, ite_self]
    exact Int64.toInt_ofInt_of_le fits.1 fits.2
  · rw [if_neg (mt inRange.mp fits), if_neg fits]
    exact Int64.toInt_minValue

end MiniCloud.Library
