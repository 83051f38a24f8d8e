import Mathlib.Algebra.Ring.Int.Defs
import Mathlib.Algebra.Ring.Nat

/-!
# Integers of 64 bits

Sums and differences of 64-bit integers wrap around.  The lemmas give the value that is
left for each range of the exact result, and the value of a number that is cut off at a
bound.
-/

namespace MiniCloud.Library

theorem bmod64_of_fits {x : Int} (low : -9223372036854775808 ≤ x) (high : x < 9223372036854775808) :
    x.bmod (2 ^ 64) = x := Int.bmod_eq_of_le (by omega) (by omega)

theorem bmod64_of_above {x : Int} (low : 9223372036854775808 ≤ x)
    (high : x < 18446744073709551616) : x.bmod (2 ^ 64) = x - 18446744073709551616 := by
  rw [Int.bmod_def]
  split
  · omega
  · omega

theorem bmod64_of_below {x : Int} (low : -27670116110564327424 ≤ x)
    (high : x < -9223372036854775808) : x.bmod (2 ^ 64) = x + 18446744073709551616 := by
  rw [Int.bmod_def]
  split
  · omega
  · omega

theorem pos_iff_toInt_pos (x : Int64) : 0 < x ↔ 0 < x.toInt := Int64.lt_iff_toInt_lt

theorem toInt_cut_above (bound x : Int64) :
    (if bound < x then bound else x).toInt = min bound.toInt x.toInt := by
  split
  · rename_i above
    have above := Int64.lt_iff_toInt_lt.mp above
    omega
  · rename_i within
    have within := mt Int64.lt_iff_toInt_lt.mpr within
    omega

theorem toInt_cut_below (bound x : Int64) :
    (if x < bound then bound else x).toInt = max bound.toInt x.toInt := by
  split
  · rename_i below
    have below := Int64.lt_iff_toInt_lt.mp below
    omega
  · rename_i within
    have within := mt Int64.lt_iff_toInt_lt.mpr within
    omega

end MiniCloud.Library
