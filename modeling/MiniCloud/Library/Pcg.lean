import Mathlib.Tactic.Common

/-!
# A hash and a generator

The 64-bit FNV-1a hash of a byte string, and the permuted congruential generator with a
state of 128 bits whose output is mixed by shifts and products.
-/

namespace MiniCloud.Library

/-- One byte into the hash, and the product with the prime. -/
def fnvStep (hash : UInt64) (byte : Char) : UInt64 :=
  (hash ^^^ UInt64.ofNat byte.toNat) * 1099511628211

/-- FNV-1a of the bytes of a text. -/
def fnv1a (s : String) : UInt64 := s.toList.foldl fnvStep 14695981039346656037

namespace Pcg

/-- The state with the given halves. -/
def seeded (hi lo : UInt64) : BitVec 128 := hi.toBitVec ++ lo.toBitVec

def next (state : BitVec 128) : BitVec 128 :=
  state * seeded 2549297995355413924 4865540595714422341 +
    seeded 6364136223846793005 1442695040888963407

/-- The number made of a state. -/
def output (state : BitVec 128) : UInt64 :=
  let hi : UInt64 := ⟨state.extractLsb' 64 64⟩
  let lo : UInt64 := ⟨state.extractLsb' 0 64⟩
  let hi := (hi ^^^ (hi >>> 32)) * 0xda942042e4dd58b5
  (hi ^^^ (hi >>> 48)) * (lo ||| 1)

/-- The number drawn after `i` others. -/
def draw (state : BitVec 128) : Nat → UInt64
  | 0 => output (next state)
  | i + 1 => draw (next state) i

end Pcg

example : fnv1a "a" = 0xaf63dc4c8601ec8c := by decide +kernel

example : Pcg.draw (Pcg.seeded 1 2) 0 = 0xc4f5a58656eef510 := by decide +kernel

end MiniCloud.Library
