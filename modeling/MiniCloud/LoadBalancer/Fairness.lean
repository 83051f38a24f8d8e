import Mathlib.Data.Int.ModEq
import Mathlib.Data.List.Perm.Subperm
import MiniCloud.LoadBalancer.Serving

/-!
# Fairness of the rotation

Under `round_robin` the place of a backend is the time of the call modulo the number of
healthy backends.  No position is kept from one call to the next, so the calls go round the
backends exactly if the clock does.
-/

namespace MiniCloud.LoadBalancer

/-- The places of the healthy backends. -/
def healthyPlaces (backends : List Backend) : List Nat := (healthy backends).map Prod.snd

/-- As many calls as there are places, from one of them on. -/
def picks (clock : Nat → Int) (backends : Nat → List Backend) (n start : Nat) :
    List (Except PickError Nat) :=
  (List.range n).map fun k => pick .roundRobin (clock (start + k)) (backends (start + k))

theorem nodup_healthyPlaces (backends : List Backend) : (healthyPlaces backends).Nodup := by
  have sublist : (healthyPlaces backends).Sublist (backends.zipIdx.map Prod.snd) :=
    List.filter_sublist.map _
  have places : backends.zipIdx.map Prod.snd = List.range' 0 backends.length := List.zipIdx_map_snd 0 _
  rw [places] at sublist
  exact sublist.nodup List.nodup_range'

section Pick

variable {clock : Int} {backends : List Backend} {places : List Nat}

theorem pick_of_nonneg (isPlaces : healthyPlaces backends = places) (given : places ≠ [])
    (inRange : 0 ≤ clock.tmod places.length) :
    ∃ i, places[(clock.tmod places.length).toNat]? = some i ∧
      pick .roundRobin clock backends = .ok i := by
  have found : (clock.tmod places.length).toNat < places.length := by
    have small := Int.tmod_lt_of_pos clock (Int.natCast_pos.mpr (List.length_pos_iff.mpr given))
    omega
  subst isPlaces
  have length : (healthyPlaces backends).length = (healthy backends).length := List.length_map _
  rw [length] at inRange found ⊢
  rw [healthyPlaces, List.getElem?_map, List.getElem?_eq_getElem found, Option.map_some]
  refine ⟨_, rfl, ?_⟩
  unfold pick
  split
  · rename_i none
    rw [none] at found
    cases found
  · rename_i first rest isHealthy
    simp only [← isHealthy]
    rw [if_neg (not_lt.mpr inRange), List.getElem?_eq_getElem found]

theorem pick_of_neg (isPlaces : healthyPlaces backends = places)
    (negative : clock.tmod places.length < 0) :
    pick .roundRobin clock backends = .error .indexOutOfRange ∨
      pick .roundRobin clock backends = .error .noHealthyBackends := by
  subst isPlaces
  have length : (healthyPlaces backends).length = (healthy backends).length := List.length_map _
  rw [length] at negative
  unfold pick
  split
  · exact Or.inr rfl
  · rename_i first rest isHealthy
    left
    simp only [← isHealthy]
    rw [if_pos negative]

end Pick

/-- The remainder of a division that truncates is negative exactly for negative numbers that
are no multiples. -/
theorem tmod_nonneg_iff {c : Int} {n : Nat} : 0 ≤ c.tmod n ↔ 0 ≤ c ∨ (n : Int) ∣ c := by
  constructor
  · intro inRange
    by_cases negative : c < 0
    · right
      have opposite : 0 ≤ (-c).tmod n := Int.tmod_nonneg n (Int.neg_nonneg_of_nonpos negative.le)
      rw [Int.neg_tmod] at opposite
      exact Int.dvd_of_tmod_eq_zero (Int.le_antisymm (Int.nonpos_of_neg_nonneg opposite) inRange)
    · exact Or.inl (not_lt.mp negative)
  · rintro (nonneg | divides)
    · exact Int.tmod_nonneg n nonneg
    · rw [Int.tmod_eq_zero_of_dvd divides]

/-- Of readings that do not panic, those that are congruent find the same place. -/
theorem tmod_eq_iff {c d : Int} {n : Nat} (inRange : 0 ≤ c.tmod n) (inRange' : 0 ≤ d.tmod n) :
    c.tmod n = d.tmod n ↔ c ≡ d [ZMOD n] := by
  have same {c : Int} (inRange : 0 ≤ c.tmod n) : c.tmod n = c % n := by
    rcases tmod_nonneg_iff.mp inRange with nonneg | divides
    · exact Int.tmod_eq_emod_of_nonneg nonneg
    · rw [Int.tmod_eq_zero_of_dvd divides, Int.emod_eq_zero_of_dvd divides]
  rw [same inRange, same inRange']
  rfl

section Calls

variable {clock : Nat → Int} {backends : Nat → List Backend} {places : List Nat}

/-- Calls whose readings are in range find every place once if no two readings of a round
are congruent. -/
theorem picks_perm (isPlaces : ∀ k, healthyPlaces (backends k) = places) (given : places ≠ [])
    (inRange : ∀ k, 0 ≤ (clock k).tmod places.length)
    (apart : ∀ j k, j < k → k < j + places.length → ¬clock j ≡ clock k [ZMOD places.length])
    (start : Nat) : (picks clock backends places.length start).Perm (places.map .ok) := by
  have distinct : places.Nodup := isPlaces 0 ▸ nodup_healthyPlaces (backends 0)
  have among : picks clock backends places.length start ⊆ places.map .ok := by
    intro result member
    obtain ⟨k, _, rfl⟩ := List.mem_map.mp member
    obtain ⟨i, found, picked⟩ := pick_of_nonneg (isPlaces (start + k)) given (inRange (start + k))
    rw [picked]
    exact List.mem_map_of_mem (List.mem_of_getElem? found)
  have nodup : (picks clock backends places.length start).Nodup := by
    refine List.Nodup.map_on ?_ List.nodup_range
    intro j jSmall k kSmall same
    rw [List.mem_range] at jSmall kSmall
    obtain ⟨i, foundJ, pickedJ⟩ := pick_of_nonneg (isPlaces (start + j)) given (inRange (start + j))
    obtain ⟨i', foundK, pickedK⟩ := pick_of_nonneg (isPlaces (start + k)) given (inRange (start + k))
    rw [pickedJ, pickedK] at same
    cases Except.ok.inj same
    -- the place determines the remainder, and the remainders of a round differ
    have sameIndex : ((clock (start + j)).tmod places.length).toNat =
        ((clock (start + k)).tmod places.length).toNat := by
      have small := (List.getElem?_eq_some_iff.mp foundJ).1
      exact (List.getElem?_inj small distinct).mp (foundJ.trans foundK.symm)
    have congruent : clock (start + j) ≡ clock (start + k) [ZMOD places.length] := by
      refine (tmod_eq_iff (inRange _) (inRange _)).mp ?_
      have lower := inRange (start + j)
      have lower' := inRange (start + k)
      omega
    rcases Nat.lt_trichotomy j k with before | same | after
    · exact absurd congruent (apart _ _ (by omega) (by omega))
    · exact same
    · exact absurd congruent.symm (apart _ _ (by omega) (by omega))
  refine (List.subperm_of_subset nodup among).perm_of_length_le ?_
  rw [List.length_map, picks, List.length_map, List.length_range]

end Calls

/-- Two healthy backends around one that is not. -/
def threeBackends : List Backend := [⟨"a", 0, true⟩, ⟨"b", 0, false⟩, ⟨"c", 0, true⟩]

end MiniCloud.LoadBalancer
