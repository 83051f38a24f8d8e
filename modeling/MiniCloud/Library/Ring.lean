import Mathlib.Data.List.TakeDrop
import Mathlib.Data.Nat.ModEq

/-!
# Rings

A ring is a list of cells that is written round and round.  Of everything that was written,
the entry with number `j` went into the cell `j` modulo the size, and it is still there if
fewer entries than there are cells have come after it.
-/

namespace MiniCloud.Library.Ring

variable {α : Type*}

/-- The cells hold the newest of what was written, oldest first. -/
structure Holds (cells written : List α) : Prop where
  some_cell : 0 < cells.length
  kept : ∀ j < written.length, written.length ≤ j + cells.length →
    cells[j % cells.length]? = written[j]?

theorem Holds.new {cells : List α} (some_cell : 0 < cells.length) : Holds cells [] :=
  ⟨some_cell, fun _ before => absurd before (Nat.not_lt_zero _)⟩

/-- Entries that are less than a round apart are in different cells. -/
theorem cell_ne {size j k : Nat} (later : j < k) (near : k < j + size) : j % size ≠ k % size := by
  intro same
  have congruent : j ≡ k [MOD size] := same
  have divides : size ∣ k - j := (Nat.modEq_iff_dvd' (Nat.le_of_lt later)).mp congruent
  have large : size ≤ k - j := Nat.le_of_dvd (Nat.sub_pos_of_lt later) divides
  omega

/-- The next entry takes the place of the oldest one. -/
theorem Holds.write {cells written : List α} (holds : Holds cells written) (new : α) :
    Holds (cells.set (written.length % cells.length) new) (written ++ [new]) := by
  have inside : written.length % cells.length < cells.length := Nat.mod_lt _ holds.some_cell
  constructor
  · rw [List.length_set]
    exact holds.some_cell
  · intro j before recent
    rw [List.length_append, List.length_singleton] at before recent
    rw [List.length_set] at recent ⊢
    rcases Nat.lt_or_eq_of_le (Nat.le_of_lt_succ before) with earlier | rfl
    · have other : written.length % cells.length ≠ j % cells.length :=
        (cell_ne earlier (by omega)).symm
      rw [List.getElem?_set_ne other, List.getElem?_append_left earlier]
      exact holds.kept j earlier (by omega)
    · rw [List.getElem?_set_self inside, List.getElem?_concat_length]

/-- Counted back from the cell that is written next, the entries are found newest first. -/
theorem Holds.back {cells written : List α} (holds : Holds cells written) {i : Nat}
    (inRing : i < cells.length) (exists_entry : i < written.length) :
    cells[(written.length - 1 - i) % cells.length]? = written.reverse[i]? := by
  rw [holds.kept (written.length - 1 - i) (by omega) (by omega), List.getElem?_reverse exists_entry]

/-- The cell counted back lies before the one that is written next, or a round after that. -/
theorem back_cell {size len i : Nat} (inRing : i < size) (exists_entry : i < len) :
    (len - 1 - i) % size =
      if len % size < i + 1 then len % size + size - 1 - i else len % size - 1 - i := by
  have rounds : len = size * (len / size) + len % size := (Nat.div_add_mod len size).symm
  have small : len % size < size := Nat.mod_lt _ (by omega)
  split
  · rename_i wraps
    -- one round less than those that are complete
    have complete : 0 < len / size := by
      by_contra none
      rw [Nat.eq_zero_of_not_pos none, Nat.mul_zero, Nat.zero_add] at rounds
      omega
    obtain ⟨k, isSucc⟩ := Nat.exists_eq_succ_of_ne_zero (Nat.ne_of_gt complete)
    rw [isSucc, Nat.mul_succ] at rounds
    have split : len - 1 - i = size * k + (len % size + size - 1 - i) := by omega
    rw [split, Nat.mul_add_mod]
    exact Nat.mod_eq_of_lt (by omega)
  · rename_i stays
    have split : len - 1 - i = size * (len / size) + (len % size - 1 - i) := by omega
    rw [split, Nat.mul_add_mod]
    exact Nat.mod_eq_of_lt (by omega)

end MiniCloud.Library.Ring
