import Mathlib.Algebra.BigOperators.Group.List.Basic
import Mathlib.Algebra.GroupWithZero.Nat
import Mathlib.Data.List.AList
import MiniCloud.Library.Slots

/-!
# Sums over the values of a table and over slots
-/

namespace MiniCloud.Library

variable {Key Value : Type*} [DecidableEq Key]

/-- The sum of a weight over the values of a table. -/
def total (weight : Value → Nat) (table : AList fun _ : Key => Value) : Nat :=
  (table.entries.map fun entry => weight entry.2).sum

variable {weight : Value → Nat} {table : AList fun _ : Key => Value} {key : Key} {old new : Value}

theorem total_insert_new (absent : table.lookup key = none) :
    total weight (table.insert key new) = weight new + total weight table := by
  unfold total
  rw [AList.entries_insert_of_notMem (AList.lookup_eq_none.mp absent), List.map_cons, List.sum_cons]

/-- Overwriting a value changes the sum by the difference of the weights. -/
theorem total_insert (found : table.lookup key = some old) :
    total weight (table.insert key new) + weight old = total weight table + weight new := by
  have isKey : key ∈ table.entries.keys := AList.lookup_isSome.mp (by rw [found]; rfl)
  obtain ⟨value, before, after, notBefore, whole, rest⟩ := List.exists_of_kerase isKey
  have isOld : value = old := by
    have looked : table.lookup key = some value := by
      refine AList.mem_lookup_iff.mpr ?_
      rw [whole]
      simp
    rw [found] at looked
    exact (Option.some.inj looked).symm
  subst isOld
  unfold total
  rw [AList.entries_insert, rest, whole]
  simp only [List.map_cons, List.map_append, List.sum_cons, List.sum_append]
  omega

/-- Overwriting a slot changes the sum by the difference of the weights. -/
theorem sum_set_balance {Slot Amount : Type*} [AddCommMonoid Amount] (weight : Slot → Amount)
    {slots : List Slot} {i : Nat} {old new : Slot} (current : slots[i]? = some old) :
    ((slots.set i new).map weight).sum + weight old = (slots.map weight).sum + weight new := by
  conv_rhs => rw [eq_around current]
  rw [set_around current]
  simp only [List.map_append, List.map_cons, List.sum_append, List.sum_cons]
  ac_rfl

end MiniCloud.Library
