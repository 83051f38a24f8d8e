import Mathlib.Data.Fintype.Pigeonhole
import Mathlib.Order.OrderIsoNat

/-!
# Chains in a relation with finitely many targets

When a relation has finitely many targets, the elements from which every chain of
steps ends are those that cannot reach a cycle.
-/

namespace MiniCloud.Library

open Relation (ReflTransGen TransGen)

variable {α : Type*} {step : α → α → Prop}

/-- Every chain of steps from the element ends. -/
abbrev Ends (step : α → α → Prop) (a : α) : Prop := Acc (flip step) a

theorem Ends.of_reach {a b : α} (ends : Ends step a) (reach : ReflTransGen step a b) :
    Ends step b := by
  induction reach with
  | refl => exact ends
  | tail _ last ih => exact ih.inv last

theorem Ends.no_cycle {a : α} (ends : Ends step a) : ¬ TransGen step a a := by
  have accessible : Acc (TransGen (flip step)) a := ends.transGen
  rw [← Relation.transGen_swap]
  clear ends
  induction accessible with
  | intro b _ ih =>
      intro cycle
      exact ih b cycle cycle

theorem ends_iff_acyclic (targets : {b | ∃ a, step a b}.Finite) (a : α) :
    Ends step a ↔ ∀ b, ReflTransGen step a b → ¬ TransGen step b b := by
  constructor
  · intro ends b reach
    exact (ends.of_reach reach).no_cycle
  · intro acyclic
    by_contra endless
    obtain ⟨chain, start, steps⟩ := not_acc_iff_exists_descending_chain.mp endless
    -- Beyond its start the chain runs through the targets, so it comes back to one.
    have inTargets (n : Nat) : chain (n + 1) ∈ {b | ∃ a, step a b} := ⟨chain n, steps n⟩
    have := targets.to_subtype
    have along : ∀ i j, i < j → chain (i + 1) ≠ chain (j + 1) := by
      intro i j before same
      have reach : ReflTransGen step (chain 0) (chain (i + 1)) :=
        Nat.rel_of_forall_rel_succ_of_le (ReflTransGen step)
          (fun n => ReflTransGen.single (steps n)) (Nat.zero_le _)
      have cycle : TransGen step (chain (i + 1)) (chain (j + 1)) :=
        Nat.rel_of_forall_rel_succ_of_lt (TransGen step)
          (fun n => TransGen.single (steps n)) (Nat.succ_lt_succ before)
      rw [start] at reach
      rw [← same] at cycle
      exact acyclic _ reach cycle
    obtain ⟨i, j, different, same⟩ := Finite.exists_ne_map_eq_of_infinite
      fun n => (⟨chain (n + 1), inTargets n⟩ : {b | ∃ a, step a b})
    have meets : chain (i + 1) = chain (j + 1) := congrArg Subtype.val same
    rcases Nat.lt_or_gt_of_ne different with before | after
    · exact along i j before meets
    · exact along j i after meets.symm

end MiniCloud.Library
