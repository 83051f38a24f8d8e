import Mathlib.Data.List.Perm.Subperm

/-!
# Majorities of a list of members

Members acknowledge or do not; they are a majority when more than half of the list
acknowledges.  Two majorities of one list have a member in common, and so have majorities
of two lists that differ by one member.
-/

namespace MiniCloud.Library

variable {Member : Type*}

/-- More than half of the members acknowledge. -/
def Majority (members : List Member) (acks : Member → Bool) : Prop :=
  members.length < 2 * members.countP acks

/-- Members that are counted twice acknowledge twice. -/
theorem countP_add_countP_le (members : List Member) (acks acks' : Member → Bool) :
    members.countP acks + members.countP acks' ≤
      members.length + members.countP fun m => acks m && acks' m := by
  induction members with
  | nil => simp
  | cons m rest ih =>
      simp only [List.countP_cons, List.length_cons]
      have here : (if acks m = true then 1 else 0) + (if acks' m = true then 1 else 0) ≤
          1 + if (acks m && acks' m) = true then 1 else 0 := by
        cases acks m <;> cases acks' m <;> decide
      omega

/-- A list counts at most what a part of it counts, and one for each other member. -/
theorem countP_le_of_subperm {part whole : List Member} (sub : part.Subperm whole)
    (acks : Member → Bool) :
    whole.countP acks + part.length ≤ part.countP acks + whole.length := by
  obtain ⟨ordered, permutes, sublist⟩ := sub
  rw [← permutes.countP_eq, ← permutes.length_eq]
  clear permutes
  induction sublist with
  | slnil => exact Nat.le_refl _
  | cons m _ ih =>
      simp only [List.countP_cons, List.length_cons]
      split <;> omega
  | cons_cons m _ ih =>
      simp only [List.countP_cons, List.length_cons]
      split <;> omega

/-- A majority of a list and one of the list with at most one more member meet. -/
theorem Majority.meet {part whole : List Member} {acks acks' : Member → Bool}
    (sub : part.Subperm whole) (close : whole.length ≤ part.length + 1)
    (first : Majority part acks) (second : Majority whole acks') :
    ∃ m ∈ part, acks m = true ∧ acks' m = true := by
  have inPart := countP_le_of_subperm sub acks'
  have twice := countP_add_countP_le part acks acks'
  have shorter := sub.length_le
  unfold Majority at first second
  have common : 0 < part.countP fun m => acks m && acks' m := by omega
  obtain ⟨m, member, both⟩ := List.countP_pos_iff.mp common
  exact ⟨m, member, Bool.and_eq_true_iff.mp both⟩

end MiniCloud.Library
