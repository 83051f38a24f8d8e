import Mathlib.Data.List.Basic
import Mathlib.Tactic.Common

/-!
# Events between cuts

Some events cut off others: from then on those count as gone.  An event is live
in a list when no later event cuts it off.  A list is ordered between cuts when an
event has a smaller rank than a later related one unless it was cut off in between;
it stays so when a new event is ranked above all live events related to it.
-/

namespace MiniCloud.Library

variable {Event : Type*} {cuts related : Event → Event → Prop} {rank : Event → Nat}
  {events : List Event} {event newest : Event}

/-- The event occurs and nothing after it cuts it off. -/
def LiveIn (cuts : Event → Event → Prop) (events : List Event) (event : Event) : Prop :=
  ∃ before after, events = before ++ event :: after ∧ ∀ later ∈ after, ¬ cuts later event

/-- Related events are ranked in order unless the first is cut off in between. -/
def OrderedBetweenCuts (cuts related : Event → Event → Prop) (rank : Event → Nat)
    (events : List Event) : Prop :=
  ∀ before first between second after,
    events = before ++ first :: between ++ second :: after → related first second →
      (∀ later ∈ between, ¬ cuts later first) → rank first < rank second

theorem not_liveIn_nil : ¬ LiveIn cuts [] event := by
  rintro ⟨before, after, empty, _⟩
  simp at empty

/-- A split of a list with a new last event splits the old list or ends in it. -/
theorem concat_eq_append_cons {before after : List Event}
    (split : events ++ [newest] = before ++ event :: after) :
    (after = [] ∧ before = events ∧ event = newest) ∨
      ∃ rest, after = rest ++ [newest] ∧ events = before ++ event :: rest := by
  rcases List.eq_nil_or_concat' after with empty | ⟨rest, last, isConcat⟩
  · subst empty
    obtain ⟨sameBefore, sameEvent⟩ := List.append_inj' split rfl
    exact Or.inl ⟨rfl, sameBefore.symm, (List.singleton_inj.mp sameEvent).symm⟩
  · subst isConcat
    have regrouped : events ++ [newest] = (before ++ event :: rest) ++ [last] := by
      rw [split]
      simp
    obtain ⟨sameEvents, sameLast⟩ := List.append_inj' regrouped rfl
    rw [List.singleton_inj.mp sameLast]
    exact Or.inr ⟨rest, rfl, sameEvents⟩

theorem liveIn_concat (live : LiveIn cuts (events ++ [newest]) event) :
    event = newest ∨ (LiveIn cuts events event ∧ ¬ cuts newest event) := by
  obtain ⟨before, after, split, uncut⟩ := live
  rcases concat_eq_append_cons split with ⟨_, _, isNewest⟩ | ⟨rest, rfl, shorter⟩
  · exact Or.inl isNewest
  · refine Or.inr ⟨⟨before, rest, shorter, ?_⟩, ?_⟩
    · intro later member
      exact uncut later (List.mem_append_left _ member)
    · exact uncut newest (List.mem_append_right _ (List.mem_singleton_self _))

namespace OrderedBetweenCuts

theorem nil : OrderedBetweenCuts cuts related rank [] := by
  intro before first between second after split
  simp at split

/-- A new event has to be ranked above the live events related to it. -/
theorem concat (ordered : OrderedBetweenCuts cuts related rank events)
    (above : ∀ event, LiveIn cuts events event → related event newest →
      rank event < rank newest) :
    OrderedBetweenCuts cuts related rank (events ++ [newest]) := by
  intro before first between second after split sameKind uncut
  rcases concat_eq_append_cons split with ⟨_, isEvents, isNewest⟩ | ⟨rest, _, shorter⟩
  · rw [isNewest] at sameKind ⊢
    exact above first ⟨before, between, isEvents.symm, uncut⟩ sameKind
  · exact ordered before first between second rest shorter sameKind uncut

/-- Two different related events of the same rank have a cut between them. -/
theorem cut_between (ordered : OrderedBetweenCuts cuts related rank events)
    {first second : Event} (inFirst : first ∈ events) (inSecond : second ∈ events)
    (different : first ≠ second) (forth : related first second) (back : related second first)
    (sameRank : rank first = rank second) :
    ∃ before between after,
      (events = before ++ first :: between ++ second :: after ∧
          ∃ later ∈ between, cuts later first) ∨
        (events = before ++ second :: between ++ first :: after ∧
          ∃ later ∈ between, cuts later second) := by
  obtain ⟨before, after, split⟩ := List.append_of_mem inFirst
  rw [split] at inSecond
  rcases List.mem_append.mp inSecond with earlier | notBefore
  · obtain ⟨start, between, isBefore⟩ := List.append_of_mem earlier
    have placed : events = start ++ second :: between ++ first :: after := by
      rw [split, isBefore]
    refine ⟨start, between, after, Or.inr ⟨placed, ?_⟩⟩
    by_contra uncut
    refine absurd sameRank.symm (Nat.ne_of_lt (ordered _ _ _ _ _ placed back ?_))
    intro later member cut
    exact uncut ⟨later, member, cut⟩
  · rcases List.mem_cons.mp notBefore with same | later
    · exact absurd same.symm different
    · obtain ⟨between, rest, isAfter⟩ := List.append_of_mem later
      have placed : events = before ++ first :: between ++ second :: rest := by
        rw [split, isAfter]
        simp
      refine ⟨before, between, rest, Or.inl ⟨placed, ?_⟩⟩
      by_contra uncut
      refine absurd sameRank (Nat.ne_of_lt (ordered _ _ _ _ _ placed forth ?_))
      intro later member cut
      exact uncut ⟨later, member, cut⟩

end OrderedBetweenCuts

end MiniCloud.Library
