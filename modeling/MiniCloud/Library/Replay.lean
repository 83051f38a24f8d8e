import Mathlib.Data.List.Induction
import Mathlib.Logic.Function.Basic
import Mathlib.Tactic.Common

/-!
# Replaying keyed events

An event touches one key and fixes the content of that key: a value, or nothing
after a deletion.  Replaying a list of events over a map is therefore decided,
key by key, by the last event on that key.  The module also compares two orders
of the same events: when both are increasing in a rank on every key, they replay
to the same map.
-/

namespace MiniCloud.Library

variable {Event Key Value : Type*} [DecidableEq Key]

/-- The effects of the events, in order, on a map given as a function. -/
def replay (key : Event → Key) (effect : Event → Option Value)
    (base : Key → Option Value) (events : List Event) : Key → Option Value :=
  events.foldl (fun content event => Function.update content (key event) (effect event)) base

/-- The last event on a key. -/
def lastOn (key : Event → Key) (k : Key) (events : List Event) : Option Event :=
  (events.filter fun event => key event = k).getLast?

variable {key : Event → Key} {effect : Event → Option Value}

theorem replay_concat (base : Key → Option Value) (events : List Event) (event : Event) :
    replay key effect base (events ++ [event]) =
      Function.update (replay key effect base events) (key event) (effect event) := by
  simp [replay, List.foldl_append]

theorem lastOn_concat_self {k : Key} {events : List Event} {event : Event}
    (onKey : key event = k) : lastOn key k (events ++ [event]) = some event := by
  simp [lastOn, List.filter_append, onKey]

theorem lastOn_concat_other {k : Key} {events : List Event} {event : Event}
    (offKey : key event ≠ k) : lastOn key k (events ++ [event]) = lastOn key k events := by
  simp [lastOn, List.filter_append, offKey]

/-- Key by key, a replay is decided by the last event on the key. -/
theorem replay_apply (base : Key → Option Value) (events : List Event) (k : Key) :
    replay key effect base events k =
      match lastOn key k events with
      | none => base k
      | some event => effect event := by
  induction events using List.reverseRecOn with
  | nil => rfl
  | append_singleton events event ih =>
      rw [replay_concat]
      by_cases onKey : key event = k
      · rw [lastOn_concat_self onKey, ← onKey, Function.update_self]
      · rw [lastOn_concat_other onKey, Function.update_of_ne (Ne.symm onKey), ih]

/-- The last event on a key is one of the events and lies on that key. -/
theorem mem_of_lastOn {k : Key} {events : List Event} {event : Event}
    (last : lastOn key k events = some event) : event ∈ events ∧ key event = k := by
  have member := List.mem_of_getLast? last
  simpa using List.mem_filter.mp member

theorem lastOn_eq_none_iff {k : Key} {events : List Event} :
    lastOn key k events = none ↔ ∀ event ∈ events, key event ≠ k := by
  simp [lastOn]

/-- On every key the events come in increasing rank. -/
def RankedPerKey (key : Event → Key) (rank : Event → Nat) (events : List Event) : Prop :=
  events.Pairwise fun earlier later => key earlier = key later → rank earlier < rank later

/-- In a ranked list the last event on a key has the greatest rank on it. -/
theorem rank_le_of_lastOn {rank : Event → Nat} {events : List Event} {k : Key}
    {event last : Event} (ranked : RankedPerKey key rank events)
    (isLast : lastOn key k events = some last)
    (member : event ∈ events) (onKey : key event = k) :
    event = last ∨ rank event < rank last := by
  induction events using List.reverseRecOn with
  | nil => cases member
  | append_singleton events newest ih =>
      obtain ⟨rankedInit, -, below⟩ := List.pairwise_append.mp ranked
      by_cases newestOnKey : key newest = k
      · rw [lastOn_concat_self newestOnKey, Option.some.injEq] at isLast
        subst isLast
        rcases List.mem_append.mp member with inInit | isNewest
        · exact Or.inr (below event inInit newest (List.mem_singleton_self _)
            (onKey.trans newestOnKey.symm))
        · exact Or.inl (List.mem_singleton.mp isNewest)
      · rw [lastOn_concat_other newestOnKey] at isLast
        rcases List.mem_append.mp member with inInit | isNewest
        · exact ih rankedInit isLast inInit
        · exact absurd (List.mem_singleton.mp isNewest ▸ onKey) newestOnKey

/-- Two ranked orders of the same events replay to the same map. -/
theorem replay_eq_of_ranked {rank : Event → Nat} {first second : List Event}
    (firstRanked : RankedPerKey key rank first)
    (secondRanked : RankedPerKey key rank second)
    (sameEvents : ∀ event, event ∈ first ↔ event ∈ second)
    (base : Key → Option Value) :
    replay key effect base first = replay key effect base second := by
  funext k
  rw [replay_apply, replay_apply]
  suffices same : lastOn key k first = lastOn key k second by rw [same]
  cases firstLast : lastOn key k first with
  | none =>
      refine (lastOn_eq_none_iff.mpr fun event member => ?_).symm
      exact lastOn_eq_none_iff.mp firstLast event ((sameEvents event).mpr member)
  | some event =>
      obtain ⟨inFirst, onKey⟩ := mem_of_lastOn firstLast
      have inSecond := (sameEvents event).mp inFirst
      cases secondLast : lastOn key k second with
      | none => exact absurd onKey (lastOn_eq_none_iff.mp secondLast event inSecond)
      | some other =>
          obtain ⟨otherInSecond, otherOnKey⟩ := mem_of_lastOn secondLast
          have otherInFirst := (sameEvents other).mpr otherInSecond
          -- each last event bounds the other, so they are one event
          rcases rank_le_of_lastOn secondRanked secondLast inSecond onKey with same | below
          · rw [same]
          · rcases rank_le_of_lastOn firstRanked firstLast otherInFirst otherOnKey with
              same | above
            · rw [same]
            · exact absurd (Nat.lt_trans below above) (Nat.lt_irrefl _)

end MiniCloud.Library
