import Mathlib.Data.List.AList

/-!
# Items grouped by a key

A table with the items of each key, filled one item after another.  What it holds for a
key is the sublist of the items with that key, so that a part of the items has the same
groups only if it is the whole.
-/

namespace MiniCloud.Library.Grouping

variable {Key Item : Type*} [DecidableEq Key] {key : Item → Key}

/-- The items with a key, in their order. -/
def under (key : Item → Key) (name : Key) (items : List Item) : List Item :=
  items.filter fun item => key item = name

/-- The table with one more item. -/
def add (key : Item → Key) (table : AList fun _ : Key => List Item) (item : Item) :
    AList fun _ : Key => List Item :=
  table.insert (key item) ((table.lookup (key item)).getD [] ++ [item])

/-- The table has the items of each key and no other keys. -/
def IsGrouping (key : Item → Key) (table : AList fun _ : Key => List Item) (items : List Item) :
    Prop :=
  ∀ name, table.lookup name = if under key name items = [] then none else some (under key name items)

variable {table : AList fun _ : Key => List Item} {items : List Item}

theorem IsGrouping.getD (grouping : IsGrouping key table items) (name : Key) :
    (table.lookup name).getD [] = under key name items := by
  rw [grouping name]
  by_cases empty : under key name items = []
  · rw [if_pos empty, empty]
    rfl
  · rw [if_neg empty]
    rfl

/-- Groups agree exactly if they have the same items under each key. -/
theorem IsGrouping.congr_iff {items' : List Item} (grouping : IsGrouping key table items) :
    IsGrouping key table items' ↔ ∀ name, under key name items = under key name items' := by
  constructor
  · intro grouping' name
    rw [← grouping.getD, ← grouping'.getD]
  · intro same name
    rw [grouping name, same name]

theorem IsGrouping.lookup_iff {table' : AList fun _ : Key => List Item}
    (grouping : IsGrouping key table items) :
    (∀ name, table.lookup name = table'.lookup name) ↔ IsGrouping key table' items := by
  refine forall_congr' fun name => ?_
  rw [grouping name]
  exact eq_comm

theorem isGrouping_empty : IsGrouping key ∅ ([] : List Item) := by
  intro name
  rfl

theorem IsGrouping.add (grouping : IsGrouping key table items) (item : Item) :
    IsGrouping key (Grouping.add key table item) (items ++ [item]) := by
  intro name
  have longer : under key name (items ++ [item]) =
      under key name items ++ under key name [item] := List.filter_append _ _
  by_cases same : key item = name
  · have single : under key name [item] = [item] := by simp [under, same]
    have given : under key name items ++ [item] ≠ [] :=
      List.append_ne_nil_of_right_ne_nil _ (List.cons_ne_nil _ _)
    rw [longer, single, if_neg given, Grouping.add, grouping.getD, same, AList.lookup_insert]
  · have none : under key name [item] = [] := by simp [under, same]
    rw [longer, none, List.append_nil, Grouping.add, AList.lookup_insert_ne (Ne.symm same)]
    exact grouping name

/-- A loop that adds the items one after another groups them. -/
theorem IsGrouping.foldl (grouping : IsGrouping key table items) (more : List Item) :
    IsGrouping key (more.foldl (Grouping.add key) table) (items ++ more) := by
  induction more generalizing table items with
  | nil => rwa [List.append_nil]
  | cons item rest ih =>
      have whole := ih (grouping.add item)
      rwa [List.append_assoc, List.singleton_append] at whole

/-- A part of the items with the same groups is the whole. -/
theorem eq_of_under_eq {part whole : List Item} (sub : part.Sublist whole)
    (same : ∀ name, under key name part = under key name whole) : part = whole := by
  induction sub with
  | slnil => rfl
  | cons item sub _ =>
      -- an item that was left out is missing from its group
      rename_i part whole _
      have shorter : (under key (key item) part).length ≤ (under key (key item) whole).length :=
        (sub.filter _).length_le
      have missing := congrArg List.length (same (key item))
      rw [under, under, List.filter_cons_of_pos (by simp), List.length_cons] at missing
      rw [under, under] at shorter
      omega
  | cons_cons item sub ih =>
      rw [ih]
      intro name
      have kept := same name
      by_cases isKey : key item = name
      · rw [under, under, List.filter_cons_of_pos (by simpa using isKey),
          List.filter_cons_of_pos (by simpa using isKey)] at kept
        exact (List.cons.inj kept).2
      · rw [under, under, List.filter_cons_of_neg (by simpa using isKey),
          List.filter_cons_of_neg (by simpa using isKey)] at kept
        exact kept

end MiniCloud.Library.Grouping
