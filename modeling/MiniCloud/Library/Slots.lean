import Mathlib.Tactic.Common

/-!
# Slots of concurrent activities

Concurrent activities live in the slots of a list: a new one is added at the end,
and a step of one of them overwrites its slot.  The lemmas carry a property of
every slot, and a relation between any two different slots, over both moves.
-/

namespace MiniCloud.Library

variable {Slot : Type*} {slots : List Slot} {i j : Nat} {new old other : Slot}

/-- Any two different slots are related. -/
def EachPair (R : Slot → Slot → Prop) (slots : List Slot) : Prop :=
  ∀ (i j : Nat) (first second : Slot), i ≠ j →
    slots[i]? = some first → slots[j]? = some second → R first second

theorem getElem?_concat_cases (found : (slots ++ [new])[j]? = some other) :
    (j = slots.length ∧ other = new) ∨ (j ≠ slots.length ∧ slots[j]? = some other) := by
  rcases Nat.lt_trichotomy j slots.length with inside | atEnd | outside
  · rw [List.getElem?_append_left inside] at found
    exact Or.inr ⟨Nat.ne_of_lt inside, found⟩
  · subst atEnd
    rw [List.getElem?_concat_length, Option.some.injEq] at found
    exact Or.inl ⟨rfl, found.symm⟩
  · have none : (slots ++ [new])[j]? = none := by
      rw [List.getElem?_eq_none_iff, List.length_append]
      exact Nat.succ_le_of_lt outside
    rw [none] at found
    cases found

theorem getElem?_set_cases (found : (slots.set i new)[j]? = some other) :
    (j = i ∧ other = new) ∨ (j ≠ i ∧ slots[j]? = some other) := by
  by_cases same : j = i
  · subst same
    rw [List.getElem?_set_self'] at found
    obtain ⟨_, _, isNew⟩ := Option.map_eq_some_iff.mp found
    exact Or.inl ⟨rfl, isNew.symm⟩
  · rw [List.getElem?_set_ne (Ne.symm same)] at found
    exact Or.inr ⟨same, found⟩

/-- A slot after one was modified is that one, changed, or another one. -/
theorem getElem?_modify_cases {change : Slot → Slot}
    (found : (slots.modify i change)[j]? = some other) :
    (j = i ∧ ∃ old, slots[i]? = some old ∧ other = change old) ∨ (j ≠ i ∧ slots[j]? = some other) := by
  rw [List.getElem?_modify] at found
  obtain ⟨old, isOld, changed⟩ := Option.map_eq_some_iff.mp found
  by_cases same : i = j
  · subst same
    rw [if_pos rfl] at changed
    exact Or.inl ⟨rfl, old, isOld, changed.symm⟩
  · rw [if_neg same] at changed
    rw [← changed]
    exact Or.inr ⟨Ne.symm same, isOld⟩

theorem getElem?_concat_old (found : slots[j]? = some other) : (slots ++ [new])[j]? = some other := by
  rw [List.getElem?_append_left (List.getElem?_eq_some_iff.mp found).1, found]

theorem getElem?_modify_self (found : slots[i]? = some old) (change : Slot → Slot) :
    (slots.modify i change)[i]? = some (change old) := by
  rw [List.getElem?_modify_eq, found]
  rfl

theorem getElem?_modify_other (different : i ≠ j) (found : slots[j]? = some other)
    (change : Slot → Slot) : (slots.modify i change)[j]? = some other := by
  rw [List.getElem?_modify_ne _ _ different, found]

theorem mem_set_self (current : slots[i]? = some old) : new ∈ slots.set i new := by
  have written : (slots.set i new)[i]? = some new := by
    rw [List.getElem?_set_self', current]
    rfl
  exact List.mem_of_getElem? written

theorem mem_set_other (different : j ≠ i) (found : slots[j]? = some other) :
    other ∈ slots.set i new := by
  have kept : (slots.set i new)[j]? = some other := by
    rw [List.getElem?_set_ne (Ne.symm different)]
    exact found
  exact List.mem_of_getElem? kept

theorem each_concat {P : Slot → Prop} (all : ∀ slot ∈ slots, P slot) (added : P new) :
    ∀ slot ∈ slots ++ [new], P slot := by
  intro slot member
  rcases List.mem_append.mp member with earlier | isNew
  · exact all slot earlier
  · rw [List.mem_singleton.mp isNew]
    exact added

theorem each_set {P : Slot → Prop} (all : ∀ slot ∈ slots, P slot) (changed : P new) :
    ∀ slot ∈ slots.set i new, P slot := by
  intro slot member
  rcases List.mem_or_eq_of_mem_set member with earlier | isNew
  · exact all slot earlier
  · rw [isNew]
    exact changed

/-- A slot with a property is kept by a move whose new content has it if the old
one did. -/
theorem some_set {P : Slot → Prop} (current : slots[i]? = some old)
    (found : ∃ slot ∈ slots, P slot) (kept : P old → P new) : ∃ slot ∈ slots.set i new, P slot := by
  obtain ⟨slot, member, holds⟩ := found
  obtain ⟨j, inSlot⟩ := List.mem_iff_getElem?.mp member
  by_cases same : j = i
  · subst same
    rw [current, Option.some.injEq] at inSlot
    subst inSlot
    exact ⟨new, mem_set_self current, kept holds⟩
  · exact ⟨slot, mem_set_other same inSlot, holds⟩

/-- How a move changes the number of slots with a property. -/
theorem countP_set_balance (p : Slot → Bool) (current : slots[i]? = some old) :
    (slots.set i new).countP p + (if p old then 1 else 0) =
      slots.countP p + (if p new then 1 else 0) := by
  obtain ⟨inside, isOld⟩ := List.getElem?_eq_some_iff.mp current
  rw [List.countP_set inside, isOld]
  have counted : (if p old then 1 else 0) ≤ slots.countP p := by
    split
    · rename_i holds
      exact List.countP_pos_iff.mpr ⟨old, List.mem_of_getElem? current, holds⟩
    · exact Nat.zero_le _
  omega

theorem countP_set_toNat (p : Slot → Bool) (current : slots[i]? = some old) :
    (slots.set i new).countP p + (p old).toNat = slots.countP p + (p new).toNat := by
  have asIte (b : Bool) : b.toNat = if b then 1 else 0 := by
    cases b with
    | false => rfl
    | true => rfl
  rw [asIte, asIte]
  exact countP_set_balance p current

section Selection

variable {Item : Type*} {select : Slot → Option Item} {item item' : Item}

/-- The place of a slot among the selected ones. -/
def rank (select : Slot → Option Item) (slots : List Slot) (i : Nat) : Nat :=
  ((slots.take i).filterMap select).length

theorem eq_around (current : slots[i]? = some old) :
    slots = slots.take i ++ old :: slots.drop (i + 1) := by
  obtain ⟨inside, isOld⟩ := List.getElem?_eq_some_iff.mp current
  rw [← isOld, List.getElem_cons_drop, List.take_append_drop]

theorem set_around (current : slots[i]? = some old) :
    slots.set i new = slots.take i ++ new :: slots.drop (i + 1) := by
  obtain ⟨inside, _⟩ := List.getElem?_eq_some_iff.mp current
  rw [List.set_eq_take_append_cons_drop, if_pos inside]

/-- A move outside of a selection does not change it. -/
theorem filterMap_set_none (current : slots[i]? = some old) (outside : select old = none)
    (stays : select new = none) : (slots.set i new).filterMap select = slots.filterMap select := by
  rw [set_around current, List.filterMap_append, List.filterMap_cons_none stays]
  conv_rhs => rw [eq_around current, List.filterMap_append, List.filterMap_cons_none outside]

theorem filterMap_around (current : slots[i]? = some old) (selected : select old = some item) :
    slots.filterMap select =
      (slots.take i).filterMap select ++ item :: (slots.drop (i + 1)).filterMap select := by
  conv_lhs => rw [eq_around current]
  rw [List.filterMap_append, List.filterMap_cons_some selected]

theorem getElem?_filterMap (current : slots[i]? = some old) (selected : select old = some item) :
    (slots.filterMap select)[rank select slots i]? = some item := by
  rw [filterMap_around current selected, rank, List.getElem?_append_right (Nat.le_refl _),
    Nat.sub_self]
  rfl

/-- A move within a selection is a move of the selected slot. -/
theorem filterMap_set_some (current : slots[i]? = some old) (selected : select old = some item)
    (stays : select new = some item') :
    (slots.set i new).filterMap select = (slots.filterMap select).set (rank select slots i) item' := by
  rw [set_around current, List.filterMap_append, List.filterMap_cons_some stays,
    filterMap_around current selected, rank, List.set_append_right _ _ (Nat.le_refl _), Nat.sub_self]
  rfl

end Selection

namespace EachPair

variable {R : Slot → Slot → Prop}

theorem nil : EachPair R ([] : List Slot) := by
  intro i j first second _ found _
  simp at found

/-- A new slot has to be related to all others, both ways. -/
theorem concat (pairs : EachPair R slots)
    (added : ∀ other ∈ slots, R new other ∧ R other new) : EachPair R (slots ++ [new]) := by
  intro i j first second different foundFirst foundSecond
  rcases getElem?_concat_cases foundFirst with ⟨iEnd, rfl⟩ | ⟨_, inFirst⟩
  · rcases getElem?_concat_cases foundSecond with ⟨jEnd, _⟩ | ⟨_, inSecond⟩
    · exact absurd (iEnd.trans jEnd.symm) different
    · exact (added second (List.mem_of_getElem? inSecond)).1
  · rcases getElem?_concat_cases foundSecond with ⟨_, rfl⟩ | ⟨_, inSecond⟩
    · exact (added first (List.mem_of_getElem? inFirst)).2
    · exact pairs i j first second different inFirst inSecond

/-- A changed slot has to be related to the slots that its old content was
related to. -/
theorem set (pairs : EachPair R slots) (current : slots[i]? = some old)
    (changed : ∀ other ∈ slots, R old other → R other old → R new other ∧ R other new) :
    EachPair R (slots.set i new) := by
  have renewed {j : Nat} {other : Slot} (different : j ≠ i) (found : slots[j]? = some other) :
      R new other ∧ R other new :=
    changed other (List.mem_of_getElem? found)
      (pairs i j old other (Ne.symm different) current found)
      (pairs j i other old different found current)
  intro j k first second different foundFirst foundSecond
  rcases getElem?_set_cases foundFirst with ⟨isI, rfl⟩ | ⟨notI, inFirst⟩
  · rcases getElem?_set_cases foundSecond with ⟨alsoI, _⟩ | ⟨notI, inSecond⟩
    · exact absurd (isI.trans alsoI.symm) different
    · exact (renewed notI inSecond).1
  · rcases getElem?_set_cases foundSecond with ⟨_, rfl⟩ | ⟨_, inSecond⟩
    · exact (renewed notI inFirst).2
    · exact pairs j k first second different inFirst inSecond

end EachPair

end MiniCloud.Library
