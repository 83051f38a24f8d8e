import Mathlib.Algebra.BigOperators.Group.Finset.Basic
import Mathlib.Algebra.GroupWithZero.Nat
import Mathlib.Data.List.Nodup
import Mathlib.Logic.Function.Basic
import Mathlib.Tactic.Common

/-!
# First-fit filling

Items are put one after another into the first slot whose quota is not used up.
The use is counted by key, and slots may share one.  The lemmas say what is chosen as a
whole, and how often each key is, whatever the order of the slots.
-/

namespace MiniCloud.Library

variable {Slot Key : Type*} [DecidableEq Key]

/-- The slots chosen for at most `count` items, given what is used already. -/
def firstFit (key : Slot → Key) (quota : Slot → Nat) (slots : List Slot) :
    Nat → (Key → Nat) → List Slot
  | 0, _ => []
  | count + 1, used =>
      match slots.find? fun slot => used (key slot) < quota slot with
      | none => []
      | some slot =>
          slot :: firstFit key quota slots count
            (Function.update used (key slot) (used (key slot) + 1))

variable {key : Slot → Key} {quota : Slot → Nat} {slots : List Slot}

/-- Only slots with some quota left are chosen. -/
theorem mem_firstFit {count : Nat} {used : Key → Nat} {slot : Slot}
    (chosen : slot ∈ firstFit key quota slots count used) : slot ∈ slots := by
  induction count generalizing used with
  | zero => cases chosen
  | succ count ih =>
      unfold firstFit at chosen
      split at chosen
      · cases chosen
      · rename_i first found
        rcases List.mem_cons.mp chosen with isFirst | later
        · rw [isFirst]
          exact List.mem_of_find?_eq_some found
        · exact ih later

/-- With a free slot the first item is put somewhere. -/
theorem firstFit_ne_nil {count : Nat} {used : Key → Nat} {slot : Slot} (member : slot ∈ slots)
    (room : used (key slot) < quota slot) (items : 0 < count) :
    firstFit key quota slots count used ≠ [] := by
  obtain ⟨rest, rfl⟩ := Nat.exists_eq_succ_of_ne_zero (Nat.ne_of_gt items)
  unfold firstFit
  split
  · rename_i notFound
    exact absurd (decide_eq_true room) (List.find?_eq_none.mp notFound slot member)
  · exact List.cons_ne_nil _ _

/-! ## The filling as a whole -/

/-- The largest quota of a slot with the key. -/
def offered (key : Slot → Key) (quota : Slot → Nat) : List Slot → Key → Nat
  | [], _ => 0
  | slot :: rest, k =>
      if key slot = k then max (quota slot) (offered key quota rest k)
      else offered key quota rest k

/-- Every slot as often as its quota exceeds what is used of its key when it is reached. -/
def roomFor (key : Slot → Key) (quota : Slot → Nat) : List Slot → (Key → Nat) → List Slot
  | [], _ => []
  | slot :: rest, used =>
      List.replicate (quota slot - used (key slot)) slot ++
        roomFor key quota rest
          (Function.update used (key slot) (max (used (key slot)) (quota slot)))

theorem offered_append (first second : List Slot) (k : Key) :
    offered key quota (first ++ second) k =
      max (offered key quota first k) (offered key quota second k) := by
  induction first with
  | nil => exact (Nat.zero_max _).symm
  | cons slot rest ih =>
      rw [List.cons_append, offered, offered, ih]
      split
      · exact (Nat.max_assoc ..).symm
      · rfl

theorem offered_of_absent {k : Key} (absent : k ∉ slots.map key) : offered key quota slots k = 0 := by
  induction slots with
  | nil => rfl
  | cons slot rest ih =>
      obtain ⟨different, absentRest⟩ := not_or.mp (List.mem_cons.not.mp absent)
      rw [offered, if_neg (Ne.symm different), ih absentRest]

theorem quota_le_offered {slot : Slot} (member : slot ∈ slots) :
    quota slot ≤ offered key quota slots (key slot) := by
  obtain ⟨before, after, rfl⟩ := List.append_of_mem member
  rw [offered_append, offered, if_pos rfl]
  omega

/-- The slot at which the largest quota of its key reaches a given number. -/
theorem exists_reaching {k : Key} {place : Nat} (positive : 0 < place)
    (allowed : place ≤ offered key quota slots k) :
    ∃ before slot after, slots = before ++ slot :: after ∧ key slot = k ∧
      offered key quota before k < place ∧ place ≤ quota slot := by
  induction slots using List.reverseRecOn with
  | nil =>
      change place ≤ 0 at allowed
      omega
  | append_singleton init last ih =>
      by_cases earlier : place ≤ offered key quota init k
      · obtain ⟨before, slot, after, rfl, reached⟩ := ih earlier
        exact ⟨before, slot, after ++ [last], by simp, reached⟩
      · rw [offered_append, offered, offered] at allowed
        split at allowed
        · rename_i isKey
          exact ⟨init, last, [], rfl, isKey, by omega, by omega⟩
        · omega

theorem roomFor_append (first second : List Slot) (used : Key → Nat) :
    roomFor key quota (first ++ second) used =
      roomFor key quota first used ++
        roomFor key quota second fun k => max (used k) (offered key quota first k) := by
  induction first generalizing used with
  | nil =>
      simp only [offered, Nat.max_zero]
      rfl
  | cons slot rest ih =>
      rw [List.cons_append, roomFor, roomFor, ih, List.append_assoc]
      congr 3
      funext k
      by_cases isKey : key slot = k
      · subst isKey
        rw [Function.update_self, offered, if_pos rfl, Nat.max_assoc]
      · rw [Function.update_of_ne (Ne.symm isKey), offered, if_neg isKey]

/-- Slots whose quotas are used up have no room and change nothing for the others. -/
theorem roomFor_full {before : List Slot} {used : Key → Nat}
    (full : ∀ slot ∈ before, quota slot ≤ used (key slot)) (rest : List Slot) :
    roomFor key quota (before ++ rest) used = roomFor key quota rest used := by
  induction before with
  | nil => rfl
  | cons slot others ih =>
      have none := full slot List.mem_cons_self
      rw [List.cons_append, roomFor, Nat.sub_eq_zero_of_le none, Nat.max_eq_left none,
        Function.update_eq_self, ih fun other member => full other (List.mem_cons_of_mem _ member)]
      rfl

/-- First-fit filling uses up the room of the slots from the front. -/
theorem firstFit_eq_take (count : Nat) (used : Key → Nat) :
    firstFit key quota slots count used = (roomFor key quota slots used).take count := by
  induction count generalizing used with
  | zero => rfl
  | succ count ih =>
      unfold firstFit
      split
      · rename_i notFound
        have full : ∀ slot ∈ slots, quota slot ≤ used (key slot) := by
          intro slot member
          simpa using List.find?_eq_none.mp notFound slot member
        have empty := roomFor_full full []
        rw [List.append_nil] at empty
        rw [empty]
        rfl
      · rename_i slot found
        obtain ⟨free, before, after, rfl, passed⟩ := List.find?_eq_some_iff_append.mp found
        have room : used (key slot) < quota slot := of_decide_eq_true free
        have full : ∀ other ∈ before, quota other ≤ used (key other) := by
          intro other member
          simpa using passed other member
        have stillFull : ∀ other ∈ before, quota other ≤
            Function.update used (key slot) (used (key slot) + 1) (key other) := by
          intro other member
          refine (full other member).trans ?_
          by_cases isKey : key other = key slot
          · rw [isKey, Function.update_self]
            omega
          · rw [Function.update_of_ne isKey]
        rw [ih, roomFor_full full, roomFor_full stillFull, roomFor, roomFor, Function.update_self,
          Function.update_idem, Nat.max_eq_right room, Nat.max_eq_right (Nat.le_of_lt room)]
        -- one place of the chosen slot is taken and the others stay
        have onePlace : quota slot - used (key slot) =
            (quota slot - (used (key slot) + 1)) + 1 := by omega
        rw [onePlace, List.replicate_succ, List.cons_append, List.take_succ_cons]

/-! ## Counting -/

/-- The places of the slots, counted once for each key. -/
def capacity (key : Slot → Key) (quota : Slot → Nat) (slots : List Slot) : Nat :=
  ∑ k ∈ (slots.map key).toFinset, offered key quota slots k

theorem count_roomFor (used : Key → Nat) (k : Key) :
    ((roomFor key quota slots used).map key).count k = offered key quota slots k - used k := by
  induction slots generalizing used with
  | nil => exact (Nat.zero_sub _).symm
  | cons slot rest ih =>
      rw [roomFor, List.map_append, List.count_append, ih, List.map_replicate, offered]
      by_cases isKey : key slot = k
      · subst isKey
        rw [List.count_replicate_self, Function.update_self, if_pos rfl]
        omega
      · rw [List.count_replicate, if_neg (by simpa using isKey),
          Function.update_of_ne (Ne.symm isKey), if_neg isKey, Nat.zero_add]

theorem length_roomFor : (roomFor key quota slots fun _ => 0).length = capacity key quota slots := by
  have counted (k : Key) :
      ((roomFor key quota slots fun _ => 0).map key).count k = offered key quota slots k := by
    rw [count_roomFor, Nat.sub_zero]
  have listed : ((roomFor key quota slots fun _ => 0).map key).toFinset ⊆
      (slots.map key).toFinset := by
    intro k member
    by_contra absent
    have some := List.count_pos_iff.mpr (List.mem_toFinset.mp member)
    rw [counted, offered_of_absent fun isKey => absent (List.mem_toFinset.mpr isKey)] at some
    cases some
  rw [← List.length_map (key), ← List.sum_toFinset_count_eq_length, capacity]
  simp only [counted]
  refine Finset.sum_subset listed ?_
  intro k _ absent
  rw [← counted]
  exact List.count_eq_zero.mpr fun member => absent (List.mem_toFinset.mpr member)

/-- A slot that allows more of its key than those before it adds to the places. -/
theorem capacity_lt_capacity {before after : List Slot} {slot : Slot}
    (room : offered key quota before (key slot) < quota slot) :
    capacity key quota before < capacity key quota (before ++ slot :: after) := by
  rw [← length_roomFor, ← length_roomFor, roomFor_append, roomFor, List.length_append,
    List.length_append, List.length_replicate]
  omega

/-- As many items are placed as the slots have room for. -/
theorem length_firstFit (count : Nat) :
    (firstFit key quota slots count fun _ => 0).length = min count (capacity key quota slots) := by
  rw [firstFit_eq_take, List.length_take, length_roomFor]

/-- A key is used at most as often as one of its slots allows. -/
theorem count_firstFit_le (count : Nat) (k : Key) :
    ((firstFit key quota slots count fun _ => 0).map key).count k ≤
      min count (offered key quota slots k) := by
  refine Nat.le_min.mpr ⟨?_, ?_⟩
  · refine List.count_le_length.trans ?_
    rw [List.length_map, length_firstFit]
    exact Nat.min_le_left _ _
  · rw [firstFit_eq_take, ← Nat.sub_zero (offered key quota slots k), ← count_roomFor fun _ => 0]
    exact ((List.take_sublist _ _).map key).count_le k

/-- The next place of a key is taken once the slots before it are full. -/
theorem le_count_firstFit_iff {before after : List Slot} {slot : Slot} {place : Nat}
    (next : offered key quota before (key slot) < place) (allowed : place ≤ quota slot)
    (count : Nat) :
    place ≤ ((firstFit key quota (before ++ slot :: after) count fun _ => 0).map key).count
        (key slot) ↔
      capacity key quota before + place ≤ count + offered key quota before (key slot) := by
  have filled : (roomFor key quota before fun _ => 0).length = capacity key quota before :=
    length_roomFor
  have usedBefore : ((roomFor key quota before fun _ => 0).map key).count (key slot) =
      offered key quota before (key slot) := by
    rw [count_roomFor, Nat.sub_zero]
  rw [firstFit_eq_take, roomFor_append, roomFor, Nat.zero_max]
  generalize roomFor key quota after _ = behind
  rw [List.take_append, List.take_append, filled, List.length_replicate, List.take_replicate]
  simp only [List.map_append, List.count_append, List.map_replicate, List.count_replicate_self]
  by_cases reached : capacity key quota before ≤ count
  · rw [List.take_of_length_le (filled.trans_le reached), usedBefore]
    by_cases within : count - capacity key quota before ≤
        quota slot - offered key quota before (key slot)
    · rw [Nat.sub_eq_zero_of_le within, List.take_zero, List.map_nil, List.count_nil]
      omega
    · omega
  · have short := ((List.take_sublist count (roomFor key quota before fun _ => 0)).map key).count_le
      (key slot)
    rw [usedBefore] at short
    have nothing : count - capacity key quota before = 0 := by omega
    rw [nothing, Nat.zero_sub, List.take_zero, List.map_nil, List.count_nil]
    omega

/-! ## Slots with different keys -/

theorem offered_of_distinct (distinct : (slots.map key).Nodup) {slot : Slot}
    (member : slot ∈ slots) : offered key quota slots (key slot) = quota slot := by
  obtain ⟨before, after, rfl⟩ := List.append_of_mem member
  rw [List.map_append, List.map_cons] at distinct
  have apart := List.nodup_middle.mp distinct
  rw [List.nodup_cons, List.mem_append, not_or] at apart
  rw [offered_append, offered, if_pos rfl, offered_of_absent apart.1.1, offered_of_absent apart.1.2,
    Nat.max_zero, Nat.zero_max]

theorem capacity_of_distinct (distinct : (slots.map key).Nodup) :
    capacity key quota slots = (slots.map quota).sum := by
  rw [capacity, List.sum_toFinset _ distinct, List.map_map]
  refine congrArg List.sum (List.map_congr_left ?_)
  intro slot member
  exact offered_of_distinct distinct member

/-- A slot gets what the slots before it leave, up to its quota. -/
theorem count_firstFit_of_distinct {before after : List Slot} {slot : Slot}
    (distinct : ((before ++ slot :: after).map key).Nodup) (count : Nat) :
    ((firstFit key quota (before ++ slot :: after) count fun _ => 0).map key).count (key slot) =
      min (quota slot) (count - (before.map quota).sum) := by
  have most := @count_firstFit_le _ _ _ key quota (before ++ slot :: after) count (key slot)
  rw [offered_of_distinct distinct (List.mem_append_right _ List.mem_cons_self)] at most
  rw [List.map_append, List.map_cons] at distinct
  have apart := (List.nodup_cons.mp (List.nodup_middle.mp distinct)).1
  have fresh : offered key quota before (key slot) = 0 :=
    offered_of_absent fun earlier => apart (List.mem_append_left _ earlier)
  have full := @capacity_of_distinct _ _ _ _ quota _ (List.nodup_append.mp distinct).1
  have next : ∀ place, 0 < place → place ≤ quota slot →
      (place ≤ ((firstFit key quota (before ++ slot :: after) count fun _ => 0).map key).count
        (key slot) ↔ (before.map quota).sum + place ≤ count) := by
    intro place positive allowed
    rw [le_count_firstFit_iff (by omega) allowed, fresh, full, Nat.add_zero]
  -- the places from the first to the last one that fits are taken
  generalize ((firstFit key quota (before ++ slot :: after) count fun _ => 0).map key).count
    (key slot) = placed at most next ⊢
  refine Nat.le_antisymm ?_ ?_
  · by_cases some : 0 < placed
    · have reached := (next placed some (by omega)).mp le_rfl
      omega
    · omega
  · by_cases some : 0 < min (quota slot) (count - (before.map quota).sum)
    · exact (next _ some (Nat.min_le_left _ _)).mpr (by omega)
    · omega

/-! ## Slots that are not chosen -/

theorem roomFor_of_distinct (distinct : (slots.map key).Nodup) {used : Key → Nat}
    (unused : ∀ slot ∈ slots, used (key slot) = 0) :
    roomFor key quota slots used = slots.flatMap fun slot => List.replicate (quota slot) slot := by
  induction slots generalizing used with
  | nil => rfl
  | cons slot rest ih =>
      obtain ⟨apart, distinctRest⟩ := List.nodup_cons.mp distinct
      rw [roomFor, List.flatMap_cons, unused slot List.mem_cons_self, Nat.sub_zero,
        ih distinctRest]
      intro other member
      have different : key other ≠ key slot := fun same =>
        apart (same ▸ List.mem_map_of_mem member)
      rw [Function.update_of_ne different]
      exact unused other (List.mem_cons_of_mem _ member)

theorem firstFit_of_distinct (distinct : (slots.map key).Nodup) (count : Nat) :
    firstFit key quota slots count (fun _ => 0) =
      (slots.flatMap fun slot => List.replicate (quota slot) slot).take count := by
  rw [firstFit_eq_take, roomFor_of_distinct distinct fun _ _ => rfl]

/-- Leaving out what comes behind the first elements does not change them. -/
theorem take_filter_eq {α : Type*} {keep : α → Bool} {count : Nat} {l : List α}
    (kept : ∀ x ∈ l.take count, keep x = true) : (l.filter keep).take count = l.take count := by
  induction l generalizing count with
  | nil => rfl
  | cons x rest ih =>
      cases count with
      | zero => rw [List.take_zero, List.take_zero]
      | succ count =>
          rw [List.take_succ_cons] at kept ⊢
          rw [List.filter_cons_of_pos (kept x List.mem_cons_self), List.take_succ_cons,
            ih fun y member => kept y (List.mem_cons_of_mem _ member)]

/-- Without slots that are not chosen the same slots are chosen. -/
theorem firstFit_filter (distinct : (slots.map key).Nodup) {keep : Slot → Bool} {count : Nat}
    (kept : ∀ slot ∈ firstFit key quota slots count fun _ => 0, keep slot = true) :
    firstFit key quota (slots.filter keep) count (fun _ => 0) =
      firstFit key quota slots count fun _ => 0 := by
  have distinctKept : ((slots.filter keep).map key).Nodup :=
    distinct.sublist (List.filter_sublist.map key)
  have room : (slots.filter keep).flatMap (fun slot => List.replicate (quota slot) slot) =
      (slots.flatMap fun slot => List.replicate (quota slot) slot).filter keep := by
    clear distinct distinctKept kept
    induction slots with
    | nil => rfl
    | cons slot rest ih =>
        rw [List.flatMap_cons, List.filter_append, ← ih, List.filter_replicate]
        cases keeps : keep slot with
        | true => rw [List.filter_cons_of_pos keeps, List.flatMap_cons, if_pos rfl]
        | false =>
            rw [List.filter_cons_of_neg (Bool.eq_false_iff.mp keeps), if_neg Bool.false_ne_true,
              List.nil_append]
  rw [firstFit_of_distinct distinct] at kept ⊢
  rw [firstFit_of_distinct distinctKept, room, take_filter_eq kept]

end MiniCloud.Library
