import Mathlib.Data.Finmap
import Mathlib.Data.Finset.Sort

/-!
# Versioned maps

The abstract object behind a key-value store with optimistic concurrency: a
finite map whose entries count the writes since the key was last created.  An
absent key has version zero, a write stores the next version, and a conditional
write succeeds exactly when the caller names the current version.
-/

namespace MiniCloud.Library

/-- A finite map from keys to values with the version of their last write. -/
abbrev VersionedMap (Key Value : Type) := Finmap fun _ : Key => Value × Nat

namespace VersionedMap

variable {Key Value : Type} [DecidableEq Key]

/-- The version a conditional write has to name; zero for an absent key. -/
def version (content : VersionedMap Key Value) (k : Key) : Nat :=
  match content.lookup k with
  | some (_, current) => current
  | none => 0

/-- Store a value under the next version of its key. -/
def put (content : VersionedMap Key Value) (k : Key) (value : Value) :
    VersionedMap Key Value :=
  content.insert k (value, content.version k + 1)

/-- Remove a key. -/
def delete (content : VersionedMap Key Value) (k : Key) : VersionedMap Key Value :=
  content.erase k

/-- Store a value if the expected version is the current one. -/
def compareAndSwap (content : VersionedMap Key Value) (k : Key) (value : Value)
    (expect : Nat) : Option (VersionedMap Key Value) :=
  if content.version k = expect then some (content.put k value) else none

/-- The keys selected by a test, in increasing order, with their content. -/
def list [LinearOrder Key] (content : VersionedMap Key Value) (selected : Key → Bool) :
    List (Key × Value × Nat) :=
  ((content.keys.filter fun k => selected k = true).sort (· ≤ ·)).filterMap fun k =>
    (content.lookup k).map fun stored => (k, stored)

@[simp]
theorem lookup_put_self (content : VersionedMap Key Value) (k : Key) (value : Value) :
    (content.put k value).lookup k = some (value, content.version k + 1) :=
  Finmap.lookup_insert content

theorem lookup_put_ne (content : VersionedMap Key Value) {k other : Key} (value : Value)
    (different : other ≠ k) : (content.put k value).lookup other = content.lookup other :=
  Finmap.lookup_insert_of_ne content different

@[simp]
theorem lookup_delete_self (content : VersionedMap Key Value) (k : Key) :
    (content.delete k).lookup k = none :=
  Finmap.lookup_erase k content

theorem lookup_delete_ne (content : VersionedMap Key Value) {k other : Key}
    (different : other ≠ k) : (content.delete k).lookup other = content.lookup other :=
  Finmap.lookup_erase_ne different

@[simp]
theorem version_put_self (content : VersionedMap Key Value) (k : Key) (value : Value) :
    (content.put k value).version k = content.version k + 1 := by
  simp [version]

/-- A conditional write succeeds exactly at the expected version, and is then
an ordinary write. -/
theorem compareAndSwap_eq_some_iff {content next : VersionedMap Key Value} {k : Key}
    {value : Value} {expect : Nat} :
    content.compareAndSwap k value expect = some next ↔
      content.version k = expect ∧ next = content.put k value := by
  unfold compareAndSwap
  split
  · rename_i current
    simp [current, eq_comm]
  · rename_i current
    simp [current]

/-- A listed triple is exactly a selected key with its content. -/
theorem mem_list_iff [LinearOrder Key] {content : VersionedMap Key Value}
    {selected : Key → Bool} {k : Key} {stored : Value × Nat} :
    (k, stored) ∈ content.list selected ↔
      selected k = true ∧ content.lookup k = some stored := by
  simp only [list, List.mem_filterMap, Finset.mem_sort, Finset.mem_filter,
    Finmap.mem_keys, Finmap.mem_iff, Option.map_eq_some_iff, Prod.mk.injEq]
  constructor
  · rintro ⟨key, ⟨_, isSelected⟩, found, present, rfl, rfl⟩
    exact ⟨isSelected, present⟩
  · rintro ⟨isSelected, present⟩
    exact ⟨k, ⟨⟨stored, present⟩, isSelected⟩, stored, present, rfl, rfl⟩

/-- The listing is strictly increasing in the key. -/
theorem list_sorted [LinearOrder Key] (content : VersionedMap Key Value)
    (selected : Key → Bool) :
    (content.list selected).Pairwise fun earlier later => earlier.1 < later.1 := by
  refine List.Pairwise.filterMap _ ?_
    (Finset.sortedLT_sort (content.keys.filter fun k => selected k = true)).pairwise
  intro first second below firstTriple firstEq secondTriple secondEq
  simp only [Option.map_eq_some_iff] at firstEq secondEq
  obtain ⟨_, _, rfl⟩ := firstEq
  obtain ⟨_, _, rfl⟩ := secondEq
  exact below

end VersionedMap

end MiniCloud.Library
