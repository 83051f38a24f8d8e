import Mathlib.Data.List.AList
import Mathlib.Data.List.Sort
import Mathlib.Data.String.Basic
import MiniCloud.Library.Replay

/-!
# Entries, log entries and the in-memory store

The data of the key-value store: the entries handed to clients, the journaled
operations, and the map that the journaled operations change.  Keys are Lean
strings, that is the Go strings that are valid UTF-8, on which `encoding/json`
is the identity.  Versions, indices and terms, of the type `uint64` in the source,
are natural numbers: each of them grows by one per operation, and the results are
about runs in which none of them reaches 2^64.  The wall-clock stamp `CreatedAt` of an entry is
left out, since nothing in the package reads it.
-/

namespace MiniCloud.Db

open MiniCloud.Library

/-- A byte string, the value of an entry. -/
abbrev Bytes := List UInt8

/-- The record handed to clients and to watchers. -/
structure Entry where
  key : String
  value : Bytes
  version : Nat
  deleted : Bool
  deriving DecidableEq, Repr

/-- The two journaled operations. -/
inductive LogOp where
  | put
  | del
  deriving DecidableEq, Repr

/-- A journaled operation with its place in the log. -/
structure LogEntry where
  index : Nat
  term : Nat
  op : LogOp
  key : String
  value : Bytes
  version : Nat
  deriving DecidableEq, Repr

namespace LogEntry

/-- The content that a log entry leaves under its key. -/
def effect (e : LogEntry) : Option (Bytes × Nat) :=
  match e.op with
  | .put => some (e.value, e.version)
  | .del => none

end LogEntry

/-- A map from keys to entries in which every entry sits under its own key. -/
structure EntryMap where
  entries : AList fun _ : String => Entry
  keyed : ∀ k e, entries.lookup k = some e → e.key = k

namespace EntryMap

def empty : EntryMap where
  entries := ∅
  keyed := by simp

/-- The assignment `entries[e.Key] = e`. -/
def insert (m : EntryMap) (e : Entry) : EntryMap where
  entries := m.entries.insert e.key e
  keyed := by
    intro k found stored
    by_cases same : k = e.key
    · subst same
      rw [AList.lookup_insert, Option.some.injEq] at stored
      rw [stored]
    · rw [AList.lookup_insert_ne same] at stored
      exact m.keyed k found stored

/-- The deletion `delete(entries, key)`. -/
def erase (m : EntryMap) (key : String) : EntryMap where
  entries := m.entries.erase key
  keyed := by
    intro k found stored
    by_cases same : k = key
    · subst same
      rw [AList.lookup_erase] at stored
      cases stored
    · rw [AList.lookup_erase_ne same] at stored
      exact m.keyed k found stored

def lookup (m : EntryMap) (key : String) : Option Entry :=
  m.entries.lookup key

/-- The map from keys to values and versions that the entries describe. -/
def view (m : EntryMap) : String → Option (Bytes × Nat) :=
  fun key => (m.lookup key).map fun e => (e.value, e.version)

@[simp]
theorem lookup_empty (key : String) : empty.lookup key = none := rfl

@[simp]
theorem lookup_insert_self (m : EntryMap) (e : Entry) :
    (m.insert e).lookup e.key = some e :=
  AList.lookup_insert m.entries

theorem lookup_insert_ne (m : EntryMap) {e : Entry} {key : String} (other : key ≠ e.key) :
    (m.insert e).lookup key = m.lookup key :=
  AList.lookup_insert_ne other

@[simp]
theorem lookup_erase_self (m : EntryMap) (key : String) :
    (m.erase key).lookup key = none :=
  AList.lookup_erase key m.entries

theorem lookup_erase_ne (m : EntryMap) {erased key : String} (other : key ≠ erased) :
    (m.erase erased).lookup key = m.lookup key :=
  AList.lookup_erase_ne other

theorem view_insert (m : EntryMap) (e : Entry) :
    (m.insert e).view = Function.update m.view e.key (some (e.value, e.version)) := by
  funext key
  by_cases same : key = e.key
  · subst same
    simp [view]
  · simp [view, lookup_insert_ne m same, Function.update_of_ne same]

theorem view_erase (m : EntryMap) (erased : String) :
    (m.erase erased).view = Function.update m.view erased none := by
  funext key
  by_cases same : key = erased
  · subst same
    simp [view]
  · simp [view, lookup_erase_ne m same, Function.update_of_ne same]

end EntryMap

/-- The in-memory map with its revision counter. -/
structure Store where
  entries : EntryMap
  version : Nat

namespace Store

def empty : Store := ⟨.empty, 0⟩

def get (s : Store) (key : String) : Option Entry := s.entries.lookup key

/-- The `switch e.Op` of `applyLocked`. -/
def apply (s : Store) (e : LogEntry) : Store :=
  match e.op with
  | .put => ⟨s.entries.insert ⟨e.key, e.value, e.version, false⟩, s.version + 1⟩
  | .del => ⟨s.entries.erase e.key, s.version + 1⟩

/-- Applying a log entry fixes the content of its key and nothing else. -/
theorem view_apply (s : Store) (e : LogEntry) :
    (s.apply e).entries.view = Function.update s.entries.view e.key e.effect := by
  unfold apply LogEntry.effect
  cases e.op with
  | put => exact EntryMap.view_insert s.entries _
  | del => exact EntryMap.view_erase s.entries e.key

/-- Applying log entries one after another is the replay of their effects. -/
theorem view_foldl_apply (s : Store) (log : List LogEntry) :
    (log.foldl apply s).entries.view =
      replay LogEntry.key LogEntry.effect s.entries.view log := by
  induction log using List.reverseRecOn with
  | nil => rfl
  | append_singleton log e ih =>
      rw [replay_concat, List.foldl_append, ← ih]
      exact view_apply _ e

end Store

/-- Whether the key starts with the given string. -/
def hasPrefix (s p : String) : Bool := p.toList.isPrefixOf s.toList

/-- The entries under a key range, sorted by key as `sort.Slice` leaves them. -/
def EntryMap.list (m : EntryMap) (pfx : String) : List Entry :=
  let out := (m.entries.entries.filter fun stored => hasPrefix stored.1 pfx).map fun stored =>
    stored.2
  out.insertionSort fun first second => first.key ≤ second.key

namespace EntryMap

/-- A listed entry is exactly a stored entry whose key has the given start. -/
theorem mem_list_iff {m : EntryMap} {pfx : String} {e : Entry} :
    e ∈ m.list pfx ↔ hasPrefix e.key pfx = true ∧ m.lookup e.key = some e := by
  unfold list
  rw [List.mem_insertionSort]
  simp only [List.mem_map, List.mem_filter]
  constructor
  · rintro ⟨⟨key, found⟩, ⟨member, selected⟩, rfl⟩
    have stored : m.lookup key = some found := AList.mem_lookup_iff.mpr member
    have sameKey : found.key = key := m.keyed key found stored
    rw [sameKey]
    exact ⟨selected, stored⟩
  · rintro ⟨selected, stored⟩
    exact ⟨⟨e.key, e⟩, ⟨AList.mem_lookup_iff.mp stored, selected⟩, rfl⟩

/-- The listing is strictly increasing in the key. -/
theorem list_sorted (m : EntryMap) (pfx : String) :
    (m.list pfx).Pairwise fun first second => first.key < second.key := by
  have weak : (m.list pfx).Pairwise fun first second => first.key ≤ second.key := by
    have : Std.Total fun first second : Entry => first.key ≤ second.key :=
      ⟨fun first second => le_total first.key second.key⟩
    have : IsTrans Entry fun first second => first.key ≤ second.key :=
      ⟨fun _ _ _ => le_trans⟩
    exact List.pairwise_insertionSort _ _
  have distinct : (m.list pfx).Pairwise fun first second => first.key ≠ second.key := by
    have keysNodup : (m.entries.entries.filter fun stored =>
        hasPrefix stored.1 pfx).Pairwise fun first second => first.1 ≠ second.1 :=
      (List.nodupKeys_iff_pairwise.mp m.entries.nodupKeys).filter _
    have entriesDistinct : ((m.entries.entries.filter fun stored =>
        hasPrefix stored.1 pfx).map fun stored => stored.2).Pairwise
          fun first second => first.key ≠ second.key := by
      rw [List.pairwise_map]
      refine keysNodup.imp_of_mem ?_
      intro first second firstMem secondMem differ
      have firstKey := m.keyed first.1 first.2
        (AList.mem_lookup_iff.mpr (List.mem_filter.mp firstMem).1)
      have secondKey := m.keyed second.1 second.2
        (AList.mem_lookup_iff.mpr (List.mem_filter.mp secondMem).1)
      rw [firstKey, secondKey]
      exact differ
    exact (List.perm_insertionSort _ _).symm.pairwise entriesDistinct (fun differ => differ.symm)
  exact (weak.and distinct).imp fun both => lt_of_le_of_ne both.1 both.2

/-- Listings with the same entries are the same. -/
theorem eq_of_sorted {first second : List Entry}
    (firstSorted : first.Pairwise fun earlier later => earlier.key < later.key)
    (secondSorted : second.Pairwise fun earlier later => earlier.key < later.key)
    (sameMembers : ∀ e, e ∈ first ↔ e ∈ second) : first = second := by
  have nodup {entries : List Entry}
      (sorted : entries.Pairwise fun earlier later => earlier.key < later.key) :
      entries.Nodup :=
    sorted.imp fun below same => absurd (congrArg Entry.key same) (ne_of_lt below)
  refine List.Perm.eq_of_pairwise ?_ firstSorted secondSorted
    ((List.perm_ext_iff_of_nodup (nodup firstSorted) (nodup secondSorted)).mpr sameMembers)
  intro earlier later _ _ below above
  exact absurd (lt_trans below above) (lt_irrefl _)

end EntryMap

end MiniCloud.Db
