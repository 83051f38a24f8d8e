import MiniCloud.Dns.Query
import MiniCloud.Library.Grouping
import MiniCloud.State.Methods

/-!
# Refreshing the zone

`refreshZone` lists the projects and then the records of each, and replaces the zone by
what it has read.  It returns without a change if the projects cannot be listed.  The
error of a list of records is dropped: the records that were not read are then missing
from the new zone.
-/

namespace MiniCloud.Dns

open MiniCloud.Library
open MiniCloud.State (Listing StoreError)

/-- What the store holds, and what its reads return during one refresh.  A read that does
not fail returns everything; one that fails returns some part, which may be empty. -/
structure Reads where
  /-- The IDs of the projects in the order of their list. -/
  projects : List String
  records : String → List DNSRecord
  listProjects : Option StoreError
  listDNS : String → Listing DNSRecord
  complete : ∀ projectID, (listDNS projectID).2 = none → (listDNS projectID).1 = records projectID
  part : ∀ projectID, (listDNS projectID).1.Sublist (records projectID)

/-- The bytes of a name. -/
def bytesOf (name : String) : Bytes := name.toList.map fun c => UInt8.ofNat c.toNat

/-- The name of a record in the zone. -/
def fullName (lib : Lib) (r : DNSRecord) : Bytes := lib.toLower (bytesOf r.base.name)

/-- The server after a refresh, and the error that it returns. -/
def refreshZone (lib : Lib) (reads : Reads) (srv : Server) : Server × Option StoreError :=
  match reads.listProjects with
  | some err => (srv, some err)
  | none =>
      let newZone := reads.projects.foldl (fun newZone p =>
        (reads.listDNS p).1.foldl (Grouping.add (fullName lib)) newZone) ∅
      ({ srv with zoneData := newZone }, none)

/-! ## What a refresh leaves -/

namespace Reads

/-- The records of all projects. -/
def stored (reads : Reads) : List DNSRecord := reads.projects.flatMap reads.records

/-- The records that are read. -/
def returned (reads : Reads) : List DNSRecord :=
  reads.projects.flatMap fun p => (reads.listDNS p).1

/-- Some read fails. -/
def Fails (reads : Reads) : Prop :=
  reads.listProjects ≠ none ∨ ∃ p ∈ reads.projects, (reads.listDNS p).2 ≠ none

end Reads

/-- The zone stays as it was after a failed read, or becomes that of all records. -/
def CompleteOrUnchanged (lib : Lib) (reads : Reads) (srv srv' : Server) : Prop :=
  (reads.Fails ∧ ∀ name, srv'.zoneData.lookup name = srv.zoneData.lookup name) ∨
    Grouping.IsGrouping (fullName lib) srv'.zoneData reads.stored

theorem refreshZone_fails {lib : Lib} {reads : Reads} (fails : reads.listProjects ≠ none)
    (srv : Server) : (refreshZone lib reads srv).1 = srv := by
  obtain ⟨err, failed⟩ := Option.ne_none_iff_exists'.mp fails
  rw [refreshZone, failed]

/-- Otherwise the new zone is that of the records that were read. -/
theorem refreshZone_groups {lib : Lib} {reads : Reads} (listed : reads.listProjects = none)
    (srv : Server) :
    Grouping.IsGrouping (fullName lib) (refreshZone lib reads srv).1.zoneData reads.returned := by
  have loops : (refreshZone lib reads srv).1.zoneData =
      reads.returned.foldl (Grouping.add (fullName lib)) ∅ := by
    rw [refreshZone, listed, Reads.returned, List.foldl_flatMap]
  rw [loops]
  exact Grouping.isGrouping_empty.foldl reads.returned

/-- Parts of lists, one after another, are parts of the whole, and make it up only if each
is all of its list. -/
theorem flatMap_parts {Index Item : Type*} {part whole : Index → List Item}
    (parts : ∀ i, (part i).Sublist (whole i)) (indices : List Index) :
    (indices.flatMap part).Sublist (indices.flatMap whole) ∧
      (indices.flatMap part = indices.flatMap whole ↔ ∀ i ∈ indices, part i = whole i) := by
  induction indices with
  | nil => exact ⟨List.Sublist.slnil, iff_of_true rfl fun i listed => absurd listed List.not_mem_nil⟩
  | cons i rest ih =>
      obtain ⟨sub, same⟩ := ih
      rw [List.flatMap_cons, List.flatMap_cons]
      refine ⟨(parts i).append sub, ?_⟩
      rw [List.forall_mem_cons, ← same]
      constructor
      · intro joined
        have lengths := congrArg List.length joined
        rw [List.length_append, List.length_append] at lengths
        have firstLength := (parts i).length_le
        have restLength := sub.length_le
        exact ⟨(parts i).eq_of_length (by omega), sub.eq_of_length (by omega)⟩
      · rintro ⟨first, others⟩
        rw [first, others]

/-- A refresh is complete or has no effect exactly if the projects cannot be listed, or each
project's records are all read, or the zone was already that of the records read. -/
theorem refresh_complete_or_unchanged_iff (lib : Lib) (reads : Reads) (srv : Server) :
    CompleteOrUnchanged lib reads srv (refreshZone lib reads srv).1 ↔
      reads.listProjects ≠ none ∨
        (∀ p ∈ reads.projects, (reads.listDNS p).1 = reads.records p) ∨
        ((∃ p ∈ reads.projects, (reads.listDNS p).2 ≠ none) ∧
          Grouping.IsGrouping (fullName lib) srv.zoneData reads.returned) := by
  by_cases listed : reads.listProjects = none
  · have groups : Grouping.IsGrouping (fullName lib) (refreshZone lib reads srv).1.zoneData
        reads.returned := refreshZone_groups listed srv
    obtain ⟨sub, whole⟩ := flatMap_parts reads.part reads.projects
    have all : Grouping.IsGrouping (fullName lib) (refreshZone lib reads srv).1.zoneData reads.stored ↔
        ∀ p ∈ reads.projects, (reads.listDNS p).1 = reads.records p := by
      rw [groups.congr_iff, ← whole]
      constructor
      · exact Grouping.eq_of_under_eq sub
      · intro same name
        rw [Reads.returned, same, Reads.stored]
    rw [CompleteOrUnchanged, all, groups.lookup_iff, Reads.Fails, or_iff_right (not_not.mpr listed),
      or_iff_right (not_not.mpr listed)]
    exact or_comm
  · rw [refreshZone_fails listed]
    exact iff_of_true (Or.inl ⟨Or.inl listed, fun _ => rfl⟩) (Or.inl listed)

/-- The record of a name of one letter in a project. -/
def recordOf (projectID name : String) : DNSRecord :=
  ⟨⟨name ++ "." ++ projectID, projectID, name⟩, "10.0.0.1"⟩

/-- The project `p` has the name `a`, and `q` has `b`. -/
def twoProjects (projectID : String) : List DNSRecord :=
  if projectID = "p" then [recordOf "p" "a"]
  else if projectID = "q" then [recordOf "q" "b"]
  else []

/-- The list of the records of `q` fails. -/
def failsForQ : Reads where
  projects := ["p", "q"]
  records := twoProjects
  listProjects := none
  listDNS := fun projectID =>
    if projectID = "q" then ([], some ⟨"context deadline exceeded"⟩) else (twoProjects projectID, none)
  complete := by
    intro projectID succeeded
    split at succeeded
    · cases succeeded
    · rename_i other
      rw [if_neg other]
  part := by
    intro projectID
    split
    · exact List.nil_sublist _
    · exact List.Sublist.refl _

/-- The zone of both projects. -/
def bothNames : Server :=
  ⟨AList.insert [98] [recordOf "q" "b"] (AList.singleton [97] [recordOf "p" "a"])⟩

/-- A refresh drops the names of a project whose records could not be listed. -/
theorem refresh_drops_project :
    (refreshZone plainLib failsForQ bothNames).2 = none ∧
      bothNames.zoneData.lookup [98] = some [recordOf "q" "b"] ∧
      (refreshZone plainLib failsForQ bothNames).1.zoneData.lookup [97] = some [recordOf "p" "a"] ∧
      (refreshZone plainLib failsForQ bothNames).1.zoneData.lookup [98] = none ∧
      ¬CompleteOrUnchanged plainLib failsForQ bothNames (refreshZone plainLib failsForQ bothNames).1 := by
  have before : bothNames.zoneData.lookup [98] = some [recordOf "q" "b"] := by decide
  have dropped : (refreshZone plainLib failsForQ bothNames).1.zoneData.lookup [98] = none := by
    decide +kernel
  refine ⟨rfl, before, by decide +kernel, dropped, ?_⟩
  rintro (⟨_, unchanged⟩ | complete)
  · have same := unchanged [98]
    rw [dropped, before] at same
    cases same
  · have whole := complete.getD [98]
    rw [dropped] at whole
    revert whole
    decide +kernel

end MiniCloud.Dns
