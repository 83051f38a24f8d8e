import MiniCloud.Library.Runs
import MiniCloud.Volumes.Manager

/-!
# Exclusive attachment

`Attach` writes the node into the record and `Delete` removes the record, whatever the
status of the volume is.  So a volume that is in use on a node stays there until it is
detached exactly if the store itself refuses every attachment to another node and every
deletion in between.
-/

namespace MiniCloud.Volumes

open MiniCloud.Library

section Volume

variable (projectID id : String)

/-- The volume is in use on the node. -/
def InUse (nodeID : String) (s : Contents) : Prop :=
  ∃ v, s.volumes.lookup (projectID, id) = some v ∧ v.status = "InUse" ∧ v.nodeID = nodeID

/-- A call on the volume other than `Detach`. -/
inductive Holds : Call → Prop where
  | create (sizeBytes : Int) (nodeID : String) : Holds (.create projectID id sizeBytes nodeID)
  | attach (nodeID : String) : Holds (.attach projectID id nodeID)
  | delete : Holds (.delete projectID id)

/-- A call that takes the volume from the node. -/
def Call.Takes (nodeID : String) : Call → Prop
  | .attach _ _ nodeID' => nodeID' ≠ nodeID
  | .delete _ _ => True
  | _ => False

/-- The store refuses the call by itself. -/
def Refused (f : Faults) : Call → Prop
  | .attach _ _ _ => f.store ≠ none ∨ f.update ≠ none
  | _ => f.store ≠ none

/-- The volume stays in use on the node, and a call that would take it returns an error and
leaves the record and the file. -/
def StaysOn (m : Manager) (nodeID : String) (s : Contents) (label : Faults × Call) : Prop :=
  InUse projectID id nodeID (m.run label.1 s label.2).1 ∧
    (label.2.Takes nodeID →
      (m.run label.1 s label.2).2 ≠ none ∧ (m.run label.1 s label.2).1 = s)

variable {projectID id} {m : Manager} {f : Faults} {s : Contents} {nodeID : String} {call : Call}

/-! ## One call -/

theorem create_keeps (inUse : InUse projectID id nodeID s) (sizeBytes : Int) (nodeID' : String) :
    (m.create f projectID id sizeBytes nodeID' s).1 = s := by
  obtain ⟨v, found, _⟩ := inUse
  rw [Manager.create_eq]
  split
  · rfl
  cases f.store with
  | some err => rfl
  | none =>
      rw [found]

/-- An attachment that the store does not refuse. -/
theorem attach_writes (inUse : InUse projectID id nodeID s) (nodeID' : String)
    (asked : f.store = none) (updated : f.update = none) :
    (Manager.attach f projectID id nodeID' s).2 = none ∧
      InUse projectID id nodeID' (Manager.attach f projectID id nodeID' s).1 := by
  obtain ⟨v, found, _⟩ := inUse
  have written : Manager.attach f projectID id nodeID' s =
      (⟨s.tree, s.volumes.insert (projectID, id) { v with nodeID := nodeID', status := "InUse" }⟩,
        none) := by
    simp only [Manager.attach, Manager.modify, asked, found, updated]
  rw [written]
  exact ⟨rfl, _, AList.lookup_insert _, rfl, rfl⟩

theorem attach_refused (nodeID' : String) (inUse : InUse projectID id nodeID s)
    (refused : f.store ≠ none ∨ f.update ≠ none) :
    (Manager.attach f projectID id nodeID' s).2 ≠ none ∧
      (Manager.attach f projectID id nodeID' s).1 = s := by
  obtain ⟨v, found, _⟩ := inUse
  have kept : ∃ err, Manager.attach f projectID id nodeID' s = (s, some err) := by
    cases asked : f.store with
    | some err => exact ⟨.state err, by simp only [Manager.attach, Manager.modify, asked]⟩
    | none =>
        cases updated : f.update with
        | some err =>
            exact ⟨.state err, by simp only [Manager.attach, Manager.modify, asked, found, updated]⟩
        | none =>
            rcases refused with refused | refused
            · exact absurd asked refused
            · exact absurd updated refused
  obtain ⟨err, isKept⟩ := kept
  rw [isKept]
  exact ⟨Option.some_ne_none err, rfl⟩

theorem delete_refused (refused : f.store ≠ none) :
    (m.delete f projectID id s).2 ≠ none ∧ (m.delete f projectID id s).1 = s := by
  obtain ⟨err, asked⟩ := Option.ne_none_iff_exists'.mp refused
  have kept : m.delete f projectID id s = (s, some (.state err)) := by
    simp only [Manager.delete_eq, asked]
  rw [kept]
  exact ⟨Option.some_ne_none _, rfl⟩

theorem delete_removes (asked : f.store = none) :
    ¬InUse projectID id nodeID (m.delete f projectID id s).1 := by
  rintro ⟨v, found, _⟩
  rw [Manager.delete_eq] at found
  simp only [asked, AList.lookup_erase] at found
  cases found

/-- A call keeps the attachment exactly if it does not take the volume or is refused. -/
theorem staysOn_iff (inUse : InUse projectID id nodeID s) (holds : Holds projectID id call) :
    StaysOn projectID id m nodeID s (f, call) ↔ (call.Takes nodeID → Refused f call) := by
  cases holds with
  | create sizeBytes nodeID' =>
      have same : (m.run f s (.create projectID id sizeBytes nodeID')).1 = s :=
        create_keeps inUse sizeBytes nodeID'
      constructor
      · intro _ takes
        exact False.elim takes
      · intro _
        refine ⟨?_, fun takes => False.elim takes⟩
        rw [same]
        exact inUse
  | attach nodeID' =>
      by_cases refused : f.store ≠ none ∨ f.update ≠ none
      · obtain ⟨failed, same⟩ := attach_refused nodeID' inUse refused
        constructor
        · intro _ _
          exact refused
        · intro _
          refine ⟨?_, fun _ => ⟨failed, same⟩⟩
          change InUse projectID id nodeID (Manager.attach f projectID id nodeID' s).1
          rw [same]
          exact inUse
      · obtain ⟨asked, updated⟩ := not_or.mp refused
        obtain ⟨succeeded, attached⟩ :=
          attach_writes inUse nodeID' (not_not.mp asked) (not_not.mp updated)
        constructor
        · intro stays takes
          exact absurd succeeded (stays.2 takes).1
        · intro allowed
          have sameNode : nodeID' = nodeID := not_not.mp fun takes => refused (allowed takes)
          subst sameNode
          exact ⟨attached, fun takes => absurd rfl takes⟩
  | delete =>
      by_cases refused : f.store ≠ none
      · obtain ⟨failed, same⟩ := @delete_refused projectID id m f s refused
        constructor
        · intro _ _
          exact refused
        · intro _
          refine ⟨?_, fun _ => ⟨failed, same⟩⟩
          change InUse projectID id nodeID (m.delete f projectID id s).1
          rw [same]
          exact inUse
      · constructor
        · intro stays
          exact absurd stays.1 (delete_removes (not_not.mp refused))
        · intro allowed
          exact absurd (allowed trivial) refused

/-! ## Runs -/

/-- Along every run of calls without `Detach`, a volume that is in use stays in use on its
node, and all attempts to take it fail without a trace, exactly if the store refuses each of
them. -/
theorem attachment_exclusive_iff {labels : List (Faults × Call)}
    (inUse : InUse projectID id nodeID s)
    (holds : ∀ label ∈ labels, Holds projectID id label.2) :
    Guarded m.step (StaysOn projectID id m nodeID) s labels ↔
      ∀ label ∈ labels, label.2.Takes nodeID → Refused label.1 label.2 := by
  induction labels generalizing s with
  | nil =>
      constructor
      · intro _ label member
        cases member
      · intro _
        trivial
  | cons label rest ih =>
      obtain ⟨holdsFirst, holdsRest⟩ := List.forall_mem_cons.mp holds
      have first := @staysOn_iff projectID id m label.1 s nodeID label.2 inUse holdsFirst
      rw [Guarded, List.forall_mem_cons, ← first]
      constructor
      · rintro ⟨stays, later⟩
        exact ⟨stays, (ih stays.1 holdsRest).mp (later _ rfl)⟩
      · rintro ⟨stays, allowed⟩
        refine ⟨stays, ?_⟩
        intro next stepped
        cases Option.some.inj stepped
        exact (ih stays.1 holdsRest).mpr allowed

end Volume

/-- A volume that is in use on the node `a`. -/
def attached : Contents where
  tree := ∅
  volumes := AList.insert ("p", "v") ⟨⟨"v", "p", "v"⟩, 8, "a", "InUse"⟩ ∅

/-- A second attachment to the same node, and a deletion that the store refuses. -/
theorem attachment_exclusive_sample :
    Guarded Manager.sample.step (StaysOn "p" "v" .sample "a") attached
      [(.none, .attach "p" "v" "a"),
        ({ Faults.none with store := some ⟨"in use"⟩ }, .delete "p" "v")] := by
  have inUse : InUse "p" "v" "a" attached :=
    ⟨⟨⟨"v", "p", "v"⟩, 8, "a", "InUse"⟩, AList.lookup_insert _, rfl, rfl⟩
  refine (attachment_exclusive_iff inUse ?_).mpr ?_
  · exact List.forall_mem_cons.mpr ⟨.attach "a", List.forall_mem_singleton.mpr .delete⟩
  · refine List.forall_mem_cons.mpr ⟨fun takes => absurd rfl takes, ?_⟩
    exact List.forall_mem_singleton.mpr fun _ => Option.some_ne_none _

/-- A volume that is created and attached to `a` can be attached to `b`, and can be deleted,
without an error. -/
theorem attachment_taken :
    ∃ s, execute Manager.sample.step ⟨∅, ∅⟩
        [(.none, .create "p" "v" 8 "n"), (.none, .attach "p" "v" "a")] = some s ∧
      s.volumes.lookup ("p", "v") = some ⟨⟨"v", "p", "v"⟩, 8, "a", "InUse"⟩ ∧
      (Manager.sample.run .none s (.attach "p" "v" "b")).2 = none ∧
      (Manager.sample.run .none s (.attach "p" "v" "b")).1.volumes.lookup ("p", "v") =
        some ⟨⟨"v", "p", "v"⟩, 8, "b", "InUse"⟩ ∧
      (Manager.sample.run .none s (.delete "p" "v")).2 = none ∧
      (Manager.sample.run .none s (.delete "p" "v")).1.volumes.lookup ("p", "v") = none :=
  exists_of_execute_test Manager.sample.step ⟨∅, ∅⟩
    [(.none, .create "p" "v" 8 "n"), (.none, .attach "p" "v" "a")]
    (fun s => s.volumes.lookup ("p", "v") = some ⟨⟨"v", "p", "v"⟩, 8, "a", "InUse"⟩ ∧
      (Manager.sample.run .none s (.attach "p" "v" "b")).2 = none ∧
      (Manager.sample.run .none s (.attach "p" "v" "b")).1.volumes.lookup ("p", "v") =
        some ⟨⟨"v", "p", "v"⟩, 8, "b", "InUse"⟩ ∧
      (Manager.sample.run .none s (.delete "p" "v")).2 = none ∧
      (Manager.sample.run .none s (.delete "p" "v")).1.volumes.lookup ("p", "v") = none)
    (by decide +kernel)

end MiniCloud.Volumes
