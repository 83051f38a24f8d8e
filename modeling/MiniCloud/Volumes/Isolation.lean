import MiniCloud.Library.Runs
import MiniCloud.Volumes.Manager

/-!
# The files of volumes

`Create` and `Delete` write the file of the volume that they name, and `Snapshot` the
file of the snapshot.  The bytes of a volume change exactly with its file, and two names
share a file if they are cleaned to one path; a snapshot has no record and shares the
file of the volume with its ID.  A project that is a plain name and IDs without slashes
keep all files apart and inside their projects.
-/

namespace MiniCloud.Volumes

open MiniCloud.Library
open MiniCloud.Library.Path

/-- The project and the ID whose file a call writes. -/
def Call.writes : Call → Option (String × String)
  | .create projectID id _ _ => some (projectID, id)
  | .delete projectID id => some (projectID, id)
  | .snapshot projectID _ snapID => some (projectID, snapID)
  | .attach _ _ _ => none
  | .detach _ _ => none

/-- A project that is one name, and an ID without slashes. -/
structure Proper (projectID id : String) : Prop where
  project : Plain projectID
  noSlash : '/' ∉ id.toList

namespace Manager

variable (m : Manager)

/-- The directory of a project. -/
def dir (projectID : String) : Path := Path.join [m.root, projectID]

/-- The call writes another file than that of the volume. -/
def Spares (projectID id : String) (call : Call) : Prop :=
  ∀ target, call.writes = some target → m.path target.1 target.2 ≠ m.path projectID id

variable {m} {f : Faults} {projectID id : String} {s t : Contents}

/-! ## What the calls touch -/

theorem createFile_keeps (sizeBytes : Int) (tree : FileTree) :
    FileTree.Keeps (m.path projectID id) tree (m.createFile f projectID id sizeBytes tree).1 := by
  unfold createFile
  split
  · exact FileTree.Keeps.refl _ _
  split
  · exact FileTree.Keeps.refl _ _
  rename_i made isMade
  have kept : FileTree.Keeps (m.path projectID id) tree made := FileTree.keeps_mkdirAll isMade
  split
  · exact kept
  split
  · exact kept
  rename_i isOpened
  have keptOpen := kept.trans (FileTree.keeps_openFile isOpened)
  split
  · exact keptOpen
  · exact keptOpen.trans (FileTree.keeps_write _ _ _)

theorem removeFile_keeps (tree : FileTree) :
    FileTree.Keeps (m.path projectID id) tree (m.removeFile f projectID id tree).1 := by
  unfold removeFile
  split
  · exact FileTree.Keeps.refl _ _
  split
  · exact FileTree.Keeps.refl _ _
  · rename_i removed
    exact FileTree.keeps_remove removed

theorem copyFile_keeps (src dst : Path) (tree : FileTree) :
    FileTree.Keeps dst tree (copyFile f src dst tree).1 := by
  unfold copyFile
  split
  · exact FileTree.Keeps.refl _ _
  split
  · exact FileTree.keeps_write _ _ _
  · exact FileTree.keeps_write _ _ _

theorem snapshotFile_keeps (src dst : Path) (tree : FileTree) :
    FileTree.Keeps dst tree (snapshotFile f src dst tree).1 := by
  unfold snapshotFile
  split
  · exact FileTree.Keeps.refl _ _
  split
  · exact FileTree.Keeps.refl _ _
  split
  · exact FileTree.Keeps.refl _ _
  rename_i made isMade
  have kept : FileTree.Keeps dst tree made := FileTree.keeps_mkdirAll isMade
  split
  · exact kept
  split
  · exact kept
  · rename_i isOpened
    exact (kept.trans (FileTree.keeps_openFile isOpened)).trans (copyFile_keeps _ _ _)

theorem read_eq (s : Contents) : m.read projectID id s =
    if (s.volumes.lookup (projectID, id)).isSome then s.tree.read (m.path projectID id)
    else none := by
  unfold read
  cases s.volumes.lookup (projectID, id) with
  | none => rfl
  | some v => rfl

/-- What is read depends on the file and on whether there is a record. -/
theorem read_congr
    (record : (t.volumes.lookup (projectID, id)).isSome = (s.volumes.lookup (projectID, id)).isSome)
    (file : t.tree.read (m.path projectID id) = s.tree.read (m.path projectID id)) :
    m.read projectID id t = m.read projectID id s := by
  rw [read_eq, read_eq, record, file]

/-- Volumes with different files have different records. -/
theorem pair_ne_of_path {projectID' id' : String}
    (other : m.path projectID' id' ≠ m.path projectID id) : (projectID, id) ≠ (projectID', id') := by
  intro same
  cases same
  exact other rfl

/-- A change of a record leaves a record. -/
theorem modify_records {projectID' id' : String} (change : Volume → Volume) :
    ((modify f projectID' id' change s).1.volumes.lookup (projectID, id)).isSome =
        (s.volumes.lookup (projectID, id)).isSome ∧
      (modify f projectID' id' change s).1.tree = s.tree := by
  unfold modify
  split
  · exact ⟨rfl, rfl⟩
  split
  · exact ⟨rfl, rfl⟩
  rename_i found
  split
  · exact ⟨rfl, rfl⟩
  refine ⟨?_, rfl⟩
  by_cases same : (projectID, id) = (projectID', id')
  · rw [same, AList.lookup_insert, found]
    rfl
  · rw [AList.lookup_insert_ne same]

/-- A call that spares the file of a volume leaves its file, and its record if there is none. -/
theorem spares_keeps {call : Call} (other : m.Spares projectID id call) :
    (m.run f s call).1.tree.read (m.path projectID id) = s.tree.read (m.path projectID id) ∧
      ((m.run f s call).1.volumes.lookup (projectID, id)).isSome =
        (s.volumes.lookup (projectID, id)).isSome := by
  cases call with
  | create projectID' id' sizeBytes nodeID =>
      have apart := other (projectID', id') rfl
      change (m.create f projectID' id' sizeBytes nodeID s).1.tree.read _ = _ ∧
        ((m.create f projectID' id' sizeBytes nodeID s).1.volumes.lookup _).isSome = _
      rw [create_eq]
      split
      · exact ⟨rfl, rfl⟩
      cases f.store with
      | some err => exact ⟨rfl, rfl⟩
      | none =>
          cases s.volumes.lookup (projectID', id') with
          | some v => exact ⟨rfl, rfl⟩
          | none =>
              refine ⟨createFile_keeps sizeBytes s.tree _ (Ne.symm apart), ?_⟩
              simp only [AList.lookup_insert_ne (pair_ne_of_path apart)]
  | attach projectID' id' nodeID =>
      obtain ⟨records, sameTree⟩ := @modify_records f projectID id s projectID' id' _
      exact ⟨congrArg (fun tree => FileTree.read tree _) sameTree, records⟩
  | detach projectID' id' =>
      obtain ⟨records, sameTree⟩ := @modify_records f projectID id s projectID' id' _
      exact ⟨congrArg (fun tree => FileTree.read tree _) sameTree, records⟩
  | delete projectID' id' =>
      have apart := other (projectID', id') rfl
      change (m.delete f projectID' id' s).1.tree.read _ = _ ∧
        ((m.delete f projectID' id' s).1.volumes.lookup _).isSome = _
      rw [delete_eq]
      cases f.store with
      | some err => exact ⟨rfl, rfl⟩
      | none =>
          refine ⟨removeFile_keeps s.tree _ (Ne.symm apart), ?_⟩
          simp only [AList.lookup_erase_ne (pair_ne_of_path apart)]
  | snapshot projectID' volID snapID =>
      have apart := other (projectID', snapID) rfl
      exact ⟨snapshotFile_keeps _ _ _ _ (Ne.symm apart), rfl⟩

/-- A call that spares the file of a volume leaves its bytes. -/
theorem read_run {call : Call} (spares : m.Spares projectID id call) :
    m.read projectID id (m.run f s call).1 = m.read projectID id s := by
  obtain ⟨sameFile, sameRecord⟩ := @spares_keeps m f projectID id s call spares
  exact read_congr sameRecord sameFile

/-- So do all calls of a run. -/
theorem read_execute {calls : List (Faults × Call)}
    (spares : ∀ label ∈ calls, m.Spares projectID id label.2)
    (reached : execute m.step s calls = some t) : m.read projectID id t = m.read projectID id s := by
  induction calls generalizing s with
  | nil =>
      cases Option.some.inj reached
      rfl
  | cons label rest ih =>
      have first : m.Spares projectID id label.2 := spares label List.mem_cons_self
      exact (ih (fun label member => spares label (List.mem_cons_of_mem _ member)) reached).trans
        (read_run first)

/-! ## Names -/

theorem path_eq (projectID id : String) :
    m.path projectID id = (m.dir projectID).down (id ++ ".vol") := by
  have nonempty : id ++ ".vol" ≠ "" := by
    intro empty
    have chars := congrArg String.toList empty
    rw [String.toList_append] at chars
    exact absurd (List.append_eq_nil_iff.mp chars).2 (by decide)
  by_cases given : projectID = ""
  · subst given
    have skipped : m.path "" id = Path.join [m.root, id ++ ".vol"] := rfl
    have root : m.dir "" = clean m.root := by
      have single : ∀ e ∈ [m.root], e ≠ "" := List.forall_mem_singleton.mpr m.rooted
      exact join_eq single
    rw [skipped, root]
    exact join_two m.rooted nonempty
  · rw [path, dir, join_two m.rooted given]
    exact join_three m.rooted given nonempty

theorem proper_file (proper : Proper projectID id) : Plain (id ++ ".vol") := by
  have longer {name : String} (short : name.length < 4) : id ++ ".vol" ≠ name := by
    rintro rfl
    rw [String.length_append] at short
    exact absurd short (Nat.not_lt.mpr (Nat.le_add_left _ _))
  refine ⟨longer (by decide), longer (by decide), longer (by decide), ?_⟩
  rw [String.toList_append, List.mem_append]
  rintro (inID | inSuffix)
  · exact proper.noSlash inID
  · revert inSuffix
    decide

theorem proper_path (proper : Proper projectID id) :
    (m.path projectID id).stack = (id ++ ".vol") :: projectID :: (clean m.root).stack := by
  rw [path_eq, down_plain (proper_file proper), dir, join_two m.rooted proper.project.nonempty,
    down_plain proper.project]

/-- Proper names that differ have different files. -/
theorem proper_apart {projectID' id' : String} (proper : Proper projectID id)
    (proper' : Proper projectID' id') (different : (projectID', id') ≠ (projectID, id)) :
    m.path projectID' id' ≠ m.path projectID id := by
  intro same
  have sameStack := congrArg Path.stack same
  rw [proper_path proper, proper_path proper'] at sameStack
  obtain ⟨sameFile, sameRest⟩ := List.cons.inj sameStack
  refine different (Prod.ext (List.cons.inj sameRest).1 ?_)
  have chars := congrArg String.toList sameFile
  rw [String.toList_append, String.toList_append] at chars
  exact String.toList_inj.mp (List.append_cancel_right chars)

theorem path_below_iff :
    (∀ (m : Manager) projectID, (m.path projectID id).Below (m.dir projectID)) ↔
      Descends (id ++ ".vol") := by
  constructor
  · intro inside
    refine descends_of_below ?_
    intro name isName
    have below := inside ⟨"/", by decide⟩ name
    rw [path_eq] at below
    rcases isName with rfl | rfl
    · exact below
    · exact below
  · intro descends m projectID
    rw [path_eq]
    exact down_descends descends _

/-- The bytes of a volume are kept by every run of calls that write other files.  Calls on
other proper names do, a snapshot under an ID that is not that of the volume included; and
the path of an ID stays inside every project exactly if the ID does not climb. -/
theorem volumes_isolated (m : Manager) (projectID id : String) :
    (∀ s t calls, (∀ label ∈ calls, m.Spares projectID id label.2) →
        execute m.step s calls = some t → m.read projectID id t = m.read projectID id s) ∧
      (∀ call, Proper projectID id → (∀ target, call.writes = some target →
        Proper target.1 target.2 ∧ target ≠ (projectID, id)) → m.Spares projectID id call) ∧
      ((∀ (m : Manager) projectID, (m.path projectID id).Below (m.dir projectID)) ↔
        Descends (id ++ ".vol")) := by
  refine ⟨?_, ?_, path_below_iff⟩
  · intro s t calls spares reached
    exact read_execute spares reached
  · intro call proper others target isTarget
    obtain ⟨proper', different⟩ := others target isTarget
    exact proper_apart proper proper' different

/-- A snapshot under an ID of its own leaves the other volumes. -/
theorem volumes_isolated_sample :
    ∃ s, execute sample.step ⟨∅, ∅⟩
        [(.none, .create "p" "v1" 3 "n"), (.none, .create "p" "v2" 2 "n")] = some s ∧
      sample.read "p" "v2" s = some [0, 0] ∧
      sample.read "p" "v2" (sample.run .none s (.snapshot "p" "v1" "s1")).1 = some [0, 0] := by
  refine exists_of_tested sample.step (fun s => sample.read "p" "v2" s = some [0, 0])
    (by decide +kernel) ?_
  intro s _ content
  obtain ⟨kept, apart, _⟩ := volumes_isolated sample "p" "v2"
  have plain : Plain "p" := ⟨by decide, by decide, by decide, by decide⟩
  have spares : sample.Spares "p" "v2" (.snapshot "p" "v1" "s1") := by
    refine apart _ ⟨plain, by decide⟩ ?_
    intro target isTarget
    cases Option.some.inj isTarget
    exact ⟨⟨plain, by decide⟩, by decide⟩
  refine ⟨content, ?_⟩
  rw [kept s _ [(.none, .snapshot "p" "v1" "s1")] (List.forall_mem_singleton.mpr spares) rfl]
  exact content

/-- A snapshot of `v1` under the ID of the volume `v2` writes over it, and an ID with dots
leaves the directory of its project. -/
theorem snapshot_overwrites_volume :
    (∃ s, execute sample.step ⟨∅, ∅⟩
        [(.none, .create "p" "v1" 3 "n"), (.none, .create "p" "v2" 2 "n")] = some s ∧
      sample.read "p" "v2" s = some [0, 0] ∧
      sample.read "p" "v2" (sample.run .none s (.snapshot "p" "v1" "v2")).1 = some [0, 0, 0]) ∧
      sample.path "p" "../q/v" = sample.path "q" "v" :=
  ⟨exists_of_execute_test sample.step ⟨∅, ∅⟩
    [(.none, .create "p" "v1" 3 "n"), (.none, .create "p" "v2" 2 "n")]
    (fun s => sample.read "p" "v2" s = some [0, 0] ∧
      sample.read "p" "v2" (sample.run .none s (.snapshot "p" "v1" "v2")).1 = some [0, 0, 0])
    (by decide +kernel), by decide +kernel⟩

end Manager

end MiniCloud.Volumes
