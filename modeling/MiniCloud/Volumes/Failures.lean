import MiniCloud.Volumes.Isolation

/-!
# Calls that fail half way

`Create` stores the record of a volume before it makes the file, and `Delete` removes the
record before the file.  Neither goes back: a `Create` whose file cannot be made leaves the
record, and a `Delete` whose file cannot be removed has lost it.  Of the store nothing is
assumed, so that one of its own calls may fail after it has stored or removed the record.
-/

namespace MiniCloud.Volumes

open MiniCloud.Library

namespace Manager

variable (m : Manager)

/-- The file of a volume can be made: no step fails, there is no file on the way to its
directory, and no directory in its place. -/
structure Creatable (f : Faults) (projectID id : String) (tree : FileTree) : Prop where
  mkdir : f.mkdir = false
  way : ∀ q ∈ FileTree.upTo (m.path projectID id).dir, tree.read q = none
  openFile : f.openFile = false
  place : tree.entry (m.path projectID id) ≠ some .directory
  truncate : f.truncate = false

/-- The file of a volume can be removed: the step does not fail, and there is a file or an
empty directory. -/
structure Removable (f : Faults) (projectID id : String) (tree : FileTree) : Prop where
  remove : f.remove = false
  place : (tree.remove (m.path projectID id)).isSome = true

variable {m} {f : Faults} {projectID id : String}

/-! ## The steps on the file -/

theorem opens_iff {tree made : FileTree} {p : Path} (isMade : tree.mkdirAll p.dir = some made) :
    (made.openFile p).isSome = true ↔ tree.entry p ≠ some .directory := by
  rw [FileTree.openFile_isSome_iff, FileTree.directory_mkdirAll isMade,
    FileTree.entry_mkdirAll_dir isMade]
  exact and_iff_right rfl

theorem createFile_iff {sizeBytes : Int} {tree : FileTree} :
    (m.createFile f projectID id sizeBytes tree).2 = true ↔ m.Creatable f projectID id tree := by
  unfold createFile
  split
  · rename_i failed
    exact iff_of_false Bool.false_ne_true fun creatable => by simp [creatable.mkdir] at failed
  rename_i mayMake
  cases isMade : tree.mkdirAll (m.path projectID id).dir with
  | none =>
      refine iff_of_false Bool.false_ne_true fun creatable => ?_
      have some := FileTree.mkdirAll_isSome_iff.mpr creatable.way
      rw [isMade] at some
      cases some
  | some made =>
      have way := FileTree.mkdirAll_isSome_iff.mp (Option.isSome_of_eq_some isMade)
      have opens := opens_iff isMade
      dsimp only
      split
      · rename_i failed
        exact iff_of_false Bool.false_ne_true fun creatable => by simp [creatable.openFile] at failed
      rename_i mayOpen
      cases isOpened : made.openFile (m.path projectID id) with
      | none =>
          refine iff_of_false Bool.false_ne_true fun creatable => ?_
          have some := opens.mpr creatable.place
          rw [isOpened] at some
          cases some
      | some opened =>
          have place := opens.mp (Option.isSome_of_eq_some isOpened)
          dsimp only
          split
          · rename_i failed
            exact iff_of_false Bool.false_ne_true fun creatable => by
              simp [creatable.truncate] at failed
          · rename_i mayTruncate
            exact iff_of_true rfl
              ⟨eq_false_of_ne_true mayMake, way, eq_false_of_ne_true mayOpen, place,
                eq_false_of_ne_true mayTruncate⟩

/-- The file is removed or left as it is. -/
theorem removeFile_cases (tree : FileTree) :
    ((m.removeFile f projectID id tree).2 = true ∧ m.Removable f projectID id tree) ∨
      (m.removeFile f projectID id tree = (tree, false) ∧ ¬m.Removable f projectID id tree) := by
  unfold removeFile
  split
  · rename_i failed
    exact Or.inr ⟨rfl, fun removable => by simp [removable.remove] at failed⟩
  rename_i mayRemove
  cases removed : tree.remove (m.path projectID id) with
  | none =>
      refine Or.inr ⟨rfl, fun removable => ?_⟩
      have some := removable.place
      rw [removed] at some
      cases some
  | some tree' => exact Or.inl ⟨rfl, eq_false_of_ne_true mayRemove, Option.isSome_of_eq_some removed⟩

/-! ## The calls -/

section Calls

variable {σ : Type}

/-- If `Create` returns an error, there is no record that was not there before. -/
def CreatesOrNot (m : Manager) (st : Records σ) (f : Faults) (projectID id : String)
    (sizeBytes : Int) (nodeID : String) (t : ContentsOf σ) : Prop :=
  (m.createWith st f projectID id sizeBytes nodeID t).2 ≠ none →
    (st.getVolume projectID id
      (m.createWith st f projectID id sizeBytes nodeID t).1.volumes).isSome = true →
    (st.getVolume projectID id t.volumes).isSome = true

/-- If `Delete` returns an error, the record and the file are as before. -/
def DeletesOrNot (m : Manager) (st : Records σ) (f : Faults) (projectID id : String)
    (t : ContentsOf σ) : Prop :=
  (m.deleteWith st f projectID id t).2 ≠ none →
    st.getVolume projectID id (m.deleteWith st f projectID id t).1.volumes =
        st.getVolume projectID id t.volumes ∧
      (m.deleteWith st f projectID id t).1.tree.read (m.path projectID id) =
        t.tree.read (m.path projectID id)

/-- A `Create` that fails leaves no new record, exactly if there was one, the store has none
after its own call, or the store succeeds and the file can be made; a `Delete` that fails
leaves the record and the file, exactly if the store's call leaves the record, or it succeeds
and the file can be removed. -/
theorem all_or_nothing_iff (m : Manager) (st : Records σ) (f : Faults) (projectID id : String)
    (sizeBytes : Int) (nodeID : String) (t : ContentsOf σ) :
    (m.CreatesOrNot st f projectID id sizeBytes nodeID t ↔
      sizeBytes ≤ 0 ∨ (st.getVolume projectID id t.volumes).isSome = true ∨
        st.getVolume projectID id
          (st.createVolume (newVolume projectID id sizeBytes nodeID) t.volumes).1 = none ∨
        ((st.createVolume (newVolume projectID id sizeBytes nodeID) t.volumes).2 = none ∧
          m.Creatable f projectID id t.tree)) ∧
    (m.DeletesOrNot st f projectID id t ↔
      st.getVolume projectID id (st.deleteVolume projectID id t.volumes).1 =
          st.getVolume projectID id t.volumes ∨
        ((st.deleteVolume projectID id t.volumes).2 = none ∧
          m.Removable f projectID id t.tree)) := by
  constructor
  · unfold CreatesOrNot
    by_cases empty : sizeBytes ≤ 0
    · rw [createWith, if_pos empty]
      exact iff_of_true (fun _ kept => kept) (Or.inl empty)
    by_cases before : (st.getVolume projectID id t.volumes).isSome = true
    · exact iff_of_true (fun _ _ => before) (Or.inr (Or.inl before))
    rw [createWith, if_neg empty, ← @createFile_iff m f projectID id sizeBytes]
    obtain ⟨volumes, err⟩ := st.createVolume (newVolume projectID id sizeBytes nodeID) t.volumes
    cases err with
    | some err => simp [empty, before]
    | none =>
        cases (m.createFile f projectID id sizeBytes t.tree).2 with
        | true => simp
        | false => simp [empty, before]
  · unfold DeletesOrNot
    rw [deleteWith]
    obtain ⟨volumes, err⟩ := st.deleteVolume projectID id t.volumes
    cases err with
    | some err => simp
    | none =>
        rcases @removeFile_cases m f projectID id t.tree with ⟨removed, removable⟩ | ⟨left, stuck⟩
        · simp [removed, removable]
        · simp [left, stuck]

end Calls

/-- The directory of the file cannot be made, and the record is there; the file cannot be
removed, and the record is gone. -/
theorem failed_calls_take_effect :
    (sample.create { Faults.none with mkdir := true } "p" "v" 4 "n" ⟨∅, ∅⟩).2 = some .os ∧
      (sample.create { Faults.none with mkdir := true } "p" "v" 4 "n" ⟨∅, ∅⟩).1.volumes.lookup
        ("p", "v") = some ⟨⟨"v", "p", "v"⟩, 4, "n", "Available"⟩ ∧
      ∃ s, execute sample.step ⟨∅, ∅⟩ [(.none, .create "p" "v" 4 "n")] = some s ∧
        (s.volumes.lookup ("p", "v")).isSome = true ∧
        (sample.delete { Faults.none with remove := true } "p" "v" s).2 = some .os ∧
        (sample.delete { Faults.none with remove := true } "p" "v" s).1.volumes.lookup ("p", "v") =
          none := by
  refine ⟨by decide +kernel, by decide +kernel, ?_⟩
  exact exists_of_execute_test sample.step ⟨∅, ∅⟩ [(.none, .create "p" "v" 4 "n")]
    (fun s => (s.volumes.lookup ("p", "v")).isSome = true ∧
      (sample.delete { Faults.none with remove := true } "p" "v" s).2 = some .os ∧
      (sample.delete { Faults.none with remove := true } "p" "v" s).1.volumes.lookup ("p", "v") =
        none) (by decide +kernel)

end Manager

end MiniCloud.Volumes
