import MiniCloud.Volumes.Isolation

/-!
# The bytes of volumes and snapshots

`Create` and `Snapshot` open their file without truncating it.  A snapshot over a longer
file keeps the end of that file, and a new volume over a file that was left behind starts
with the bytes of that file.  A file is left behind by a `Delete` that cannot remove it and
by a `Snapshot` under an ID that has no record.

Bytes other than zeros come from those who use a volume and write its file.
-/

namespace MiniCloud.Volumes

open MiniCloud.Library

theorem overwrite_eq_iff {old new : Bytes} : overwrite old new = new ↔ old.length ≤ new.length := by
  rw [overwrite, List.append_right_eq_self, List.drop_eq_nil_iff]

theorem resize_eq_iff {old : Bytes} {size : Nat} :
    resize old size = List.replicate size 0 ↔ ∀ b ∈ old.take size, b = 0 := by
  have length : (old.take size).length + (size - old.length) = size := by
    rw [List.length_take]
    omega
  have zeros : List.replicate size (0 : UInt8) =
      List.replicate (old.take size).length 0 ++ List.replicate (size - old.length) 0 := by
    rw [List.replicate_append_replicate, length]
  rw [resize, zeros, List.append_cancel_right_eq, List.eq_replicate_iff]
  exact and_iff_right rfl

namespace Manager

variable {m : Manager} {f : Faults} {projectID id : String} {s t : Contents}

/-! ## Snapshots -/

theorem copyFile_ok {src dst : Path} {tree : FileTree} (isNamed : dst.named = true)
    (returned : (copyFile f src dst tree).2 = none) :
    ∃ data, tree.read src = some data ∧
      (copyFile f src dst tree).1.read dst = some (overwrite ((tree.read dst).getD []) data) := by
  unfold copyFile at returned ⊢
  cases found : tree.read src with
  | none =>
      rw [found] at returned
      cases returned
  | some data =>
      rw [found] at returned
      cases copied : f.copy with
      | some written =>
          rw [copied] at returned
          cases returned
      | none => exact ⟨data, rfl, FileTree.read_write_self isNamed _⟩

/-- A snapshot that succeeds has written the bytes of the volume over the file. -/
theorem snapshotFile_ok {src dst : Path} {tree : FileTree}
    (returned : (snapshotFile f src dst tree).2 = none) :
    ∃ data, tree.read src = some data ∧ (snapshotFile f src dst tree).1.read dst =
      some (overwrite ((tree.read dst).getD []) data) := by
  unfold snapshotFile at returned ⊢
  split at returned
  · cases returned
  rename_i present
  rw [if_neg present]
  split at returned
  · cases returned
  rename_i mayMake
  rw [if_neg mayMake]
  cases isMade : tree.mkdirAll dst.dir with
  | none =>
      rw [isMade] at returned
      cases returned
  | some made =>
      rw [isMade] at returned
      dsimp only at returned ⊢
      split at returned
      · cases returned
      rename_i mayOpen
      rw [if_neg mayOpen]
      cases isOpened : made.openFile dst with
      | none =>
          rw [isOpened] at returned
          cases returned
      | some opened =>
          rw [isOpened] at returned
          obtain ⟨data, found, written⟩ :=
            copyFile_ok (FileTree.named_of_openFile isOpened) returned
          have content : opened.read dst = some ((tree.read dst).getD []) := by
            rw [FileTree.read_openFile_self isOpened, FileTree.read_mkdirAll isMade]
          rw [content, Option.getD_some] at written
          refine ⟨data, ?_, written⟩
          by_cases same : src = dst
          · -- the file was there, and opening it has not changed it
            subst same
            obtain ⟨e, isEntry⟩ := Option.ne_none_iff_exists'.mp fun missing =>
              present (Or.inr missing)
            have kept := FileTree.entry_mkdirAll isMade isEntry
            have noDir := (FileTree.openFile_isSome_iff.mp (by rw [isOpened]; rfl)).2
            cases e with
            | directory => exact absurd kept noDir
            | file content' =>
                have isContent : tree.read src = some content' := by rw [FileTree.read, isEntry]
                rw [isContent, Option.getD_some] at content
                rw [isContent, ← content, found]
          · rw [← FileTree.read_mkdirAll isMade, ← FileTree.keeps_openFile isOpened src same, found]

/-- A snapshot is the volume, byte for byte, unless a longer file was there before. -/
theorem snapshot_exact_iff {volID snapID : String}
    (returned : (m.snapshot f projectID volID snapID s).2 = none) :
    ∃ data, s.tree.read (m.path projectID volID) = some data ∧
      ((m.snapshot f projectID volID snapID s).1.tree.read (m.path projectID snapID) = some data ↔
        ∀ old, s.tree.read (m.path projectID snapID) = some old → old.length ≤ data.length) := by
  obtain ⟨data, found, written⟩ := snapshotFile_ok returned
  refine ⟨data, found, ?_⟩
  change (snapshotFile f (m.path projectID volID) (m.path projectID snapID) s.tree).1.read _ = _ ↔ _
  rw [written, Option.some.injEq, overwrite_eq_iff]
  cases before : s.tree.read (m.path projectID snapID) with
  | none => exact iff_of_true (Nat.zero_le _) fun _ isOld => by cases isOld
  | some content =>
      constructor
      · intro short old isOld
        rwa [← Option.some.inj isOld]
      · intro short
        exact short content rfl

/-- A volume of three bytes, and a snapshot of one byte that is taken again. -/
theorem snapshot_exact_over_shorter :
    ∃ s, execute sample.step ⟨∅, ∅⟩
        [(.none, .create "p" "v" 1 "n"), (.none, .snapshot "p" "v" "s"),
          (.none, .delete "p" "v"), (.none, .create "p" "v" 3 "n")] = some s ∧
      (sample.snapshot .none "p" "v" "s" s).1.tree.read (sample.path "p" "s") =
        s.tree.read (sample.path "p" "v") := by
  refine exists_of_tested sample.step
    (fun s => (sample.snapshot .none "p" "v" "s" s).2 = none ∧
      s.tree.read (sample.path "p" "v") = some [0, 0, 0] ∧
      s.tree.read (sample.path "p" "s") = some [0]) (by decide +kernel) ?_
  rintro s _ ⟨returned, volume, before⟩
  obtain ⟨data, found, exact_iff⟩ := snapshot_exact_iff returned
  refine (exact_iff.mpr ?_).trans found.symm
  intro old isOld
  rw [volume] at found
  rw [before] at isOld
  rw [← Option.some.inj found, ← Option.some.inj isOld]
  decide

/-- The snapshot of a volume of one byte, over one of three bytes, has three bytes. -/
theorem snapshot_keeps_longer_end :
    ∃ s, execute sample.step ⟨∅, ∅⟩
        [(.none, .create "p" "v" 3 "n"), (.none, .snapshot "p" "v" "s"),
          (.none, .delete "p" "v"), (.none, .create "p" "v" 1 "n")] = some s ∧
      (sample.snapshot .none "p" "v" "s" s).2 = none ∧
      s.tree.read (sample.path "p" "v") = some [0] ∧
      (sample.snapshot .none "p" "v" "s" s).1.tree.read (sample.path "p" "s") =
        some [0, 0, 0] :=
  exists_of_execute_test sample.step ⟨∅, ∅⟩
    [(.none, .create "p" "v" 3 "n"), (.none, .snapshot "p" "v" "s"),
      (.none, .delete "p" "v"), (.none, .create "p" "v" 1 "n")]
    (fun s => (sample.snapshot .none "p" "v" "s" s).2 = none ∧
      s.tree.read (sample.path "p" "v") = some [0] ∧
      (sample.snapshot .none "p" "v" "s" s).1.tree.read (sample.path "p" "s") =
        some [0, 0, 0]) (by decide +kernel)

/-! ## New volumes -/

theorem createFile_ok {sizeBytes : Int} {tree : FileTree}
    (made : (m.createFile f projectID id sizeBytes tree).2 = true) :
    (m.createFile f projectID id sizeBytes tree).1.read (m.path projectID id) =
      some (resize ((tree.read (m.path projectID id)).getD []) sizeBytes.toNat) := by
  unfold createFile at made ⊢
  split at made
  · cases made
  rename_i mayMake
  rw [if_neg mayMake]
  cases isMade : tree.mkdirAll (m.path projectID id).dir with
  | none =>
      rw [isMade] at made
      cases made
  | some made' =>
      rw [isMade] at made
      dsimp only at made ⊢
      split at made
      · cases made
      rename_i mayOpen
      rw [if_neg mayOpen]
      cases isOpened : made'.openFile (m.path projectID id) with
      | none =>
          rw [isOpened] at made
          cases made
      | some opened =>
          rw [isOpened] at made
          dsimp only at made ⊢
          split at made
          · cases made
          rename_i mayTruncate
          rw [if_neg mayTruncate, FileTree.read_write_self (FileTree.named_of_openFile isOpened),
            FileTree.read_openFile_self isOpened, FileTree.read_mkdirAll isMade, Option.getD_some]

/-- A volume that is created had no record, and its file is the old one at the new size. -/
theorem create_ok {sizeBytes : Int} {nodeID : String}
    (returned : (m.create f projectID id sizeBytes nodeID s).2 = none) :
    s.volumes.lookup (projectID, id) = none ∧
      m.read projectID id (m.create f projectID id sizeBytes nodeID s).1 =
        some (resize ((s.tree.read (m.path projectID id)).getD []) sizeBytes.toNat) := by
  rw [create_eq] at returned ⊢
  split at returned
  · cases returned
  rename_i positive
  rw [if_neg positive]
  cases asked : f.store with
  | some err =>
      rw [asked] at returned
      cases returned
  | none =>
      rw [asked] at returned
      cases found : s.volumes.lookup (projectID, id) with
      | some v =>
          rw [found] at returned
          cases returned
      | none =>
          rw [found] at returned
          dsimp only at returned ⊢
          refine ⟨rfl, ?_⟩
          rw [read_eq, AList.lookup_insert]
          refine createFile_ok ?_
          by_contra failed
          rw [if_neg failed] at returned
          cases returned

end Manager

/-! ## Histories -/

/-- A call with what fails during it, or a write of a user of a volume to its file. -/
inductive Event where
  | call (f : Faults) (call : Call)
  | write (projectID id : String) (content : Bytes)
  deriving DecidableEq, Repr

namespace Manager

variable (m : Manager)

def writeFile (projectID id : String) (content : Bytes) (s : Contents) : Contents :=
  if (m.read projectID id s).isSome then
    { s with tree := s.tree.write (m.path projectID id) content }
  else s

def happen (s : Contents) : Event → Option Contents
  | .call f call => some (m.run f s call).1
  | .write projectID id content => some (m.writeFile projectID id content s)

/-- The event leaves no file of the volume without its record: no other name has the same
file, no snapshot is written to it, and a deletion can remove it. -/
inductive Orderly (projectID id : String) : Event → Prop where
  | spares {f : Faults} {call : Call} (other : m.Spares projectID id call) :
      Orderly projectID id (.call f call)
  | create {f : Faults} {sizeBytes : Int} {nodeID : String} :
      Orderly projectID id (.call f (.create projectID id sizeBytes nodeID))
  | delete {f : Faults} (removes : f.store = none → f.remove = false) :
      Orderly projectID id (.call f (.delete projectID id))
  | write {projectID' id' : String} {content : Bytes} :
      Orderly projectID id (.write projectID' id' content)

/-- A file of the volume has a record. -/
def Recorded (projectID id : String) (s : Contents) : Prop :=
  s.volumes.lookup (projectID, id) = none → s.tree.read (m.path projectID id) = none

variable {m} {f : Faults} {projectID id : String} {s t : Contents}

theorem recorded_write {projectID' id' : String} {content : Bytes}
    (recorded : m.Recorded projectID id s) :
    m.Recorded projectID id (m.writeFile projectID' id' content s) := by
  unfold writeFile
  split
  · rename_i written
    intro missing
    by_cases same : m.path projectID id = m.path projectID' id'
    · -- the file that is written has the name of the volume, so it was not there
      have absent := recorded missing
      rw [read_eq, ← same, absent, ite_self] at written
      cases written
    · exact (FileTree.keeps_write _ _ _ _ same).trans (recorded missing)
  · exact recorded

theorem recorded_happen {event : Event} (orderly : m.Orderly projectID id event)
    (recorded : m.Recorded projectID id s) (happened : m.happen s event = some t) :
    m.Recorded projectID id t := by
  cases orderly with
  | @spares f call other =>
      cases Option.some.inj happened
      obtain ⟨sameFile, sameRecord⟩ := @spares_keeps m f projectID id s call other
      intro missing
      rw [sameFile]
      refine recorded (Option.isNone_iff_eq_none.mp ?_)
      rw [← Option.not_isSome, ← sameRecord, missing]
      rfl
  | @create f sizeBytes nodeID =>
      cases Option.some.inj happened
      change m.Recorded projectID id (m.create f projectID id sizeBytes nodeID s).1
      rw [create_eq]
      split
      · exact recorded
      cases f.store with
      | some err => exact recorded
      | none =>
          cases s.volumes.lookup (projectID, id) with
          | some v => exact recorded
          | none =>
              intro missing
              simp only [AList.lookup_insert] at missing
              cases missing
  | @delete f removes =>
      cases Option.some.inj happened
      change m.Recorded projectID id (m.delete f projectID id s).1
      rw [delete_eq]
      cases asked : f.store with
      | some err => exact recorded
      | none =>
          intro _
          change (m.removeFile f projectID id s.tree).1.read _ = none
          rw [removeFile, if_neg (by rw [removes asked]; exact Bool.false_ne_true)]
          cases removed : s.tree.remove (m.path projectID id) with
          | some tree => exact FileTree.read_remove_self removed
          | none =>
              cases found : s.tree.read (m.path projectID id) with
              | none => rfl
              | some content =>
                  rw [FileTree.remove_file found] at removed
                  cases removed
  | write =>
      cases Option.some.inj happened
      exact recorded_write recorded

theorem recorded_execute {events : List Event} (orderly : ∀ e ∈ events, m.Orderly projectID id e)
    (recorded : m.Recorded projectID id s) (reached : execute m.happen s events = some t) :
    m.Recorded projectID id t := by
  induction events generalizing s with
  | nil =>
      cases Option.some.inj reached
      exact recorded
  | cons event rest ih =>
      obtain ⟨first, later⟩ := List.forall_mem_cons.mp orderly
      rw [execute_cons, Option.bind_eq_some_iff] at reached
      obtain ⟨next, happened, reached⟩ := reached
      exact ih later (recorded_happen first recorded happened) reached

/-- A new volume has zeros only, exactly if the file that was there had zeros only up to the
size of the volume.  There is no such file after a history of orderly events. -/
theorem created_empty_iff (m : Manager) (projectID id : String) :
    (∀ s f sizeBytes nodeID, (m.create f projectID id sizeBytes nodeID s).2 = none →
        (m.read projectID id (m.create f projectID id sizeBytes nodeID s).1 =
            some (List.replicate sizeBytes.toNat 0) ↔
          ∀ old, s.tree.read (m.path projectID id) = some old →
            ∀ b ∈ old.take sizeBytes.toNat, b = 0)) ∧
      ∀ s t events f sizeBytes nodeID, s.tree.read (m.path projectID id) = none →
        (∀ e ∈ events, m.Orderly projectID id e) → execute m.happen s events = some t →
        (m.create f projectID id sizeBytes nodeID t).2 = none →
          m.read projectID id (m.create f projectID id sizeBytes nodeID t).1 =
            some (List.replicate sizeBytes.toNat 0) := by
  constructor
  · intro s f sizeBytes nodeID returned
    rw [(create_ok returned).2, Option.some.injEq, resize_eq_iff]
    cases before : s.tree.read (m.path projectID id) with
    | none =>
        refine iff_of_true ?_ fun _ isOld => by cases isOld
        intro b member
        rw [Option.getD_none, List.take_nil] at member
        cases member
    | some content =>
        constructor
        · intro zeros old isOld
          rwa [← Option.some.inj isOld]
        · intro zeros
          exact zeros content rfl
  · intro s t events f sizeBytes nodeID absent orderly reached returned
    obtain ⟨missing, content⟩ := create_ok returned
    have recorded : m.Recorded projectID id t := recorded_execute orderly (fun _ => absent) reached
    rw [content, recorded missing, Option.getD_none, Option.some.injEq, resize_eq_iff]
    intro b member
    rw [List.take_nil] at member
    cases member

/-- A volume that was written and deleted is created again. -/
theorem created_empty_after_delete :
    ∃ s, execute sample.happen ⟨∅, ∅⟩
        [.call .none (.create "p" "v" 4 "n"), .write "p" "v" [1, 2, 3, 4],
          .call .none (.delete "p" "v")] = some s ∧
      sample.read "p" "v" (sample.create .none "p" "v" 3 "n" s).1 = some [0, 0, 0] := by
  refine exists_of_tested sample.happen
    (fun s => (sample.create .none "p" "v" 3 "n" s).2 = none) (by decide +kernel) ?_
  intro s reached returned
  refine (created_empty_iff sample "p" "v").2 ⟨∅, ∅⟩ s _ .none 3 "n" rfl ?_ reached returned
  refine List.forall_mem_cons.mpr ⟨.create, List.forall_mem_cons.mpr ⟨.write, ?_⟩⟩
  exact List.forall_mem_singleton.mpr (.delete fun _ => rfl)

/-- A volume under the ID of a snapshot has the bytes of the snapshot, and one whose file
could not be removed has its old bytes when it is created again. -/
theorem created_exposes_data :
    (∃ s, execute sample.happen ⟨∅, ∅⟩
        [.call .none (.create "p" "v" 4 "n"), .write "p" "v" [1, 2, 3, 4],
          .call .none (.snapshot "p" "v" "s")] = some s ∧
      (sample.create .none "p" "s" 4 "n" s).2 = none ∧
      sample.read "p" "s" (sample.create .none "p" "s" 4 "n" s).1 = some [1, 2, 3, 4]) ∧
    ∃ s, execute sample.happen ⟨∅, ∅⟩
        [.call .none (.create "p" "v" 4 "n"), .write "p" "v" [1, 2, 3, 4],
          .call { Faults.none with remove := true } (.delete "p" "v")] = some s ∧
      (sample.create .none "p" "v" 4 "n" s).2 = none ∧
      sample.read "p" "v" (sample.create .none "p" "v" 4 "n" s).1 = some [1, 2, 3, 4] :=
  ⟨exists_of_execute_test sample.happen ⟨∅, ∅⟩
    [.call .none (.create "p" "v" 4 "n"), .write "p" "v" [1, 2, 3, 4],
      .call .none (.snapshot "p" "v" "s")]
    (fun s => (sample.create .none "p" "s" 4 "n" s).2 = none ∧
      sample.read "p" "s" (sample.create .none "p" "s" 4 "n" s).1 = some [1, 2, 3, 4])
    (by decide +kernel),
  exists_of_execute_test sample.happen ⟨∅, ∅⟩
    [.call .none (.create "p" "v" 4 "n"), .write "p" "v" [1, 2, 3, 4],
      .call { Faults.none with remove := true } (.delete "p" "v")]
    (fun s => (sample.create .none "p" "v" 4 "n" s).2 = none ∧
      sample.read "p" "v" (sample.create .none "p" "v" 4 "n" s).1 = some [1, 2, 3, 4])
    (by decide +kernel)⟩

end Manager

end MiniCloud.Volumes
