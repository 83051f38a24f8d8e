import MiniCloud.Library.Files
import MiniCloud.State.Records

/-!
# The volume manager

A volume is a record under its project and ID, and a file under the root directory at
the path that both are cleaned to.  A snapshot is a copy of the file under another ID,
without a record.  `Attach` and `Detach` change the record alone.  Each step may fail,
and a copy that fails may have written a part.

The store of the records is not part of the repository.  `Create`, `Delete` and `Read`
take any methods of it (`Records`), of which nothing is assumed: a call that returns an
error may have taken effect.  What is proved about runs is about a store that keeps the
records by project and ID, refuses to create a record that exists, and may answer any
call with an error and without an effect (`keyed`).
-/

namespace MiniCloud.Volumes

open MiniCloud.Library
open MiniCloud.State

/-- The record of a volume. -/
structure Volume where
  base : Base
  sizeBytes : Int
  nodeID : String
  status : String
  deriving DecidableEq, Repr

/-- A manager has a root directory. -/
structure Manager where
  root : String
  rooted : root ≠ ""

/-- The files, and the records in a store. -/
structure ContentsOf (σ : Type) where
  tree : FileTree
  volumes : σ

/-- The records by project and ID. -/
abbrev Contents := ContentsOf (AList fun _ : String × String => Volume)

/-- What fails during a call. -/
structure Faults where
  /-- The answer to `CreateVolume`, `GetVolume` or `DeleteVolume`. -/
  store : Option StoreError
  /-- The answer to `UpdateVolume`. -/
  update : Option StoreError
  stat : Bool
  mkdir : Bool
  openSource : Bool
  openFile : Bool
  truncate : Bool
  /-- The bytes after which a copy fails. -/
  copy : Option Nat
  remove : Bool
  deriving DecidableEq, Repr

def Faults.none : Faults := ⟨.none, .none, false, false, false, false, false, .none, false⟩

inductive Error where
  | sizeMustBePositive
  | sourceMissing
  | alreadyExists
  | notFound
  | state (err : StoreError)
  | os
  deriving DecidableEq, Repr

/-- The methods of `state.Store` for volumes. -/
structure Records (σ : Type) where
  createVolume : Volume → σ → σ × Option Error
  getVolume : String → String → σ → Option Volume
  deleteVolume : String → String → σ → σ × Option Error

def createVolume (f : Faults) (v : Volume) (volumes : AList fun _ : String × String => Volume) :
    (AList fun _ : String × String => Volume) × Option Error :=
  match f.store with
  | some err => (volumes, some (.state err))
  | none =>
      match volumes.lookup (v.base.projectID, v.base.id) with
      | some _ => (volumes, some .alreadyExists)
      | none => (volumes.insert (v.base.projectID, v.base.id) v, none)

def deleteVolume (f : Faults) (projectID id : String)
    (volumes : AList fun _ : String × String => Volume) :
    (AList fun _ : String × String => Volume) × Option Error :=
  match f.store with
  | some err => (volumes, some (.state err))
  | none => (volumes.erase (projectID, id), none)

/-- A store that keeps the records by project and ID, with the answers that are given. -/
def keyed (f : Faults) : Records (AList fun _ : String × String => Volume) :=
  ⟨createVolume f, fun projectID id volumes => volumes.lookup (projectID, id), deleteVolume f⟩

/-- The content of a file that is cut or filled with zeros to a length. -/
def resize (content : Bytes) (size : Nat) : Bytes :=
  content.take size ++ List.replicate (size - content.length) 0

/-- The content of a file whose beginning is overwritten. -/
def overwrite (content new : Bytes) : Bytes := new ++ content.drop new.length

namespace Manager

variable {σ : Type} (m : Manager)

def path (projectID id : String) : Path := Path.join [m.root, projectID, id ++ ".vol"]

/-! ## Volumes -/

/-- The file of `Create`, and whether it has its size. -/
def createFile (f : Faults) (projectID id : String) (sizeBytes : Int) (tree : FileTree) :
    FileTree × Bool :=
  if f.mkdir then (tree, false)
  else
    match tree.mkdirAll (m.path projectID id).dir with
    | none => (tree, false)
    | some tree =>
        if f.openFile then (tree, false)
        else
          match tree.openFile (m.path projectID id) with
          | none => (tree, false)
          | some tree =>
              if f.truncate then (tree, false)
              else
                (tree.write (m.path projectID id)
                  (resize ((tree.read (m.path projectID id)).getD []) sizeBytes.toNat), true)

/-- The record of a new volume. -/
def newVolume (projectID id : String) (sizeBytes : Int) (nodeID : String) : Volume :=
  ⟨⟨id, projectID, id⟩, sizeBytes, nodeID, "Available"⟩

/-- `Create` with the methods of a store. -/
def createWith (st : Records σ) (f : Faults) (projectID id : String) (sizeBytes : Int)
    (nodeID : String) (s : ContentsOf σ) : ContentsOf σ × Option Error :=
  if sizeBytes ≤ 0 then (s, some .sizeMustBePositive)
  else
    match st.createVolume (newVolume projectID id sizeBytes nodeID) s.volumes with
    | (volumes, some err) => (⟨s.tree, volumes⟩, some err)
    | (volumes, none) =>
        (⟨(m.createFile f projectID id sizeBytes s.tree).1, volumes⟩,
          if (m.createFile f projectID id sizeBytes s.tree).2 then none else some .os)

def create (f : Faults) (projectID id : String) (sizeBytes : Int) (nodeID : String)
    (s : Contents) : Contents × Option Error :=
  m.createWith (keyed f) f projectID id sizeBytes nodeID s

theorem create_eq (f : Faults) (projectID id : String) (sizeBytes : Int) (nodeID : String)
    (s : Contents) :
    m.create f projectID id sizeBytes nodeID s =
      if sizeBytes ≤ 0 then (s, some .sizeMustBePositive)
      else
        match f.store with
        | some err => (s, some (.state err))
        | none =>
            match s.volumes.lookup (projectID, id) with
            | some _ => (s, some .alreadyExists)
            | none =>
                (⟨(m.createFile f projectID id sizeBytes s.tree).1,
                    s.volumes.insert (projectID, id) (newVolume projectID id sizeBytes nodeID)⟩,
                  if (m.createFile f projectID id sizeBytes s.tree).2 then none else some .os) := by
  simp only [create, createWith, keyed, createVolume, newVolume]
  cases f.store with
  | some err => rfl
  | none => cases s.volumes.lookup (projectID, id) <;> rfl

def removeFile (f : Faults) (projectID id : String) (tree : FileTree) : FileTree × Bool :=
  if f.remove then (tree, false)
  else
    match tree.remove (m.path projectID id) with
    | none => (tree, false)
    | some tree => (tree, true)

/-- `Delete` with the methods of a store. -/
def deleteWith (st : Records σ) (f : Faults) (projectID id : String) (s : ContentsOf σ) :
    ContentsOf σ × Option Error :=
  match st.deleteVolume projectID id s.volumes with
  | (volumes, some err) => (⟨s.tree, volumes⟩, some err)
  | (volumes, none) =>
      (⟨(m.removeFile f projectID id s.tree).1, volumes⟩,
        if (m.removeFile f projectID id s.tree).2 then none else some .os)

def delete (f : Faults) (projectID id : String) (s : Contents) : Contents × Option Error :=
  m.deleteWith (keyed f) f projectID id s

theorem delete_eq (f : Faults) (projectID id : String) (s : Contents) :
    m.delete f projectID id s =
      match f.store with
      | some err => (s, some (.state err))
      | none =>
          (⟨(m.removeFile f projectID id s.tree).1, s.volumes.erase (projectID, id)⟩,
            if (m.removeFile f projectID id s.tree).2 then none else some .os) := by
  simp only [delete, deleteWith, keyed, deleteVolume]
  cases f.store <;> rfl

/-- The bytes that the reader of `Read` gives. -/
def read (projectID id : String) (s : Contents) : Option Bytes :=
  (s.volumes.lookup (projectID, id)).bind fun _ => s.tree.read (m.path projectID id)

/-! ## Attachment -/

/-- `GetVolume`, a change of the record, and `UpdateVolume`. -/
def modify (f : Faults) (projectID id : String) (change : Volume → Volume) (s : Contents) :
    Contents × Option Error :=
  match f.store with
  | some err => (s, some (.state err))
  | none =>
      match s.volumes.lookup (projectID, id) with
      | none => (s, some .notFound)
      | some v =>
          match f.update with
          | some err => (s, some (.state err))
          | none => ({ s with volumes := s.volumes.insert (projectID, id) (change v) }, none)

def attach (f : Faults) (projectID id nodeID : String) (s : Contents) : Contents × Option Error :=
  modify f projectID id (fun v => { v with nodeID := nodeID, status := "InUse" }) s

def detach (f : Faults) (projectID id : String) (s : Contents) : Contents × Option Error :=
  modify f projectID id (fun v => { v with status := "Available" }) s

/-! ## Snapshots -/

/-- The copy of `Snapshot` into a file that is open; a directory cannot be read. -/
def copyFile (f : Faults) (src dst : Path) (tree : FileTree) : FileTree × Option Error :=
  match tree.read src with
  | none => (tree, some .os)
  | some data =>
      match f.copy with
      | some written =>
          (tree.write dst (overwrite ((tree.read dst).getD []) (data.take written)), some .os)
      | none => (tree.write dst (overwrite ((tree.read dst).getD []) data), none)

def snapshotFile (f : Faults) (src dst : Path) (tree : FileTree) : FileTree × Option Error :=
  if f.stat ∨ tree.entry src = none then (tree, some .sourceMissing)
  else if f.mkdir then (tree, some .os)
  else
    match tree.mkdirAll dst.dir with
    | none => (tree, some .os)
    | some tree =>
        if f.openSource ∨ f.openFile then (tree, some .os)
        else
          match tree.openFile dst with
          | none => (tree, some .os)
          | some tree => copyFile f src dst tree

def snapshot (f : Faults) (projectID volID snapID : String) (s : Contents) :
    Contents × Option Error :=
  ({ s with
      tree := (snapshotFile f (m.path projectID volID) (m.path projectID snapID) s.tree).1 },
    (snapshotFile f (m.path projectID volID) (m.path projectID snapID) s.tree).2)

/-! ## Calls -/

end Manager

inductive Call where
  | create (projectID id : String) (sizeBytes : Int) (nodeID : String)
  | attach (projectID id nodeID : String)
  | detach (projectID id : String)
  | delete (projectID id : String)
  | snapshot (projectID volID snapID : String)
  deriving DecidableEq, Repr

namespace Manager

variable (m : Manager)

/-- A call leaves new contents and returns an error or not. -/
def run (f : Faults) (s : Contents) : Call → Contents × Option Error
  | .create projectID id sizeBytes nodeID => m.create f projectID id sizeBytes nodeID s
  | .attach projectID id nodeID => attach f projectID id nodeID s
  | .detach projectID id => detach f projectID id s
  | .delete projectID id => m.delete f projectID id s
  | .snapshot projectID volID snapID => m.snapshot f projectID volID snapID s

/-- A run is a list of calls, each with what fails during it. -/
def step (s : Contents) (label : Faults × Call) : Option Contents :=
  some (m.run label.1 s label.2).1

/-- A manager with the root `/data`. -/
def sample : Manager := ⟨"/data", by decide⟩

end Manager

end MiniCloud.Volumes
