import MiniCloud.Library.Files
import MiniCloud.State.Records

/-!
# The object store

The payload of an object is a file under the root directory, at the path that the
bucket and the key are cleaned to; its metadata is a record under the bucket and the
key as they are.  `PutObject` writes the file and then the record, `DeleteObject`
deletes the record and then the file.  Each step may fail, and a write that fails may
leave a part of the payload.

The store of the records is not part of the repository.  It is assumed that it keeps
them by bucket and key and that each call of it takes effect or returns an error.
-/

namespace MiniCloud.ObjectStore

open MiniCloud.Library
open MiniCloud.State

/-- The metadata of an object. -/
structure Object where
  base : Base
  bucket : String
  key : String
  size : Nat
  sha256 : String
  deriving DecidableEq, Repr

/-- A store has a root directory. -/
structure Store where
  rootDir : String
  rooted : rootDir ≠ ""

/-- The files and the records. -/
structure Contents where
  tree : FileTree
  objects : AList fun _ : String × String => Object

/-- How a write ends: completely, before the file is opened, or after some bytes. -/
inductive Writing where
  | whole
  | refused
  | torn (written : Nat)
  deriving DecidableEq, Repr

/-- What fails during a call. -/
structure Faults where
  mkdir : Bool
  write : Writing
  remove : Bool
  /-- The answer of the store of the records. -/
  record : Option StoreError
  deriving DecidableEq, Repr

def Faults.none : Faults := ⟨false, .whole, false, .none⟩

inductive Error where
  | bucketNameRequired
  | bucketAndKeyRequired
  /-- The payload could not be read. -/
  | reader
  | state (err : StoreError)
  | os
  deriving DecidableEq, Repr

/-- SHA-256 in hexadecimal of payloads of one byte; no others are stored in samples. -/
def sampleDigest (data : Bytes) : String :=
  if data = [1] then "4bf5122f344554c53bde2ebb8cd2b7e3d1600ad631c385a5d7cce23c7785459a"
  else if data = [2] then "dbc1b4c900ffe48d575b5da5c638040125f65db0fe3e24494b76ea986457d986"
  else if data = [7] then "ca358758f6d27e6cf45272937977a748fd88391db679ceda7dc7bf1f005ee879"
  else ""

namespace Store

variable (st : Store)

def bucketPath (bucket : String) : Path := Path.join [st.rootDir, bucket]

def objectPath (bucket key : String) : Path := Path.join [st.rootDir, bucket, key]

/-! ## Buckets -/

def createBucket (f : Faults) (name : String) (s : Contents) : Contents × Option Error :=
  if name = "" then (s, some .bucketNameRequired)
  else
    match f.record with
    | some err => (s, some (.state err))
    | none =>
        if f.mkdir then (s, some .os)
        else
          match s.tree.mkdirAll (st.bucketPath name) with
          | none => (s, some .os)
          | some tree => ({ s with tree := tree }, none)

def deleteBucket (f : Faults) (name : String) (s : Contents) : Contents × Option Error :=
  match f.record with
  | some err => (s, some (.state err))
  | none =>
      if f.remove then (s, some .os)
      else
        match s.tree.removeAll (st.bucketPath name) with
        | none => (s, some .os)
        | some tree => ({ s with tree := tree }, none)

/-! ## Objects -/

/-- The metadata that a payload is stored with. -/
def describe (sha256 : Bytes → String) (bucket key : String) (data : Bytes) : Object :=
  ⟨⟨key, bucket, key⟩, bucket, key, data.length, sha256 data⟩

/-- The file of `PutObject`, and whether it is written. -/
def putFile (f : Faults) (bucket key : String) (data : Bytes) (tree : FileTree) :
    FileTree × Bool :=
  if f.mkdir then (tree, false)
  else
    match tree.mkdirAll (st.objectPath bucket key).dir with
    | none => (tree, false)
    | some tree =>
        if f.write = .refused then (tree, false)
        else
          match tree.openFile (st.objectPath bucket key) with
          | none => (tree, false)
          | some tree =>
              match f.write with
              | .torn written => (tree.write (st.objectPath bucket key) (data.take written), false)
              | _ => (tree.write (st.objectPath bucket key) data, true)

def putRecord (sha256 : Bytes → String) (f : Faults) (bucket key : String) (data : Bytes)
    (s : Contents) : Contents × Option Error :=
  match f.record with
  | some err => (s, some (.state err))
  | none =>
      ({ s with objects := s.objects.insert (bucket, key) (describe sha256 bucket key data) }, none)

/-- `PutObject` of a payload, if it can be read; it returns its digest. -/
def putObject (sha256 : Bytes → String) (f : Faults) (bucket key : String) (data : Option Bytes)
    (s : Contents) : Contents × Except Error String :=
  if bucket = "" ∨ key = "" then (s, .error .bucketAndKeyRequired)
  else
    match data with
    | none => (s, .error .reader)
    | some data =>
        match st.putFile f bucket key data s.tree with
        | (tree, false) => ({ s with tree := tree }, .error .os)
        | (tree, true) =>
            match putRecord sha256 f bucket key data { s with tree := tree } with
            | (s, some err) => (s, .error err)
            | (s, none) => (s, .ok (sha256 data))

/-- `GetObject` with the payload that its reader gives. -/
def getObject (bucket key : String) (s : Contents) : Except Error (Bytes × Object) :=
  match s.objects.lookup (bucket, key) with
  | none => .error (.state ⟨"not found"⟩)
  | some o =>
      match s.tree.read (st.objectPath bucket key) with
      | none => .error .os
      | some data => .ok (data, o)

def deleteRecord (f : Faults) (bucket key : String) (s : Contents) : Contents × Option Error :=
  match f.record with
  | some err => (s, some (.state err))
  | none => ({ s with objects := s.objects.erase (bucket, key) }, none)

def deleteFile (f : Faults) (bucket key : String) (tree : FileTree) : FileTree × Bool :=
  if f.remove then (tree, false)
  else
    match tree.remove (st.objectPath bucket key) with
    | none => (tree, false)
    | some tree => (tree, true)

def deleteObject (f : Faults) (bucket key : String) (s : Contents) : Contents × Option Error :=
  match deleteRecord f bucket key s with
  | (s, some err) => (s, some err)
  | (s, none) =>
      match st.deleteFile f bucket key s.tree with
      | (tree, false) => ({ s with tree := tree }, some .os)
      | (tree, true) => ({ s with tree := tree }, none)

/-! ## What a call touches -/

/-- The only file that has changed is that of the object, and so is the only record. -/
structure Touches (bucket key : String) (s t : Contents) : Prop where
  files : FileTree.Keeps (st.objectPath bucket key) s.tree t.tree
  records : ∀ pair, pair ≠ (bucket, key) → t.objects.lookup pair = s.objects.lookup pair

variable {st} {sha256 : Bytes → String} {f : Faults} {bucket key : String} {s t u : Contents}

theorem Touches.refl (s : Contents) : st.Touches bucket key s s :=
  ⟨FileTree.Keeps.refl _ _, fun _ _ => rfl⟩

theorem Touches.trans (first : st.Touches bucket key s t) (second : st.Touches bucket key t u) :
    st.Touches bucket key s u :=
  ⟨first.files.trans second.files,
    fun pair other => (second.records pair other).trans (first.records pair other)⟩

theorem touches_tree {tree : FileTree}
    (kept : FileTree.Keeps (st.objectPath bucket key) s.tree tree) :
    st.Touches bucket key s { s with tree := tree } :=
  ⟨kept, fun _ _ => rfl⟩

/-- A file step fails before it touches the file, or it writes the payload, or a part of it
and fails. -/
theorem putFile_cases (f : Faults) (data : Bytes) (tree : FileTree) :
    ((st.putFile f bucket key data tree).2 = false ∧
        ∀ q, (st.putFile f bucket key data tree).1.read q = tree.read q) ∨
      (FileTree.Keeps (st.objectPath bucket key) tree (st.putFile f bucket key data tree).1 ∧
        (((st.putFile f bucket key data tree).2 = true ∧
            (st.putFile f bucket key data tree).1.read (st.objectPath bucket key) = some data) ∨
          ((st.putFile f bucket key data tree).2 = false ∧
            ∃ written, f.write = .torn written))) := by
  unfold putFile
  split
  · exact Or.inl ⟨rfl, fun _ => rfl⟩
  split
  · exact Or.inl ⟨rfl, fun _ => rfl⟩
  rename_i made isMade
  split
  · exact Or.inl ⟨rfl, FileTree.read_mkdirAll isMade⟩
  split
  · exact Or.inl ⟨rfl, FileTree.read_mkdirAll isMade⟩
  rename_i opened isOpened
  have kept := (FileTree.keeps_mkdirAll isMade).trans (FileTree.keeps_openFile isOpened)
  refine Or.inr ?_
  split
  · rename_i written isTorn
    exact ⟨kept.trans (FileTree.keeps_write _ _ _), Or.inr ⟨rfl, written, isTorn⟩⟩
  · refine ⟨kept.trans (FileTree.keeps_write _ _ _), Or.inl ⟨rfl, ?_⟩⟩
    exact FileTree.read_write_self (FileTree.named_of_openFile isOpened) data

theorem putFile_keeps (data : Bytes) (tree : FileTree) :
    FileTree.Keeps (st.objectPath bucket key) tree (st.putFile f bucket key data tree).1 := by
  rcases @putFile_cases st bucket key f data tree with ⟨_, same⟩ | ⟨kept, _⟩
  · exact fun q _ => same q
  · exact kept

theorem deleteFile_keeps (tree : FileTree) :
    FileTree.Keeps (st.objectPath bucket key) tree (st.deleteFile f bucket key tree).1 := by
  unfold deleteFile
  split
  · exact FileTree.Keeps.refl _ _
  split
  · exact FileTree.Keeps.refl _ _
  · rename_i removed
    exact FileTree.keeps_remove removed

theorem putRecord_touches (data : Bytes) :
    st.Touches bucket key s (putRecord sha256 f bucket key data s).1 := by
  unfold putRecord
  split
  · exact Touches.refl s
  · exact ⟨FileTree.Keeps.refl _ _, fun _ other => AList.lookup_insert_ne other⟩

theorem deleteRecord_touches : st.Touches bucket key s (deleteRecord f bucket key s).1 := by
  unfold deleteRecord
  split
  · exact Touches.refl s
  · exact ⟨FileTree.Keeps.refl _ _, fun _ other => AList.lookup_erase_ne other⟩

/-- What a put leaves: its file, and its record if the file is written. -/
theorem putObject_contents (given : ¬(bucket = "" ∨ key = "")) (data : Bytes) :
    (st.putObject sha256 f bucket key (some data) s).1 =
      if (st.putFile f bucket key data s.tree).2 then
        (putRecord sha256 f bucket key data
          { s with tree := (st.putFile f bucket key data s.tree).1 }).1
      else { s with tree := (st.putFile f bucket key data s.tree).1 } := by
  unfold putObject
  rw [if_neg given]
  cases written : st.putFile f bucket key data s.tree with
  | mk tree ok =>
      simp only [written]
      cases ok with
      | false => rfl
      | true =>
          cases recorded : putRecord sha256 f bucket key data { s with tree := tree } with
          | mk last failed =>
              simp only [recorded]
              cases failed with
              | none => rfl
              | some err => rfl

/-- What a delete leaves: without the record, and without the file if the record is deleted. -/
theorem deleteObject_contents : (st.deleteObject f bucket key s).1 =
    if (deleteRecord f bucket key s).2.isNone then
      { (deleteRecord f bucket key s).1 with
        tree := (st.deleteFile f bucket key (deleteRecord f bucket key s).1.tree).1 }
    else (deleteRecord f bucket key s).1 := by
  unfold deleteObject
  cases deleted : deleteRecord f bucket key s with
  | mk next failed =>
      cases failed with
      | some err => rfl
      | none =>
          cases removed : st.deleteFile f bucket key next.tree with
          | mk tree ok =>
              simp only [removed]
              cases ok with
              | false => rfl
              | true => rfl

theorem putObject_touches (data : Option Bytes) :
    st.Touches bucket key s (st.putObject sha256 f bucket key data s).1 := by
  by_cases given : ¬(bucket = "" ∨ key = "")
  · cases data with
    | none =>
        unfold putObject
        rw [if_neg given]
        exact Touches.refl s
    | some data =>
        have fileStep := touches_tree (s := s) (@putFile_keeps st f bucket key data s.tree)
        rw [putObject_contents given]
        split
        · exact fileStep.trans (putRecord_touches data)
        · exact fileStep
  · unfold putObject
    rw [if_pos (not_not.mp given)]
    exact Touches.refl s

theorem deleteObject_touches : st.Touches bucket key s (st.deleteObject f bucket key s).1 := by
  have recordStep := @deleteRecord_touches st f bucket key s
  rw [deleteObject_contents]
  split
  · exact recordStep.trans (touches_tree (deleteFile_keeps _))
  · exact recordStep

end Store

end MiniCloud.ObjectStore
