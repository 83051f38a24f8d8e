import MiniCloud.ObjectStore.Store

/-!
# The files of objects

The bucket and the key of an object are texts, and its file is at the path that they
are cleaned to.  A key with `..` in it can leave its bucket, a bucket can be no
directory of the root, and two keys that differ in slashes or dots share a file.  Both
questions are decided by the path: a key that descends keeps inside every bucket, and
two objects are apart exactly if their paths are.
-/

namespace MiniCloud.ObjectStore

open MiniCloud.Library
open MiniCloud.Library.Path

inductive BucketCall where
  | create
  | delete
  deriving DecidableEq, Repr

inductive ObjectCall where
  | put (data : Option Bytes)
  | get
  | delete
  deriving DecidableEq, Repr

/-- A call of the store on a bucket or on an object. -/
inductive Call where
  | bucket (call : BucketCall) (name : String)
  | object (call : ObjectCall) (bucket key : String)
  deriving DecidableEq, Repr

namespace Store

variable (st : Store)

/-- The path that a call writes, reads or removes. -/
def pathOf : Call → Path
  | .bucket _ name => st.bucketPath name
  | .object _ bucket key => st.objectPath bucket key

/-- What a call leaves. -/
def run (sha256 : Bytes → String) (f : Faults) (s : Contents) : Call → Contents
  | .bucket .create name => (st.createBucket f name s).1
  | .bucket .delete name => (st.deleteBucket f name s).1
  | .object (.put data) bucket key => (st.putObject sha256 f bucket key data s).1
  | .object .get _ _ => s
  | .object .delete bucket key => (st.deleteObject f bucket key s).1

/-- The call stays where it belongs: directly in the root for a bucket, strictly inside the
bucket for an object. -/
def Confined : Call → Prop
  | .bucket call name => (st.pathOf (.bucket call name)).ChildOf (clean st.rootDir)
  | .object call bucket key => (st.pathOf (.object call bucket key)).Below (st.bucketPath bucket)

variable {st}

/-! ## Paths inside the root -/

/-- A call changes files only at its path or below it. -/
theorem run_outside {sha256 : Bytes → String} {f : Faults} {s : Contents} {q : Path} (call : Call)
    (outside : ¬(q.rooted = (st.pathOf call).rooted ∧ (st.pathOf call).stack <:+ q.stack)) :
    (st.run sha256 f s call).tree.read q = s.tree.read q := by
  cases call with
  | bucket call name =>
      cases call with
      | create =>
          change (st.createBucket f name s).1.tree.read q = s.tree.read q
          unfold createBucket
          split
          · rfl
          split
          · rfl
          split
          · rfl
          split
          · rfl
          · rename_i made
            exact FileTree.read_mkdirAll made q
      | delete =>
          change (st.deleteBucket f name s).1.tree.read q = s.tree.read q
          unfold deleteBucket
          split
          · rfl
          split
          · rfl
          split
          · rfl
          · rename_i removed
            exact FileTree.read_removeAll removed outside
  | object call bucket key =>
      have other : q ≠ st.objectPath bucket key := by
        rintro rfl
        exact outside ⟨rfl, List.suffix_rfl⟩
      cases call with
      | put data => exact (putObject_touches data).files q other
      | get => rfl
      | delete => exact deleteObject_touches.files q other

theorem bucketPath_eq {bucket : String} (given : bucket ≠ "") :
    st.bucketPath bucket = (clean st.rootDir).down bucket := join_two st.rooted given

theorem objectPath_eq {bucket key : String} (bucketGiven : bucket ≠ "") (keyGiven : key ≠ "") :
    st.objectPath bucket key = (st.bucketPath bucket).down key := by
  rw [bucketPath_eq bucketGiven]
  exact join_three st.rooted bucketGiven keyGiven

/-- The store whose root is a directory of the root. -/
def under (name : String) : Store := ⟨"/" ++ name, by
  intro empty
  have chars := congrArg String.toList empty
  rw [String.toList_append] at chars
  cases chars⟩

/-- Calls are confined for exactly these names: a bucket has to be cleaned to one element,
and a key to at least one, without climbing. -/
theorem confined_iff {bucket key : String} (bucketGiven : bucket ≠ "") (keyGiven : key ≠ "") :
    ((∀ (st : Store) call, st.Confined (.bucket call bucket)) ↔ NamesOne bucket) ∧
      ((∀ (st : Store) call b, b ≠ "" → st.Confined (.object call b key)) ↔ Descends key) := by
  constructor
  · constructor
    · intro confined
      refine namesOne_of_child ?_
      intro name isName
      have child := confined (under name) .create
      rw [Confined, pathOf, bucketPath_eq bucketGiven] at child
      rcases isName with rfl | rfl
      · exact child
      · exact child
    · intro one st call
      rw [Confined, pathOf, bucketPath_eq bucketGiven]
      exact down_namesOne one _
  · constructor
    · intro confined
      refine descends_of_below ?_
      intro name isName
      have nonempty : name ≠ "" := by
        rcases isName with rfl | rfl
        · decide
        · decide
      have below := confined ⟨"/", by decide⟩ .get name nonempty
      rw [Confined, pathOf, objectPath_eq nonempty keyGiven] at below
      rcases isName with rfl | rfl
      · exact below
      · exact below
    · intro descends st call b given
      rw [Confined, pathOf, objectPath_eq given keyGiven]
      exact down_descends descends _

/-- A bucket and a key with a directory in it. -/
theorem confined_sample :
    (under "data").Confined (.bucket .delete "logs") ∧
      (under "data").Confined (.object .delete "logs" "2024/./may") := by
  have both := @confined_iff "logs" "2024/./may" (by decide) (by decide)
  exact ⟨both.1.mpr ⟨"logs", by decide, by decide⟩ (under "data") .delete,
    both.2.mpr ⟨by decide, by decide⟩ (under "data") .delete "logs" (by decide)⟩

/-- A key that climbs out of its bucket and of the root: the payload is written to a file at
the top of the file system. -/
theorem key_escapes :
    ¬(under "data").Confined (.object (.put (some [7])) "logs" "../../etc") ∧
      ((under "data").run sampleDigest .none ⟨∅, ∅⟩
        (.object (.put (some [7])) "logs" "../../etc")).tree.read ⟨true, ["etc"]⟩ = some [7] := by
  constructor
  · rintro ⟨_, names, _, _, inside⟩
    have lengths := congrArg List.length inside
    rw [List.length_append] at lengths
    have outside : ((under "data").pathOf
      (.object (.put (some [7])) "logs" "../../etc")).stack.length = 1 := by decide
    have two : ((under "data").bucketPath "logs").stack.length = 2 := by decide
    omega
  · decide +kernel

/-! ## Different objects -/

variable (st)

/-- The payload that `GetObject` returns. -/
def payload (bucket key : String) (s : Contents) : Option Bytes :=
  match st.getObject bucket key s with
  | .ok (data, _) => some data
  | .error _ => none

/-- Two objects share a file. -/
def Collide (bucket key bucket' key' : String) : Prop :=
  st.objectPath bucket' key' = st.objectPath bucket key ∧
    (st.objectPath bucket key).named = true

variable {st} {sha256 : Bytes → String} {f : Faults} {bucket key bucket' key' : String}
  {s t : Contents}

theorem payload_eq : st.payload bucket key s =
    (s.objects.lookup (bucket, key)).bind fun _ => s.tree.read (st.objectPath bucket key) := by
  unfold payload getObject
  cases s.objects.lookup (bucket, key) with
  | none => rfl
  | some o =>
      cases s.tree.read (st.objectPath bucket key) with
      | none => rfl
      | some data => rfl

theorem run_touches (call : ObjectCall) :
    st.Touches bucket key s (st.run sha256 f s (.object call bucket key)) := by
  cases call with
  | put data => exact putObject_touches data
  | get => exact Touches.refl s
  | delete => exact deleteObject_touches

/-- A payload is kept if neither its record nor its file is touched. -/
theorem Touches.payload (touches : st.Touches bucket key s t)
    (different : (bucket', key') ≠ (bucket, key)) (apart : ¬st.Collide bucket key bucket' key') :
    st.payload bucket' key' t = st.payload bucket' key' s := by
  rw [payload_eq, payload_eq, touches.records _ different]
  by_cases same : st.objectPath bucket' key' = st.objectPath bucket key
  · have unnamed : (st.objectPath bucket' key').named ≠ true := by
      rw [same]
      exact fun isNamed => apart ⟨same, isNamed⟩
    have nothing (c : Contents) : c.tree.read (st.objectPath bucket' key') = none := by
      rw [FileTree.read, FileTree.entry, if_neg unnamed]
    rw [nothing, nothing]
  · rw [touches.files _ same]

/-- A file that two objects share is removed with either of them. -/
theorem delete_shared (sha256 : Bytes → String) (collide : st.Collide bucket key bucket' key')
    (different : (bucket', key') ≠ (bucket, key)) :
    ∃ s, st.payload bucket' key' s = some [0] ∧
      st.payload bucket' key' (st.run sha256 .none s (.object .delete bucket key)) = none := by
  obtain ⟨same, isNamed⟩ := collide
  have o := describe sha256 bucket key [0]
  refine ⟨⟨FileTree.write ∅ (st.objectPath bucket key) [0],
    (AList.insert (bucket', key') o ∅).insert (bucket, key) o⟩, ?_, ?_⟩
  · rw [payload_eq, AList.lookup_insert_ne different, AList.lookup_insert, same]
    exact FileTree.read_write_self isNamed [0]
  · have removed := FileTree.remove_file (FileTree.read_write_self (t := ∅) isNamed [0])
    have gone := FileTree.read_remove_self removed
    rw [run, deleteObject, deleteRecord]
    simp only [Faults.none, deleteFile, removed]
    rw [if_neg Bool.false_ne_true, payload_eq, same, gone]
    exact Option.bind_fun_none _

/-- The names of an object that cleaning leaves as they are. -/
structure Canonical (bucket key : String) : Prop where
  bucket : Plain bucket
  key : ∀ element ∈ Text.split key '/', Plain element

theorem Canonical.key_ne (canonical : Canonical bucket key) : key ≠ "" := by
  rintro rfl
  exact (canonical.key "" (by decide)).nonempty rfl

theorem Canonical.path (canonical : Canonical bucket key) :
    (st.objectPath bucket key).stack =
      (Text.split key '/').reverse ++ bucket :: (clean st.rootDir).stack := by
  rw [objectPath_eq canonical.bucket.nonempty canonical.key_ne,
    bucketPath_eq canonical.bucket.nonempty, down_plain canonical.bucket]
  exact walk_plain canonical.key _ _

/-- Different objects with canonical names have different files. -/
theorem Canonical.apart (canonical : Canonical bucket key) (canonical' : Canonical bucket' key')
    (different : (bucket', key') ≠ (bucket, key)) : ¬st.Collide bucket key bucket' key' := by
  rintro ⟨same, _⟩
  have sameStack := congrArg Path.stack same
  rw [canonical.path, canonical'.path] at sameStack
  obtain ⟨sameKey, sameBucket⟩ := List.append_inj' sameStack rfl
  refine different (Prod.ext (List.cons.inj sameBucket).1 ?_)
  exact Text.split_inj (List.reverse_injective sameKey)

/-- A call on one object leaves the payload of another as it is, whatever the store holds and
whatever fails, exactly if the two do not share a file; and objects with canonical names
never do. -/
theorem objects_apart_iff (sha256 : Bytes → String)
    (different : (bucket', key') ≠ (bucket, key)) :
    ((∀ f s call, st.payload bucket' key' (st.run sha256 f s (.object call bucket key)) =
        st.payload bucket' key' s) ↔ ¬st.Collide bucket key bucket' key') ∧
      (Canonical bucket key → Canonical bucket' key' → ¬st.Collide bucket key bucket' key') := by
  constructor
  · constructor
    · intro kept collide
      obtain ⟨s, before, after⟩ := delete_shared sha256 collide different
      rw [kept, before] at after
      cases after
    · intro apart f s call
      exact (run_touches call).payload different apart
  · intro canonical canonical'
    exact canonical.apart canonical' different

/-- An object stays when another one of its bucket is put and deleted. -/
theorem objects_apart_sample :
    let s := (under "data").run sampleDigest .none ⟨∅, ∅⟩ (.object (.put (some [1])) "logs" "may")
    (under "data").payload "logs" "may" ((under "data").run sampleDigest .none
      ((under "data").run sampleDigest .none s (.object (.put (some [2])) "logs" "june"))
      (.object .delete "logs" "june")) = some [1] := by
  intro s
  have differ : ¬(under "data").Collide "logs" "june" "logs" "may" := by
    rintro ⟨same, _⟩
    revert same
    decide
  have kept := (@objects_apart_iff (under "data") "logs" "june" "logs" "may" sampleDigest
    (by decide)).1.mpr differ
  rw [kept, kept]
  decide +kernel

/-- Two keys that differ in a slash: what is put under the second is got under the first,
with the metadata of the first. -/
theorem slashes_collide :
    ("logs", "a/b") ≠ ("logs", "a//b") ∧
      let s := (under "data").run sampleDigest .none ⟨∅, ∅⟩ (.object (.put (some [1])) "logs" "a/b")
      (under "data").payload "logs" "a/b" s = some [1] ∧
        (under "data").payload "logs" "a/b" ((under "data").run sampleDigest .none s
          (.object (.put (some [2])) "logs" "a//b")) = some [2] :=
  ⟨by decide, by decide +kernel, by decide +kernel⟩

end Store

end MiniCloud.ObjectStore
