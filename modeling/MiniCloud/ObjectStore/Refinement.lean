import Mathlib
import MiniCloud.Library.Runs
import MiniCloud.ObjectStore.Confined

/-!
# The object store as a finite map

Seen from outside, the store of the objects is a finite map from buckets and keys to
payloads.  That is what its files and records amount to for as long as nothing fails and the
names fit together: they are canonical, and no key is a directory of another one.
-/

namespace MiniCloud.ObjectStore

open MiniCloud.Library MiniCloud.Library.Path MiniCloud.Library.Text MiniCloud.State

/-! ## Listing -/

namespace Store

/-- The records of a bucket, in the order that the store of the records returns. -/
def recordsOf (bucket : String) (s : Contents) : List Object :=
  (s.objects.entries.filter fun e => e.1.1 = bucket).map fun e => e.2

def sortByKey (objs : List Object) : List Object := objs.insertionSort fun a b => a.key ≤ b.key

def listObjects (f : Faults) (bucket start : String) (s : Contents) : Except Error (List Object) :=
  match f.record with
  | some err => .error (.state err)
  | none =>
      let objs := recordsOf bucket s
      if start = "" then .ok (sortByKey objs)
      else .ok (sortByKey (objs.filter fun o => hasPrefix o.key start))

end Store

/-! ## Calls and their answers -/

inductive Operation where
  | put (bucket key : String) (data : Bytes)
  | get (bucket key : String)
  | delete (bucket key : String)
  | list (bucket start : String)

inductive Answer where
  | put (result : Except Error String)
  | get (result : Except Error (Bytes × Object))
  | delete (result : Option Error)
  | list (result : Except Error (List Object))

/-- A call on the store when nothing fails. -/
def Store.react (st : Store) (sha256 : Bytes → String) (s : Contents) :
    Operation → Answer × Option Contents
  | .put bucket key data =>
      let (s, result) := st.putObject sha256 .none bucket key (some data) s
      (.put result, some s)
  | .get bucket key => (.get (st.getObject bucket key s), some s)
  | .delete bucket key =>
      let (s, result) := st.deleteObject .none bucket key s
      (.delete result, some s)
  | .list bucket start => (.list (Store.listObjects .none bucket start s), some s)

/-! ## The map -/

/-- The payloads by bucket and key. -/
abbrev Payloads := Finmap fun _ : String × String => Bytes

namespace Payloads

/-- The objects of a bucket whose keys begin with a text, by increasing keys. -/
noncomputable def objects (sha256 : Bytes → String) (m : Payloads) (bucket start : String) :
    List Object :=
  ((m.keys.filter fun name => name.1 = bucket ∧ hasPrefix name.2 start = true).image
    Prod.snd).sort.filterMap
      fun key => (m.lookup (bucket, key)).map (Store.describe sha256 bucket key)

noncomputable def react (sha256 : Bytes → String) (m : Payloads) :
    Operation → Answer × Option Payloads
  | .put bucket key data => (.put (.ok (sha256 data)), some (m.insert (bucket, key) data))
  | .get bucket key =>
      match m.lookup (bucket, key) with
      | none => (.get (.error (.state ⟨"not found"⟩)), some m)
      | some data => (.get (.ok (data, Store.describe sha256 bucket key data)), some m)
  | .delete bucket key =>
      (.delete (if (m.lookup (bucket, key)).isSome then none else some .os),
        some (m.erase (bucket, key)))
  | .list bucket start => (.list (.ok (m.objects sha256 bucket start)), some m)

end Payloads

/-! ## Names that fit together -/

/-- The names are canonical, and no key of a bucket is a directory of another. -/
structure Fitting (names : Set (String × String)) : Prop where
  canonical : ∀ name ∈ names, Store.Canonical name.1 name.2
  apart : ∀ name ∈ names, ∀ other ∈ names, name.1 = other.1 → name ≠ other →
    ¬ split name.2 '/' <+: split other.2 '/'

section Names

variable {st : Store} {names : Set (String × String)}

/-- The path of an object. -/
def Store.pathAt (st : Store) (name : String × String) : Path := st.objectPath name.1 name.2

theorem Fitting.distinct (fitting : Fitting names) {name other : String × String}
    (member : name ∈ names) (member' : other ∈ names) (same : st.pathAt other = st.pathAt name) :
    other = name := by
  have sameStack := congrArg Path.stack same
  rw [Store.pathAt, Store.pathAt, (fitting.canonical name member).path,
    (fitting.canonical other member').path] at sameStack
  obtain ⟨sameKey, sameBucket⟩ := List.append_inj' sameStack rfl
  exact Prod.ext (List.cons.inj sameBucket).1 (Text.split_inj (List.reverse_injective sameKey))

theorem Fitting.compatible (fitting : Fitting names) :
    FileTree.Compatible (st.pathAt '' names) where
  named := by
    rintro _ ⟨name, member, rfl⟩
    have canonical := fitting.canonical name member
    rw [Path.named, Store.pathAt, canonical.path]
    cases elements : (split name.2 '/').reverse with
    | nil => exact decide_eq_true canonical.bucket.notDots
    | cons last before =>
        have inKey : last ∈ split name.2 '/' := by
          rw [← List.mem_reverse, elements]
          exact List.mem_cons_self
        exact decide_eq_true (canonical.key last inKey).notDots
  apart := by
    rintro _ ⟨name, member, rfl⟩ _ ⟨other, member', rfl⟩ isAbove
    obtain ⟨_, suffix⟩ := FileTree.mem_upTo.mp isAbove
    have shorter : (st.pathAt other).stack.length ≤ (st.pathAt name).stack.tail.length :=
      suffix.length_le
    have whole : (st.pathAt other).stack <:+ (st.pathAt name).stack :=
      suffix.trans (List.tail_suffix _)
    rw [Store.pathAt, Store.pathAt, (fitting.canonical name member).path,
      (fitting.canonical other member').path, ← List.reverse_prefix] at whole
    simp only [List.reverse_append, List.reverse_cons, List.append_assoc, List.reverse_reverse,
      List.prefix_append_right_inj] at whole
    obtain ⟨sameBucket, isPrefix⟩ := List.cons_prefix_cons.mp whole
    refine fitting.apart other member' name member sameBucket ?_ isPrefix
    rintro rfl
    rw [List.length_tail, Store.pathAt, (fitting.canonical other member').path,
      List.length_append, List.length_cons] at shorter
    omega

end Names

/-! ## What the contents stand for -/

/-- Every file of the names holds its payload, and every record describes it. -/
structure Represents (st : Store) (sha256 : Bytes → String) (names : Set (String × String))
    (s : Contents) (m : Payloads) : Prop where
  vacant : FileTree.Vacant (st.pathAt '' names) s.tree
  files : ∀ name ∈ names, s.tree.read (st.pathAt name) = m.lookup name
  records : ∀ name, s.objects.lookup name =
    (m.lookup name).map (Store.describe sha256 name.1 name.2)

section Represents

variable {st : Store} {sha256 : Bytes → String} {names : Set (String × String)} {s : Contents}
  {m : Payloads} {bucket key : String}

theorem Represents.put (represents : Represents st sha256 names s m) (fitting : Fitting names)
    (member : (bucket, key) ∈ names) (data : Bytes) :
    ∃ t, st.putObject sha256 .none bucket key (some data) s = (t, .ok (sha256 data)) ∧
      Represents st sha256 names t (m.insert (bucket, key) data) := by
  have canonical := fitting.canonical _ member
  obtain ⟨made, opened, isMade, isOpened, vacant⟩ := FileTree.vacant_write represents.vacant
    fitting.compatible (Set.mem_image_of_mem st.pathAt member) data
  have written : st.putFile .none bucket key data s.tree =
      (opened.write (st.objectPath bucket key) data, true) := by
    have isMade' : s.tree.mkdirAll (st.objectPath bucket key).dir = some made := isMade
    have isOpened' : made.openFile (st.objectPath bucket key) = some opened := isOpened
    rw [Store.putFile]
    simp only [Faults.none, isMade', isOpened']
    rfl
  refine ⟨⟨opened.write (st.objectPath bucket key) data,
    s.objects.insert (bucket, key) (Store.describe sha256 bucket key data)⟩, ?_, vacant, ?_, ?_⟩
  · have given : ¬ (bucket = "" ∨ key = "") := by
      rintro (rfl | rfl)
      · exact canonical.bucket.nonempty rfl
      · exact canonical.key_ne rfl
    rw [Store.putObject, if_neg given]
    simp only [written]
    rfl
  · intro name member'
    by_cases own : name = (bucket, key)
    · subst own
      rw [Finmap.lookup_insert]
      exact FileTree.read_write_self
        (fitting.compatible.named _ (Set.mem_image_of_mem st.pathAt member)) data
    · have other : st.pathAt name ≠ st.objectPath bucket key :=
        fun same => own (fitting.distinct member member' same)
      rw [Finmap.lookup_insert_of_ne _ own, ← represents.files name member']
      change FileTree.read _ _ = _
      rw [FileTree.keeps_write _ opened data _ other, FileTree.keeps_openFile isOpened _ other,
        FileTree.read_mkdirAll isMade]
  · intro name
    by_cases own : name = (bucket, key)
    · subst own
      rw [Finmap.lookup_insert, AList.lookup_insert]
      rfl
    · rw [Finmap.lookup_insert_of_ne _ own, AList.lookup_insert_ne own]
      exact represents.records name

theorem Represents.get (represents : Represents st sha256 names s m)
    (member : (bucket, key) ∈ names) :
    st.getObject bucket key s =
      match m.lookup (bucket, key) with
      | none => .error (.state ⟨"not found"⟩)
      | some data => .ok (data, Store.describe sha256 bucket key data) := by
  have stored : s.tree.read (st.objectPath bucket key) = m.lookup (bucket, key) :=
    represents.files (bucket, key) member
  rw [Store.getObject, represents.records, stored]
  cases m.lookup (bucket, key) with
  | none => rfl
  | some data => rfl

/-- The file of an object that is not there cannot be removed; either way it is gone. -/
theorem Represents.deleteFile (represents : Represents st sha256 names s m)
    (fitting : Fitting names) (member : (bucket, key) ∈ names) :
    ∃ tree, st.deleteFile .none bucket key s.tree = (tree, (m.lookup (bucket, key)).isSome) ∧
      FileTree.Vacant (st.pathAt '' names) tree ∧
      ∀ name ∈ names, tree.read (st.pathAt name) = (m.erase (bucket, key)).lookup name := by
  have stored : s.tree.read (st.objectPath bucket key) = m.lookup (bucket, key) :=
    represents.files (bucket, key) member
  have isPath : st.objectPath bucket key ∈ st.pathAt '' names := ⟨(bucket, key), member, rfl⟩
  have reads {tree : FileTree} (gone : tree.read (st.objectPath bucket key) = none)
      (kept : ∀ path, path ≠ st.objectPath bucket key → tree.read path = s.tree.read path)
      (name : String × String) (member' : name ∈ names) :
      tree.read (st.pathAt name) = (m.erase (bucket, key)).lookup name := by
    by_cases own : name = (bucket, key)
    · subst own
      rw [Finmap.lookup_erase]
      exact gone
    · have other : st.pathAt name ≠ st.objectPath bucket key :=
        fun same => own (fitting.distinct member member' same)
      rw [Finmap.lookup_erase_ne own, ← represents.files name member', kept _ other]
  rw [Store.deleteFile, if_neg (by decide)]
  cases found : m.lookup (bucket, key) with
  | none =>
      rw [FileTree.remove_missing (stored.trans found) (represents.vacant.free _ isPath)]
      exact ⟨_, rfl, represents.vacant, reads (stored.trans found) fun _ _ => rfl⟩
  | some data =>
      rw [FileTree.remove_file (stored.trans found)]
      exact ⟨_, rfl, FileTree.vacant_erase represents.vacant fitting.compatible isPath,
        reads (FileTree.read_erase_self _ _) (FileTree.keeps_erase _ _)⟩

theorem Represents.delete (represents : Represents st sha256 names s m) (fitting : Fitting names)
    (member : (bucket, key) ∈ names) :
    Represents st sha256 names (st.deleteObject .none bucket key s).1 (m.erase (bucket, key)) ∧
      (st.deleteObject .none bucket key s).2 =
        if (m.lookup (bucket, key)).isSome then none else some .os := by
  have erased (name : String × String) :
      (s.objects.erase (bucket, key)).lookup name =
        ((m.erase (bucket, key)).lookup name).map (Store.describe sha256 name.1 name.2) := by
    by_cases own : name = (bucket, key)
    · subst own
      rw [Finmap.lookup_erase, AList.lookup_erase]
      rfl
    · rw [Finmap.lookup_erase_ne own, AList.lookup_erase_ne own]
      exact represents.records name
  obtain ⟨tree, isResult, vacant, files⟩ := represents.deleteFile fitting member
  have deleted : st.deleteObject .none bucket key s =
      (⟨tree, s.objects.erase (bucket, key)⟩,
        if (m.lookup (bucket, key)).isSome then none else some .os) := by
    have recordGone : Store.deleteRecord .none bucket key s =
        ({ s with objects := s.objects.erase (bucket, key) }, none) := rfl
    rw [Store.deleteObject, recordGone]
    dsimp only
    rw [isResult]
    cases (m.lookup (bucket, key)).isSome with
    | false => rfl
    | true => rfl
  rw [deleted]
  exact ⟨⟨vacant, files, erased⟩, rfl⟩

/-! ## Listings -/

/-- An entry is stored under the key of its record. -/
theorem Represents.entry_key (represents : Represents st sha256 names s m)
    {e : Sigma fun _ : String × String => Object} (member : e ∈ s.objects.entries) :
    e.2.key = e.1.2 ∧ s.objects.lookup e.1 = some e.2 := by
  have stored : s.objects.lookup e.1 = some e.2 := AList.mem_lookup_iff.mpr member
  have described := (represents.records e.1).symm.trans stored
  obtain ⟨data, _, isObject⟩ := Option.map_eq_some_iff.mp described
  exact ⟨by rw [← isObject]; rfl, stored⟩

theorem Represents.mem_recordsOf (represents : Represents st sha256 names s m) {o : Object} :
    o ∈ Store.recordsOf bucket s ↔
      (m.lookup (bucket, o.key)).map (Store.describe sha256 bucket o.key) = some o := by
  have records : s.objects.lookup (bucket, o.key) =
      (m.lookup (bucket, o.key)).map (Store.describe sha256 bucket o.key) :=
    represents.records (bucket, o.key)
  rw [← records]
  constructor
  · intro member
    obtain ⟨e, inBucket, rfl⟩ := List.mem_map.mp member
    obtain ⟨isEntry, isBucket⟩ := List.mem_filter.mp inBucket
    obtain ⟨sameKey, stored⟩ := represents.entry_key isEntry
    have isName : (bucket, e.2.key) = e.1 := Prod.ext (of_decide_eq_true isBucket).symm sameKey
    rw [isName]
    exact stored
  · intro stored
    have isEntry : (⟨(bucket, o.key), o⟩ : Sigma _) ∈ s.objects.entries :=
      AList.mem_lookup_iff.mp stored
    exact List.mem_map.mpr ⟨_, List.mem_filter.mpr ⟨isEntry, decide_eq_true rfl⟩, rfl⟩

theorem Represents.nodup_keys (represents : Represents st sha256 names s m) (bucket : String) :
    ((Store.recordsOf bucket s).map Object.key).Nodup := by
  rw [Store.recordsOf, List.map_map]
  refine List.Nodup.map_on ?_ (s.objects.nodupKeys.nodup.filter _)
  intro e member e' member' sameKey
  obtain ⟨isEntry, isBucket⟩ := List.mem_filter.mp member
  obtain ⟨isEntry', isBucket'⟩ := List.mem_filter.mp member'
  obtain ⟨isKey, stored⟩ := represents.entry_key isEntry
  obtain ⟨isKey', stored'⟩ := represents.entry_key isEntry'
  have sameName : e.1 = e'.1 :=
    Prod.ext ((of_decide_eq_true isBucket).trans (of_decide_eq_true isBucket').symm)
      (isKey.symm.trans (sameKey.trans isKey'))
  rw [← sameName, stored] at stored'
  exact Sigma.ext sameName (heq_of_eq (Option.some.inj stored'))

/-- Objects with different keys are sorted in one way. -/
theorem sortByKey_eq {objs : List Object} {keys : Finset String} {find : String → Option Object}
    (distinct : (objs.map Object.key).Nodup) (same : ∀ key, key ∈ keys ↔ key ∈ objs.map Object.key)
    (found : ∀ o ∈ objs, find o.key = some o) :
    Store.sortByKey objs = keys.sort.filterMap find := by
  have sorted : (Store.sortByKey objs).map Object.key =
      (objs.map Object.key).insertionSort fun a b => a ≤ b :=
    List.map_insertionSort _ _ _ _ fun _ _ _ _ => Iff.rfl
  have isSort : keys.sort = (Store.sortByKey objs).map Object.key := by
    rw [sorted]
    have nodup : ((objs.map Object.key).insertionSort fun a b => a ≤ b).Nodup :=
      (List.perm_insertionSort _ _).nodup_iff.mpr distinct
    have members : keys = ((objs.map Object.key).insertionSort fun a b => a ≤ b).toFinset := by
      ext key
      rw [List.mem_toFinset, List.mem_insertionSort, same]
    rw [members]
    exact (List.toFinset_sort _ nodup).mpr (List.pairwise_insertionSort _ _)
  have each : ∀ o ∈ Store.sortByKey objs, (find ∘ Object.key) o = some o :=
    fun o member => found o ((List.mem_insertionSort _).mp member)
  rw [isSort, List.filterMap_map, List.filterMap_congr each, List.filterMap_some]

theorem Represents.list (represents : Represents st sha256 names s m) (bucket start : String) :
    Store.listObjects .none bucket start s = .ok (m.objects sha256 bucket start) := by
  have listed : Store.listObjects .none bucket start s = .ok (Store.sortByKey
      ((Store.recordsOf bucket s).filter fun o => hasPrefix o.key start)) := by
    rw [Store.listObjects]
    dsimp only [Faults.none]
    split
    · rename_i isEmpty
      have all : (Store.recordsOf bucket s).filter (fun o => hasPrefix o.key start) =
          Store.recordsOf bucket s := by
        rw [isEmpty]
        exact List.filter_eq_self.mpr fun o _ => rfl
      rw [all]
    · rfl
  rw [listed, Payloads.objects]
  apply congrArg Except.ok
  apply sortByKey_eq
  · exact (List.filter_sublist.map _).nodup (represents.nodup_keys bucket)
  · intro key
    rw [Finset.mem_image, List.mem_map]
    constructor
    · rintro ⟨name, member, rfl⟩
      obtain ⟨inMap, rfl, begins⟩ := Finset.mem_filter.mp member
      obtain ⟨data, stored⟩ := Finmap.mem_iff.mp (Finmap.mem_keys.mp inMap)
      refine ⟨Store.describe sha256 name.1 name.2 data, List.mem_filter.mpr ⟨?_, begins⟩, rfl⟩
      apply represents.mem_recordsOf.mpr
      exact congrArg (Option.map _) stored
    · rintro ⟨o, member, rfl⟩
      obtain ⟨isRecord, begins⟩ := List.mem_filter.mp member
      have described := represents.mem_recordsOf.mp isRecord
      obtain ⟨data, stored, _⟩ := Option.map_eq_some_iff.mp described
      exact ⟨(bucket, o.key), Finset.mem_filter.mpr
        ⟨Finmap.mem_keys.mpr (Finmap.mem_of_lookup_eq_some stored), rfl, begins⟩, rfl⟩
  · intro o member
    exact represents.mem_recordsOf.mp (List.mem_filter.mp member).1

end Represents

/-! ## The refinement -/

/-- The objects that an operation names. -/
def Operation.Within (names : Set (String × String)) : Operation → Prop
  | .put bucket key _ => (bucket, key) ∈ names
  | .get bucket key => (bucket, key) ∈ names
  | .delete bucket key => (bucket, key) ∈ names
  | .list _ _ => True

theorem Represents.react {st : Store} {sha256 : Bytes → String} {names : Set (String × String)}
    {s : Contents} {m : Payloads} (represents : Represents st sha256 names s m)
    (fitting : Fitting names) {op : Operation} (within : op.Within names) :
    (st.react sha256 s op).1 = (m.react sha256 op).1 ∧
      Option.Rel (Represents st sha256 names) (st.react sha256 s op).2
        (m.react sha256 op).2 := by
  cases op with
  | put bucket key data =>
      obtain ⟨t, stored, represents'⟩ := represents.put fitting within data
      rw [Store.react, stored]
      exact ⟨rfl, .some represents'⟩
  | get bucket key =>
      rw [Store.react, represents.get within, Payloads.react]
      cases m.lookup (bucket, key) with
      | none => exact ⟨rfl, .some represents⟩
      | some data => exact ⟨rfl, .some represents⟩
  | delete bucket key =>
      obtain ⟨represents', answered⟩ := represents.delete fitting within
      exact ⟨congrArg Answer.delete answered, .some represents'⟩
  | list bucket start =>
      rw [Store.react, represents.list, Payloads.react]
      exact ⟨rfl, .some represents⟩

/-- Whatever puts, gets, deletions and listings come, in whatever order, a store that starts
without objects answers them as a finite map does, as long as nothing fails and the names fit
together; what else is in the file system does not matter if it is not in the way. -/
theorem store_refines_map (st : Store) (sha256 : Bytes → String) {names : Set (String × String)}
    (fitting : Fitting names) {tree : FileTree}
    (vacant : FileTree.Vacant (st.pathAt '' names) tree)
    (noFile : ∀ name ∈ names, tree.read (st.pathAt name) = none)
    (ops : List Operation) (within : ∀ op ∈ ops, op.Within names) :
    answers (st.react sha256) ⟨tree, ∅⟩ ops = answers (Payloads.react sha256) ∅ ops := by
  have start : Represents st sha256 names ⟨tree, ∅⟩ ∅ :=
    ⟨vacant, fun name member => by rw [Finmap.lookup_empty]; exact noFile name member,
      fun name => by rw [Finmap.lookup_empty]; rfl⟩
  refine answers_eq_of_simulation
    (fun s m rest => Represents st sha256 names s m ∧ ∀ op ∈ rest, op.Within names) ?_
    ⟨start, within⟩
  rintro s m op rest ⟨represents, within⟩
  obtain ⟨same, related⟩ := represents.react fitting (within op List.mem_cons_self)
  refine ⟨same, ?_⟩
  have later : ∀ op ∈ rest, op.Within names :=
    fun later member => within later (List.mem_cons_of_mem _ member)
  generalize (st.react sha256 s op).2 = next at related ⊢
  generalize (m.react sha256 op).2 = next' at related ⊢
  cases related with
  | none => exact .none
  | some represents' => exact .some ⟨represents', later⟩

/-- Two keys of a bucket in an empty file system. -/
theorem store_refines_map_two :
    answers ((Store.under "data").react sampleDigest) ⟨∅, ∅⟩
        [.put "logs" "may/1" [1], .put "logs" "june" [2], .delete "logs" "may/1",
          .get "logs" "june"] =
      [.put (.ok (sampleDigest [1])), .put (.ok (sampleDigest [2])), .delete none,
        .get (.ok ([2], Store.describe sampleDigest "logs" "june" [2]))] := by
  have plain {name : String} (given : name ≠ "" ∧ name ≠ "." ∧ name ≠ ".." ∧ '/' ∉ name.toList) :
      Plain name := ⟨given.1, given.2.1, given.2.2.1, given.2.2.2⟩
  have allPlain {key : String} (given : ∀ element ∈ split key '/',
      element ≠ "" ∧ element ≠ "." ∧ element ≠ ".." ∧ '/' ∉ element.toList) :
      ∀ element ∈ split key '/', Plain element := fun element member => plain (given element member)
  have fitting : Fitting {("logs", "may/1"), ("logs", "june")} := by
    constructor
    · rintro name (rfl | rfl)
      · exact ⟨plain (by decide), allPlain (by decide)⟩
      · exact ⟨plain (by decide), allPlain (by decide)⟩
    · rintro name (rfl | rfl) other (rfl | rfl)
      all_goals decide
  refine (store_refines_map (Store.under "data") sampleDigest fitting
    (FileTree.vacant_empty fitting.compatible) (fun _ _ => FileTree.read_empty _) _ ?_).trans ?_
  · simp [Operation.Within]
  · simp [answers, Payloads.react, Finmap.lookup_insert_of_ne, Finmap.lookup_erase_ne]

end MiniCloud.ObjectStore
