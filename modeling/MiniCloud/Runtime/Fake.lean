import Mathlib.Data.List.AList
import MiniCloud.Library.Slots

/-!
# The in-memory runtime

Containers are kept in a map from IDs to references; a container that is removed or
replaced can still be referred to, so the containers themselves stand on a heap.
-/

namespace MiniCloud.Runtime

open MiniCloud.Library

inductive Status where
  | creating
  | running
  | exited
  | failed
  | unknown
  deriving DecidableEq, Repr

/-- A container; its times are never read. -/
structure Container where
  id : String
  name : String
  status : Status
  image : String
  exit : Int
  pid : Int
  deriving DecidableEq, Repr

/-- What `Create` reads of a `Spec`. -/
structure Spec where
  id : String
  name : String
  image : String

/-- A `fakeContainer`; of its channels, whether they are closed. -/
structure FakeContainer where
  cont : Container
  stop : Bool
  done : Bool
  deriving DecidableEq, Repr

structure Stats where
  cpuUsageMilli : Int64
  memUsageBytes : Int64
  netBytes : Int64
  deriving DecidableEq, Repr

structure Fake where
  heap : List FakeContainer
  conts : AList fun _ : String => Nat
  logs : AList fun _ : String => String
  stats : AList fun _ : String => Stats
  /-- A container is stored under its own ID. -/
  keyed : ∀ id i, conts.lookup id = some i → ∃ c, heap[i]? = some c ∧ c.cont.id = id

def errNotFound : String := "runtime: container not found"

def errStillRunning : String := "runtime: container still running"

namespace Fake

/-- The container stored under an ID. -/
def find (f : Fake) (id : String) : Option FakeContainer :=
  (f.conts.lookup id).bind fun i => f.heap[i]?

/-- Drop the three entries of an ID. -/
def delete (f : Fake) (id : String) : Fake where
  heap := f.heap
  conts := f.conts.erase id
  logs := f.logs.erase id
  stats := f.stats.erase id
  keyed := by
    intro other i found
    by_cases same : other = id
    · rw [same, AList.lookup_erase] at found
      cases found
    · rw [AList.lookup_erase_ne same] at found
      exact f.keyed other i found

/-- The container behind a reference, changed by a function that keeps its ID. -/
def modify (f : Fake) (i : Nat) (change : FakeContainer → FakeContainer)
    (sameID : ∀ c, (change c).cont.id = c.cont.id) : Fake where
  heap := f.heap.modify i change
  conts := f.conts
  logs := f.logs
  stats := f.stats
  keyed := by
    intro id j found
    obtain ⟨c, onHeap, isID⟩ := f.keyed id j found
    by_cases same : i = j
    · subst same
      exact ⟨change c, getElem?_modify_self onHeap change, (sameID c).trans isID⟩
    · exact ⟨c, getElem?_modify_other same onHeap change, isID⟩

def new : Fake := ⟨[], ∅, ∅, ∅, by intro id i found; cases found⟩

/-- `Create`, with the container that it returns.  The images are kept beside. -/
def create (f : Fake) (s : Spec) : Container × Fake :=
  let c : Container := ⟨s.id, s.name, .creating, s.image, 0, 0⟩
  (c,
    { heap := f.heap ++ [⟨c, false, false⟩]
      conts := f.conts.insert s.id f.heap.length
      logs := f.logs.insert s.id ""
      stats := f.stats.insert s.id ⟨0, 0, 0⟩
      keyed := by
        intro id i found
        by_cases same : id = s.id
        · rw [same, AList.lookup_insert] at found
          cases found
          exact ⟨_, List.getElem?_concat_length, same.symm⟩
        · rw [AList.lookup_insert_ne same] at found
          obtain ⟨old, onHeap, isID⟩ := f.keyed id i found
          exact ⟨old, getElem?_concat_old onHeap, isID⟩ })

/-- The container when `Start` has run. -/
def launch (pid : Int) (c : FakeContainer) : FakeContainer :=
  { c with cont := { c.cont with status := .running, pid := pid } }

/-- `Start` under the lock, with the error that it returns or the reference that its
goroutines get. -/
def start (f : Fake) (id : String) : Except String Nat × Fake :=
  match f.conts.lookup id with
  | none => (.error errNotFound, f)
  | some i => (.ok i, f.modify i (launch (f.conts.entries.length * 100 + 1)) fun _ => rfl)

/-- The container with its channel `stop` closed, unless that is closed already. -/
def closeStop (c : FakeContainer) : FakeContainer := if c.stop then c else { c with stop := true }

@[simp]
theorem cont_closeStop (c : FakeContainer) : (closeStop c).cont = c.cont := by
  unfold closeStop
  split
  · rfl
  · rfl

@[simp]
theorem done_closeStop (c : FakeContainer) : (closeStop c).done = c.done := by
  unfold closeStop
  split
  · rfl
  · rfl

/-- `Stop`, with the error that it returns. -/
def stop (f : Fake) (id : String) : Option String × Fake :=
  match f.conts.lookup id with
  | none => (some errNotFound, f)
  | some i => (none, f.modify i closeStop fun c => by rw [cont_closeStop])

/-- The container with its channel `done` closed. -/
def closeDone (c : FakeContainer) : FakeContainer := { c with done := true }

/-- The container when the goroutine that waits for `stop` has gone on. -/
def exit (c : FakeContainer) : FakeContainer :=
  { c with cont := { c.cont with status := .exited, exit := 0 } }

/-- The usage that is added at each tick, also when the entry has been dropped. -/
def tick (f : Fake) (id : String) : Fake :=
  let cur := (f.stats.lookup id).getD ⟨0, 0, 0⟩
  { f with
    stats := f.stats.insert id
      { cur with
        cpuUsageMilli := cur.cpuUsageMilli + 50
        memUsageBytes := cur.memUsageBytes + 1024 * 1024 } }

/-- `Remove`, with the error that it returns. -/
def remove (f : Fake) (id : String) (force : Bool) : Option String × Fake :=
  match f.find id with
  | none => (some errNotFound, f)
  | some c =>
      if c.cont.status = .running && !force then (some errStillRunning, f)
      else (none, f.delete id)

/-- The copy that `List` makes of a container, unless it leaves it out. -/
def listed (f : Fake) (all : Bool) (i : Nat) : Option Container :=
  match f.heap[i]? with
  | none => none
  | some c => if !all && c.cont.status ≠ .running then none else some c.cont

/-- `List`; Go visits the map in any order. -/
def list (f : Fake) (all : Bool) : List Container :=
  f.conts.entries.filterMap fun entry => f.listed all entry.2

/-- All containers are listed, under the keys of the map. -/
theorem ids_list (f : Fake) : (f.list true).map (fun c => c.id) = f.conts.keys := by
  have underKey : ∀ entry ∈ f.conts.entries,
      (f.listed true entry.2).map (fun c => c.id) = some entry.1 := by
    intro entry member
    obtain ⟨c, found, id⟩ := f.keyed entry.1 entry.2 (AList.mem_lookup_iff.mpr member)
    rw [listed, found, ← id]
    rfl
  unfold list AList.keys List.keys
  rw [List.map_filterMap, List.filterMap_congr underKey]
  exact congrFun List.filterMap_eq_map _

/-- A forced removal takes the container out, if there is one. -/
theorem mem_remove_force (f : Fake) (id other : String) :
    other ∈ (f.remove id true).2.conts ↔ other ≠ id ∧ other ∈ f.conts := by
  unfold remove
  cases found : f.find id with
  | some c =>
      simp only [Bool.not_true, Bool.and_false, Bool.false_eq_true, if_false]
      exact AList.mem_erase
  | none =>
      refine (and_iff_right_of_imp ?_).symm
      rintro present rfl
      obtain ⟨i, stored⟩ := Option.isSome_iff_exists.mp (AList.lookup_isSome.mpr present)
      obtain ⟨c, onHeap, _⟩ := f.keyed other i stored
      rw [find, stored, Option.bind_some, onHeap] at found
      cases found

/-- Forced removals leave the containers that are not among them. -/
theorem mem_removeAll (ids : List String) (f : Fake) (other : String) :
    other ∈ (ids.foldl (fun f id => (f.remove id true).2) f).conts ↔
      other ∉ ids ∧ other ∈ f.conts := by
  induction ids generalizing f with
  | nil => simp
  | cons id rest ih =>
      rw [List.foldl_cons, ih, mem_remove_force, List.mem_cons, not_or]
      tauto

end Fake

end MiniCloud.Runtime
