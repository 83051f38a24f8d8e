import MiniCloud.Library.Ring
import MiniCloud.Library.Runs
import MiniCloud.Obs.Metrics
import MiniCloud.State.Methods

/-!
# The log ring

`Append` writes the records round and round into a slice of fixed size, and `Tail` reads
them back from the last one on.  The index of the next record and a flag, which is set
when the slice is full for the first time, say how many records there are.  Every index
may be out of range here, and a call panics if one is.
-/

namespace MiniCloud.Obs

open MiniCloud.Library
open MiniCloud.State

structure LogRecord where
  time : Time
  level : String
  message : String
  labels : Labels

/-- The zero value. -/
def LogRecord.zero : LogRecord := ⟨⟨0⟩, "", "", ∅⟩

structure Logs where
  ring : List LogRecord
  next : Int
  full : Bool
  maxSize : Int

def newLogs (maxSize : Int) : Logs :=
  let maxSize := if maxSize ≤ 0 then 1024 else maxSize
  ⟨List.replicate maxSize.toNat .zero, 0, false, maxSize⟩

/-- `ring[i]`; `none` is the panic of an index out of range. -/
def load (ring : List LogRecord) (i : Int) : Option LogRecord :=
  if i < 0 then none else ring[i.toNat]?

/-- `ring[i] = rec`. -/
def store (ring : List LogRecord) (i : Int) (record : LogRecord) : Option (List LogRecord) :=
  if i < 0 ∨ (ring.length : Int) ≤ i then none else some (ring.set i.toNat record)

namespace Logs

def append (l : Logs) (record : LogRecord) : Option Logs :=
  (store l.ring l.next record).map fun ring =>
    let next := (l.next + 1).tmod l.maxSize
    ⟨ring, next, if next = 0 then true else l.full, l.maxSize⟩

/-- The index of the record with `i` newer ones. -/
def index (l : Logs) (i : Nat) : Int :=
  let idx := l.next - 1 - i
  if idx < 0 then idx + l.maxSize else idx

/-- The slice for the result cannot be made for a negative number. -/
def tail (l : Logs) (n : Int) : Option (List LogRecord) :=
  let n := if l.maxSize < n then l.maxSize else n
  let count := if l.full then l.maxSize else l.next
  if n < 0 then none
  else (List.range (min n count).toNat).mapM fun i => load l.ring (l.index i)

/-! ## What the ring holds -/

/-- The ring after the records were appended, oldest first. -/
structure Follows (size : Nat) (l : Logs) (records : List LogRecord) : Prop where
  length : l.ring.length = size
  maxSize : l.maxSize = size
  next : l.next = (records.length % size : Nat)
  full : l.full = decide (size ≤ records.length)
  holds : Ring.Holds l.ring records

theorem follows_newLogs {size : Nat} (positive : 0 < size) : Follows size (newLogs size) [] := by
  have kept : (if (size : Int) ≤ 0 then (1024 : Int) else size) = size := if_neg (by omega)
  have sized : (newLogs size).ring.length = size := by
    simp only [newLogs, kept, List.length_replicate, Int.toNat_natCast]
  refine ⟨sized, kept, ?_, ?_, Ring.Holds.new (by omega)⟩
  · rw [List.length_nil, Nat.zero_mod]
    rfl
  · rw [List.length_nil, decide_eq_false (by omega)]
    rfl

/-- The flag is set when the index comes back to the beginning for the first time. -/
theorem full_step (size len : Nat) :
    (if ((len + 1) % size : Nat) = 0 then true else decide (size ≤ len)) =
      decide (size ≤ len + 1) := by
  by_cases before : size ≤ len
  · rw [decide_eq_true before, decide_eq_true (by omega), ite_self]
  · rw [decide_eq_false before]
    by_cases last : len + 1 = size
    · rw [last, Nat.mod_self, if_pos rfl, decide_eq_true (Nat.le_refl size)]
    · have small : (len + 1) % size = len + 1 := Nat.mod_eq_of_lt (by omega)
      rw [small, if_neg (Nat.succ_ne_zero len), decide_eq_false (by omega)]

/-- An append does not panic, and the ring follows. -/
theorem Follows.append {size : Nat} {l : Logs} {records : List LogRecord}
    (follows : Follows size l records) (record : LogRecord) :
    ∃ l', l.append record = some l' ∧ Follows size l' (records ++ [record]) := by
  have positive : 0 < size := follows.length ▸ follows.holds.some_cell
  have inside : records.length % size < size := Nat.mod_lt _ positive
  have stored : store l.ring l.next record =
      some (l.ring.set (records.length % size) record) := by
    rw [store, follows.next, follows.length, if_neg (by omega), Int.toNat_natCast]
  have advanced : (l.next + 1).tmod l.maxSize = ((records.length + 1) % size : Nat) := by
    rw [follows.next, follows.maxSize, ← Nat.mod_add_mod]
    exact (Int.ofNat_tmod _ _).symm
  have appended : l.append record =
      some ⟨l.ring.set (records.length % size) record, ((records.length + 1) % size : Nat),
        decide (size ≤ records.length + 1), l.maxSize⟩ := by
    simp only [Logs.append, stored, Option.map_some, advanced, Int.natCast_eq_zero]
    rw [follows.full, full_step]
  refine ⟨_, appended, ⟨?_, follows.maxSize, ?_, ?_, ?_⟩⟩
  · exact List.length_set.trans follows.length
  · rw [List.length_append, List.length_singleton]
  · rw [List.length_append, List.length_singleton]
  · have written := follows.holds.write record
    rwa [follows.length] at written

/-- So do all appends of a run. -/
theorem Follows.execute {size : Nat} {l : Logs} {before : List LogRecord}
    (follows : Follows size l before) (records : List LogRecord) :
    ∃ l', Library.execute Logs.append l records = some l' ∧ Follows size l' (before ++ records) := by
  induction records generalizing l before with
  | nil => exact ⟨l, rfl, by rwa [List.append_nil]⟩
  | cons record rest ih =>
      obtain ⟨next, appended, followsNext⟩ := follows.append record
      obtain ⟨last, reached, followsLast⟩ := ih followsNext
      refine ⟨last, ?_, ?_⟩
      · rw [execute_cons, appended]
        exact reached
      · rwa [List.append_assoc, List.singleton_append] at followsLast

/-! ## Reading back -/

/-- The records are found newest first. -/
theorem Follows.load {size : Nat} {l : Logs} {records : List LogRecord}
    (follows : Follows size l records) {i : Nat} (inRing : i < size) (exists_record : i < records.length) :
    Obs.load l.ring (l.index i) = records.reverse[i]? := by
  have cell := Ring.back_cell inRing exists_record
  have small : records.length % size < size := Nat.mod_lt _ (by omega)
  have isCell : l.index i = ((records.length - 1 - i) % size : Nat) := by
    rw [cell, index, follows.next, follows.maxSize]
    split <;> split <;> omega
  have found := follows.holds.back (follows.length.symm ▸ inRing) exists_record
  rw [follows.length] at found
  rw [Obs.load, isCell, if_neg (by omega), Int.toNat_natCast, found]

theorem mapM_range {f : Nat → Option LogRecord} {records : List LogRecord} {k : Nat}
    (enough : k ≤ records.length) (found : ∀ i < k, f i = records[i]?) :
    (List.range k).mapM f = some (records.take k) := by
  induction k with
  | zero => rfl
  | succ k ih =>
      have here : f k = some (records.get ⟨k, enough⟩) := by
        rw [found k (Nat.lt_succ_self k)]
        exact List.getElem?_eq_getElem enough
      have before := ih (by omega) fun i small => found i (by omega)
      rw [List.range_succ, List.mapM_append, before, List.take_add_one,
        List.getElem?_eq_getElem enough]
      simp only [List.mapM_cons, List.mapM_nil, here]
      rfl

theorem Follows.tail {size : Nat} {l : Logs} {records : List LogRecord}
    (follows : Follows size l records) (n : Nat) :
    l.tail n = some (records.reverse.take (min n (min size records.length))) := by
  have positive : 0 < size := follows.length ▸ follows.holds.some_cell
  have counted : (if l.full = true then l.maxSize else l.next) =
      ((min size records.length : Nat) : Int) := by
    rw [follows.full, follows.maxSize, follows.next]
    by_cases wrapped : size ≤ records.length
    · rw [decide_eq_true wrapped, if_pos rfl, Nat.min_eq_left wrapped]
    · rw [decide_eq_false wrapped, if_neg Bool.false_ne_true, Nat.mod_eq_of_lt (by omega),
        Nat.min_eq_right (by omega)]
  have clipped : (if l.maxSize < (n : Int) then l.maxSize else n) = ((min n size : Nat) : Int) := by
    rw [follows.maxSize]
    split <;> omega
  have bound : (min ((min n size : Nat) : Int) ((min size records.length : Nat) : Int)).toNat =
      min n (min size records.length) := by omega
  unfold Logs.tail
  rw [counted, clipped, if_neg (by omega), bound]
  refine mapM_range ?_ ?_
  · rw [List.length_reverse]
    omega
  · intro i small
    exact follows.load (by omega) (by omega)

/-- `Tail` returns the newest records, newest first, as many as are asked for, fit and exist;
and no call panics. -/
theorem tail_newest {maxSize n : Int} (positive : 0 < maxSize) (notNegative : 0 ≤ n)
    (records : List LogRecord) :
    ∃ l, Library.execute Logs.append (newLogs maxSize) records = some l ∧
      l.tail n = some (records.reverse.take (min n (min maxSize records.length)).toNat) := by
  obtain ⟨size, rfl⟩ := Int.eq_ofNat_of_zero_le (Int.le_of_lt positive)
  obtain ⟨n, rfl⟩ := Int.eq_ofNat_of_zero_le notNegative
  have started : Follows size (newLogs size) [] := follows_newLogs (by omega)
  obtain ⟨l, reached, follows⟩ := started.execute records
  rw [List.nil_append] at follows
  refine ⟨l, reached, ?_⟩
  rw [follows.tail n]
  congr 2
  omega

/-- Two records of three are left in a ring with two cells. -/
theorem tail_newest_of_three :
    ∃ l, Library.execute Logs.append (newLogs 2)
        [⟨⟨1⟩, "info", "a", ∅⟩, ⟨⟨2⟩, "info", "b", ∅⟩, ⟨⟨3⟩, "warn", "c", ∅⟩] = some l ∧
      l.tail 5 = some [⟨⟨3⟩, "warn", "c", ∅⟩, ⟨⟨2⟩, "info", "b", ∅⟩] :=
  tail_newest (by decide) (by decide)
    [⟨⟨1⟩, "info", "a", ∅⟩, ⟨⟨2⟩, "info", "b", ∅⟩, ⟨⟨3⟩, "warn", "c", ∅⟩]

end Logs

end MiniCloud.Obs
