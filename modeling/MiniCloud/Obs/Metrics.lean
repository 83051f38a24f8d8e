import Mathlib.Data.List.AList
import Mathlib.Data.List.Sort
import Mathlib.Tactic.Common

/-!
# The metrics registry

A series is a name with labels, and is stored under a text made of both.  `Set` writes
the value of a counter, `Observe` the buckets of a histogram; whichever comes first
creates the series.  `Add` is a `Get` followed by a `Set`, each under the lock of the
registry.  The values are those of any type with a zero, a sum and an order.
-/

namespace MiniCloud.Obs

abbrev Labels := AList fun _ : String => String

inductive MetricType where
  | counter
  | histogram
  deriving DecidableEq, Repr

/-- A series; `Help` is never set. -/
structure Metric (Value : Type) where
  name : String
  type : MetricType
  labels : Labels
  value : Value
  buckets : List Value
  bucketCounts : List UInt64
  sum : Value
  count : UInt64

/-- The registry, by the text of the series. -/
abbrev Metrics (Value : Type) := AList fun _ : String => Metric Value

/-- The name, then the labels in the order of their keys. -/
def metricKey (name : String) (labels : Labels) : String :=
  (labels.keys.insertionSort fun a b => a ≤ b).foldl
    (fun b k => b ++ "|" ++ k ++ "=" ++ (labels.lookup k).getD "") name

section Registry

variable {Value : Type} [Zero Value]

def get (m : Metrics Value) (name : String) (labels : Labels) : Value :=
  match m.lookup (metricKey name labels) with
  | none => 0
  | some cur => cur.value

def set (m : Metrics Value) (name : String) (v : Value) (labels : Labels) : Metrics Value :=
  match m.lookup (metricKey name labels) with
  | none => m.insert (metricKey name labels) ⟨name, .counter, labels, v, [], [], 0, 0⟩
  | some cur => m.insert (metricKey name labels) { cur with value := v }

/-- `Get` returns what `Set` has written. -/
theorem get_set (m : Metrics Value) (name : String) (v : Value) (labels : Labels) :
    get (set m name v labels) name labels = v := by
  unfold set
  split
  · rw [get, AList.lookup_insert]
  · rw [get, AList.lookup_insert]

variable [Add Value]

def add (m : Metrics Value) (name : String) (delta : Value) (labels : Labels) : Metrics Value :=
  set m name (get m name labels + delta) labels

def incr [One Value] (m : Metrics Value) (name : String) (labels : Labels) : Metrics Value :=
  add m name 1 labels

/-- `BucketCounts[i]++`; `none` is the panic of an index out of range. -/
def bump (counts : List UInt64) (i : Nat) : Option (List UInt64) :=
  if i < counts.length then some (counts.modify i fun n => n + 1) else none

/-- `none` is a panic. -/
def observe [LE Value] [DecidableLE Value] (m : Metrics Value) (name : String) (v : Value)
    (labels : Labels) (buckets : List Value) : Option (Metrics Value) :=
  let cur : Metric Value :=
    match m.lookup (metricKey name labels) with
    | none => ⟨name, .histogram, labels, 0, buckets, List.replicate (buckets.length + 1) 0, 0, 0⟩
    | some cur => cur
  (cur.buckets.zipIdx.foldlM (fun counts b => if v ≤ b.1 then bump counts b.2 else some counts)
    cur.bucketCounts).bind fun counts =>
      -- the index of the last count is -1 for a series that `Set` has created
      match counts.length with
      | 0 => none
      | last + 1 =>
          (bump counts last).map fun counts =>
            m.insert (metricKey name labels)
              { cur with bucketCounts := counts, sum := cur.sum + v, count := cur.count + 1 }

/-- The average over the series with the name.  The registry is visited in the given order
of its keys; 0 is returned when no series has the name. -/
def avgCPU [Div Value] [NatCast Value] (m : Metrics Value) (order : List String)
    (workloadMetricName : String) : Value :=
  let values := ((order.filterMap m.lookup).filter fun v => v.name = workloadMetricName).map
    Metric.value
  if values.length = 0 then 0
  else values.foldl (fun sum v => sum + v) 0 / (values.length : Value)

end Registry

end MiniCloud.Obs
