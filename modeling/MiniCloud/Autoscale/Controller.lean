import Mathlib.Data.Nat.Cast.Defs
import MiniCloud.Obs.Histograms
import MiniCloud.State.Methods

/-!
# The autoscaler

The controller keeps one spec for each text `project/workload`, and the time of the last
change of a workload under the same text.  A pass takes the specs in some order; for each
it reads the workload from the store, averages the series named after the workload, and
writes the new number of replicas back.  The samples are values of any type with a sum, a
quotient and two decidable comparisons.
-/

namespace MiniCloud.Autoscale

open MiniCloud.State
open MiniCloud.Obs (Metric Metrics RegistryCall avgCPU metricKey)

/-- A project and a workload. -/
abbrev Pair := String × String

structure Policy (Value : Type) where
  min : Int64
  max : Int64
  targetCPU : Value
  scaleUpBy : Int64
  scaleDownBy : Int64
  cooldown : Int64

structure Spec (Value : Type) where
  projectID : String
  workloadID : String
  policy : Policy Value

def Spec.pair {Value : Type} (s : Spec Value) : Pair := (s.projectID, s.workloadID)

structure Controller (Value : Type) where
  specs : AList fun _ : String => Spec Value
  lastAton : AList fun _ : String => Time

/-- The text under which the controller keeps the spec and the last change of a workload. -/
def specKey (pair : Pair) : String := pair.1 ++ "/" ++ pair.2

/-- The name of the series of a workload. -/
def workloadMetricKey (pair : Pair) : String := "workload_cpu_" ++ pair.1 ++ "_" ++ pair.2

section Policies

variable {Value : Type}

def Controller.setPolicy (c : Controller Value) (pair : Pair) (p : Policy Value) :
    Controller Value :=
  { c with specs := c.specs.insert (specKey pair) ⟨pair.1, pair.2, p⟩ }

def Controller.removePolicy (c : Controller Value) (pair : Pair) : Controller Value :=
  { c with specs := c.specs.erase (specKey pair) }

end Policies

/-! ## Evaluating a spec -/

/-- What the clock, the store and the registry answer while a spec is evaluated. -/
structure Answers where
  getWorkload : Option StoreError
  updateWorkload : Option StoreError
  /-- The order in which the average visits the registry. -/
  order : List String
  /-- The clock when the cooldown is checked. -/
  checked : Time
  /-- The clock when the change is recorded. -/
  changed : Time

/-- The controller with the registry and the store, and the replica counts written by it. -/
structure System (Value : Type) where
  controller : Controller Value
  metrics : Metrics Value
  store : Store
  written : List (Pair × Int32)

section Evaluation

variable {Value : Type} [Zero Value] [Add Value] [Div Value] [NatCast Value] [LT Value]
  [DecidableLT Value]

/-- The number of replicas that the policy asks for. -/
def want (p : Policy Value) (avg : Value) (replicas : Int32) : Int64 :=
  let current := replicas.toInt64
  let up :=
    if p.targetCPU < avg ∧ current < p.max then
      if p.max < current + p.scaleUpBy then p.max else current + p.scaleUpBy
    else current
  if avg < p.targetCPU / ((2 : ℕ) : Value) ∧ p.min < current then
    if up - p.scaleDownBy < p.min then p.min else up - p.scaleDownBy
  else up

/-- The number of replicas to write, unless the cooldown is not over or nothing changes. -/
def change (p : Policy Value) (avg : Value) (checked last : Time) (replicas : Int32) :
    Option Int32 :=
  if checked.sub last < p.cooldown.toInt then none
  else if want p avg replicas = replicas.toInt64 then none
  else some (want p avg replicas).toInt32

/-- What `GetWorkload` returns; the spec is left alone on an error. -/
def readWorkload (answers : Answers) (store : Store) (pair : Pair) : Option Workload :=
  match answers.getWorkload with
  | some _ => none
  | none => store.getWorkload pair.1 pair.2

/-- The pair that a record belongs to. -/
def pairOf (w : Workload) : Pair := (w.base.projectID, w.base.id)

/-- The time of the last change, the zero time without one. -/
def lastChange (c : Controller Value) (pair : Pair) : Time :=
  (c.lastAton.lookup (specKey pair)).getD ⟨0⟩

/-- A successful `UpdateWorkload` and its time. -/
def System.rescale (sys : System Value) (changed : Time) (w : Workload) : System Value :=
  { sys with
    controller :=
      { sys.controller with
        lastAton := sys.controller.lastAton.insert (specKey (pairOf w)) changed }
    store := sys.store.updateWorkload w
    written := sys.written ++ [(pairOf w, w.replicas)] }

/-- A failed `UpdateWorkload` changes nothing; its error is printed. -/
def evaluateOne (answers : Answers) (sys : System Value) (s : Spec Value) : System Value :=
  match readWorkload answers sys.store s.pair with
  | none => sys
  | some w =>
      let avg := avgCPU sys.metrics answers.order (workloadMetricKey (pairOf w))
      let last := lastChange sys.controller (pairOf w)
      match change s.policy avg answers.checked last w.replicas, answers.updateWorkload with
      | some replicas, none => sys.rescale answers.changed { w with replicas := replicas }
      | _, _ => sys

/-- The number of replicas that the evaluation of a spec writes for a record that was read. -/
def changeFor (answers : Answers) (sys : System Value) (s : Spec Value) (w : Workload) :
    Option Int32 :=
  change s.policy (avgCPU sys.metrics answers.order (workloadMetricKey (pairOf w))) answers.checked
    (lastChange sys.controller (pairOf w)) w.replicas

/-- An evaluation leaves the system as it is, or writes the change for the record it has read. -/
theorem evaluateOne_cases (answers : Answers) (sys : System Value) (s : Spec Value) :
    (evaluateOne answers sys s = sys ∧ ∀ w replicas, readWorkload answers sys.store s.pair = some w →
        answers.updateWorkload = none → changeFor answers sys s w ≠ some replicas) ∨
      ∃ w replicas, readWorkload answers sys.store s.pair = some w ∧
        answers.updateWorkload = none ∧ changeFor answers sys s w = some replicas ∧
        evaluateOne answers sys s = sys.rescale answers.changed { w with replicas := replicas } := by
  unfold evaluateOne
  cases read : readWorkload answers sys.store s.pair with
  | none => exact .inl ⟨rfl, fun w replicas found => by cases found⟩
  | some w =>
      cases changes : changeFor answers sys s w with
      | none =>
          refine .inl ⟨?_, ?_⟩
          · unfold changeFor at changes
            simp only [changes]
          · intro other replicas found _ otherChanges
            cases found
            rw [changes] at otherChanges
            cases otherChanges
      | some replicas =>
          cases failed : answers.updateWorkload with
          | none =>
              refine .inr ⟨w, replicas, rfl, rfl, changes, ?_⟩
              unfold changeFor at changes
              simp only [changes]
          | some err =>
              refine .inl ⟨?_, fun _ _ _ succeeded => by cases succeeded⟩
              unfold changeFor at changes
              simp only [changes]

/-- One pass over the specs, visited in the given order of their texts. -/
def evaluate (order : List String) (answers : Pair → Answers) (sys : System Value) :
    System Value :=
  (order.filterMap sys.controller.specs.lookup).foldl
    (fun sys s => evaluateOne (answers s.pair) sys s) sys

end Evaluation

/-! ## Calls on the registry -/

section Registry

variable {Value : Type}

/-- The name of the series that a call is about. -/
def callName : RegistryCall Value → String
  | .set name _ _ => name
  | .add name _ _ => name
  | .observe name _ _ _ => name

def callLabels : RegistryCall Value → Obs.Labels
  | .set _ _ labels => labels
  | .add _ _ labels => labels
  | .observe _ _ labels _ => labels

def callKey (call : RegistryCall Value) : String := metricKey (callName call) (callLabels call)

/-- Every series is kept under the text of its own name with some labels. -/
def Named (m : Metrics Value) : Prop :=
  ∀ key cur, m.lookup key = some cur → ∃ labels, key = metricKey cur.name labels

theorem named_insert {m : Metrics Value} (named : Named m) {key : String} {new : Metric Value}
    (own : ∃ labels, key = metricKey new.name labels) : Named (m.insert key new) := by
  intro other cur found
  by_cases same : other = key
  · subst same
    rw [AList.lookup_insert] at found
    cases found
    exact own
  · rw [AList.lookup_insert_ne same] at found
    exact named other cur found

variable [Zero Value] [Add Value] [LE Value] [DecidableLE Value]

/-- The registry after a call; an `Observe` that panics changes nothing. -/
def recordCall (m : Metrics Value) : RegistryCall Value → Metrics Value
  | .set name v labels => Obs.set m name v labels
  | .add name delta labels => Obs.add m name delta labels
  | .observe name v labels buckets => (Obs.observe m name v labels buckets).getD m

theorem lookup_recordCall_ne (m : Metrics Value) (call : RegistryCall Value) {key : String}
    (other : key ≠ callKey call) : (recordCall m call).lookup key = m.lookup key := by
  cases call with
  | set name v labels => exact Obs.lookup_set_ne m name v labels other
  | add name delta labels => exact Obs.lookup_set_ne m name _ labels other
  | observe name v labels buckets =>
      cases observed : Obs.observe m name v labels buckets with
      | none => simp only [recordCall, observed, Option.getD_none]
      | some m' =>
          simp only [recordCall, observed, Option.getD_some]
          exact Obs.lookup_observe_ne observed other

/-- What a call leaves under a key depends on what was there. -/
theorem lookup_recordCall_congr {m m' : Metrics Value} (call : RegistryCall Value) {key : String}
    (same : m.lookup key = m'.lookup key) :
    (recordCall m call).lookup key = (recordCall m' call).lookup key := by
  by_cases isKey : key = callKey call
  · subst isKey
    cases call with
    | set name v labels =>
        simp only [recordCall, callKey, callName, callLabels, Obs.lookup_set_self] at same ⊢
        rw [same]
    | add name delta labels =>
        simp only [recordCall, callKey, callName, callLabels, Obs.add, Obs.get,
          Obs.lookup_set_self] at same ⊢
        rw [same]
    | observe name v labels buckets =>
        simp only [recordCall, callKey, callName, callLabels, Obs.observe_eq] at same ⊢
        rw [same]
        -- the call writes the same entry in both registries, or panics in both
        generalize Obs.observeEntry _ v = entry
        cases entry with
        | none => exact same
        | some cur => simp only [Option.map_some, Option.getD_some, AList.lookup_insert]
  · rw [lookup_recordCall_ne m call isKey, lookup_recordCall_ne m' call isKey, same]

omit [Add Value] [LE Value] [DecidableLE Value] in
theorem named_set {m : Metrics Value} (named : Named m) (name : String) (v : Value)
    (labels : Obs.Labels) : Named (Obs.set m name v labels) := by
  unfold Obs.set
  split
  · exact named_insert named ⟨labels, rfl⟩
  · rename_i cur found
    exact named_insert named (named _ cur found)

theorem named_recordCall {m : Metrics Value} (named : Named m) (call : RegistryCall Value) :
    Named (recordCall m call) := by
  cases call with
  | set name v labels => exact named_set named name v labels
  | add name delta labels => exact named_set named name _ labels
  | observe name v labels buckets =>
      simp only [recordCall, Obs.observe_eq]
      cases observed : Obs.observeEntry _ v with
      | none => exact named
      | some next =>
          refine named_insert named ?_
          rw [(Obs.shape_observeEntry observed).1]
          cases found : m.lookup (metricKey name labels) with
          | none => exact ⟨labels, rfl⟩
          | some cur => exact named _ cur found

omit [LE Value] [DecidableLE Value] in
/-- The average is determined by the entries that a series of the name can have. -/
theorem avgCPU_congr [Div Value] [NatCast Value] {m m' : Metrics Value} (named : Named m)
    (named' : Named m') {name : String}
    (same : ∀ labels, m.lookup (metricKey name labels) = m'.lookup (metricKey name labels))
    (order : List String) : avgCPU m order name = avgCPU m' order name := by
  have absent {m : Metrics Value} (named : Named m) {key : String}
      (other : ¬ ∃ labels, key = metricKey name labels) :
      (m.lookup key).filter (fun v => v.name = name) = none := by
    rw [Option.filter_eq_none_iff]
    intro cur found isName
    obtain ⟨labels, isKey⟩ := named key cur found
    exact other ⟨labels, of_decide_eq_true isName ▸ isKey⟩
  have sameSeries : (order.filterMap m.lookup).filter (fun v => v.name = name) =
      (order.filterMap m'.lookup).filter fun v => v.name = name := by
    rw [List.filter_filterMap, List.filter_filterMap]
    refine List.filterMap_congr ?_
    intro key _
    by_cases own : ∃ labels, key = metricKey name labels
    · obtain ⟨labels, rfl⟩ := own
      rw [same labels]
    · rw [absent named own, absent named' own]
  unfold avgCPU
  rw [sameSeries]

end Registry

end MiniCloud.Autoscale
