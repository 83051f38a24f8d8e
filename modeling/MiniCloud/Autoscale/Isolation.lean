import MiniCloud.Autoscale.Controller
import MiniCloud.Library.Runs

/-!
# Isolation of autoscaled workloads

Samples and policy calls of one workload matter for another one only through the texts
that the controller and the registry make of their IDs.  Over a set of workloads whose
texts differ, the replica counts written for one do not depend on what is sampled or
decided for another, over whole runs.
-/

namespace MiniCloud.Autoscale

open MiniCloud.Library
open MiniCloud.State
open MiniCloud.Obs (Metric Metrics RegistryCall avgCPU metricKey)

/-! ## Runs -/

/-- Calls on the registry, on the controller and on the store, and passes as a whole. -/
inductive Action (Value : Type) where
  | record (call : RegistryCall Value)
  | setPolicy (pair : Pair) (p : Policy Value)
  | removePolicy (pair : Pair)
  | saveWorkload (w : Workload)
  | deleteWorkload (pair : Pair)
  | evaluate (order : List String) (answers : Pair → Answers)

/-- The action records a sample of the workload, or sets or removes its policy. -/
def concerns {Value : Type} (pair : Pair) : Action Value → Bool
  | .record call => callName call = workloadMetricKey pair
  | .setPolicy other _ => other = pair
  | .removePolicy other => other = pair
  | _ => false

/-- Every pass visits each spec and each series once. -/
structure Thorough {Value : Type} (actions : List (Action Value)) : Prop where
  specs : ∀ order answers, .evaluate order answers ∈ actions → order.Nodup ∧
    ∀ pair p, .setPolicy pair p ∈ actions → specKey pair ∈ order
  series : ∀ order answers, .evaluate order answers ∈ actions → ∀ pair,
    (answers pair).order.Nodup ∧ ∀ call, .record call ∈ actions →
      callKey call ∈ (answers pair).order

def emptyStore : Store where
  nodes := []
  projects := []
  workloads := fun _ => []
  placements := fun _ => []
  owned := fun _ _ member => by cases member
  distinctNodes := List.nodup_nil
  distinctProjects := List.nodup_nil

section Runs

variable {Value : Type} [Zero Value] [Add Value] [Div Value] [NatCast Value] [LE Value]
  [DecidableLE Value] [LT Value] [DecidableLT Value]

def System.next (sys : System Value) : Action Value → System Value
  | .record call => { sys with metrics := recordCall sys.metrics call }
  | .setPolicy pair p => { sys with controller := sys.controller.setPolicy pair p }
  | .removePolicy pair => { sys with controller := sys.controller.removePolicy pair }
  | .saveWorkload w => { sys with store := sys.store.saveWorkload w }
  | .deleteWorkload pair => { sys with store := sys.store.deleteWorkload pair.1 pair.2 }
  | .evaluate order answers => evaluate order answers sys

/-- A new controller over an empty registry and an empty store. -/
def newSystem : System Value := ⟨⟨∅, ∅⟩, ∅, emptyStore, []⟩

def run (actions : List (Action Value)) : System Value := actions.foldl System.next newSystem

theorem run_concat (actions : List (Action Value)) (action : Action Value) :
    run (actions ++ [action]) = (run actions).next action :=
  List.foldl_concat ..

/-- The replica counts written for a workload, in order. -/
def writtenFor (pair : Pair) (sys : System Value) : List Int32 :=
  (sys.written.filter fun entry => entry.1 = pair).map Prod.snd

end Runs

/-! ## What matters for one workload -/

/-- The part of the system that belongs to a workload. -/
structure View (Value : Type) where
  spec : Option (Spec Value)
  last : Option Time
  stored : Option Workload
  series : Obs.Labels → Option (Metric Value)
  written : List Int32

/-- The texts made of two pairs of IDs differ. -/
structure Apart (a b : Pair) : Prop where
  specs : specKey a ≠ specKey b
  series : ∀ labels labels',
    metricKey (workloadMetricKey a) labels ≠ metricKey (workloadMetricKey b) labels'

section Views

variable {Value : Type}

def view (pair : Pair) (sys : System Value) : View Value where
  spec := sys.controller.specs.lookup (specKey pair)
  last := sys.controller.lastAton.lookup (specKey pair)
  stored := sys.store.getWorkload pair.1 pair.2
  series := fun labels => sys.metrics.lookup (metricKey (workloadMetricKey pair) labels)
  written := (sys.written.filter fun entry => entry.1 = pair).map Prod.snd

/-- Every spec is kept under its own text and is of a known workload. -/
def Filed (known : Set Pair) (specs : AList fun _ : String => Spec Value) : Prop :=
  ∀ key s, specs.lookup key = some s → key = specKey s.pair ∧ s.pair ∈ known

theorem filed_insert {known : Set Pair} {specs : AList fun _ : String => Spec Value}
    (filed : Filed known specs) {s : Spec Value} (isKnown : s.pair ∈ known) : Filed known (specs.insert (specKey s.pair) s) := by
  intro key other found
  by_cases same : key = specKey s.pair
  · subst same
    rw [AList.lookup_insert] at found
    cases found
    exact ⟨rfl, isKnown⟩
  · rw [AList.lookup_insert_ne same] at found
    exact filed key other found

theorem filed_erase {known : Set Pair} {specs : AList fun _ : String => Spec Value}
    (filed : Filed known specs) (erased : String) : Filed known (specs.erase erased) := by
  intro key other found
  by_cases same : key = erased
  · subst same
    rw [AList.lookup_erase] at found
    cases found
  · rw [AList.lookup_erase_ne same] at found
    exact filed key other found

/-- Series are kept under their names, and specs under the texts of known workloads. -/
structure Sound (known : Set Pair) (sys : System Value) : Prop where
  named : Named sys.metrics
  filed : Filed known sys.controller.specs

variable {pair : Pair} {sys sys' : System Value}

theorem view_rescale_self (sys : System Value) {w : Workload} (changed : Time)
    (found : (sys.store.getWorkload (pairOf w).1 (pairOf w).2).isSome = true) :
    view (pairOf w) (sys.rescale changed w) =
      { view (pairOf w) sys with
        last := some changed
        stored := some w
        written := (view (pairOf w) sys).written ++ [w.replicas] } := by
  have stored := Store.getWorkload_update_self found
  simp only [view, System.rescale, pairOf, AList.lookup_insert, stored, List.filter_append,
    List.map_append, List.filter_cons, decide_true, if_true, List.filter_nil, List.map_cons,
    List.map_nil]

theorem view_rescale_other {w : Workload} (changed : Time) (other : pairOf w ≠ pair)
    (apart : specKey (pairOf w) ≠ specKey pair) :
    view pair (sys.rescale changed w) = view pair sys := by
  have stored : (sys.store.updateWorkload w).getWorkload pair.1 pair.2 =
      sys.store.getWorkload pair.1 pair.2 := Store.getWorkload_update_ne other.symm
  simp only [view, System.rescale, AList.lookup_insert_ne apart.symm, stored, List.filter_append,
    List.filter_cons, other, decide_false, Bool.false_eq_true, if_false, List.filter_nil,
    List.append_nil]

variable [Zero Value] [Add Value] [Div Value] [NatCast Value] [LT Value] [DecidableLT Value]

/-- The record that is read belongs to the pair that was asked for. -/
theorem pairOf_of_read {answers : Answers} {store : Store} {asked : Pair} {w : Workload}
    (read : readWorkload answers store asked = some w) :
    pairOf w = asked ∧ store.getWorkload asked.1 asked.2 = some w := by
  unfold readWorkload at read
  split at read
  · cases read
  · obtain ⟨sameProject, sameID⟩ := Store.base_of_getWorkload read
    exact ⟨Prod.ext sameProject sameID, read⟩

/-- Evaluating the spec of one workload is not seen at another. -/
theorem view_evaluateOne_other {s : Spec Value} (answers : Answers) (other : s.pair ≠ pair)
    (apart : specKey s.pair ≠ specKey pair) :
    view pair (evaluateOne answers sys s) = view pair sys := by
  rcases evaluateOne_cases answers sys s with ⟨same, _⟩ | ⟨w, replicas, read, _, _, result⟩
  · rw [same]
  · obtain ⟨isPair, _⟩ := pairOf_of_read read
    rw [← isPair] at other apart
    rw [result]
    exact view_rescale_other answers.changed (w := { w with replicas := replicas }) other apart

/-- Evaluating the spec of a workload depends on the part of the workload only. -/
theorem view_evaluateOne_own {s : Spec Value} (answers : Answers) (named : Named sys.metrics)
    (named' : Named sys'.metrics) (same : view s.pair sys = view s.pair sys') :
    view s.pair (evaluateOne answers sys s) = view s.pair (evaluateOne answers sys' s) := by
  have sameStored : sys.store.getWorkload s.pair.1 s.pair.2 =
      sys'.store.getWorkload s.pair.1 s.pair.2 := congrArg View.stored same
  have sameRead : readWorkload answers sys.store s.pair = readWorkload answers sys'.store s.pair := by
    unfold readWorkload
    rw [sameStored]
  unfold evaluateOne
  rw [← sameRead]
  cases read : readWorkload answers sys.store s.pair with
  | none => exact same
  | some w =>
      obtain ⟨isPair, found⟩ := pairOf_of_read read
      have sameLast : lastChange sys.controller s.pair = lastChange sys'.controller s.pair :=
        congrArg (fun last : Option Time => last.getD ⟨0⟩) (congrArg View.last same)
      have sameAvg := avgCPU_congr named named' (fun labels => congrFun (congrArg View.series same)
        labels) answers.order
      simp only [isPair, sameLast, sameAvg]
      split
      · rename_i replicas _ _
        have own : pairOf { w with replicas := replicas } = s.pair := isPair
        have here := view_rescale_self sys (w := { w with replicas := replicas }) answers.changed
          (by rw [own, found]; rfl)
        have there := view_rescale_self sys' (w := { w with replicas := replicas }) answers.changed
          (by rw [own, ← sameStored, found]; rfl)
        rw [own] at here there
        rw [here, there, same]
      · exact same

/-- An evaluation changes neither the registry nor the specs. -/
theorem evaluateOne_frame (answers : Answers) (sys : System Value) (s : Spec Value) :
    (evaluateOne answers sys s).metrics = sys.metrics ∧
      (evaluateOne answers sys s).controller.specs = sys.controller.specs := by
  rcases evaluateOne_cases answers sys s with ⟨same, _⟩ | ⟨w, replicas, _, _, _, result⟩
  · rw [same]
    exact ⟨rfl, rfl⟩
  · rw [result]
    exact ⟨rfl, rfl⟩

/-- A visit of the spec under a text, if the pass has one. -/
def visit (specs : AList fun _ : String => Spec Value) (answers : Pair → Answers)
    (sys : System Value) (key : String) : System Value :=
  match specs.lookup key with
  | none => sys
  | some s => evaluateOne (answers s.pair) sys s

theorem evaluate_eq_foldl_visit (order : List String) (answers : Pair → Answers)
    (sys : System Value) :
    evaluate order answers sys = order.foldl (visit sys.controller.specs answers) sys := by
  unfold evaluate
  rw [List.foldl_filterMap]
  refine congrArg (fun step => order.foldl step sys) (funext fun sys' => funext fun key => ?_)
  unfold visit
  cases sys.controller.specs.lookup key with
  | none => rfl
  | some s => rfl

variable {known : Set Pair} {specs specs' : AList fun _ : String => Spec Value}

theorem metrics_visit (answers : Pair → Answers) (sys : System Value) (key : String) :
    (visit specs answers sys key).metrics = sys.metrics := by
  unfold visit
  split
  · rfl
  · exact (evaluateOne_frame ..).1

/-- Visits under another text are not seen. -/
theorem view_visit_other (filed : Filed known specs) (answers : Pair → Answers) {key : String}
    (other : key ≠ specKey pair) :
    view pair (visit specs answers sys key) = view pair sys := by
  unfold visit
  cases found : specs.lookup key with
  | none => rfl
  | some s =>
      obtain ⟨isKey, _⟩ := filed key s found
      rw [isKey] at other
      exact view_evaluateOne_other (answers s.pair) (fun same => other (congrArg specKey same)) other

/-- The visit under the text of the workload depends on its part only. -/
theorem view_visit_own (filed : Filed known specs)
    (distinct : ∀ other ∈ known, specKey other = specKey pair → other = pair)
    (sameSpec : specs.lookup (specKey pair) = specs'.lookup (specKey pair))
    (answers : Pair → Answers) (named : Named sys.metrics) (named' : Named sys'.metrics)
    (same : view pair sys = view pair sys') :
    view pair (visit specs answers sys (specKey pair)) =
      view pair (visit specs' answers sys' (specKey pair)) := by
  unfold visit
  rw [← sameSpec]
  cases found : specs.lookup (specKey pair) with
  | none => exact same
  | some s =>
      obtain ⟨isKey, isKnown⟩ := filed _ s found
      have own := distinct s.pair isKnown isKey.symm
      subst own
      exact view_evaluateOne_own (answers s.pair) named named' same

/-- What a pass does to the part of a workload depends on this part only. -/
theorem view_visits (filed : Filed known specs) (filed' : Filed known specs')
    (distinct : ∀ other ∈ known, specKey other = specKey pair → other = pair)
    (sameSpec : specs.lookup (specKey pair) = specs'.lookup (specKey pair))
    (answers : Pair → Answers) (order : List String) (named : Named sys.metrics)
    (named' : Named sys'.metrics) (same : view pair sys = view pair sys') :
    view pair (order.foldl (visit specs answers) sys) =
      view pair (order.foldl (visit specs' answers) sys') := by
  induction order generalizing sys sys' with
  | nil => exact same
  | cons key rest ih =>
      rw [List.foldl_cons, List.foldl_cons]
      refine ih ?_ ?_ ?_
      · rw [metrics_visit]
        exact named
      · rw [metrics_visit]
        exact named'
      · by_cases own : key = specKey pair
        · subst own
          exact view_visit_own filed distinct sameSpec answers named named' same
        · rw [view_visit_other filed answers own, view_visit_other filed' answers own, same]

theorem evaluate_frame (order : List String) (answers : Pair → Answers) (sys : System Value) :
    (evaluate order answers sys).metrics = sys.metrics ∧
      (evaluate order answers sys).controller.specs = sys.controller.specs := by
  unfold evaluate
  generalize order.filterMap sys.controller.specs.lookup = visited
  induction visited generalizing sys with
  | nil => exact ⟨rfl, rfl⟩
  | cons s rest ih =>
      obtain ⟨sameMetrics, sameSpecs⟩ := evaluateOne_frame (answers s.pair) sys s
      rw [List.foldl_cons, (ih _).1, (ih _).2, sameMetrics, sameSpecs]
      exact ⟨rfl, rfl⟩

end Views

/-! ## The steps of a run -/

section Steps

variable {Value : Type} [Zero Value] [Add Value] [Div Value] [NatCast Value] [LE Value]
  [DecidableLE Value] [LT Value] [DecidableLT Value] {known : Set Pair}

/-- Policies are set for known workloads. -/
def Over (known : Set Pair) : Action Value → Prop
  | .setPolicy pair _ => pair ∈ known
  | _ => True

theorem sound_next {sys : System Value} (sound : Sound known sys) {action : Action Value}
    (ofKnown : Over known action) : Sound known (sys.next action) := by
  cases action with
  | record call => exact ⟨named_recordCall sound.named call, sound.filed⟩
  | setPolicy pair p =>
      exact ⟨sound.named, filed_insert (s := ⟨pair.1, pair.2, p⟩) sound.filed ofKnown⟩
  | removePolicy pair => exact ⟨sound.named, filed_erase sound.filed _⟩
  | saveWorkload w => exact ⟨sound.named, sound.filed⟩
  | deleteWorkload pair => exact ⟨sound.named, sound.filed⟩
  | evaluate order answers =>
      obtain ⟨sameMetrics, sameSpecs⟩ := evaluate_frame order answers sys
      refine ⟨?_, ?_⟩
      · rw [System.next, sameMetrics]
        exact sound.named
      · rw [System.next, sameSpecs]
        exact sound.filed

variable {a b : Pair}

/-- Actions that concern one workload are not seen at a workload whose texts differ. -/
theorem view_next_of_concerns (apart : Apart a b) {sys : System Value} {action : Action Value}
    (secret : concerns a action = true) : view b (sys.next action) = view b sys := by
  cases action with
  | record call =>
      have isName : callName call = workloadMetricKey a := of_decide_eq_true secret
      have unchanged (labels : Obs.Labels) :
          (recordCall sys.metrics call).lookup (metricKey (workloadMetricKey b) labels) =
            sys.metrics.lookup (metricKey (workloadMetricKey b) labels) := by
        refine lookup_recordCall_ne sys.metrics call ?_
        rw [callKey, isName]
        exact (apart.series _ _).symm
      simp only [System.next, view, unchanged]
  | setPolicy other p =>
      have isPair : other = a := of_decide_eq_true secret
      subst isPair
      simp only [System.next, view, Controller.setPolicy, AList.lookup_insert_ne apart.specs.symm]
  | removePolicy other =>
      have isPair : other = a := of_decide_eq_true secret
      subst isPair
      simp only [System.next, view, Controller.removePolicy, AList.lookup_erase_ne apart.specs.symm]
  | saveWorkload w => cases secret
  | deleteWorkload pair => cases secret
  | evaluate order answers => cases secret

/-- What an action does to the part of a workload depends on this part only. -/
theorem view_next_congr (distinct : ∀ other ∈ known, specKey other = specKey b → other = b)
    {sys sys' : System Value} (sound : Sound known sys) (sound' : Sound known sys')
    (action : Action Value) (same : view b sys = view b sys') :
    view b (sys.next action) = view b (sys'.next action) := by
  have sameSpec : sys.controller.specs.lookup (specKey b) =
    sys'.controller.specs.lookup (specKey b) := congrArg View.spec same
  have sameLast : sys.controller.lastAton.lookup (specKey b) =
    sys'.controller.lastAton.lookup (specKey b) := congrArg View.last same
  have sameStored : sys.store.getWorkload b.1 b.2 = sys'.store.getWorkload b.1 b.2 :=
    congrArg View.stored same
  have sameSeries (labels : Obs.Labels) :
      sys.metrics.lookup (metricKey (workloadMetricKey b) labels) =
        sys'.metrics.lookup (metricKey (workloadMetricKey b) labels) :=
    congrFun (congrArg View.series same) labels
  have sameWritten : (sys.written.filter fun entry => entry.1 = b).map Prod.snd =
    (sys'.written.filter fun entry => entry.1 = b).map Prod.snd := congrArg View.written same
  cases action with
  | record call =>
      have recorded (labels : Obs.Labels) := lookup_recordCall_congr call (sameSeries labels)
      simp only [System.next, view, sameSpec, sameLast, sameStored, sameWritten, recorded]
  | setPolicy pair p =>
      have specs : (sys.controller.setPolicy pair p).specs.lookup (specKey b) =
          (sys'.controller.setPolicy pair p).specs.lookup (specKey b) := by
        unfold Controller.setPolicy
        by_cases own : specKey b = specKey pair
        · rw [own, AList.lookup_insert, AList.lookup_insert]
        · rw [AList.lookup_insert_ne own, AList.lookup_insert_ne own, sameSpec]
      simp only [System.next, view, specs, sameStored, sameSeries, sameWritten]
      simp only [Controller.setPolicy, sameLast]
  | removePolicy pair =>
      have specs : (sys.controller.removePolicy pair).specs.lookup (specKey b) =
          (sys'.controller.removePolicy pair).specs.lookup (specKey b) := by
        unfold Controller.removePolicy
        by_cases own : specKey b = specKey pair
        · rw [own, AList.lookup_erase, AList.lookup_erase]
        · rw [AList.lookup_erase_ne own, AList.lookup_erase_ne own, sameSpec]
      simp only [System.next, view, specs, sameStored, sameSeries, sameWritten]
      simp only [Controller.removePolicy, sameLast]
  | saveWorkload w =>
      have stored : (sys.store.saveWorkload w).getWorkload b.1 b.2 =
          (sys'.store.saveWorkload w).getWorkload b.1 b.2 := by
        by_cases own : b = pairOf w
        · subst own
          exact Store.getWorkload_save_self.trans Store.getWorkload_save_self.symm
        · rw [Store.getWorkload_save_ne own, Store.getWorkload_save_ne own, sameStored]
      simp only [System.next, view, sameSpec, sameLast, stored, sameSeries, sameWritten]
  | deleteWorkload pair =>
      have stored : (sys.store.deleteWorkload pair.1 pair.2).getWorkload b.1 b.2 =
          (sys'.store.deleteWorkload pair.1 pair.2).getWorkload b.1 b.2 := by
        by_cases own : b = pair
        · subst own
          exact Store.getWorkload_delete_self.trans Store.getWorkload_delete_self.symm
        · rw [Store.getWorkload_delete_ne own, Store.getWorkload_delete_ne own, sameStored]
      simp only [System.next, view, sameSpec, sameLast, stored, sameSeries, sameWritten]
  | evaluate order answers =>
      simp only [System.next, evaluate_eq_foldl_visit]
      exact view_visits sound.filed sound'.filed distinct sameSpec answers order sound.named
        sound'.named same

/-- Runs over the known workloads that differ in actions concerning the first workload only
write the same replica counts for the second and leave the same record of it. -/
def Isolated (Value : Type) [Zero Value] [Add Value] [Div Value] [NatCast Value] [LE Value]
    [DecidableLE Value] [LT Value] [DecidableLT Value] (known : Set Pair) (a b : Pair) : Prop :=
  ∀ actions actions' : List (Action Value),
    (∀ action ∈ actions, Over known action) → (∀ action ∈ actions', Over known action) →
    Thorough actions → Thorough actions' →
    (actions.filter fun action => !concerns a action) =
      actions'.filter (fun action => !concerns a action) →
    writtenFor b (run actions) = writtenFor b (run actions') ∧
      (run actions).store.getWorkload b.1 b.2 = (run actions').store.getWorkload b.1 b.2

theorem isolated_of_apart (apart : Apart a b)
    (distinct : ∀ other ∈ known, specKey other = specKey b → other = b) :
    Isolated Value known a b := by
  intro actions actions' ofKnown ofKnown' _ _ same
  have unwinds : Unwinds System.next (concerns a : Action Value → Bool) (view b)
      (Sound known) (Over known) :=
    ⟨fun sound ofKnown => sound_next sound ofKnown,
      fun _ _ secret => view_next_of_concerns apart secret,
      fun sound sound' _ alike => view_next_congr distinct sound sound' _ alike⟩
  have start : Sound known (newSystem : System Value) := by
    refine ⟨?_, ?_⟩
    · intro key cur found
      cases found
    · intro key s found
      cases found
  have alike := view_eq_of_filter_eq unwinds start ofKnown ofKnown' same
  exact ⟨congrArg View.written alike, congrArg View.stored alike⟩

end Steps

end MiniCloud.Autoscale
