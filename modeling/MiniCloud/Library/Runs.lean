import Mathlib.Tactic.Common

/-!
# Runs of step functions

A system is a partial step function on labelled actions, or a reactive step
function that also answers each input.  This module fixes finite runs of both
kinds, the condition that every step of a run meets a guard, and the rules used
everywhere else: an invariant kept by guarded steps holds at the end of a guarded run,
related states give the same answers along related runs, and steps that are not seen
and do not matter for what is seen can be left out of a run.
-/

namespace MiniCloud.Library

section Execution

variable {State Label : Type*} (step : State → Label → Option State)

/-- Execute the labels in order; a label that is not enabled ends in `none`. -/
def execute : State → List Label → Option State
  | state, [] => some state
  | state, label :: rest => (step state label).bind fun next => execute next rest

/-- Every step of the run meets the guard in the state it is taken from. -/
def Guarded (guard : State → Label → Prop) : State → List Label → Prop
  | _, [] => True
  | state, label :: rest =>
      guard state label ∧
        ∀ next, step state label = some next → Guarded guard next rest

@[simp]
theorem execute_nil (state : State) : execute step state [] = some state := rfl

theorem execute_cons (state : State) (label : Label) (rest : List Label) :
    execute step state (label :: rest) =
      (step state label).bind fun next => execute step next rest := rfl

/-- The guard of a whole run is the guard of its two parts. -/
theorem guarded_append {guard : State → Label → Prop} {state middle : State}
    {first second : List Label}
    (reached : execute step state first = some middle) :
    Guarded step guard state (first ++ second) ↔
      Guarded step guard state first ∧ Guarded step guard middle second := by
  induction first generalizing state with
  | nil =>
      cases Option.some.inj reached
      simp [Guarded]
  | cons label rest ih =>
      simp only [execute_cons, Option.bind_eq_some_iff] at reached
      obtain ⟨next, stepped, reached⟩ := reached
      simp only [List.cons_append, Guarded, stepped, Option.some.injEq, forall_eq',
        ih reached, and_assoc]

/-- The beginning of a guarded run is guarded. -/
theorem Guarded.left {guard : State → Label → Prop} {state : State} {first second : List Label}
    (guarded : Guarded step guard state (first ++ second)) : Guarded step guard state first := by
  induction first generalizing state with
  | nil => trivial
  | cons label rest ih => exact ⟨guarded.1, fun next stepped => ih (guarded.2 next stepped)⟩

/-- A guarded run may be continued with labels that meet the guard in every state. -/
theorem Guarded.append {guard : State → Label → Prop} {state : State} {first second : List Label}
    (guarded : Guarded step guard state first)
    (always : ∀ label ∈ second, ∀ state, guard state label) :
    Guarded step guard state (first ++ second) := by
  induction first generalizing state with
  | nil =>
      rw [List.nil_append]
      clear guarded
      induction second generalizing state with
      | nil => trivial
      | cons label rest ih =>
          refine ⟨always label List.mem_cons_self state, fun next _ => ?_⟩
          exact ih fun other member => always other (List.mem_cons_of_mem _ member)
  | cons label rest ih => exact ⟨guarded.1, fun next stepped => ih (guarded.2 next stepped)⟩

/-- An invariant kept by every guarded step holds at the end of a guarded run. -/
theorem invariant_of_guarded {guard : State → Label → Prop} (Inv : State → Prop)
    (preserved : ∀ state label next, Inv state → guard state label →
      step state label = some next → Inv next)
    {state last : State} {labels : List Label}
    (holds : Inv state) (guarded : Guarded step guard state labels)
    (reached : execute step state labels = some last) : Inv last := by
  induction labels generalizing state with
  | nil =>
      cases Option.some.inj reached
      exact holds
  | cons label rest ih =>
      simp only [execute_cons, Option.bind_eq_some_iff] at reached
      obtain ⟨next, stepped, reached⟩ := reached
      exact ih (preserved state label next holds guarded.1 stepped)
        (guarded.2 next stepped) reached

/-- With an invariant that guarded steps keep, a guard may be replaced by what follows from
both. -/
theorem guarded_of_invariant {guard guard' : State → Label → Prop} (Inv : State → Prop)
    (follows : ∀ state label, Inv state → guard state label → guard' state label)
    (preserved : ∀ state label next, Inv state → guard state label →
      step state label = some next → Inv next)
    {state : State} {labels : List Label} (holds : Inv state)
    (guarded : Guarded step guard state labels) : Guarded step guard' state labels := by
  induction labels generalizing state with
  | nil => trivial
  | cons label rest ih =>
      refine ⟨follows state label holds guarded.1, fun next stepped => ?_⟩
      exact ih (preserved state label next holds guarded.1 stepped) (guarded.2 next stepped)

/-- The empty guard is met by every run. -/
theorem guarded_true (state : State) (labels : List Label) :
    Guarded step (fun _ _ => True) state labels := by
  induction labels generalizing state with
  | nil => trivial
  | cons label rest ih => exact ⟨trivial, fun next _ => ih next⟩

/-- An invariant kept by every step holds at the end of every run. -/
theorem invariant_of_execute (Inv : State → Prop)
    (preserved : ∀ state label next, Inv state →
      step state label = some next → Inv next)
    {state last : State} {labels : List Label}
    (holds : Inv state) (reached : execute step state labels = some last) :
    Inv last :=
  invariant_of_guarded step Inv
    (fun state label next held _ stepped => preserved state label next held stepped)
    holds (guarded_true step state labels) reached

/-- An executable test of the guard along a run. -/
def checkGuarded (guard : State → Label → Prop) [∀ state label, Decidable (guard state label)] :
    State → List Label → Bool
  | _, [] => true
  | state, label :: rest =>
      decide (guard state label) &&
        match step state label with
        | none => true
        | some next => checkGuarded guard next rest

theorem guarded_of_check {guard : State → Label → Prop}
    [∀ state label, Decidable (guard state label)] {state : State} {labels : List Label}
    (checked : checkGuarded step guard state labels = true) :
    Guarded step guard state labels := by
  induction labels generalizing state with
  | nil => trivial
  | cons label rest ih =>
      obtain ⟨met, later⟩ := Bool.and_eq_true_iff.mp checked
      refine ⟨of_decide_eq_true met, fun next stepped => ?_⟩
      rw [stepped] at later
      exact ih later

/-- A run whose last state passes an executable test. -/
theorem exists_of_execute_test (state : State) (labels : List Label)
    (P : State → Prop) [DecidablePred P]
    (tested : (execute step state labels).map (fun last => decide (P last)) = some true) :
    ∃ last, execute step state labels = some last ∧ P last := by
  obtain ⟨last, reached, passed⟩ := Option.map_eq_some_iff.mp tested
  exact ⟨last, reached, of_decide_eq_true passed⟩

/-- A run whose last state passes an executable test, with what follows from it. -/
theorem exists_of_tested {state : State} {labels : List Label} {Q : State → Prop}
    (P : State → Prop) [DecidablePred P]
    (tested : (execute step state labels).map (fun last => decide (P last)) = some true)
    (follows : ∀ last, execute step state labels = some last → P last → Q last) :
    ∃ last, execute step state labels = some last ∧ Q last := by
  obtain ⟨last, reached, passed⟩ := exists_of_execute_test step state labels P tested
  exact ⟨last, reached, follows last reached passed⟩

end Execution

section Projection

variable {State Label State' Label' : Type*} (step : State → Label → Option State)
  (step' : State' → Label' → Option State') (input : State → Label → Option Label')

/-- What a run is for a smaller system: the inputs that its steps are to it. -/
def inputs : State → List Label → List Label'
  | _, [] => []
  | state, label :: rest =>
      (input state label).toList ++
        match step state label with
        | none => []
        | some next => inputs next rest

/-- A step either keeps the view or changes it like a step of the smaller system. -/
def Mirrors (view : State → State') (state : State) (label : Label) (next : State) : Prop :=
  match input state label with
  | none => view next = view state
  | some label' => step' (view state) label' = some (view next)

section Mirrors

variable {step' input} {view : State → State'} {state next : State} {label : Label} {label' : Label'}

theorem mirrors_of_none (unseen : input state label = none) (same : view next = view state) :
    Mirrors step' input view state label next := by
  rw [Mirrors, unseen]
  exact same

theorem mirrors_of_some (isInput : input state label = some label')
    (stepped : step' (view state) label' = some (view next)) :
    Mirrors step' input view state label next := by
  rw [Mirrors, isInput]
  exact stepped

theorem Mirrors.cases (mirrors : Mirrors step' input view state label next) :
    (input state label = none ∧ view next = view state) ∨
      ∃ label', input state label = some label' ∧ step' (view state) label' = some (view next) := by
  unfold Mirrors at mirrors
  split at mirrors
  · rename_i unseen
    exact Or.inl ⟨unseen, mirrors⟩
  · rename_i label' isInput
    exact Or.inr ⟨label', isInput, mirrors⟩

end Mirrors

/-- A view that mirrors every guarded step follows the inputs of a guarded run. -/
theorem execute_inputs {guard : State → Label → Prop} (view : State → State')
    (mirrors : ∀ state label next, guard state label → step state label = some next →
      Mirrors step' input view state label next)
    {state last : State} {labels : List Label} (guarded : Guarded step guard state labels)
    (reached : execute step state labels = some last) :
    execute step' (view state) (inputs step input state labels) = some (view last) := by
  induction labels generalizing state with
  | nil =>
      cases Option.some.inj reached
      rfl
  | cons label rest ih =>
      simp only [execute_cons, Option.bind_eq_some_iff] at reached
      obtain ⟨next, stepped, reached⟩ := reached
      have later := ih (guarded.2 next stepped) reached
      rw [inputs, stepped]
      rcases (mirrors state label next guarded.1 stepped).cases with
        ⟨unseen, same⟩ | ⟨label', isInput, simulated⟩
      · rw [unseen, ← same]
        exact later
      · rw [isInput]
        simp only [Option.toList_some, List.singleton_append, execute_cons]
        rw [simulated]
        exact later

end Projection

section Unwinding

variable {State Label View : Type*} (step : State → Label → State) (secret : Label → Bool)
  (view : State → View) (Inv : State → Prop) (allowed : Label → Prop)

/-- Secret steps are not seen, and what is seen of another step is determined by what was
seen before it. -/
structure Unwinds : Prop where
  preserved : ∀ {state label}, Inv state → allowed label → Inv (step state label)
  respects : ∀ {state label}, Inv state → allowed label → secret label = true →
    view (step state label) = view state
  consistent : ∀ {state state' label}, Inv state → Inv state' → allowed label →
    view state = view state' → view (step state label) = view (step state' label)

variable {step secret view Inv allowed}

/-- What is seen of a run is what is seen of the run without the secret steps. -/
theorem view_foldl_filter (unwinds : Unwinds step secret view Inv allowed)
    {state state' : State} (holds : Inv state) (holds' : Inv state')
    (same : view state = view state') {labels : List Label}
    (allAllowed : ∀ label ∈ labels, allowed label) :
    view (labels.foldl step state) =
      view ((labels.filter fun label => !secret label).foldl step state') := by
  induction labels generalizing state state' with
  | nil => exact same
  | cons label rest ih =>
      have here := allAllowed label List.mem_cons_self
      have later : ∀ other ∈ rest, allowed other :=
        fun other member => allAllowed other (List.mem_cons_of_mem _ member)
      have holdsNext := unwinds.preserved holds here
      cases isSecret : secret label with
      | true =>
          rw [List.filter_cons_of_neg (by simp [isSecret]), List.foldl_cons]
          exact ih holdsNext holds' ((unwinds.respects holds here isSecret).trans same) later
      | false =>
          rw [List.filter_cons_of_pos (by simp [isSecret]), List.foldl_cons, List.foldl_cons]
          exact ih holdsNext (unwinds.preserved holds' here)
            (unwinds.consistent holds holds' here same) later

/-- Runs that differ in secret steps only look alike. -/
theorem view_eq_of_filter_eq (unwinds : Unwinds step secret view Inv allowed) {state : State}
    (holds : Inv state) {labels labels' : List Label} (allAllowed : ∀ label ∈ labels, allowed label)
    (allAllowed' : ∀ label ∈ labels', allowed label)
    (same : (labels.filter fun label => !secret label) = labels'.filter fun label => !secret label) :
    view (labels.foldl step state) = view (labels'.foldl step state) := by
  rw [view_foldl_filter unwinds holds holds rfl allAllowed, same,
    ← view_foldl_filter unwinds holds holds rfl allAllowed']

end Unwinding

section Reaction

variable {State State' Input Output : Type*}

/-- The answers of a reactive system, up to the input that shuts it down. -/
def answers (react : State → Input → Output × Option State) :
    State → List Input → List Output
  | _, [] => []
  | state, input :: rest =>
      (react state input).1 ::
        match (react state input).2 with
        | none => []
        | some next => answers react next rest

/-- Two reactive systems whose states stay related, as long as the inputs that
are still to come allow it, answer alike. -/
theorem answers_eq_of_simulation
    {react : State → Input → Output × Option State}
    {react' : State' → Input → Output × Option State'}
    (Related : State → State' → List Input → Prop)
    (simulates : ∀ state state' input rest, Related state state' (input :: rest) →
      (react state input).1 = (react' state' input).1 ∧
        Option.Rel (fun next next' => Related next next' rest)
          (react state input).2 (react' state' input).2)
    {state : State} {state' : State'} {inputs : List Input}
    (related : Related state state' inputs) :
    answers react state inputs = answers react' state' inputs := by
  induction inputs generalizing state state' with
  | nil => rfl
  | cons input rest ih =>
      obtain ⟨sameAnswer, relatedNext⟩ := simulates state state' input rest related
      simp only [answers, sameAnswer]
      -- either both systems stop here or both go on in related states
      generalize (react state input).2 = next at relatedNext ⊢
      generalize (react' state' input).2 = next' at relatedNext ⊢
      cases relatedNext with
      | none => rfl
      | some relatedRest => simp only [ih relatedRest]

end Reaction

end MiniCloud.Library
