import Mathlib.Algebra.Ring.Int.Defs
import MiniCloud.Library.Runs
import MiniCloud.Library.Tables
import MiniCloud.Obs.Metrics

/-!
# Concurrent calls of `Add`

Calls of `Incr` and `Add` on one series: each takes its `Get` and later its `Set`, and
a schedule picks the call that goes on.  A call that reads between the two steps of
another writes over its sum.  As long as no call reads in between, no delta is lost.
-/

namespace MiniCloud.Obs

open MiniCloud.Library

/-- How far a call of `Add` has got. -/
inductive Stage where
  | called
  /-- `Get` has returned. -/
  | read (value : Int)
  | done
  deriving DecidableEq, Repr

structure Call where
  delta : Int
  stage : Stage
  deriving DecidableEq, Repr

structure Counter where
  registry : Metrics Int
  calls : List Call

inductive Action where
  | add (delta : Int)
  | get (i : Nat)
  | set (i : Nat)
  deriving DecidableEq, Repr

/-- The call of `Incr`. -/
def Action.incr : Action := .add 1

section Series

variable (name : String) (labels : Labels)

/-- One step of a call on the series. -/
def step (s : Counter) : Action → Option Counter
  | .add delta => some { s with calls := s.calls ++ [⟨delta, .called⟩] }
  | .get i =>
      s.calls[i]?.bind fun c =>
        match c.stage with
        | .called =>
            some { s with calls := s.calls.set i ⟨c.delta, .read (get s.registry name labels)⟩ }
        | _ => none
  | .set i =>
      s.calls[i]?.bind fun c =>
        match c.stage with
        | .read value =>
            some ⟨set s.registry name (value + c.delta) labels, s.calls.set i ⟨c.delta, .done⟩⟩
        | _ => none

/-- The steps of one call, with no other in between, are `Add`. -/
theorem call_alone (registry : Metrics Int) (delta : Int) :
    execute (step name labels) ⟨registry, []⟩ [.add delta, .get 0, .set 0] =
      some ⟨add registry name delta labels, [⟨delta, .done⟩]⟩ := rfl

/-- What a call has added. -/
def Call.added (c : Call) : Int :=
  match c.stage with
  | .done => c.delta
  | _ => 0

/-- The call is between its `Get` and its `Set`. -/
def Call.Reading (c : Call) : Prop :=
  match c.stage with
  | .read _ => True
  | _ => False

instance (c : Call) : Decidable c.Reading :=
  match c with
  | ⟨_, .called⟩ => isFalse id
  | ⟨_, .read _⟩ => isTrue trivial
  | ⟨_, .done⟩ => isFalse id

/-- No call reads while another one is between its `Get` and its `Set`. -/
def ReadsAlone (s : Counter) : Action → Prop
  | .get _ => ∀ c ∈ s.calls, ¬c.Reading
  | _ => True

instance (s : Counter) (action : Action) : Decidable (ReadsAlone s action) :=
  match action with
  | .get _ => inferInstanceAs (Decidable (∀ c ∈ s.calls, ¬c.Reading))
  | .add _ => isTrue trivial
  | .set _ => isTrue trivial

/-- The value of the series is the first one with what the calls have added, and the only
call that is about to write has read it. -/
structure Exact (initial : Int) (s : Counter) : Prop where
  value : get s.registry name labels = initial + (s.calls.map Call.added).sum
  current : ∀ c ∈ s.calls, ∀ value, c.stage = .read value → value = get s.registry name labels
  alone : EachPair (fun c d => c.Reading → ¬d.Reading) s.calls

variable {name labels} {initial : Int} {s t : Counter} {c : Call} {i : Nat}

theorem Exact.start {registry : Metrics Int} :
    Exact name labels (get registry name labels) ⟨registry, []⟩ where
  value := (Int.add_zero _).symm
  current := by
    intro c member
    cases member
  alone := EachPair.nil

theorem Exact.add (held : Exact name labels initial s) (delta : Int) :
    Exact name labels initial { s with calls := s.calls ++ [⟨delta, .called⟩] } where
  value := by
    have nothing : (([⟨delta, .called⟩] : List Call).map Call.added).sum = 0 := rfl
    rw [held.value, List.map_append, List.sum_append, nothing, Int.add_zero]
  current := by
    refine each_concat held.current ?_
    intro value reads
    cases reads
  alone := by
    refine held.alone.concat ?_
    intro other _
    exact ⟨fun reads => absurd reads id, fun _ => id⟩

/-- A call that reads alone has read the value that it will add to. -/
theorem Exact.get (held : Exact name labels initial s) (found : s.calls[i]? = some c)
    (called : c.stage = .called) (alone : ∀ d ∈ s.calls, ¬d.Reading) :
    Exact name labels initial
      { s with calls := s.calls.set i ⟨c.delta, .read (Obs.get s.registry name labels)⟩ } where
  value := by
    have balance : ((s.calls.set i ⟨c.delta, .read (Obs.get s.registry name labels)⟩).map
        Call.added).sum + c.added = (s.calls.map Call.added).sum + 0 :=
      sum_set_balance Call.added found
    have nothing : c.added = 0 := by rw [Call.added, called]
    rw [nothing, Int.add_zero, Int.add_zero] at balance
    exact held.value.trans (congrArg (initial + ·) balance.symm)
  current := by
    refine each_set held.current ?_
    intro value reads
    exact (Stage.read.inj reads).symm
  alone := by
    refine held.alone.set found ?_
    intro other member _ _
    exact ⟨fun _ => alone other member, fun reads => absurd reads (alone other member)⟩

/-- The write of the call that read last adds its delta. -/
theorem Exact.set {value : Int} (held : Exact name labels initial s)
    (found : s.calls[i]? = some c) (reads : c.stage = .read value) :
    Exact name labels initial
      ⟨Obs.set s.registry name (value + c.delta) labels, s.calls.set i ⟨c.delta, .done⟩⟩ where
  value := by
    have balance : ((s.calls.set i ⟨c.delta, .done⟩).map Call.added).sum + c.added =
        (s.calls.map Call.added).sum + c.delta := sum_set_balance Call.added found
    have nothing : c.added = 0 := by rw [Call.added, reads]
    have isCurrent := held.current c (List.mem_of_getElem? found) value reads
    rw [nothing, Int.add_zero] at balance
    rw [get_set, isCurrent, held.value, balance, Int.add_assoc]
  current := by
    have reading : c.Reading := by
      rw [Call.Reading, reads]
      trivial
    intro d member late later
    obtain ⟨j, place⟩ := List.mem_iff_getElem?.mp member
    rcases getElem?_set_cases place with ⟨_, isNew⟩ | ⟨other, inSlot⟩
    · rw [isNew] at later
      cases later
    · have apart := held.alone i j c d (Ne.symm other) found inSlot reading
      rw [Call.Reading, later] at apart
      exact absurd trivial apart
  alone := by
    refine held.alone.set found ?_
    intro other _ _ _
    exact ⟨fun wrong => absurd wrong id, fun _ => id⟩

/-- A step of a run in which calls read alone. -/
theorem Exact.step {action : Action} (held : Exact name labels initial s)
    (alone : ReadsAlone s action) (stepped : step name labels s action = some t) :
    Exact name labels initial t := by
  cases action with
  | add delta =>
      cases Option.some.inj stepped
      exact held.add delta
  | get i =>
      obtain ⟨c, found, stepped⟩ := Option.bind_eq_some_iff.mp stepped
      split at stepped
      · rename_i called
        cases Option.some.inj stepped
        exact held.get found called alone
      · cases stepped
  | set i =>
      obtain ⟨c, found, stepped⟩ := Option.bind_eq_some_iff.mp stepped
      split at stepped
      · rename_i reads
        cases Option.some.inj stepped
        exact held.set found reads
      · cases stepped

theorem added_finished {calls : List Call} (finished : ∀ c ∈ calls, c.stage = .done) :
    calls.map Call.added = calls.map Call.delta := by
  refine List.map_congr_left ?_
  intro c member
  rw [Call.added, finished c member]

/-- No update is lost in a run in which no call reads between the `Get` and the `Set` of
another: once all calls have finished, the value is the initial one plus all deltas. -/
theorem counter_keeps_updates {registry : Metrics Int} {actions : List Action} {last : Counter}
    (alone : Guarded (step name labels) ReadsAlone ⟨registry, []⟩ actions)
    (reached : execute (step name labels) ⟨registry, []⟩ actions = some last)
    (finished : ∀ c ∈ last.calls, c.stage = .done) :
    Obs.get last.registry name labels =
      Obs.get registry name labels + (last.calls.map Call.delta).sum := by
  have held := invariant_of_guarded (step name labels)
    (Exact name labels (Obs.get registry name labels))
    (fun _ _ _ held guard stepped => held.step guard stepped) Exact.start alone reached
  rw [held.value, added_finished finished]

end Series

/-- Two calls one after the other. -/
theorem counter_keeps_two :
    ∃ last, execute (step "requests" ∅) ⟨∅, []⟩
        [.incr, .add 2, .get 0, .set 0, .get 1, .set 1] = some last ∧
      get last.registry "requests" ∅ = get (∅ : Metrics Int) "requests" ∅ + 3 := by
  refine exists_of_tested (step "requests" ∅)
    (fun last => (∀ c ∈ last.calls, c.stage = .done) ∧ (last.calls.map Call.delta).sum = 3)
    (by decide) ?_
  rintro last reached ⟨finished, deltas⟩
  have kept := counter_keeps_updates (guarded_of_check _ (by decide)) reached finished
  rw [deltas] at kept
  exact kept

/-- Both calls read before either writes, and the first of the two increments is lost. -/
theorem counter_loses_update :
    ∃ last, execute (step "requests" ∅) ⟨∅, []⟩
        [.incr, .incr, .get 0, .get 1, .set 0, .set 1] = some last ∧
      (∀ c ∈ last.calls, c.stage = .done) ∧ (last.calls.map Call.delta).sum = 2 ∧
      get last.registry "requests" ∅ = get (∅ : Metrics Int) "requests" ∅ + 1 :=
  exists_of_execute_test (step "requests" ∅) ⟨∅, []⟩
    [.incr, .incr, .get 0, .get 1, .set 0, .set 1]
    (fun last => (∀ c ∈ last.calls, c.stage = .done) ∧ (last.calls.map Call.delta).sum = 2 ∧
      get last.registry "requests" ∅ = get (∅ : Metrics Int) "requests" ∅ + 1)
    (by decide)

end MiniCloud.Obs
