import MiniCloud.Library.Debounce
import MiniCloud.Library.Text
import MiniCloud.Obs.Metrics
import MiniCloud.State.Methods

/-!
# Alerts

A rule compares the sum of the series with one name to a threshold.  `Evaluate` goes over
the rules and keeps, for each of them, whether it is firing and since when it matches; the
zero time stands for a rule that does not.  The trimming of spaces and the reading of a
number are those of the Go packages and left open.
-/

namespace MiniCloud.Obs

open MiniCloud.Library MiniCloud.State

/-! ## Rules and their states -/

structure AlertRule where
  id : String
  name : String
  severity : String
  expression : String
  /-- `For`, in nanoseconds. -/
  holdFor : Int64
  deriving DecidableEq, Repr

structure AlertState (Value : Type) where
  rule : AlertRule
  firing : Bool
  pendingSince : Time
  lastEvaluated : Time
  lastValue : Value

/-- The rules with their states; `Add` enters a rule and its state together. -/
structure Alerts (Value : Type) where
  rules : List AlertRule
  state : String → Option (AlertState Value)
  known : ∀ r ∈ rules, (state r.id).isSome = true
  own : ∀ id st, state id = some st → st.rule.id = id

/-! ## Expressions -/

/-- The operators, in the order in which they are tried. -/
inductive Op where
  | ge
  | le
  | eq
  | ne
  | gt
  | lt
  deriving DecidableEq, Repr

namespace Op

def text : Op → String
  | ge => ">="
  | le => "<="
  | eq => "=="
  | ne => "!="
  | gt => ">"
  | lt => "<"

def all : List Op := [ge, le, eq, ne, gt, lt]

end Op

/-- `strings.TrimSpace`, and `fmt.Sscanf` with the format `%f`. -/
structure Scanning (Value : Type) where
  trimSpace : String → String
  sscanf : String → Option Value

/-- The loop of `indexOutside` at a position, within a label block or outside.  A block
that is not closed ends the search, like the end of the text. -/
def indexFrom (op : List Char) (inside : Bool) (i : Nat) : List Char → Option Nat
  | [] => none
  | c :: rest =>
      if (c :: rest).length < op.length then none
      else if inside then indexFrom op (c ≠ '}') (i + 1) rest
      else if c = '{' then indexFrom op true (i + 1) rest
      else if op.isPrefixOf (c :: rest) then some i
      else indexFrom op false (i + 1) rest

def indexOutside (s op : String) : Option Nat := indexFrom op.toList false 0 s.toList

section Evaluation

variable {Value : Type} (sc : Scanning Value)

/-- The name, the operator and the threshold.  The first operator that occurs decides. -/
def splitExpr (expr : String) : Option (String × Op × Value) :=
  match Op.all.findSome? fun op => (indexOutside expr op.text).map fun i => (op, i) with
  | none => none
  | some (op, i) =>
      match sc.sscanf (sc.trimSpace
          (String.ofList (expr.toList.drop (i + op.text.toList.length)))) with
      | none => none
      | some v => some (sc.trimSpace (String.ofList (expr.toList.take i)), op, v)

variable [LT Value] [DecidableLT Value] [LE Value] [DecidableLE Value] [BEq Value]

def compareOp (op : Op) (v t : Value) : Bool :=
  match op with
  | .gt => decide (t < v)
  | .lt => decide (v < t)
  | .ge => decide (t ≤ v)
  | .le => decide (v ≤ t)
  | .eq => v == t
  | .ne => v != t

def matchesThreshold (expr : String) (v : Value) : Bool :=
  match splitExpr sc expr with
  | none => false
  | some (_, op, threshold) => compareOp op v threshold

variable [Zero Value] [Add Value]

/-- The sum over the series with the name, and whether there is one. -/
def evalExpr (expr : String) (m : Metrics Value) : Value × Bool :=
  match splitExpr sc expr with
  | none => (0, false)
  | some (name, _) =>
      let found := m.entries.filter fun series => series.2.name = name
      (found.foldl (fun sum series => sum + series.2.value) 0, !found.isEmpty)

/-! ## Evaluating the rules -/

/-- The branches of `Evaluate` for one rule: the next state, and the copies of it that go to
the two results. -/
def advance (now : Time) (r : AlertRule) (ok matched : Bool) (st : AlertState Value) :
    AlertState Value × List (AlertState Value) × List (AlertState Value) :=
  if ok then
    if matched then
      if st.firing then (st, [], [])
      else if st.pendingSince.isZero then ({ st with pendingSince := now }, [], [])
      else if r.holdFor.toInt ≤ now.sub st.pendingSince then
        ({ st with firing := true }, [{ st with firing := true }], [])
      else (st, [], [])
    else
      ({ st with firing := false, pendingSince := ⟨0⟩ }, [], if st.firing then [st] else [])
  else (st, [], [])

def evaluateState (m : Metrics Value) (now : Time) (r : AlertRule) (st : AlertState Value) :
    AlertState Value × List (AlertState Value) × List (AlertState Value) :=
  let evaluated := evalExpr sc r.expression m
  advance now r evaluated.2 (matchesThreshold sc r.expression evaluated.1)
    { st with lastValue := evaluated.1, lastEvaluated := now }

/-- The states and the two results while the rules are gone through. -/
structure Pass (Value : Type) where
  state : String → Option (AlertState Value)
  firing : List (AlertState Value)
  resolved : List (AlertState Value)

def evaluateRule (m : Metrics Value) (now : Time) (pass : Pass Value) (r : AlertRule) :
    Pass Value :=
  match pass.state r.id with
  | none => pass
  | some st =>
      let next := evaluateState sc m now r st
      ⟨Function.update pass.state r.id (some next.1), pass.firing ++ next.2.1,
        pass.resolved ++ next.2.2⟩

def evaluatePass (m : Metrics Value) (now : Time) (a : Alerts Value) : Pass Value :=
  a.rules.foldl (evaluateRule sc m now) ⟨a.state, [], []⟩

theorem evaluateState_rule (m : Metrics Value) (now : Time) (r : AlertRule)
    (st : AlertState Value) : (evaluateState sc m now r st).1.rule = st.rule := by
  unfold evaluateState advance
  simp only
  split
  · split
    · split
      · rfl
      · split
        · rfl
        · split
          · rfl
          · rfl
    · rfl
  · rfl

theorem evaluateRule_of_some {m : Metrics Value} {now : Time} {pass : Pass Value} {r : AlertRule}
    {st : AlertState Value} (found : pass.state r.id = some st) :
    evaluateRule sc m now pass r =
      ⟨Function.update pass.state r.id (some (evaluateState sc m now r st).1),
        pass.firing ++ (evaluateState sc m now r st).2.1,
        pass.resolved ++ (evaluateState sc m now r st).2.2⟩ := by
  unfold evaluateRule
  rw [found]

theorem evaluateRule_isSome (m : Metrics Value) (now : Time) (pass : Pass Value) (r : AlertRule)
    (id : String) :
    ((evaluateRule sc m now pass r).state id).isSome = (pass.state id).isSome := by
  cases found : pass.state r.id with
  | none =>
      unfold evaluateRule
      rw [found]
  | some st =>
      simp only [evaluateRule_of_some sc found]
      by_cases same : id = r.id
      · rw [same, found, Function.update_self]
        rfl
      · rw [Function.update_of_ne same]

theorem evaluateRule_own {m : Metrics Value} {now : Time} {pass : Pass Value} (r : AlertRule)
    (own : ∀ id st, pass.state id = some st → st.rule.id = id) :
    ∀ id st, (evaluateRule sc m now pass r).state id = some st → st.rule.id = id := by
  intro id st stored
  cases found : pass.state r.id with
  | none =>
      unfold evaluateRule at stored
      rw [found] at stored
      exact own id st stored
  | some before =>
      simp only [evaluateRule_of_some sc found] at stored
      by_cases same : id = r.id
      · rw [same, Function.update_self] at stored
        rw [← Option.some.inj stored, evaluateState_rule, same]
        exact own r.id before found
      · rw [Function.update_of_ne same] at stored
        exact own id st stored

/-- Every pass keeps which IDs have a state, and that each is the state of its own rule. -/
theorem evaluatePass_keeps (m : Metrics Value) (now : Time) (a : Alerts Value) :
    (∀ id, ((evaluatePass sc m now a).state id).isSome = (a.state id).isSome) ∧
      ∀ id st, (evaluatePass sc m now a).state id = some st → st.rule.id = id := by
  have kept : ∀ (rules : List AlertRule) (pass : Pass Value),
      (∀ id st, pass.state id = some st → st.rule.id = id) →
        (∀ id, ((rules.foldl (evaluateRule sc m now) pass).state id).isSome =
          (pass.state id).isSome) ∧
        ∀ id st, (rules.foldl (evaluateRule sc m now) pass).state id = some st →
          st.rule.id = id := by
    intro rules
    induction rules with
    | nil =>
        intro pass own
        exact ⟨fun _ => rfl, own⟩
    | cons r rest ih =>
        intro pass own
        obtain ⟨sameIDs, ownLater⟩ := ih _ (evaluateRule_own sc r own)
        refine ⟨fun id => ?_, ownLater⟩
        rw [List.foldl_cons, sameIDs, evaluateRule_isSome]
  exact kept a.rules _ a.own

/-- The next states, the newly firing and the newly resolved alerts. -/
def evaluate (m : Metrics Value) (now : Time) (a : Alerts Value) :
    Alerts Value × List (AlertState Value) × List (AlertState Value) :=
  (⟨a.rules, (evaluatePass sc m now a).state,
      fun r member => ((evaluatePass_keeps sc m now a).1 r.id).trans (a.known r member),
      (evaluatePass_keeps sc m now a).2⟩,
    (evaluatePass sc m now a).firing, (evaluatePass sc m now a).resolved)

end Evaluation

/-! ## Registering rules -/

section Registration

variable {Value : Type} [Zero Value]

def newAlerts : Alerts Value where
  rules := []
  state := fun _ => none
  known := by
    intro r member
    cases member
  own := by
    intro id st stored
    cases stored

/-- The state of a rule that was never evaluated. -/
def firstState (r : AlertRule) : AlertState Value := ⟨r, false, ⟨0⟩, ⟨0⟩, 0⟩

def addRule (a : Alerts Value) (r : AlertRule) : Alerts Value where
  rules := a.rules ++ [r]
  state := Function.update a.state r.id (some (firstState r))
  known := by
    intro r' member
    by_cases same : r'.id = r.id
    · rw [same, Function.update_self]
      rfl
    · rw [Function.update_of_ne same]
      rcases List.mem_append.mp member with old | new
      · exact a.known r' old
      · exact absurd (congrArg AlertRule.id (List.mem_singleton.mp new)) same
  own := by
    intro id st stored
    by_cases same : id = r.id
    · rw [same, Function.update_self] at stored
      rw [← Option.some.inj stored, same]
      rfl
    · rw [Function.update_of_ne same] at stored
      exact a.own id st stored

/-- The alerts after the rules were added one after another. -/
def register (rules : List AlertRule) : Alerts Value := rules.foldl addRule newAlerts

theorem rules_foldl_addRule (rules : List AlertRule) (a : Alerts Value) :
    (rules.foldl addRule a).rules = a.rules ++ rules := by
  induction rules generalizing a with
  | nil => exact (List.append_nil _).symm
  | cons r rest ih =>
      rw [List.foldl_cons, ih]
      exact List.append_assoc a.rules [r] rest

theorem state_foldl_other {rules : List AlertRule} {id : String} (a : Alerts Value)
    (other : ∀ r ∈ rules, r.id ≠ id) : (rules.foldl addRule a).state id = a.state id := by
  induction rules generalizing a with
  | nil => rfl
  | cons r rest ih =>
      rw [List.foldl_cons, ih _ fun r' member => other r' (List.mem_cons_of_mem _ member)]
      exact Function.update_of_ne (other r List.mem_cons_self).symm _ _

/-- Every registered rule starts in its first state. -/
theorem state_foldl_addRule {rules : List AlertRule} {r : AlertRule} (a : Alerts Value)
    (distinct : (rules.map AlertRule.id).Nodup) (member : r ∈ rules) :
    (rules.foldl addRule a).state r.id = some (firstState r) := by
  induction rules generalizing a with
  | nil => cases member
  | cons head rest ih =>
      obtain ⟨notLater, distinctRest⟩ := List.nodup_cons.mp distinct
      rcases List.mem_cons.mp member with rfl | later
      · rw [List.foldl_cons, state_foldl_other]
        · exact Function.update_self _ _ _
        · intro r' isLater same
          exact notLater (same ▸ List.mem_map_of_mem isLater)
      · exact ih _ distinctRest later

end Registration

end MiniCloud.Obs
