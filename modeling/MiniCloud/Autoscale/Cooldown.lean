import MiniCloud.Autoscale.Bounds

/-!
# The cooldown between changes

The passes of the controller are taken apart into the evaluations of their specs, with
calls on the registry, the store and the policies at any point between them.  The clock is
read twice by an evaluation that changes a workload, when the cooldown is checked and when
the change is recorded, and it never goes back.

The table of the last changes has an entry for every workload that was changed, which is
not older than the change: a workload with the same text can only make it younger, and
replacing or removing a policy leaves it alone.
-/

namespace MiniCloud.Autoscale

open MiniCloud.Library
open MiniCloud.State
open MiniCloud.Obs (Metrics RegistryCall)

/-! ## Runs -/

/-- A change of a workload, with the policy that the pass has applied and the one that the table
had for the workload at the time. -/
structure Change (Value : Type) where
  pair : Pair
  applied : Policy Value
  inForce : Option (Policy Value)
  checked : Time
  changed : Time

/-- The controller, with the specs that are left in the current pass and the changes so far. -/
structure Scaler (Value : Type) where
  system : System Value
  pending : List (Spec Value)
  clock : Time
  changes : List (Change Value)

/-- Calls of others, the start of a pass, and the evaluation of its next spec. -/
inductive Event (Value : Type) where
  | record (call : RegistryCall Value)
  | setPolicy (pair : Pair) (p : Policy Value)
  | removePolicy (pair : Pair)
  | saveWorkload (w : Workload)
  | deleteWorkload (pair : Pair)
  | begin (order : List String)
  | one (answers : Answers)

section Runs

variable {Value : Type}

/-- The clock has not gone back when an evaluation reads it. -/
def InTime (clock : Time) (answers : Answers) : Prop :=
  clock.ns ≤ answers.checked.ns ∧ answers.checked.ns ≤ answers.changed.ns

instance (clock : Time) (answers : Answers) : Decidable (InTime clock answers) :=
  inferInstanceAs (Decidable (_ ∧ _))

/-- The changes that an evaluation has added to the counts that were written. -/
def newChanges (answers : Answers) (before after : System Value) (s : Spec Value) :
    List (Change Value) :=
  (after.written.drop before.written.length).map fun entry =>
    ⟨entry.1, s.policy, (before.controller.specs.lookup (specKey entry.1)).map Spec.policy,
      answers.checked, answers.changed⟩

/-- A new controller over a registry and a store. -/
def newScaler (metrics : Metrics Value) (store : Store) (clock : Time) : Scaler Value :=
  ⟨⟨⟨∅, ∅⟩, metrics, store, []⟩, [], clock, []⟩

/-- The policies are set and removed between the passes. -/
def BetweenPasses (sc : Scaler Value) : Event Value → Prop
  | .setPolicy _ _ => sc.pending = []
  | .removePolicy _ => sc.pending = []
  | _ => True

instance (sc : Scaler Value) (event : Event Value) : Decidable (BetweenPasses sc event) :=
  match event with
  | .setPolicy _ _ => inferInstanceAs (Decidable (sc.pending = []))
  | .removePolicy _ => inferInstanceAs (Decidable (sc.pending = []))
  | .record _ | .saveWorkload _ | .deleteWorkload _ | .begin _ | .one _ => isTrue trivial

variable [Zero Value] [Add Value] [Div Value] [NatCast Value] [LT Value] [DecidableLT Value]

/-- The next spec of the pass is evaluated. -/
def Scaler.evaluated (sc : Scaler Value) (s : Spec Value) (rest : List (Spec Value))
    (answers : Answers) : Scaler Value where
  system := evaluateOne answers sc.system s
  pending := rest
  clock := answers.changed
  changes := sc.changes ++ newChanges answers sc.system (evaluateOne answers sc.system s) s

variable [LE Value] [DecidableLE Value]

/-- A pass starts when the one before it is over. -/
def Scaler.step (sc : Scaler Value) : Event Value → Option (Scaler Value)
  | .record call => some { sc with system := sc.system.next (.record call) }
  | .setPolicy pair p => some { sc with system := sc.system.next (.setPolicy pair p) }
  | .removePolicy pair => some { sc with system := sc.system.next (.removePolicy pair) }
  | .saveWorkload w => some { sc with system := sc.system.next (.saveWorkload w) }
  | .deleteWorkload pair => some { sc with system := sc.system.next (.deleteWorkload pair) }
  | .begin order =>
      match sc.pending with
      | [] => some { sc with pending := order.filterMap sc.system.controller.specs.lookup }
      | _ => none
  | .one answers =>
      match sc.pending with
      | [] => none
      | s :: rest => if InTime sc.clock answers then some (sc.evaluated s rest answers) else none

theorem step_begin {sc next : Scaler Value} {order : List String}
    (stepped : sc.step (.begin order) = some next) :
    next = { sc with pending := order.filterMap sc.system.controller.specs.lookup } := by
  simp only [Scaler.step] at stepped
  split at stepped
  · exact (Option.some.inj stepped).symm
  · cases stepped

theorem step_one {sc next : Scaler Value} {answers : Answers}
    (stepped : sc.step (.one answers) = some next) :
    ∃ s rest, sc.pending = s :: rest ∧ InTime sc.clock answers ∧
      next = sc.evaluated s rest answers := by
  simp only [Scaler.step] at stepped
  split at stepped
  · cases stepped
  · rename_i s rest isPending
    by_cases inTime : InTime sc.clock answers
    · rw [if_pos inTime] at stepped
      exact ⟨s, rest, isPending, inTime, (Option.some.inj stepped).symm⟩
    · rw [if_neg inTime] at stepped
      cases stepped

end Runs

/-! ## Changes and their times -/

section Times

variable {Value : Type}

/-- The second change was checked a cooldown after the first one was recorded. -/
def Cooled (first second : Change Value) : Prop :=
  first.pair = second.pair →
    second.applied.cooldown.toInt ≤ second.checked.ns - first.changed.ns

/-- Every change is in the table of the last changes or has a younger one in its place, no entry
of the table is in the future, and the changes are a cooldown apart. -/
structure Paced (sc : Scaler Value) : Prop where
  recorded : ∀ c ∈ sc.changes, ∃ last,
    sc.system.controller.lastAton.lookup (specKey c.pair) = some last ∧ c.changed.ns ≤ last.ns
  past : ∀ key last, sc.system.controller.lastAton.lookup key = some last → last.ns ≤ sc.clock.ns
  spaced : sc.changes.Pairwise Cooled

variable {sc : Scaler Value}

theorem paced_new (metrics : Metrics Value) (store : Store) (clock : Time) :
    Paced (newScaler metrics store clock) where
  recorded := fun c member => by cases member
  past := fun key last found => by cases found
  spaced := List.Pairwise.nil

/-- Calls that leave the table alone keep the times as they are. -/
theorem Paced.frame (paced : Paced sc) {system : System Value} {pending : List (Spec Value)}
    (same : system.controller.lastAton = sc.system.controller.lastAton) :
    Paced { sc with system := system, pending := pending } := by
  constructor
  · simp only [same]
    exact paced.recorded
  · simp only [same]
    exact paced.past
  · exact paced.spaced

/-- A change that the cooldown allows is spaced from every earlier one of the workload. -/
theorem Paced.cooled (paced : Paced sc) {new : Change Value}
    (forward : sc.clock.ns ≤ new.checked.ns)
    (ready : new.applied.cooldown.toInt ≤
      new.checked.sub (lastChange sc.system.controller new.pair)) :
    ∀ c ∈ sc.changes, Cooled c new := by
  intro c member same
  obtain ⟨last, found, younger⟩ := paced.recorded c member
  have isPast := paced.past _ last found
  rw [same] at found
  rw [lastChange, found, Option.getD_some, Time.le_sub_iff (isPast.trans forward)] at ready
  omega

/-- The change is written over the entry of its text, which was older. -/
theorem Paced.change (paced : Paced sc) {new : Change Value} {after : System Value}
    (forward : sc.clock.ns ≤ new.checked.ns) (ordered : new.checked.ns ≤ new.changed.ns)
    (table : after.controller.lastAton =
      sc.system.controller.lastAton.insert (specKey new.pair) new.changed)
    (ready : new.applied.cooldown.toInt ≤
      new.checked.sub (lastChange sc.system.controller new.pair))
    (pending : List (Spec Value)) :
    Paced ⟨after, pending, new.changed, sc.changes ++ [new]⟩ := by
  have advanced : sc.clock.ns ≤ new.changed.ns := forward.trans ordered
  constructor
  · intro c member
    simp only [table]
    by_cases same : specKey c.pair = specKey new.pair
    · refine ⟨new.changed, by rw [same, AList.lookup_insert], ?_⟩
      rcases List.mem_append.mp member with earlier | isNew
      · obtain ⟨last, found, younger⟩ := paced.recorded c earlier
        exact (younger.trans (paced.past _ last found)).trans advanced
      · cases List.mem_singleton.mp isNew
        exact le_refl _
    · rw [AList.lookup_insert_ne same]
      rcases List.mem_append.mp member with earlier | isNew
      · exact paced.recorded c earlier
      · cases List.mem_singleton.mp isNew
        exact absurd rfl same
  · intro key last found
    simp only [table] at found
    by_cases same : key = specKey new.pair
    · rw [same, AList.lookup_insert] at found
      cases found
      exact le_refl _
    · rw [AList.lookup_insert_ne same] at found
      exact (paced.past key last found).trans advanced
  · refine List.pairwise_append.mpr ⟨paced.spaced, List.pairwise_singleton _ _, ?_⟩
    intro c member other isNew
    cases List.mem_singleton.mp isNew
    exact paced.cooled forward ready c member

end Times

section Evaluations

variable {Value : Type} [Zero Value] [Add Value] [Div Value] [NatCast Value] [LT Value]
  [DecidableLT Value]

/-- The change that an evaluation would log. -/
def changeOf (answers : Answers) (sys : System Value) (s : Spec Value) : Change Value :=
  ⟨s.pair, s.policy, (sys.controller.specs.lookup (specKey s.pair)).map Spec.policy,
    answers.checked, answers.changed⟩

/-- The evaluation of a spec makes no change, or one that the cooldown allows. -/
theorem evaluateOne_change (answers : Answers) (sys : System Value) (s : Spec Value) :
    (evaluateOne answers sys s = sys ∧ newChanges answers sys (evaluateOne answers sys s) s = []) ∨
      ((evaluateOne answers sys s).controller.lastAton =
          sys.controller.lastAton.insert (specKey s.pair) answers.changed ∧
        newChanges answers sys (evaluateOne answers sys s) s = [changeOf answers sys s] ∧
        s.policy.cooldown.toInt ≤ answers.checked.sub (lastChange sys.controller s.pair)) := by
  rcases evaluateOne_cases answers sys s with
    ⟨same, _⟩ | ⟨w, replicas, read, _, changes, result⟩
  · refine .inl ⟨same, ?_⟩
    rw [same, newChanges, List.drop_length, List.map_nil]
  · obtain ⟨isPair, _⟩ := pairOf_of_read read
    obtain ⟨ready, _, _⟩ := change_eq_some_iff.mp changes
    have own : pairOf { w with replicas := replicas } = s.pair := isPair
    rw [isPair] at ready
    rw [result]
    refine .inr ⟨?_, ?_, ready⟩
    · rw [System.rescale, own]
    · rw [newChanges, System.rescale, List.drop_left, own]
      rfl

theorem Paced.evaluated {sc : Scaler Value} (paced : Paced sc) {s : Spec Value}
    {rest : List (Spec Value)} {answers : Answers} (inTime : InTime sc.clock answers) :
    Paced (sc.evaluated s rest answers) := by
  unfold Scaler.evaluated
  rcases evaluateOne_change answers sc.system s with ⟨same, unchanged⟩ | ⟨table, isNew, ready⟩
  · rw [unchanged, same, List.append_nil]
    have advanced := inTime.1.trans inTime.2
    exact ⟨paced.recorded, fun key last found => (paced.past key last found).trans advanced,
      paced.spaced⟩
  · rw [isNew]
    exact @Paced.change _ sc paced (changeOf answers sc.system s) _ inTime.1 inTime.2 table ready rest

variable [LE Value] [DecidableLE Value]

/-- Every step keeps the changes apart. -/
theorem Paced.step {sc next : Scaler Value} {event : Event Value} (paced : Paced sc)
    (stepped : sc.step event = some next) : Paced next := by
  cases event with
  | record call =>
      cases stepped
      exact paced.frame rfl
  | setPolicy pair p =>
      cases stepped
      exact paced.frame rfl
  | removePolicy pair =>
      cases stepped
      exact paced.frame rfl
  | saveWorkload w =>
      cases stepped
      exact paced.frame rfl
  | deleteWorkload pair =>
      cases stepped
      exact paced.frame rfl
  | begin order =>
      rw [step_begin stepped]
      exact paced.frame rfl
  | one answers =>
      obtain ⟨s, rest, _, inTime, rfl⟩ := step_one stepped
      exact paced.evaluated inTime

end Evaluations

/-! ## The policy in force -/

section Policies

variable {Value : Type}

/-- The specs are under their own texts, those left in the pass are still in the table, and every
change was made with the policy in the table. -/
structure Current (sc : Scaler Value) : Prop where
  filed : Filed Set.univ sc.system.controller.specs
  pending : ∀ s ∈ sc.pending, sc.system.controller.specs.lookup (specKey s.pair) = some s
  inForce : ∀ c ∈ sc.changes, c.inForce = some c.applied

variable {sc : Scaler Value}

theorem current_new (metrics : Metrics Value) (store : Store) (clock : Time) :
    Current (newScaler metrics store clock) where
  filed := fun key s found => by cases found
  pending := fun s member => by cases member
  inForce := fun c member => by cases member

theorem Current.frame (current : Current sc) {system : System Value}
    (same : system.controller.specs = sc.system.controller.specs) :
    Current { sc with system := system } := by
  obtain ⟨filed, pending, inForce⟩ := current
  exact ⟨by simpa only [same] using filed, by simpa only [same] using pending, inForce⟩

/-- Between the passes the table can be changed. -/
theorem Current.policies (current : Current sc) {system : System Value} (idle : sc.pending = [])
    (filed : Filed Set.univ system.controller.specs) : Current { sc with system := system } := by
  refine ⟨filed, ?_, current.inForce⟩
  intro s member
  rw [idle] at member
  cases member

theorem Current.begin (current : Current sc) (order : List String) :
    Current { sc with pending := order.filterMap sc.system.controller.specs.lookup } := by
  refine ⟨current.filed, ?_, current.inForce⟩
  intro s member
  obtain ⟨key, _, found⟩ := List.mem_filterMap.mp member
  rw [← (current.filed key s found).1]
  exact found

variable [Zero Value] [Add Value] [Div Value] [NatCast Value] [LT Value] [DecidableLT Value]

theorem Current.evaluated (current : Current sc) {s : Spec Value} {rest : List (Spec Value)}
    (isPending : sc.pending = s :: rest) (answers : Answers) :
    Current (sc.evaluated s rest answers) := by
  obtain ⟨_, sameSpecs⟩ := evaluateOne_frame answers sc.system s
  have inTable := current.pending s (isPending ▸ List.mem_cons_self)
  unfold Scaler.evaluated
  refine ⟨?_, ?_, ?_⟩
  · simp only [sameSpecs]
    exact current.filed
  · simp only [sameSpecs]
    intro other member
    exact current.pending other (isPending ▸ List.mem_cons_of_mem s member)
  · intro c member
    rcases List.mem_append.mp member with earlier | isNew
    · exact current.inForce c earlier
    rcases evaluateOne_change answers sc.system s with ⟨_, unchanged⟩ | ⟨_, newOne, _⟩
    · rw [unchanged] at isNew
      cases isNew
    · rw [newOne] at isNew
      cases List.mem_singleton.mp isNew
      simp only [changeOf, inTable, Option.map_some]

variable [LE Value] [DecidableLE Value]

theorem Current.step {next : Scaler Value} {event : Event Value} (current : Current sc)
    (between : BetweenPasses sc event) (stepped : sc.step event = some next) : Current next := by
  cases event with
  | record call =>
      cases stepped
      exact current.frame rfl
  | setPolicy pair p =>
      cases stepped
      exact current.policies between
        (filed_insert (s := ⟨pair.1, pair.2, p⟩) current.filed (Set.mem_univ _))
  | removePolicy pair =>
      cases stepped
      exact current.policies between (filed_erase current.filed _)
  | saveWorkload w =>
      cases stepped
      exact current.frame rfl
  | deleteWorkload pair =>
      cases stepped
      exact current.frame rfl
  | begin order =>
      rw [step_begin stepped]
      exact current.begin order
  | one answers =>
      obtain ⟨s, rest, isPending, _, rfl⟩ := step_one stepped
      exact current.evaluated isPending answers

/-- Changes of one workload are the cooldown of the later one's policy apart, in every run: the
policy that its pass has applied, which is the one in the table if the policies are set and
removed between the passes. -/
theorem cooldown_respected (metrics : Metrics Value) (store : Store) (clock : Time)
    {events : List (Event Value)} {last : Scaler Value}
    (reached : execute Scaler.step (newScaler metrics store clock) events = some last) :
    last.changes.Pairwise Cooled ∧
      (Guarded Scaler.step BetweenPasses (newScaler metrics store clock) events →
        ∀ c ∈ last.changes, c.inForce = some c.applied) := by
  constructor
  · have paced := invariant_of_execute Scaler.step Paced
      (fun _ _ _ held stepped => held.step stepped) (paced_new metrics store clock) reached
    exact paced.spaced
  · intro between
    have current := invariant_of_guarded Scaler.step Current
      (fun _ _ _ held met stepped => held.step met stepped) (current_new metrics store clock)
      between reached
    exact current.inForce

end Policies

/-- No call fails, and the clock is read at the given points. -/
def readAt (checked changed : Int) : Answers :=
  ⟨none, none, [workloadMetricKey ("p", "web")], ⟨checked⟩, ⟨changed⟩⟩

/-- Three passes over a busy workload, the second one within the cooldown; before the third one the
policy is replaced. -/
def threePasses : List (Event Int) :=
  [.saveWorkload (oneReplica ("p", "web")), .record (.set (workloadMetricKey ("p", "web")) 90 ∅),
    .setPolicy ("p", "web") ⟨1, 5, 50, 1, 1, 10⟩,
    .begin ["p/web"], .one (readAt 100 101), .begin ["p/web"], .one (readAt 105 106),
    .setPolicy ("p", "web") ⟨1, 5, 50, 1, 1, 20⟩, .begin ["p/web"], .one (readAt 130 131)]

theorem cooldown_respected_three_passes :
    ∃ last, execute Scaler.step (newScaler ∅ emptyStore ⟨0⟩) threePasses = some last ∧
      last.changes.map (fun c => (c.checked.ns, c.changed.ns)) = [(100, 101), (130, 131)] ∧
      last.changes.Pairwise Cooled ∧ ∀ c ∈ last.changes, c.inForce = some c.applied := by
  obtain ⟨last, reached, times⟩ := exists_of_execute_test Scaler.step
    (newScaler ∅ emptyStore ⟨0⟩) threePasses
    (fun last => last.changes.map (fun c => (c.checked.ns, c.changed.ns)) =
      [(100, 101), (130, 131)]) (by decide +kernel)
  have between : Guarded Scaler.step BetweenPasses (newScaler ∅ emptyStore ⟨0⟩) threePasses :=
    guarded_of_check Scaler.step (by decide +kernel)
  have respected := cooldown_respected ∅ emptyStore ⟨0⟩ reached
  exact ⟨last, reached, times, respected.1, respected.2 between⟩

end MiniCloud.Autoscale
