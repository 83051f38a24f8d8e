import MiniCloud.Mq.Fate

/-!
# How often a message is delivered

As long as one group subscribes to a topic and its messages are published without a
retry counter of their own, the group sees the topic as if it were alone, and the
fates of the messages are kept: a message that keeps failing is delivered
`MaxRetries + 1` times and then is dead.
-/

namespace MiniCloud.Mq

open MiniCloud.Library (execute Guarded)

/-! ## One group on the topic -/

section Single

variable (name group : String)

/-- Messages are published to the topic without a header `retries`, and only the group
subscribes to it. -/
def Single (_ : World) : Act → Prop
  | .publish ofTopic _ _ headers => ofTopic = name → headers.lookup "retries" = none
  | .subscribe ofTopic ofGroup => ofTopic = name → ofGroup = group
  | _ => True

instance (w : World) (act : Act) : Decidable (Single name group w act) :=
  match act with
  | .publish _ _ _ _ | .subscribe _ _ => inferInstanceAs (Decidable (_ → _))
  | .dlq _ | .proceed _ _ | .receive _ => inferInstanceAs (Decidable True)

/-- The same of the calls that are under way. -/
def Task.Single : Task → Prop
  | .create ofTopic (.publish _ _ headers) | .append ofTopic _ _ headers =>
      ofTopic = name → headers.lookup "retries" = none
  | .create ofTopic (.subscribe ofGroup) | .enroll ofTopic ofGroup
  | .subscriber ofTopic ofGroup _ _ => ofTopic = name → ofGroup = group
  | _ => True

def Event.deadOf : Event → Option Nat
  | .dead mv => some mv
  | _ => none

/-- The messages of the topic have their fates, and its dead letters are those of the
group. -/
structure Bounded (limit : Nat) (w : World) : Prop where
  tasks : ∀ task ∈ w.tasks, task.Single name group
  kept : Kept limit (w.solo name group)
  dlq : (w.broker.topic name).dlq = (w.view name group).filterMap Event.deadOf

end Single

section Bounded

variable {name group : String} {limit : Nat} {w next : World} {act : Act}

theorem single_next {ofTopic : String} {call : Call}
    (single : (Task.create ofTopic call).Single name group) :
    (call.next ofTopic).Single name group := by
  cases call with
  | publish key value headers => exact single
  | subscribe ofGroup => exact single

theorem single_steps (tasks : ∀ task ∈ w.tasks, task.Single name group)
    (single : Single name group w act) (steps : Steps w act next) :
    ∀ task ∈ next.tasks, task.Single name group := by
  cases steps with
  | publish topic key value headers => exact Library.each_concat tasks single
  | subscribe topic ofGroup => exact Library.each_concat tasks single
  | dlq topic => exact Library.each_concat tasks trivial
  | receive full => exact tasks
  | create current unlocked =>
      exact Library.each_set tasks (single_next (tasks _ (List.mem_of_getElem? current)))
  | append current found => exact Library.each_set tasks trivial
  | countPublished current => exact Library.each_set tasks trivial
  | enroll current found =>
      have enrolls := tasks _ (List.mem_of_getElem? current)
      exact Library.each_concat (Library.each_set tasks trivial) enrolls
  | deliver current found delivers =>
      have subscribed := tasks _ (List.mem_of_getElem? current)
      exact Library.each_set tasks subscribed
  | panic current found panicked => exact tasks
  | readChannel current found => exact Library.each_set tasks trivial
  | missChannel current missing => exact Library.each_set tasks trivial
  | makeChannel current => exact Library.each_set tasks trivial

/-- No other group is there to retry a delivery. -/
theorem not_disturbs {task : Task} (single : task.Single name group) :
    task.disturbs name group = false := by
  cases task with
  | subscriber ofTopic ofGroup stage ch =>
      by_cases mine : ofTopic = name
      · simp [Task.disturbs, single mine]
      · simp [Task.disturbs, mine]
  | _ => rfl

theorem spares_of_single (tasks : ∀ task ∈ w.tasks, task.Single name group) (act : Act) :
    Spares name group w act := by
  cases act with
  | proceed i err =>
      change (w.tasks[i]?).all (fun task => !task.disturbs name group) = true
      rw [Option.all_eq_true]
      intro task current
      rw [not_disturbs (tasks task (List.mem_of_getElem? current))]
      rfl
  | _ => trivial

/-- What the group is given has no header `retries`. -/
theorem input_plain (tasks : ∀ task ∈ w.tasks, task.Single name group) {input : SoloAct}
    (isInput : w.input name group act = some input) :
    ∀ message, input.message = some message → message.2.2.lookup "retries" = none := by
  intro message published
  unfold World.input at isInput
  split at isInput
  · split at isInput
    · rename_i current
      split at isInput
      · rename_i mine
        cases isInput
        cases published
        exact tasks _ (List.mem_of_getElem? current) mine
      · cases isInput
    · split at isInput
      · cases isInput
        cases published
      · cases isInput
    · split at isInput
      · cases isInput
        cases published
      · cases isInput
    · cases isInput
  · cases isInput

theorem kept_world (small : limit < 10 ^ 16) (bounded : Bounded name group limit w)
    (steps : Steps w act next) : Kept limit (next.solo name group) := by
  have follows : Follows name group w act next :=
    follows_steps (spares_of_single bounded.tasks act) steps
  rcases follows.cases with ⟨_, same⟩ | ⟨input, isInput, stepped⟩
  · rw [same]
    exact bounded.kept
  · exact kept_steps small bounded.kept (input_plain bounded.tasks isInput)
      (Solo.steps_of_step stepped)

theorem dlq_putLane (tp : Topic) (ofGroup : String) (lane : Lane) (err : Bool) (stage : Stage) :
    (tp.putLane ofGroup lane stage).dlq =
      tp.dlq ++ ((tp.lane ofGroup).events err stage).filterMap Event.deadOf := by
  cases stage with
  | burying mv => rfl
  | _ => exact (List.append_nil _).symm

theorem dlq_steps (bounded : Bounded name group limit w) (steps : Steps w act next) :
    (next.broker.topic name).dlq = (next.view name group).filterMap Event.deadOf := by
  cases steps with
  | create current unlocked =>
      simp only [World.move, Broker.topic_getOrCreateTopic]
      exact bounded.dlq
  | append current found =>
      refine Eq.trans (Broker.topic_insert_congr Topic.dlq found rfl ?_) bounded.dlq
      exact fun _ => rfl
  | enroll current found =>
      refine Eq.trans (Broker.topic_insert_congr Topic.dlq found rfl ?_) bounded.dlq
      exact fun _ => Topic.dlq_enroll _ _
  | @deliver i err ofTopic ofGroup stage after ch tp lane current found delivers =>
      have single := bounded.tasks _ (List.mem_of_getElem? current)
      rw [view_delivered, List.filterMap_append, ← bounded.dlq]
      by_cases mine : ofTopic = name
      · subst mine
        rw [if_pos ⟨rfl, single rfl⟩, Broker.topic_of_lookup found, ← dlq_putLane tp ofGroup lane]
        exact congrArg Topic.dlq (Broker.topic_insert_self rfl)
      · rw [if_neg fun both => mine both.1, List.filterMap_nil, List.append_nil]
        exact congrArg Topic.dlq (Broker.topic_insert_ne rfl (Ne.symm mine))
  | _ => exact bounded.dlq

theorem bounded_steps (small : limit < 10 ^ 16) (bounded : Bounded name group limit w)
    (single : Single name group w act) (steps : Steps w act next) :
    Bounded name group limit next :=
  ⟨single_steps bounded.tasks single steps, kept_world small bounded steps,
    dlq_steps bounded steps⟩

end Bounded

theorem count_deadOf (events : List Event) (m : Nat) :
    (events.filterMap Event.deadOf).count m = events.count (.dead m) := by
  rw [List.count_filterMap]
  refine List.countP_congr fun event _ => ?_
  cases event with
  | dead mv => simp [Event.deadOf]
  | _ => simp [Event.deadOf]

section World

variable {name group : String} {limit : Nat} {w : World}

theorem mem_workers {stage : Stage} :
    stage ∈ (w.solo name group).workers ↔ ∃ ch, .subscriber name group stage ch ∈ w.tasks := by
  constructor
  · intro member
    obtain ⟨task, inTasks, selected⟩ := List.mem_filterMap.mp member
    cases task with
    | subscriber ofTopic ofGroup ofStage ch =>
        by_cases mine : ofTopic = name ∧ ofGroup = group
        · obtain ⟨rfl, rfl⟩ := mine
          rw [Task.worker, if_pos ⟨rfl, rfl⟩] at selected
          cases selected
          exact ⟨ch, inTasks⟩
        · rw [Task.worker, if_neg mine] at selected
          cases selected
    | _ => cases selected
  · rintro ⟨ch, inTasks⟩
    exact List.mem_filterMap.mpr ⟨_, inTasks, if_pos ⟨rfl, rfl⟩⟩

theorem opened_maxRetries (positive : 1 ≤ limit) (small : limit < 10 ^ 16) :
    (Broker.opened (Int64.ofNat limit)).maxRetries = Int64.ofNat limit := by
  refine if_neg ?_
  intro zero
  have value := toInt_ofNat_small small
  rw [zero] at value
  have isZero : (0 : Int64).toInt = 0 := rfl
  omega

theorem bounded_start (positive : 1 ≤ limit) (small : limit < 10 ^ 16) :
    Bounded name group limit (World.start (Int64.ofNat limit)) where
  tasks := fun _ member => absurd member List.not_mem_nil
  kept := by
    have fresh : (World.start (Int64.ofNat limit)).solo name group =
        Solo.fresh (Int64.ofNat limit) := Solo.ext (opened_maxRetries positive small) rfl rfl rfl
    rw [fresh]
    exact kept_fresh limit
  dlq := rfl

end World

/-- One group on a topic, any number of its subscribers, any results of the handler, any
schedule: a message is delivered at most `MaxRetries + 1` times, acked at most once,
dead at most once and never both, and it is dead when its first `MaxRetries + 1`
deliveries all failed, as soon as the subscriber that has it has called `toDLQ`.  No
subscriber of the topic panics on the way. -/
theorem redelivery_bounded {limit : Nat} {name group : String} {acts : List Act} {w : World}
    (positive : 1 ≤ limit) (small : limit < 10 ^ 16)
    (reached : execute World.step (World.start (Int64.ofNat limit)) acts = some w)
    (single : Guarded World.step (Single name group) (World.start (Int64.ofNat limit)) acts)
    (m : Nat) :
    deliveries (w.view name group) m ≤ limit + 1 ∧
    (w.view name group).count (.acked m) + (w.broker.topic name).dlq.count m ≤ 1 ∧
    (m ∈ (w.broker.topic name).dlq → AllFailed limit (results (w.view name group) m)) ∧
    (AllFailed limit (results (w.view name group) m) →
      m ∈ (w.broker.topic name).dlq ∨
      ∃ stage ch, .subscriber name group stage ch ∈ w.tasks ∧
        stage.Dooms w.broker.maxRetries ((w.broker.topic name).lane group) m) ∧
    ∀ stage ch err, .subscriber name group stage ch ∈ w.tasks →
      ((w.broker.topic name).lane group).deliver w.broker.maxRetries err stage ≠ none := by
  have bounded : Bounded name group limit w :=
    Library.invariant_of_guarded World.step (Bounded name group limit)
      (fun _ _ _ held guard stepped => bounded_steps small held guard (steps_of_step stepped))
      (bounded_start positive small) single reached
  have fate := bounded.kept.fates m
  have deadCount : (w.broker.topic name).dlq.count m = (w.view name group).count (.dead m) := by
    rw [bounded.dlq, count_deadOf]
  have deadIff : m ∈ (w.broker.topic name).dlq ↔ .dead m ∈ w.view name group := by
    rw [← List.count_pos_iff, deadCount, List.count_pos_iff]
  refine ⟨fate.deliveries_le, ?_, ?_, ?_, ?_⟩
  · have place : _ + _ + (w.view name group).count (.acked m) +
        (w.view name group).count (.dead m) = _ := fate.place
    have atMost := Bool.toNat_le (decide (m < (w.solo name group).lane.messages.length))
    rw [deadCount]
    omega
  · intro isDead
    exact (fate.dead (deadIff.mp isDead)).allFailed
  · intro allFailed
    rcases fate.dead_of_allFailed small allFailed with dead | ⟨stage, member, dooms⟩
    · exact Or.inl (deadIff.mpr dead)
    · obtain ⟨ch, inTasks⟩ := mem_workers.mp member
      refine Or.inr ⟨stage, ch, inTasks, ?_⟩
      rw [← bounded.kept.maxRetries] at dooms
      exact dooms
  · intro stage ch err inTasks
    exact bounded.kept.goesOn small (mem_workers.mpr ⟨ch, inTasks⟩) err

/-- A message is published to `t`, a subscriber joins the group `g`, and its handler
fails twice. -/
def failsTwice : List Act :=
  [.publish "t" "k" [1] ∅, .proceed 0 false, .proceed 0 false, .proceed 0 false,
    .subscribe "t" "g", .proceed 1 false, .proceed 1 false] ++
  List.replicate 13 (.proceed 2 true)

theorem redelivery_bounded_of_failures :
    ∃ w, execute World.step (World.start 1) failsTwice = some w ∧
      deliveries (w.view "t" "g") 0 ≤ 2 ∧ (w.view "t" "g").count (.acked 0) = 0 ∧
      (w.broker.topic "t").dlq = [0] ∧ AllFailed 1 (results (w.view "t" "g") 0) := by
  obtain ⟨w, reached, dlq⟩ :=
    Library.exists_of_execute_test World.step (World.start 1) failsTwice
      (fun w => (w.broker.topic "t").dlq = [0]) (by decide +kernel)
  have single : Guarded World.step (Single "t" "g") (World.start (Int64.ofNat 1)) failsTwice :=
    Library.guarded_of_check World.step (by decide +kernel)
  obtain ⟨bound, once, allFailed, _⟩ :=
    redelivery_bounded (show 1 ≤ 1 from Nat.le_refl 1) (by decide) reached single 0
  rw [dlq] at once allFailed
  have notAcked : (w.view "t" "g").count (.acked 0) = 0 := by
    have isOne : [0].count 0 = 1 := rfl
    omega
  exact ⟨w, reached, bound, notAcked, dlq, allFailed (List.mem_singleton_self 0)⟩

end MiniCloud.Mq
